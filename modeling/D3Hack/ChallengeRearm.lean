import D3Hack.ChallengeRift
import D3Hack.Runs

/-!
# Re-arming the challenge

The game pays a challenge's reward once: it compares the challenge with the last one that the
player was rewarded for. `openChallengeRift` and `handleChallengeRewards` rewind that number
below the number that the parser's hook remembered, so that the current challenge counts as a
new one.

`heard` lists the numbers of a run as they come in: those parsed, from the bytes of a call or
of a file, and those delivered, as they were parsed or drawn at random. `Hears` says that the
hooks remember the last parsed number and the game the last delivered one, which each call keeps
(`hears_rearmStep`). `stepsMeet_rearmed_iff` : each stock body of a run finds its players
eligible if and only if, for the numbers heard before it, the delivered challenge is the current
one and not the first, or another that is not the one before it.
-/

namespace D3Hack

open Runs

/-! ## The hooks -/

/-- `SGameGlobals`, for the challenge number: null, unreadable, or read. -/
abbrev RiftGlobals := Option (Option UInt32)

/-- `GetCurrentChallengeNumber`. -/
def getCurrentChallengeNumber (globals : RiftGlobals) (s : RiftState) : UInt32 :=
  if s.lastChallengeNumber ≠ 0 then s.lastChallengeNumber
  else
    match globals with
    | none => 1
    | some read =>
      let challengeNum := read.getD 0
      if challengeNum ≠ 0 then challengeNum else 1

/-- `rearm_value`. -/
def rearmValue (num : UInt32) : UInt32 := if 1 < num then num - 1 else 1

/-- `nLastRewardChallengeNumber` of each player. -/
abbrev LastReward := ℕ → UInt32

/-- The loop of `OpenChallengeRiftHook`. -/
def rearmAll (players : List ℕ) (value : UInt32) (last : LastReward) : LastReward :=
  players.foldl (fun last pt => if last pt ≠ value then Function.update last pt value else last)
    last

/-- `OpenChallengeRiftHook`, up to the stock body. -/
def openChallengeRift (c : PatchConfig) (globals : RiftGlobals) (players : List ℕ) (s : RiftState)
    (last : LastReward) : LastReward :=
  if c.challengeRifts.active then
    rearmAll players (rearmValue (getCurrentChallengeNumber globals s)) last
  else last

/-- `ChallengeRiftHandleChallengeRewardsHook`, up to the stock body. -/
def handleChallengeRewards (c : PatchConfig) (globals : RiftGlobals) (player : Option ℕ)
    (s : RiftState) (last : LastReward) : LastReward :=
  match player with
  | some pt =>
    if c.challengeRifts.active then
      Function.update last pt (rearmValue (getCurrentChallengeNumber globals s))
    else last
  | none => last

/-- The end of `ChallengeRiftHandleChallengeRewardsHook`, after the stock body. -/
def handleChallengeRewardsEnd (c : PatchConfig) (player : Option ℕ) (last : LastReward) :
    LastReward :=
  match player with
  | some pt => if c.challengeRifts.active then Function.update last pt 1 else last
  | none => last

/-! ## Runs -/

/-- The state of the hooks, the number delivered last, and the players. -/
structure RearmState where
  rift : RiftState
  delivered : Option UInt32 := none
  lastReward : LastReward := fun _ => 0

/-- A call of one of the hooks; `stock` is what the stock body does to the players. -/
inductive RearmEvent (W : Type) where
  | callback (c : PatchConfig) (io : Outcomes) (picks : Picks) (args : RiftDelivery W)
  | parseChallenge (c : PatchConfig) (io : Outcomes) (msg : ChallengeData) (data : Option Blob)
  | parseWeekly (c : PatchConfig) (io : Outcomes) (msg : W) (data : Option Blob)
  | openRift (c : PatchConfig) (globals : RiftGlobals) (players : List ℕ)
      (stock : LastReward → LastReward)
  | handleRewards (c : PatchConfig) (globals : RiftGlobals) (player : Option ℕ)
      (stock : LastReward → LastReward)

variable {W : Type} (proto : RiftProto W)

/-- What a call does to the state. -/
def rearmStep (s : RearmState) : RearmEvent W → RearmState
  | .callback c io picks args =>
    let (args, rift) := challengeRiftCallback proto c io picks args s.rift
    { s with rift, delivered := (args.conf.map ChallengeData.number).or s.delivered }
  | .parseChallenge c io msg data =>
    { s with rift := (parseChallengeHook proto c io msg data s.rift).2.2 }
  | .parseWeekly c io msg data =>
    { s with rift := (parseWeeklyHook proto c io msg data s.rift).2.2 }
  | .openRift c globals players stock =>
    { s with lastReward := stock (openChallengeRift c globals players s.rift s.lastReward) }
  | .handleRewards c globals player stock =>
    let last := stock (handleChallengeRewards c globals player s.rift s.lastReward)
    { s with lastReward := handleChallengeRewardsEnd c player last }

/-- Each player that the stock body is run for was last rewarded for another challenge than the
delivered one. -/
def Rearmed (s : RearmState) : RearmEvent W → Prop
  | .openRift c globals players _ => c.challengeRifts.active = true → ∀ pt ∈ players,
      s.delivered ≠ some (openChallengeRift c globals players s.rift s.lastReward pt)
  | .handleRewards c globals player _ => c.challengeRifts.active = true → ∀ pt ∈ player,
      s.delivered ≠ some (handleChallengeRewards c globals player s.rift s.lastReward pt)
  | _ => True

/-! ## The numbers of a run -/

/-- A challenge number that comes in: with a message that the parser's hook takes for the current
challenge, or with one that is handed to the game. -/
inductive NumberEvent where
  | parsed (num : UInt32)
  | delivered (num : UInt32)

/-- The number, if it came with a parsed message. -/
def NumberEvent.parsed? : NumberEvent → Option UInt32
  | .parsed num => some num
  | .delivered _ => none

/-- The number, if it was delivered. -/
def NumberEvent.delivered? : NumberEvent → Option UInt32
  | .parsed _ => none
  | .delivered num => some num

/-- The number of the last parsed message. -/
def lastParsed (h : List NumberEvent) : Option UInt32 := (h.filterMap NumberEvent.parsed?).getLast?

/-- The number that was delivered last. -/
def lastDelivered (h : List NumberEvent) : Option UInt32 :=
  (h.filterMap NumberEvent.delivered?).getLast?

/-- What a parse with the given result is heard as: a message that parsed, with a number. -/
def heardParse (hooked : Bool) (result : Bool × ChallengeData) : List NumberEvent :=
  if hooked && result.1 && result.2.number ≠ 0 then [.parsed result.2.number] else []

/-- The numbers that come in with a call. A callback that finds a configuration parses it and
delivers its number if it is from the cache, and a drawn one if it is from `rift_data`. -/
def numbers (s : RiftState) : RearmEvent W → List NumberEvent
  | .callback c io picks args =>
    match c.challengeRifts.active, args.conf, args.data, args.result with
    | true, some conf, some _, some _ =>
      match foundConf io s.files with
      | none => [.delivered conf.number]
      | some found =>
        let result := proto.parseChallenge conf (some found.content.bytes)
        heardParse s.hooked result ++
          [.delivered (if found.fromCache then result.2.number else .ofInt picks.number)]
    | _, _, _, _ => (args.conf.map fun conf => NumberEvent.delivered conf.number).toList
  | .parseChallenge _ _ msg (some data) =>
    heardParse s.hooked (proto.parseChallenge msg (some data.bytes))
  | _ => []

/-- The numbers that come in with the calls of a run. -/
def heard : RearmState → List (RearmEvent W) → List NumberEvent
  | _, [] => []
  | s, e :: events => numbers proto s.rift e ++ heard (rearmStep proto s e) events

/-- The number of the current challenge: the last one parsed, else that of the globals, else 1. -/
def currentNumber (globals : RiftGlobals) (h : List NumberEvent) : UInt32 :=
  match lastParsed h with
  | some num => num
  | none => if (globals.join.getD 0) ≠ 0 then globals.join.getD 0 else 1

/-- The challenge delivered last is the current one and not the first, or another one that is not
the one before it. -/
def Eligible (globals : RiftGlobals) (h : List NumberEvent) : Prop :=
  ∀ d ∈ lastDelivered h,
    if d = currentNumber globals h then d ≠ 1 else d = 0 ∨ currentNumber globals h ≠ d + 1

/-- The globals that a call reads, if its stock body is run for a player with the hook active. -/
def RearmEvent.stockGlobals : RearmEvent W → Option RiftGlobals
  | .openRift c globals players _ =>
    if c.challengeRifts.active && players ≠ [] then some globals else none
  | .handleRewards c globals player _ =>
    if c.challengeRifts.active && player.isSome then some globals else none
  | _ => none

/-! ## What the stock bodies find -/

theorem rearmAll_of_eq {players : List ℕ} {value : UInt32} {last : LastReward} {pt : ℕ}
    (h : last pt = value) : rearmAll players value last pt = value := by
  induction players generalizing last with
  | nil => exact h
  | cons p players ih =>
    rw [rearmAll, List.foldl_cons]
    refine ih ?_
    split_ifs
    · rw [Function.update_apply, h, ite_self]
    · exact h

/-- The loop gives every player of the list the value. -/
theorem rearmAll_mem {players : List ℕ} {value : UInt32} {last : LastReward} {pt : ℕ}
    (h : pt ∈ players) : rearmAll players value last pt = value := by
  induction players generalizing last with
  | nil => cases h
  | cons p players ih =>
    rw [rearmAll, List.foldl_cons]
    rcases List.mem_cons.1 h with rfl | hmem
    · refine rearmAll_of_eq ?_
      split_ifs with hvalue
      · exact Function.update_self _ _ _
      · exact not_not.1 hvalue
    · exact ih hmem

/-- A stock body finds its players eligible exactly when the number written is not the delivered
one. -/
theorem rearmed_iff (s : RearmState) (e : RearmEvent W) : Rearmed s e ↔
    ∀ globals ∈ e.stockGlobals, ∀ d ∈ s.delivered,
      d ≠ rearmValue (getCurrentChallengeNumber globals s.rift) := by
  have hne {value : UInt32} : s.delivered ≠ some value ↔ ∀ d ∈ s.delivered, d ≠ value := by
    cases s.delivered <;> simp
  cases e with
  | callback c io picks args => simp [Rearmed, RearmEvent.stockGlobals]
  | parseChallenge c io msg data => simp [Rearmed, RearmEvent.stockGlobals]
  | parseWeekly c io msg data => simp [Rearmed, RearmEvent.stockGlobals]
  | openRift c globals players stock =>
    rcases hactive : c.challengeRifts.active with _ | _
    · simp [Rearmed, RearmEvent.stockGlobals, hactive]
    have hvalue : ∀ pt ∈ players, openChallengeRift c globals players s.rift s.lastReward pt =
        rearmValue (getCurrentChallengeNumber globals s.rift) := by
      intro pt hpt
      rw [openChallengeRift, if_pos hactive, rearmAll_mem hpt]
    cases players with
    | nil => simp [Rearmed, RearmEvent.stockGlobals]
    | cons pt players =>
      have hstock : RearmEvent.stockGlobals (.openRift (W := W) c globals (pt :: players) stock) =
          some globals := by simp [RearmEvent.stockGlobals, hactive]
      simp only [Rearmed, hstock, Option.mem_some_iff, forall_eq', hactive, true_imp_iff, ← hne]
      refine ⟨fun h => ?_, fun h pt' hpt => ?_⟩
      · have hd := h pt List.mem_cons_self
        rwa [hvalue pt List.mem_cons_self] at hd
      · rwa [hvalue pt' hpt]
  | handleRewards c globals player stock =>
    rcases hactive : c.challengeRifts.active with _ | _
    · simp [Rearmed, RearmEvent.stockGlobals, hactive]
    cases player with
    | none => simp [Rearmed, RearmEvent.stockGlobals]
    | some pt =>
      have hvalue : handleChallengeRewards c globals (some pt) s.rift s.lastReward pt =
          rearmValue (getCurrentChallengeNumber globals s.rift) := by
        rw [handleChallengeRewards, if_pos hactive, Function.update_self]
      have hstock : RearmEvent.stockGlobals (.handleRewards (W := W) c globals (some pt) stock) =
          some globals := by simp [RearmEvent.stockGlobals, hactive]
      simp only [Rearmed, hstock, Option.mem_some_iff, forall_eq', hactive, true_imp_iff, hvalue,
        ← hne]

theorem getCurrentChallengeNumber_ne_zero (globals : RiftGlobals) (s : RiftState) :
    getCurrentChallengeNumber globals s ≠ 0 := by
  unfold getCurrentChallengeNumber
  split_ifs with hnum
  · exact hnum
  · cases globals with
    | none => decide
    | some read =>
      dsimp only
      split_ifs with hread
      · exact hread
      · decide

/-- The number below the current one is the delivered one where this is one less, and where both
are 1. -/
theorem ne_rearmValue_iff {d n : UInt32} (hn : n ≠ 0) :
    d ≠ rearmValue n ↔ if d = n then d ≠ 1 else d = 0 ∨ n ≠ d + 1 := by
  have hone : (1 : UInt32).toNat = 1 := rfl
  unfold rearmValue
  simp only [ne_eq, ← UInt32.toNat_inj, UInt32.lt_iff_toNat_lt, UInt32.toNat_zero, hone,
    UInt32.toNat_add] at hn ⊢
  have hd := d.toNat_lt
  have hn' := n.toNat_lt
  split_ifs with h1 h2 h2
  · rw [UInt32.toNat_sub_of_le _ _ (by simpa [UInt32.le_iff_toNat_le] using h1.le), hone]
    omega
  · rw [UInt32.toNat_sub_of_le _ _ (by simpa [UInt32.le_iff_toNat_le] using h1.le), hone]
    omega
  · rw [hone]
  · rw [hone]
    omega

/-! ## What was heard is kept -/

/-- The hooks remember the last parsed number, and the last delivered number is the game's. -/
structure Hears (h : List NumberEvent) (s : RearmState) : Prop where
  parsed : s.rift.lastChallengeNumber = (lastParsed h).getD 0
  parsed_ne : lastParsed h ≠ some 0
  delivered : s.delivered = lastDelivered h

theorem lastParsed_append (h h' : List NumberEvent) :
    lastParsed (h ++ h') = (lastParsed h').or (lastParsed h) := by
  rw [lastParsed, List.filterMap_append, List.getLast?_append, lastParsed, lastParsed]

theorem lastDelivered_append (h h' : List NumberEvent) :
    lastDelivered (h ++ h') = (lastDelivered h').or (lastDelivered h) := by
  rw [lastDelivered, List.filterMap_append, List.getLast?_append, lastDelivered, lastDelivered]

/-- The current number is the one that the hooks go by. -/
theorem Hears.currentNumber_eq {h : List NumberEvent} {s : RearmState} (ht : Hears h s)
    (globals : RiftGlobals) :
    getCurrentChallengeNumber globals s.rift = currentNumber globals h := by
  have hne := ht.parsed_ne
  unfold getCurrentChallengeNumber currentNumber
  rw [ht.parsed]
  cases hparsed : lastParsed h with
  | none => rcases globals with _ | _ | num <;> rfl
  | some num =>
    rw [hparsed, ne_eq, Option.some.injEq] at hne
    rw [Option.getD_some, if_pos hne]

/-- No number was parsed. -/
theorem none_ne_zero : (none : Option UInt32) ≠ some 0 := (Option.some_ne_none 0).symm

/-- What a call does to the numbers that are remembered and delivered. -/
theorem hears_of_numbers {h h' : List NumberEvent} {s s' : RearmState} (ht : Hears h s)
    (hne : lastParsed h' ≠ some 0)
    (hparsed : s'.rift.lastChallengeNumber = (lastParsed h').getD s.rift.lastChallengeNumber)
    (hdelivered : s'.delivered = (lastDelivered h').or s.delivered) : Hears (h ++ h') s' := by
  refine ⟨?_, ?_, ?_⟩
  · rw [hparsed, ht.parsed, lastParsed_append]
    cases lastParsed h' <;> rfl
  · rw [lastParsed_append]
    cases hlast : lastParsed h' with
    | none => exact ht.parsed_ne
    | some num => rwa [hlast] at hne
  · rw [hdelivered, ht.delivered, lastDelivered_append]

section Parse

variable (c : PatchConfig) (io : Outcomes)

/-- The parser's hook remembers what is heard of a parse. -/
theorem lastChallengeNumber_parseChallengeHook (msg : ChallengeData) (data : Blob)
    (s : RiftState) :
    (parseChallengeHook proto c io msg (some data) s).2.2.lastChallengeNumber =
      (lastParsed (heardParse s.hooked (proto.parseChallenge msg (some data.bytes)))).getD
        s.lastChallengeNumber := by
  simp only [parseChallengeHook, heardParse, setLastChallengeNumber, Option.map_some,
    Option.isSome_some, Bool.and_true]
  by_cases hok : (s.hooked && (proto.parseChallenge msg (some data.bytes)).1) = true
  · by_cases hnum : (proto.parseChallenge msg (some data.bytes)).2.number = 0
    · simp [hok, hnum, lastParsed]
    · simp [hok, hnum, lastParsed, NumberEvent.parsed?]
  · simp [hok, lastParsed]

theorem lastParsed_heardParse_ne (hooked : Bool) (result : Bool × ChallengeData) :
    lastParsed (heardParse hooked result) ≠ some 0 := by
  unfold heardParse
  split_ifs with h
  · simp_all [lastParsed, NumberEvent.parsed?]
  · simp [lastParsed]

theorem lastDelivered_heardParse (hooked : Bool) (result : Bool × ChallengeData) :
    lastDelivered (heardParse hooked result) = none := by
  unfold heardParse
  split_ifs <;> rfl

/-- The weekly data carries no challenge number. -/
theorem lastChallengeNumber_parseWeeklyHook (msg : W) (data : Option Blob) (s : RiftState) :
    (parseWeeklyHook proto c io msg data s).2.2.lastChallengeNumber = s.lastChallengeNumber := by
  simp only [parseWeeklyHook]
  split_ifs <;> rfl

/-- A call remembers what is heard of the configuration that it parses. -/
theorem lastChallengeNumber_populate (picks : Picks) (conf : ChallengeData) (data : W)
    (s : RiftState) :
    (populateChallengeRiftData proto c io picks conf data s).2.2.2.lastChallengeNumber =
      (confState proto c io conf s (foundConf io s.files)).lastChallengeNumber := by
  obtain ⟨heap, hspec⟩ := populateChallengeRiftData_spec proto c io picks conf data s
  rw [hspec]
  cases foundData proto c io picks conf s.files with
  | none => rfl
  | some found => exact lastChallengeNumber_parseWeeklyHook proto c io data _ _

end Parse

/-- A callback that populates its messages remembers what is heard of the configuration, and
delivers the number that this is left with. -/
theorem rearmStep_callback {c : PatchConfig} (hactive : c.challengeRifts.active = true)
    (io : Outcomes) (picks : Picks) (result : ℤ) (conf : ChallengeData) (data : W)
    (s : RearmState) :
    (rearmStep proto s (.callback c io picks ⟨some result, some conf, some data⟩)).rift =
        (populateChallengeRiftData proto c io picks conf data s.rift).2.2.2 ∧
      (rearmStep proto s (.callback c io picks ⟨some result, some conf, some data⟩)).delivered =
        some (populatedConf proto picks conf (foundConf io s.rift.files)).number := by
  obtain ⟨heap, hspec⟩ := populateChallengeRiftData_spec proto c io picks conf data s.rift
  simp only [rearmStep, challengeRiftCallback, hactive, hspec]
  exact ⟨trivial, rfl⟩

theorem number_populatedConf (picks : Picks) (conf : ChallengeData) (found : FoundFile) :
    (populatedConf proto picks conf (some found)).number =
      if found.fromCache then (proto.parseChallenge conf (some found.content.bytes)).2.number
      else .ofInt picks.number := by
  unfold populatedConf fixUpChallenge
  dsimp only
  split_ifs <;> rfl

/-- A callback that passes its arguments on delivers the number that it was given. -/
theorem hears_passed {h : List NumberEvent} {s : RearmState} (ht : Hears h s)
    (conf : Option ChallengeData) :
    Hears (h ++ (conf.map fun conf => NumberEvent.delivered conf.number).toList)
      { s with delivered := (conf.map ChallengeData.number).or s.delivered } := by
  cases conf with
  | none => exact hears_of_numbers ht none_ne_zero rfl rfl
  | some conf => exact hears_of_numbers ht none_ne_zero rfl rfl

/-- A callback that populates its messages keeps what was heard. -/
theorem hears_populated {h : List NumberEvent} {s : RearmState} (ht : Hears h s)
    {c : PatchConfig} (hactive : c.challengeRifts.active = true) (io : Outcomes) (picks : Picks)
    (result : ℤ) (conf : ChallengeData) (data : W) :
    Hears (h ++ numbers proto s.rift (.callback c io picks ⟨some result, some conf, some data⟩))
      (rearmStep proto s (.callback c io picks ⟨some result, some conf, some data⟩)) := by
  obtain ⟨hrift, hdelivered⟩ := rearmStep_callback proto hactive io picks result conf data s
  have hlast := lastChallengeNumber_populate proto c io picks conf data s.rift
  rw [← hrift] at hlast
  cases hfound : foundConf io s.rift.files with
  | none =>
    rw [hfound] at hlast hdelivered
    simp only [numbers, hactive, hfound]
    exact hears_of_numbers ht none_ne_zero hlast hdelivered
  | some found =>
    rw [hfound] at hlast hdelivered
    simp only [numbers, hactive, hfound]
    refine hears_of_numbers ht ?_ ?_ ?_
    · rw [lastParsed_append]
      exact lastParsed_heardParse_ne _ _
    · rw [hlast, lastParsed_append]
      exact lastChallengeNumber_parseChallengeHook proto c io conf found.content s.rift
    · rw [hdelivered, number_populatedConf, lastDelivered_append]
      rfl

/-- A call keeps what was heard. -/
theorem hears_rearmStep {h : List NumberEvent} {s : RearmState} (ht : Hears h s)
    (e : RearmEvent W) : Hears (h ++ numbers proto s.rift e) (rearmStep proto s e) := by
  cases e with
  | callback c io picks args =>
    obtain ⟨result, conf, data⟩ := args
    cases hactive : c.challengeRifts.active with
    | false =>
      simp only [numbers, rearmStep, challengeRiftCallback, hactive]
      exact hears_passed ht conf
    | true =>
      rcases conf with _ | conf
      · simp only [numbers, rearmStep, challengeRiftCallback, hactive]
        exact hears_passed ht none
      · rcases data with _ | data
        · simp only [numbers, rearmStep, challengeRiftCallback, hactive]
          exact hears_passed ht (some conf)
        · rcases result with _ | result
          · simp only [numbers, rearmStep, challengeRiftCallback, hactive]
            exact hears_passed ht (some conf)
          · exact hears_populated proto ht hactive io picks result conf data
  | parseChallenge c io msg data =>
    cases data with
    | none =>
      refine hears_of_numbers ht none_ne_zero ?_ rfl
      simp [rearmStep, parseChallengeHook, lastParsed, numbers]
    | some data =>
      exact hears_of_numbers ht (lastParsed_heardParse_ne _ _)
        (lastChallengeNumber_parseChallengeHook proto c io msg data s.rift)
        (by rw [numbers, lastDelivered_heardParse]; rfl)
  | parseWeekly c io msg data =>
    exact hears_of_numbers ht none_ne_zero
      (lastChallengeNumber_parseWeeklyHook proto c io msg data _) rfl
  | openRift c globals players stock => exact hears_of_numbers ht none_ne_zero rfl rfl
  | handleRewards c globals player stock => exact hears_of_numbers ht none_ne_zero rfl rfl

/-- A run keeps what was heard. -/
theorem hears_run {h : List NumberEvent} {s : RearmState} (ht : Hears h s)
    (events : List (RearmEvent W)) :
    Hears (h ++ heard proto s events) (run (rearmStep proto) s events) := by
  induction events generalizing h s with
  | nil => simpa [heard] using ht
  | cons e events ih =>
    rw [heard, ← List.append_assoc]
    exact ih (hears_rearmStep proto ht e)

/-- Before any call: nothing is parsed or delivered. -/
def bootState (files : Files) (heap : Heap) (hooked : Bool) (lastReward : LastReward) :
    RearmState :=
  { rift := { files, heap, hooked }, lastReward }

/-- **In a run from the start each stock body finds its players eligible if and only if, by the
numbers heard before it, the challenge delivered last is the current one and not the first, or
another one that is not the one before it.** -/
theorem stepsMeet_rearmed_iff (files : Files) (heap : Heap) (hooked : Bool)
    (lastReward : LastReward) (events : List (RearmEvent W)) :
    StepsMeet (rearmStep proto) Rearmed (bootState files heap hooked lastReward) events ↔
      ∀ before e after, events = before ++ e :: after → ∀ globals ∈ e.stockGlobals,
        Eligible globals (heard proto (bootState files heap hooked lastReward) before) := by
  have hboot : Hears [] (bootState files heap hooked lastReward) := ⟨rfl, none_ne_zero, rfl⟩
  rw [stepsMeet_iff]
  refine forall₄_congr fun before e after _ => ?_
  have ht := hears_run proto hboot before
  rw [List.nil_append] at ht
  rw [rearmed_iff]
  refine forall₂_congr fun globals _ => ?_
  rw [Eligible, ht.delivered, ht.currentNumber_eq]
  refine forall₂_congr fun d _ => ne_rearmValue_iff ?_
  rw [← ht.currentNumber_eq]
  exact getCurrentChallengeNumber_ne_zero _ _

/-- The challenge with the number one is parsed, delivered and opened: the player is left with
the number one. -/
theorem not_rearmed_first : ¬StepsMeet (rearmStep byteProto) Rearmed
    { rift := { files := fun _ => none } }
    [.parseChallenge { challengeRifts := { active := true } } {} {} (some ⟨[1], .online⟩),
      .callback { challengeRifts := { active := true } } {} {}
        ⟨some 0, some { number := 1 }, some []⟩,
      .openRift { challengeRifts := { active := true } } none [0] id] := by
  intro h
  exact h.2.2.1 rfl 0 (List.mem_singleton.2 rfl) (by decide +kernel)

end D3Hack
