import D3Hack.CachePath
import D3Hack.Probing
import D3Hack.Runs

/-!
# The log-once table

`ShouldLog` says whether a key is seen for the first time. It looks for the hash of the key in a
table of atomic words, from a slot that the hash gives, and puts it into the first empty one. The
calls of all threads go through the table together: a step of `logOnceStep` is the start of a
call, or one `compare_exchange_strong` of a call that has not answered.

`LogTableInv` is what holds after any steps, in the terms of `Probing`: each hash is where its
search ends, and each slot was claimed by one call. `logOnce` states what follows: the calls are
those of the hashes asked for (`LogAction.asks`); with at most 128 hashes, one call of each hash is
told to log, the one that claimed its slot; a call answers within 128 steps of its own; and no call
is told to log once its hash is in the table.
-/

namespace D3Hack

open Runs Probing CachePath

/-! ## One call -/

/-- `kMaxKeys`, the size of the table. -/
def kMaxKeys : ℕ := 128

/-- `Fnv1a64`, over the bytes before the terminator. -/
def fnv1a64 (s : List UInt8) : BitVec 64 :=
  s.foldl (fun hash ch => (hash ^^^ ch.toBitVec.setWidth 64) * 1099511628211)
    14695981039346656037

example : fnv1a64 [0x61] = 0xAF63DC4C8601EC8C := by decide

/-- The hash that a key is looked up by; a null or empty key has none. -/
def logHash (key : Option CString) : Option {hash : BitVec 64 // hash ≠ 0} :=
  match key with
  | none => none
  | some s =>
    if s.bytes = [] then none
    else if h : fnv1a64 s.bytes = 0 then some ⟨1, by decide⟩
    else some ⟨fnv1a64 s.bytes, h⟩

/-- `g_keys`. -/
abbrev LogKeys := Fin kMaxKeys → BitVec 64

/-- `compare_exchange_strong`: whether it exchanges, and what it leaves in `expected`. -/
def compareExchangeStrong (keys : LogKeys) (idx : Fin kMaxKeys) (expected desired : BitVec 64) :
    Bool × BitVec 64 × LogKeys :=
  if keys idx = expected then (true, expected, Function.update keys idx desired)
  else (false, keys idx, keys)

/-- Where a call is: at a step of the loop, or back, having claimed a slot, found its hash, or
found the table full. -/
inductive LogPhase where
  | loop (step : ℕ)
  | claimed (idx : Fin kMaxKeys)
  | found
  | full
  deriving DecidableEq

/-- The result of `ShouldLog`, once the call is back. -/
def LogPhase.answer : LogPhase → Option Bool
  | .loop _ => none
  | .claimed _ => some true
  | .found => some false
  | .full => some true

/-- The head of the loop. -/
def LogPhase.next (step : ℕ) : LogPhase := if step < kMaxKeys then .loop step else .full

/-- A call of `ShouldLog` with a key that has a hash. -/
structure LogCall where
  hash : BitVec 64
  phase : LogPhase := .next 0
  hash_ne : hash ≠ 0

/-- `(start + step) % kMaxKeys`. -/
def slotOf (hash : BitVec 64) (step : ℕ) : Fin kMaxKeys :=
  ⟨(hash.toNat % kMaxKeys + step) % kMaxKeys, Nat.mod_lt _ (by decide)⟩

/-- A round of the loop. -/
def LogCall.attempt (c : LogCall) (keys : LogKeys) : LogCall × LogKeys :=
  match c.phase with
  | .loop step =>
    let idx := slotOf c.hash step
    let (exchanged, expected, keys) := compareExchangeStrong keys idx 0 c.hash
    if exchanged then ({ c with phase := .claimed idx }, keys)
    else if expected = c.hash then ({ c with phase := .found }, keys)
    else ({ c with phase := .next (step + 1) }, keys)
  | _ => (c, keys)

/-! ## All calls -/

/-- The table, and the calls in the order of their starts. -/
structure LogTable where
  keys : LogKeys := fun _ => 0
  calls : List LogCall := []

/-- The start of a call, or a round of the `i`-th one. -/
inductive LogAction where
  | call (key : Option CString)
  | step (i : ℕ)

/-- The hash that is asked for by the start of a call: the FNV-1a of the key, or 1 where this is
0. A null or empty key asks for none. -/
def LogAction.asks : LogAction → Option (BitVec 64)
  | .call (some s) =>
    if s.bytes = [] then none
    else some (if fnv1a64 s.bytes = 0 then 1 else fnv1a64 s.bytes)
  | _ => none

/-- A call with a null or empty key is back at once. -/
def logOnceStep (s : LogTable) : LogAction → LogTable
  | .call key =>
    match logHash key with
    | some hash => { s with calls := s.calls ++ [{ hash := hash.1, hash_ne := hash.2 }] }
    | none => s
  | .step i =>
    match s.calls[i]? with
    | some c =>
      let (c, keys) := c.attempt s.keys
      { keys, calls := s.calls.set i c }
    | none => s

/-! ## What holds after any steps -/

/-- The table as `Probing` has it: the word 0 stands for an empty slot. -/
def slots (keys : LogKeys) : Probing.Table (BitVec 64) kMaxKeys := fun idx =>
  if keys idx = 0 then none else some (keys idx)

theorem slots_eq_some {keys : LogKeys} {idx : Fin kMaxKeys} {hash : BitVec 64} :
    slots keys idx = some hash ↔ keys idx = hash ∧ hash ≠ 0 := by
  unfold slots
  split_ifs with h
  · constructor
    · intro hnone
      contradiction
    · rintro ⟨rfl, hne⟩
      exact absurd h hne
  · rw [Option.some.injEq]
    refine ⟨fun hhash => ⟨hhash, hhash ▸ h⟩, And.left⟩

theorem slots_update (keys : LogKeys) (idx : Fin kMaxKeys) {hash : BitVec 64} (h : hash ≠ 0) :
    slots (Function.update keys idx hash) = Function.update (slots keys) idx (some hash) := by
  funext idx'
  by_cases hidx : idx' = idx
  · subst hidx
    rw [slots, Function.update_self, Function.update_self, if_neg h]
  · rw [slots, Function.update_of_ne hidx, Function.update_of_ne hidx, slots]

/-- A search goes through the whole table. -/
theorem exists_slotOf (hash : BitVec 64) (slot : Fin kMaxKeys) :
    ∃ step < kMaxKeys, slotOf hash step = slot := by
  have hslot := slot.isLt
  have hstart : hash.toNat % kMaxKeys < kMaxKeys := Nat.mod_lt _ (by decide)
  refine ⟨(slot + (kMaxKeys - hash.toNat % kMaxKeys)) % kMaxKeys, Nat.mod_lt _ (by decide), ?_⟩
  apply Fin.ext
  simp only [slotOf, Nat.add_mod_mod]
  rw [show hash.toNat % kMaxKeys + (slot + (kMaxKeys - hash.toNat % kMaxKeys)) =
    slot + kMaxKeys by omega, Nat.add_mod_right, Nat.mod_eq_of_lt hslot]

/-- What a call has learnt of the table. -/
def LogCall.Standing (keys : LogKeys) (c : LogCall) : Prop :=
  match c.phase with
  | .loop step => step < kMaxKeys ∧ Passed slotOf (slots keys) c.hash step
  | .claimed idx => keys idx = c.hash
  | .found => ∃ idx, keys idx = c.hash
  | .full => Passed slotOf (slots keys) c.hash kMaxKeys

/-- The `i`-th call has claimed the slot. -/
def LogTable.Claims (s : LogTable) (i : ℕ) (idx : Fin kMaxKeys) : Prop :=
  ∃ c, s.calls[i]? = some c ∧ c.phase = .claimed idx

/-- Keys are where probing finds them, and each of them is the key of one call. -/
structure LogTableInv (s : LogTable) : Prop where
  placed : Probing.Placed slotOf (slots s.keys)
  standing : ∀ c ∈ s.calls, c.Standing s.keys
  owner : ∀ idx, s.keys idx ≠ 0 → ∃! i, s.Claims i idx

/-! ## One step -/

/-- What is learnt of a table holds of one that has grown. -/
theorem LogCall.Standing.mono {keys keys' : LogKeys} {c : LogCall} (h : c.Standing keys)
    (hgrows : Grows (slots keys) (slots keys')) : c.Standing keys' := by
  have hkeep {idx : Fin kMaxKeys} (hidx : keys idx = c.hash) : keys' idx = c.hash :=
    (slots_eq_some.1 (hgrows idx c.hash (slots_eq_some.2 ⟨hidx, c.hash_ne⟩))).1
  unfold LogCall.Standing at h ⊢
  cases hphase : c.phase with
  | loop step =>
    rw [hphase] at h
    exact ⟨h.1, h.2.mono hgrows⟩
  | claimed idx =>
    rw [hphase] at h
    exact hkeep h
  | found =>
    rw [hphase] at h
    obtain ⟨idx, hidx⟩ := h
    exact ⟨idx, hkeep hidx⟩
  | full =>
    rw [hphase] at h
    exact h.mono hgrows

/-- A call whose search has passed `step` slots goes on, or is back with the table full. -/
theorem standing_next {keys : LogKeys} {c : LogCall} {step : ℕ} (hstep : step ≤ kMaxKeys)
    (h : Passed slotOf (slots keys) c.hash step) :
    ({ c with phase := .next step } : LogCall).Standing keys := by
  unfold LogPhase.next
  split_ifs with hlt
  · exact ⟨hlt, h⟩
  · have heq : step = kMaxKeys := Nat.le_antisymm hstep (Nat.not_lt.1 hlt)
    subst heq
    exact h

theorem next_ne_claimed (step : ℕ) (idx : Fin kMaxKeys) : LogPhase.next step ≠ .claimed idx := by
  unfold LogPhase.next
  split_ifs <;> simp

theorem compareExchangeStrong_of_eq {keys : LogKeys} {idx : Fin kMaxKeys} {expected : BitVec 64}
    (h : keys idx = expected) (desired : BitVec 64) :
    compareExchangeStrong keys idx expected desired =
      (true, expected, Function.update keys idx desired) := if_pos h

theorem compareExchangeStrong_of_ne {keys : LogKeys} {idx : Fin kMaxKeys} {expected : BitVec 64}
    (h : keys idx ≠ expected) (desired : BitVec 64) :
    compareExchangeStrong keys idx expected desired = (false, keys idx, keys) := if_neg h

/-- What a round of the loop does. -/
theorem attempt_cases (c : LogCall) (keys : LogKeys) :
    (c.phase.answer.isSome ∧ c.attempt keys = (c, keys)) ∨ ∃ step, c.phase = .loop step ∧
      ((keys (slotOf c.hash step) = 0 ∧ c.attempt keys =
          ({ c with phase := .claimed (slotOf c.hash step) },
            Function.update keys (slotOf c.hash step) c.hash)) ∨
        (keys (slotOf c.hash step) = c.hash ∧
          c.attempt keys = ({ c with phase := .found }, keys)) ∨
        (keys (slotOf c.hash step) ≠ 0 ∧ keys (slotOf c.hash step) ≠ c.hash ∧
          c.attempt keys = ({ c with phase := .next (step + 1) }, keys))) := by
  cases hphase : c.phase with
  | loop step =>
    refine .inr ⟨step, rfl, ?_⟩
    simp only [LogCall.attempt, hphase]
    by_cases hzero : keys (slotOf c.hash step) = 0
    · exact .inl ⟨hzero, by simp only [compareExchangeStrong_of_eq hzero, if_true]⟩
    · have hfails := compareExchangeStrong_of_ne hzero c.hash
      by_cases hhash : keys (slotOf c.hash step) = c.hash
      · exact .inr (.inl ⟨hhash, by
          simp only [hfails, hhash, Bool.false_eq_true, if_false, if_true]⟩)
      · exact .inr (.inr ⟨hzero, hhash, by
          simp only [hfails, hhash, Bool.false_eq_true, if_false]⟩)
  | claimed idx => exact .inl ⟨rfl, by simp only [LogCall.attempt, hphase]⟩
  | found => exact .inl ⟨rfl, by simp only [LogCall.attempt, hphase]⟩
  | full => exact .inl ⟨rfl, by simp only [LogCall.attempt, hphase]⟩

/-- What a step does to the table and the calls: nothing, a call more, or a round of one. -/
theorem logOnceStep_cases (s : LogTable) (a : LogAction) :
    logOnceStep s a = s ∨ (∃ hash, ∃ hne : hash ≠ 0,
        logOnceStep s a = { s with calls := s.calls ++ [{ hash, hash_ne := hne }] }) ∨
      ∃ i c step, a = .step i ∧ s.calls[i]? = some c ∧ c.phase = .loop step ∧
        logOnceStep s a =
          { keys := (c.attempt s.keys).2, calls := s.calls.set i (c.attempt s.keys).1 } := by
  cases a with
  | call key =>
    cases hkey : logHash key with
    | none => exact .inl (by simp only [logOnceStep, hkey])
    | some hash => exact .inr (.inl ⟨hash.1, hash.2, by simp only [logOnceStep, hkey]⟩)
  | step i =>
    cases hc : s.calls[i]? with
    | none => exact .inl (by simp only [logOnceStep, hc])
    | some c =>
      rcases attempt_cases c s.keys with ⟨-, hattempt⟩ | ⟨step, hphase, -⟩
      · left
        obtain ⟨hi, hget⟩ := List.getElem?_eq_some_iff.1 hc
        simp only [logOnceStep, hc, hattempt]
        rw [← hget, List.set_getElem_self]
      · exact .inr (.inr ⟨i, c, step, rfl, hc, hphase, by simp only [logOnceStep, hc]⟩)

section Step

variable {s : LogTable} {keys : LogKeys} {i : ℕ} {c c' : LogCall}

theorem claims_concat (hphase : ∀ idx, c.phase ≠ .claimed idx) (j : ℕ) (idx : Fin kMaxKeys) :
    LogTable.Claims { s with calls := s.calls ++ [c] } j idx ↔ s.Claims j idx := by
  unfold LogTable.Claims
  rw [List.getElem?_append]
  split_ifs with hj
  · rfl
  · rw [List.getElem?_eq_none (Nat.not_lt.1 hj), List.getElem?_singleton]
    split_ifs <;> simp [hphase]

/-- A call that has claimed no slot is replaced. -/
theorem claims_set (hc : s.calls[i]? = some c) (hphase : ∀ idx, c.phase ≠ .claimed idx)
    (keys : LogKeys) (c' : LogCall) (j : ℕ) (idx : Fin kMaxKeys) :
    LogTable.Claims { keys, calls := s.calls.set i c' } j idx ↔
      j = i ∧ c'.phase = .claimed idx ∨ s.Claims j idx := by
  unfold LogTable.Claims
  obtain ⟨hi, -⟩ := List.getElem?_eq_some_iff.1 hc
  by_cases hj : j = i
  · subst hj
    simp [List.getElem?_set_self hi, hc, hphase]
  · simp [List.getElem?_set_ne (Ne.symm hj), hj]

/-- A replaced call stands as what replaces it does, in a table that has grown. -/
theorem standing_set (h : ∀ d ∈ s.calls, d.Standing s.keys)
    (hgrows : Grows (slots s.keys) (slots keys)) (hc' : c'.Standing keys) :
    ∀ d ∈ s.calls.set i c', d.Standing keys := by
  intro d hd
  rcases List.mem_or_eq_of_mem_set hd with hd | rfl
  · exact (h d hd).mono hgrows
  · exact hc'

/-- A new call joins. -/
theorem LogTableInv.concat (h : LogTableInv s) (hash : BitVec 64) (hne : hash ≠ 0) :
    LogTableInv { s with calls := s.calls ++ [{ hash, hash_ne := hne }] } := by
  refine ⟨h.placed, fun c hc => ?_, fun idx hidx => ?_⟩
  · rcases List.mem_append.1 hc with hc | hc
    · exact h.standing c hc
    · rw [List.mem_singleton.1 hc]
      exact ⟨by decide, passed_zero _ _⟩
  · have hclaims := claims_concat (s := s) (c := { hash, hash_ne := hne }) (next_ne_claimed 0)
    simpa only [hclaims] using h.owner idx hidx

/-- A round that leaves the table as it is. -/
theorem LogTableInv.set (h : LogTableInv s) (hc : s.calls[i]? = some c)
    (hphase : ∀ idx, c.phase ≠ .claimed idx) (hc' : c'.Standing s.keys)
    (hphase' : ∀ idx, c'.phase ≠ .claimed idx) :
    LogTableInv { s with calls := s.calls.set i c' } := by
  refine ⟨h.placed, standing_set h.standing (Grows.refl _) hc', fun idx hidx => ?_⟩
  simpa [claims_set hc hphase, hphase'] using h.owner idx hidx

/-- A round that claims the slot where its search ends. -/
theorem LogTableInv.claim (h : LogTableInv s) (hc : s.calls[i]? = some c)
    (hphase : ∀ idx, c.phase ≠ .claimed idx) {step : ℕ} (hstep : step < kMaxKeys)
    (hpassed : Passed slotOf (slots s.keys) c.hash step)
    (hempty : s.keys (slotOf c.hash step) = 0) :
    LogTableInv
      { keys := Function.update s.keys (slotOf c.hash step) c.hash
        calls := s.calls.set i { c with phase := .claimed (slotOf c.hash step) } } := by
  have hslots := slots_update s.keys (slotOf c.hash step) c.hash_ne
  have hnone : slots s.keys (slotOf c.hash step) = none := if_pos hempty
  refine ⟨?_, standing_set h.standing ?_ ?_, fun idx hidx => ?_⟩
  · rw [hslots]
    exact h.placed.update hstep hpassed hnone
  · rw [hslots]
    exact grows_update hnone c.hash
  · exact Function.update_self _ _ _
  · simp only [claims_set hc hphase]
    by_cases hclaimed : idx = slotOf c.hash step
    · subst hclaimed
      refine ⟨i, .inl ⟨rfl, rfl⟩, ?_⟩
      rintro j (⟨rfl, -⟩ | ⟨d, hd, hclaims⟩)
      · rfl
      · -- a call that had claimed the slot would have put its hash there
        have hstanding := h.standing d (List.mem_of_getElem? hd)
        rw [LogCall.Standing, hclaims] at hstanding
        exact absurd (hstanding.symm.trans hempty) d.hash_ne
    · have hidx' : Function.update s.keys (slotOf c.hash step) c.hash idx ≠ 0 := hidx
      rw [Function.update_of_ne hclaimed] at hidx'
      have hne : LogPhase.claimed (slotOf c.hash step) ≠ .claimed idx :=
        fun heq => hclaimed (LogPhase.claimed.inj heq).symm
      simpa [hne] using h.owner idx hidx'

end Step

/-- A step keeps the invariant. -/
theorem logTableInv_logOnceStep {s : LogTable} (h : LogTableInv s) (a : LogAction) :
    LogTableInv (logOnceStep s a) := by
  rcases logOnceStep_cases s a with hstep | ⟨hash, hne, hstep⟩ | ⟨i, c, step, -, hc, hphase, hstep⟩
  · rwa [hstep]
  · rw [hstep]
    exact h.concat hash hne
  · have hloop (idx : Fin kMaxKeys) : c.phase ≠ .claimed idx := by simp [hphase]
    obtain ⟨hlt, hpassed⟩ : step < kMaxKeys ∧ Passed slotOf (slots s.keys) c.hash step := by
      have hstanding := h.standing c (List.mem_of_getElem? hc)
      rwa [LogCall.Standing, hphase] at hstanding
    rcases attempt_cases c s.keys with ⟨hanswer, -⟩ | ⟨step', hphase', hcases⟩
    · rw [hphase] at hanswer
      contradiction
    · obtain rfl : step = step' := by simpa [hphase] using hphase'
      rw [hstep]
      rcases hcases with ⟨hempty, hattempt⟩ | ⟨hhash, hattempt⟩ | ⟨hzero, hhash, hattempt⟩
      · rw [hattempt]
        exact h.claim hc hloop hlt hpassed hempty
      · rw [hattempt]
        exact h.set hc hloop ⟨_, hhash⟩ nofun
      · rw [hattempt]
        exact h.set hc hloop
          (standing_next hlt (hpassed.succ (slots_eq_some.2 ⟨rfl, hzero⟩) hhash))
          (next_ne_claimed _)

theorem logTableInv_empty : LogTableInv {} :=
  ⟨placed_empty, fun _ hc => absurd hc List.not_mem_nil, fun _ hidx => absurd rfl hidx⟩

/-! ## Whole runs -/

/-- `s'` comes after `s`: hashes stay in their slots, and calls that are back as they were. -/
structure LogTable.Before (s s' : LogTable) : Prop where
  grows : Grows (slots s.keys) (slots s'.keys)
  answered : ∀ (i : ℕ) (c : LogCall), s.calls[i]? = some c → c.phase.answer.isSome →
    s'.calls[i]? = some c

theorem LogTable.Before.trans {s s' s'' : LogTable} (h : s.Before s') (h' : s'.Before s'') :
    s.Before s'' :=
  ⟨fun slot k hk => h'.grows slot k (h.grows slot k hk),
    fun i c hc hanswer => h'.answered i c (h.answered i c hc hanswer) hanswer⟩

theorem before_logOnceStep (s : LogTable) (a : LogAction) : s.Before (logOnceStep s a) := by
  rcases logOnceStep_cases s a with hstep | ⟨hash, hne, hstep⟩ | ⟨i, c, step, -, hc, hphase, hstep⟩
  · rw [hstep]
    exact ⟨Grows.refl _, fun _ _ hc _ => hc⟩
  · rw [hstep]
    refine ⟨Grows.refl _, fun i c hc _ => ?_⟩
    exact (List.getElem?_append_left (List.getElem?_eq_some_iff.1 hc).1).trans hc
  · rw [hstep]
    refine ⟨?_, fun j d hd hanswer => ?_⟩
    · rcases attempt_cases c s.keys with ⟨hanswer, -⟩ | ⟨step', -, hcases⟩
      · rw [hphase] at hanswer
        contradiction
      · rcases hcases with ⟨hempty, hattempt⟩ | ⟨-, hattempt⟩ | ⟨-, -, hattempt⟩
        · rw [hattempt]
          dsimp only
          rw [slots_update _ _ c.hash_ne]
          exact grows_update (if_pos hempty) c.hash
        · rw [hattempt]
          exact Grows.refl _
        · rw [hattempt]
          exact Grows.refl _
    · have hne : i ≠ j := by
        rintro rfl
        rw [hc, Option.some.injEq] at hd
        rw [← hd, hphase] at hanswer
        contradiction
      exact (List.getElem?_set_ne hne).trans hd

theorem before_run (s : LogTable) (actions : List LogAction) :
    s.Before (run logOnceStep s actions) :=
  run_invariant (I := s.Before) (fun s' a h => h.trans (before_logOnceStep s' a))
    ⟨Grows.refl _, fun _ _ hc _ => hc⟩ actions

/-- A round leaves the call its hash. -/
theorem hash_attempt (c : LogCall) (keys : LogKeys) : (c.attempt keys).1.hash = c.hash := by
  rcases attempt_cases c keys with ⟨-, hattempt⟩ | ⟨step, -, hcases⟩
  · rw [hattempt]
  · rcases hcases with ⟨-, hattempt⟩ | ⟨-, hattempt⟩ | ⟨-, -, hattempt⟩ <;> rw [hattempt]

/-- A step adds a call for the hash that it asks for, and leaves the others theirs. -/
theorem hashes_logOnceStep (s : LogTable) (a : LogAction) :
    (logOnceStep s a).calls.map LogCall.hash = s.calls.map LogCall.hash ++ a.asks.toList := by
  cases a with
  | call key =>
    cases key with
    | none => simp [logOnceStep, logHash, LogAction.asks]
    | some key =>
      by_cases hempty : key.bytes = []
      · simp [logOnceStep, logHash, LogAction.asks, hempty]
      · by_cases hzero : fnv1a64 key.bytes = 0
        · simp [logOnceStep, logHash, LogAction.asks, hempty, hzero]
        · simp only [logOnceStep, logHash, LogAction.asks, hempty, hzero, if_false, dif_neg,
            not_false_iff, List.map_append, List.map_cons, List.map_nil, Option.toList_some]
  | step i =>
    cases hc : s.calls[i]? with
    | none => simp [logOnceStep, hc, LogAction.asks]
    | some c =>
      obtain ⟨hi, hget⟩ := List.getElem?_eq_some_iff.1 hc
      have hmap : (s.calls.map LogCall.hash).set i c.hash = s.calls.map LogCall.hash := by
        rw [← hget, ← List.map_set, List.set_getElem_self]
      simp only [logOnceStep, hc, LogAction.asks, List.map_set, hash_attempt, hmap,
        Option.toList_none, List.append_nil]

theorem hashes_run (s : LogTable) (actions : List LogAction) :
    (run logOnceStep s actions).calls.map LogCall.hash =
      s.calls.map LogCall.hash ++ actions.filterMap LogAction.asks := by
  induction actions generalizing s with
  | nil => simp
  | cons a actions ih =>
    rw [run_cons, ih, hashes_logOnceStep, List.append_assoc]
    cases hasks : a.asks <;> simp [hasks]

/-- The rounds a call has left at most. -/
def LogPhase.remaining : LogPhase → ℕ
  | .loop step => kMaxKeys - step
  | _ => 0

/-- The step is a round of the `i`-th call. -/
def LogAction.isStep (i : ℕ) : LogAction → Bool
  | .call _ => false
  | .step j => j = i

/-- Each round of a call leaves it a round less. -/
theorem remaining_attempt (c : LogCall) (keys : LogKeys) :
    (c.attempt keys).1.phase.remaining ≤ c.phase.remaining - 1 := by
  rcases attempt_cases c keys with ⟨hanswer, hattempt⟩ | ⟨step, hphase, hcases⟩
  · rw [hattempt]
    cases hphase : c.phase with
    | loop step =>
      rw [hphase] at hanswer
      contradiction
    | _ => exact Nat.zero_le _
  · rcases hcases with ⟨-, hattempt⟩ | ⟨-, hattempt⟩ | ⟨-, -, hattempt⟩
    · rw [hattempt]
      exact Nat.zero_le _
    · rw [hattempt]
      exact Nat.zero_le _
    · rw [hattempt, hphase, LogPhase.next]
      split_ifs
      · exact (Nat.sub_sub _ _ _).ge
      · exact Nat.zero_le _

theorem remaining_logOnceStep {s : LogTable} {i : ℕ} {c : LogCall} (hc : s.calls[i]? = some c)
    (a : LogAction) : ∃ c', (logOnceStep s a).calls[i]? = some c' ∧
      c'.phase.remaining ≤ c.phase.remaining - (if a.isStep i then 1 else 0) := by
  have hi := (List.getElem?_eq_some_iff.1 hc).1
  cases a with
  | call key =>
    refine ⟨c, ?_, by simp [LogAction.isStep]⟩
    unfold logOnceStep
    cases hkey : logHash key with
    | none => simpa only [hkey] using hc
    | some hash => simpa only [hkey] using (List.getElem?_append_left hi).trans hc
  | step j =>
    by_cases hj : j = i
    · subst hj
      have hle := remaining_attempt c s.keys
      refine ⟨(c.attempt s.keys).1, ?_, by simpa [LogAction.isStep] using hle⟩
      simp only [logOnceStep, hc]
      exact List.getElem?_set_self hi
    · refine ⟨c, ?_, by simp [LogAction.isStep, hj]⟩
      unfold logOnceStep
      cases hd : s.calls[j]? with
      | none => simpa only [hd] using hc
      | some d => simpa only [hd] using (List.getElem?_set_ne hj).trans hc

theorem remaining_run {s : LogTable} {i : ℕ} {c : LogCall} (hc : s.calls[i]? = some c)
    (actions : List LogAction) : ∃ c', (run logOnceStep s actions).calls[i]? = some c' ∧
      c'.phase.remaining ≤ c.phase.remaining - actions.countP (LogAction.isStep i) := by
  induction actions generalizing s c with
  | nil => exact ⟨c, hc, by simp⟩
  | cons a actions ih =>
    obtain ⟨c', hc', hle⟩ := remaining_logOnceStep hc a
    obtain ⟨c'', hc'', hle'⟩ := ih hc'
    refine ⟨c'', hc'', ?_⟩
    rw [List.countP_cons]
    omega

/-- The `i`-th call is back, with an answer for its hash. -/
def LogTable.Tells (s : LogTable) (i : ℕ) (hash : BitVec 64) (answer : Bool) : Prop :=
  ∃ c, s.calls[i]? = some c ∧ c.hash = hash ∧ c.phase.answer = some answer

section Inv

variable {s : LogTable} (h : LogTableInv s)
include h

theorem claims_unique {i j : ℕ} {idx : Fin kMaxKeys} (hi : s.Claims i idx) (hj : s.Claims j idx) :
    i = j := by
  obtain ⟨c, hc, hphase⟩ := hi
  have hstanding := h.standing c (List.mem_of_getElem? hc)
  rw [LogCall.Standing, hphase] at hstanding
  exact (h.owner idx (hstanding ▸ c.hash_ne)).unique ⟨c, hc, hphase⟩ hj

/-- A slot is claimed by a call for the hash that it holds. -/
theorem exists_claims {idx : Fin kMaxKeys} (hidx : s.keys idx ≠ 0) :
    ∃ i, s.Claims i idx ∧ s.Tells i (s.keys idx) true := by
  obtain ⟨i, ⟨c, hc, hphase⟩, -⟩ := h.owner idx hidx
  have hstanding := h.standing c (List.mem_of_getElem? hc)
  rw [LogCall.Standing, hphase] at hstanding
  exact ⟨i, ⟨c, hc, hphase⟩, c, hc, hstanding.symm, by rw [hphase]; rfl⟩

/-- A call that is told to log has claimed a slot, or found the table full. -/
theorem tells_true {j : ℕ} {hash : BitVec 64} (htells : s.Tells j hash true) :
    (∃ idx, s.Claims j idx ∧ s.keys idx = hash) ∨ Passed slotOf (slots s.keys) hash kMaxKeys := by
  obtain ⟨c, hc, rfl, hanswer⟩ := htells
  have hstanding := h.standing c (List.mem_of_getElem? hc)
  unfold LogCall.Standing at hstanding
  cases hphase : c.phase with
  | loop step =>
    rw [hphase] at hanswer
    contradiction
  | claimed idx =>
    rw [hphase] at hstanding
    exact .inl ⟨idx, ⟨c, hc, hphase⟩, hstanding⟩
  | found =>
    rw [hphase] at hanswer
    contradiction
  | full =>
    rw [hphase] at hstanding
    exact .inr hstanding

/-- Once a hash is in the table, the call that is told to log is the one that claimed its slot. -/
theorem claims_of_tells {idx : Fin kMaxKeys} (hidx : s.keys idx ≠ 0) {j : ℕ}
    (htells : s.Tells j (s.keys idx) true) : s.Claims j idx := by
  have hslot : slots s.keys idx = some (s.keys idx) := slots_eq_some.2 ⟨rfl, hidx⟩
  rcases tells_true h htells with ⟨idx', hclaims, hkey⟩ | hpassed
  · have hslot' : slots s.keys idx' = some (s.keys idx) := slots_eq_some.2 ⟨hkey, hidx⟩
    rwa [h.placed.slot_unique hslot hslot']
  · exact absurd hpassed (h.placed.not_passed hslot)

/-- With at most as many hashes as slots, the hash of a call that is back is in the table. -/
theorem exists_key_of_tells
    (hcard : (s.calls.map LogCall.hash).toFinset.card ≤ kMaxKeys) {i : ℕ} {hash : BitVec 64}
    {answer : Bool} (htells : s.Tells i hash answer) : ∃ idx, s.keys idx = hash ∧ hash ≠ 0 := by
  have hmem {j : ℕ} {hash : BitVec 64} {answer : Bool} (htells : s.Tells j hash answer) :
      hash ∈ (s.calls.map LogCall.hash).toFinset := by
    obtain ⟨c, hc, rfl, -⟩ := htells
    exact List.mem_toFinset.2 (List.mem_map_of_mem (List.mem_of_getElem? hc))
  have hnot : ¬ Passed slotOf (slots s.keys) hash kMaxKeys := by
    intro hpassed
    have hlt := h.placed.card_lt_of_passed (exists_slotOf hash) hpassed (hmem htells)
      fun slot k hk => by
        obtain ⟨rfl, hne⟩ := slots_eq_some.1 hk
        obtain ⟨j, -, htells'⟩ := exists_claims h hne
        exact hmem htells'
    omega
  cases answer with
  | true =>
    obtain ⟨idx, -, hkey⟩ := (tells_true h htells).resolve_right hnot
    obtain ⟨c, -, rfl, -⟩ := htells
    exact ⟨idx, hkey, c.hash_ne⟩
  | false =>
    obtain ⟨c, hc, rfl, hanswer⟩ := htells
    have hstanding := h.standing c (List.mem_of_getElem? hc)
    unfold LogCall.Standing at hstanding
    cases hphase : c.phase with
    | found =>
      rw [hphase] at hstanding
      obtain ⟨idx, hkey⟩ := hstanding
      exact ⟨idx, hkey, c.hash_ne⟩
    | _ => simp [hphase, LogPhase.answer] at hanswer

/-- A call without rounds left is back. -/
theorem exists_tells {i : ℕ} {c : LogCall} (hc : s.calls[i]? = some c)
    (hzero : c.phase.remaining = 0) : ∃ hash answer, s.Tells i hash answer := by
  have hanswer : c.phase.answer.isSome := by
    cases hphase : c.phase with
    | loop step =>
      have hstanding := h.standing c (List.mem_of_getElem? hc)
      rw [LogCall.Standing, hphase] at hstanding
      rw [hphase] at hzero
      exact absurd hstanding.1 (Nat.not_lt.2 (Nat.sub_eq_zero_iff_le.1 hzero))
    | _ => rfl
  obtain ⟨answer, hanswer⟩ := Option.isSome_iff_exists.1 hanswer
  exact ⟨c.hash, answer, c, hc, rfl, hanswer⟩

end Inv

theorem remaining_le (phase : LogPhase) : phase.remaining ≤ kMaxKeys := by
  cases phase with
  | loop step => exact Nat.sub_le _ _
  | _ => exact Nat.zero_le _

/-- **In any order of calls and rounds, there is one call for each hash that was asked for, in
this order. As long as there are at most 128 hashes, one call of each hash that has an answer is
told to log, the one that claimed its slot. A call is back after 128 rounds of its own. A call is
not told to log any more once its hash is in the table.** -/
theorem logOnce (actions : List LogAction) :
    let s := run logOnceStep {} actions
    s.calls.map LogCall.hash = actions.filterMap LogAction.asks ∧
    ((s.calls.map LogCall.hash).toFinset.card ≤ kMaxKeys →
      ∀ i hash answer, s.Tells i hash answer →
        (∃! j, s.Tells j hash true) ∧
          ∀ j, s.Tells j hash true → ∃ idx, s.Claims j idx ∧ s.keys idx = hash) ∧
      (∀ i < s.calls.length, ∀ more, kMaxKeys ≤ more.countP (LogAction.isStep i) →
        ∃ hash answer, (run logOnceStep s more).Tells i hash answer) ∧
      ∀ idx, s.keys idx ≠ 0 → ∀ more j,
        (run logOnceStep s more).Tells j (s.keys idx) true → s.Tells j (s.keys idx) true := by
  intro s
  have hrun {s : LogTable} (h : LogTableInv s) (actions : List LogAction) :
      LogTableInv (run logOnceStep s actions) :=
    run_invariant (I := LogTableInv) (fun s a h => logTableInv_logOnceStep h a) h actions
  have hinv : LogTableInv s := hrun logTableInv_empty actions
  have hmore := hrun hinv
  refine ⟨hashes_run {} actions, fun hcard i hash answer htells => ?_,
    fun i hi more hrounds => ?_, fun idx hidx more j htells => ?_⟩
  · obtain ⟨idx, rfl, hidx⟩ := exists_key_of_tells hinv hcard htells
    obtain ⟨i, hclaims, htells⟩ := exists_claims hinv hidx
    refine ⟨⟨i, htells, fun j hj => ?_⟩, fun j hj => ⟨idx, claims_of_tells hinv hidx hj, rfl⟩⟩
    exact claims_unique hinv (claims_of_tells hinv hidx hj) hclaims
  · obtain ⟨c, hc, hle⟩ := remaining_run (List.getElem?_eq_getElem hi) more
    have hbound := remaining_le s.calls[i].phase
    exact exists_tells (hmore more) hc (by omega)
  · obtain ⟨hkey, -⟩ := slots_eq_some.1
      ((before_run s more).grows idx _ (slots_eq_some.2 ⟨rfl, hidx⟩))
    obtain ⟨i, ⟨c, hc, hphase⟩, htells'⟩ := exists_claims hinv hidx
    have hclaims : (run logOnceStep s more).Claims i idx :=
      ⟨c, (before_run s more).answered i c hc (by rw [hphase]; rfl), hphase⟩
    have hj := claims_of_tells (hmore more) (hkey.symm ▸ hidx) (hkey.symm ▸ htells)
    rwa [claims_unique (hmore more) hj hclaims]

end D3Hack
