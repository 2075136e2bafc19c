import D3Hack.Loops
import D3Hack.WordMemory
import Mathlib.Data.List.Basic
import Mathlib.Logic.Basic

/-!
# Repairing the reward list

Before the game grants a challenge rift reward, the hook walks the player's reward list in game
memory, and if no node is of the current season it gives the first untagged node that season.
The list may be cyclic or broken: the loop reads through an oracle of readable addresses and
stops after a bound.

`Reaches` is a list that ends at the sentinel or at null with all its nodes readable, and
`FirstUntagged` the node that a repair changes. `challengeRiftGrantReward_spec` says what the
hook does to every memory; running it twice is running it once where the nodes overlap neither
each other nor the word of the head (`not_twiceIsOnce_headOverlap`).
-/

namespace D3Hack

open Loops WordMemory

/-! ## The hook -/

/-- Where a player has the end of the list. -/
def kRewardsListSentinelOff : Addr := 0xDD88

/-- Where a player has its head. -/
def kRewardsListHeadOff : Addr := 0xDD90

/-- Where a node has the next one. -/
def kNodeNextOff : Addr := 0x8

/-- Where a node has the season. -/
def kNodeSeasonEarnedOff : Addr := 0x48

/-- The most nodes that are visited. -/
def kMaxRewardNodes : ℕ := 4096

/-- The `season_earned` of a node. -/
def seasonEarned (m : Memory) (node : Addr) : BitVec 32 :=
  BitVec.ofNat 32 (load m (node + kNodeSeasonEarnedOff) 4)

/-- The successor of a node. -/
def nextNode (m : Memory) (node : Addr) : Addr := BitVec.ofNat 64 (load m (node + kNodeNextOff) 8)

/-- The variables of the scan, with the addresses it has dereferenced. -/
structure RewardScan where
  node : Addr
  hasCurrent : Bool := false
  firstZero : Addr := 0
  visited : ℕ := 0
  scanAborted : Bool := false
  derefs : List Addr := []

section Hook

variable (readable : Addr → Bool) (curSeason : BitVec 32) (player : Addr) (m : Memory)

/-- The condition of the loop over the nodes. -/
def atNode (s : RewardScan) : Bool := s.node ≠ 0 && s.node ≠ player + kRewardsListSentinelOff

/-- The scan after a node of another season: an untagged node is remembered if it is the first,
and the next node is read. -/
def RewardScan.advance (s : RewardScan) : RewardScan :=
  { s with
    visited := s.visited + 1
    firstZero := if seasonEarned m s.node = 0 ∧ s.firstZero = 0 then s.node else s.firstZero
    node := nextNode m s.node
    derefs := s.derefs ++ [s.node + kNodeSeasonEarnedOff, s.node + kNodeNextOff] }

/-- An iteration of the loop, and whether it goes on. -/
def visitNode (s : RewardScan) : Bool × RewardScan :=
  let visited := s.visited + 1
  if visited > kMaxRewardNodes then (false, { s with visited, scanAborted := true })
  else
    let seasonAddr := s.node + kNodeSeasonEarnedOff
    let nextAddr := s.node + kNodeNextOff
    if !readable seasonAddr || !readable nextAddr then
      (false, { s with visited, scanAborted := true })
    else if seasonEarned m s.node = curSeason then
      (false, { s with visited, derefs := s.derefs ++ [seasonAddr], hasCurrent := true })
    else (true, s.advance m)

/-- The memory after the hook, and the addresses it has dereferenced. -/
structure Repair where
  mem : Memory
  derefs : List Addr := []

/-- The scan before its first iteration. -/
def startScan : RewardScan :=
  let headPtrAddr := player + kRewardsListHeadOff
  if readable headPtrAddr then
    { node := BitVec.ofNat 64 (load m headPtrAddr 8), derefs := [headPtrAddr] }
  else { node := 0 }

/-- The write after the scan. -/
def writeSeason (s : RewardScan) : Repair :=
  if !s.scanAborted ∧ !s.hasCurrent ∧ s.firstZero ≠ 0 then
    let firstZeroSeasonAddr := s.firstZero + kNodeSeasonEarnedOff
    if !readable firstZeroSeasonAddr then { mem := m, derefs := s.derefs }
    else
      { mem := store m firstZeroSeasonAddr 4 curSeason.toNat
        derefs := s.derefs ++ [firstZeroSeasonAddr, firstZeroSeasonAddr] }
  else { mem := m, derefs := s.derefs }

/-- What the hook does to the list with a current season, if the loop is over after at most `n`
iterations. -/
def repairRewards (n : ℕ) : Option Repair :=
  (loop (atNode player) (visitNode readable curSeason m) n (startScan readable player m)).map
    (writeSeason readable curSeason m)

/-- `ChallengeRiftGrantRewardToPlayerIfEligibleHook`, up to the call of the original. -/
def challengeRiftGrantReward (active : Bool) (n : ℕ) : Option Repair :=
  if active ∧ player ≠ 0 ∧ curSeason ≠ 0 then repairRewards readable curSeason player m n
  else some { mem := m }

end Hook

/-! ## What the scan sees -/

section Scan

variable (readable : Addr → Bool) (curSeason : BitVec 32) (player : Addr) (m : Memory)

/-- The node that the scan starts at. -/
abbrev headNode : Addr := (startScan readable player m).node

/-- From a node on, the list ends at null or at the sentinel after the given nodes, and their
words are readable. -/
def Reaches : Addr → List Addr → Prop
  | node, [] => node = 0 ∨ node = player + kRewardsListSentinelOff
  | node, first :: rest => first = node ∧ node ≠ 0 ∧ node ≠ player + kRewardsListSentinelOff ∧
      readable (node + kNodeSeasonEarnedOff) = true ∧ readable (node + kNodeNextOff) = true ∧
        Reaches (nextNode m node) rest

/-- The scan gets to the end of the list within its bound, meets no node of the current season,
and `z` is the first node it meets with season 0. -/
def FirstUntagged (z : Addr) : Prop :=
  ∃ nodes, Reaches readable player m (headNode readable player m) nodes ∧
    nodes.length ≤ kMaxRewardNodes ∧ (∀ a ∈ nodes, seasonEarned m a ≠ curSeason) ∧
      nodes.find? (fun a => seasonEarned m a = 0) = some z

/-- The nodes of a list that ends do not overlap. -/
def NodesApart : Prop :=
  ∀ nodes, Reaches readable player m (headNode readable player m) nodes →
    ∀ a ∈ nodes, ∀ b ∈ nodes, a ≠ b → Separate a 0x4C b 0x4C

/-- The nodes of a list that ends do not overlap the word of the list's head, which is the link
of the sentinel. -/
def HeadApart : Prop :=
  ∀ nodes, Reaches readable player m (headNode readable player m) nodes →
    ∀ a ∈ nodes, Separate a 0x4C (player + kRewardsListHeadOff) 8

/-- Running the hook again leaves the memory that it left. -/
def TwiceIsOnce : Prop :=
  ∀ r, challengeRiftGrantReward readable curSeason player m true (kMaxRewardNodes + 1) = some r →
    ∃ r', challengeRiftGrantReward readable curSeason player r.mem true (kMaxRewardNodes + 1) =
      some r' ∧ r'.mem = r.mem

end Scan

variable {readable : Addr → Bool} {curSeason : BitVec 32} {player : Addr} {m : Memory}
  {s s' : RewardScan} {n : ℕ}

/-- The nodes of a list that ends are not null, and their words are readable. -/
theorem Reaches.mem {node : Addr} {nodes : List Addr} (h : Reaches readable player m node nodes) :
    ∀ a ∈ nodes, a ≠ 0 ∧ readable (a + kNodeSeasonEarnedOff) = true := by
  induction nodes generalizing node with
  | nil =>
    rintro a ⟨⟩
  | cons first rest ih =>
    obtain ⟨rfl, hne, -, hseason, -, hrest⟩ := h
    rintro a (_ | ⟨_, ha⟩)
    · exact ⟨hne, hseason⟩
    · exact ih hrest a ha

/-! ## One iteration -/

theorem atNode_iff : atNode player s = true ↔
    s.node ≠ 0 ∧ s.node ≠ player + kRewardsListSentinelOff := by
  simp [atNode]

theorem atNode_eq_false : atNode player s = false ↔
    s.node = 0 ∨ s.node = player + kRewardsListSentinelOff := by
  rw [← Bool.not_eq_true, atNode_iff, not_and_or, not_not, not_not]

/-- An iteration breaks off at the bound or at an unreadable node, ends at a node of the current
season, and goes on at any other. -/
theorem visitNode_cases (readable : Addr → Bool) (curSeason : BitVec 32) (m : Memory)
    (s : RewardScan) :
    visitNode readable curSeason m s =
        (false, { s with visited := s.visited + 1, scanAborted := true }) ∨
      (s.visited < kMaxRewardNodes ∧ readable (s.node + kNodeSeasonEarnedOff) = true ∧
          readable (s.node + kNodeNextOff) = true) ∧
        ((seasonEarned m s.node = curSeason ∧ visitNode readable curSeason m s =
            (false, { s with
              visited := s.visited + 1, derefs := s.derefs ++ [s.node + kNodeSeasonEarnedOff]
              hasCurrent := true })) ∨
          (seasonEarned m s.node ≠ curSeason ∧
            visitNode readable curSeason m s = (true, s.advance m))) := by
  unfold visitNode
  dsimp only
  split_ifs with hbound hreadable hseason
  · exact Or.inl rfl
  · exact Or.inl rfl
  all_goals
    rw [Bool.or_eq_true, not_or, Bool.not_eq_true', Bool.not_eq_true', Bool.not_eq_false,
      Bool.not_eq_false] at hreadable
    refine Or.inr ⟨⟨by omega, hreadable⟩, ?_⟩
  · exact Or.inl ⟨hseason, rfl⟩
  · exact Or.inr ⟨hseason, rfl⟩

/-- An iteration that goes on has read the node, and advances. -/
theorem visitNode_go (h : visitNode readable curSeason m s = (true, s')) :
    (s.visited < kMaxRewardNodes ∧ readable (s.node + kNodeSeasonEarnedOff) = true ∧
      readable (s.node + kNodeNextOff) = true) ∧ s' = s.advance m := by
  rcases visitNode_cases readable curSeason m s with
    hvisit | ⟨hread, ⟨-, hvisit⟩ | ⟨-, hvisit⟩⟩ <;> rw [hvisit] at h
  · exact absurd (congrArg Prod.fst h) Bool.false_ne_true
  · exact absurd (congrArg Prod.fst h) Bool.false_ne_true
  · exact ⟨hread, (congrArg Prod.snd h).symm⟩

/-- An iteration that breaks off has dereferenced nothing, or the season of its node. -/
theorem visitNode_break (h : visitNode readable curSeason m s = (false, s')) :
    s'.derefs = s.derefs ∨ readable (s.node + kNodeSeasonEarnedOff) = true ∧
      s'.derefs = s.derefs ++ [s.node + kNodeSeasonEarnedOff] := by
  rcases visitNode_cases readable curSeason m s with
    hvisit | ⟨⟨-, hseason, -⟩, ⟨-, hvisit⟩ | ⟨-, hvisit⟩⟩ <;> rw [hvisit] at h
  · exact Or.inl (congrArg (fun r => r.2.derefs) h).symm
  · exact Or.inr ⟨hseason, (congrArg (fun r => r.2.derefs) h).symm⟩
  · exact absurd (congrArg Prod.fst h).symm Bool.false_ne_true

@[simp] theorem advance_visited (m : Memory) (s : RewardScan) :
    (s.advance m).visited = s.visited + 1 := rfl

@[simp] theorem advance_scanAborted (m : Memory) (s : RewardScan) :
    (s.advance m).scanAborted = s.scanAborted := by
  simp only [RewardScan.advance]

@[simp] theorem advance_hasCurrent (m : Memory) (s : RewardScan) :
    (s.advance m).hasCurrent = s.hasCurrent := by
  simp only [RewardScan.advance]

theorem visitNode_advance (hbound : s.visited < kMaxRewardNodes)
    (hseason : readable (s.node + kNodeSeasonEarnedOff) = true)
    (hnext : readable (s.node + kNodeNextOff) = true)
    (hother : seasonEarned m s.node ≠ curSeason) :
    visitNode readable curSeason m s = (true, s.advance m) := by
  unfold visitNode
  dsimp only
  rw [if_neg (by omega), if_neg (by simp [hseason, hnext]), if_neg hother]

/-! ## The loop -/

/-- The loop is over within 4097 iterations. -/
theorem scan_terminates (readable : Addr → Bool) (curSeason : BitVec 32) (player : Addr)
    (m : Memory) : ∃ s', loop (atNode player) (visitNode readable curSeason m)
      (kMaxRewardNodes + 1) (startScan readable player m) = some s' := by
  refine loop_terminates (I := fun s => s.visited ≤ kMaxRewardNodes)
    (fun s => kMaxRewardNodes + 1 - s.visited) ?_ ?_ ?_ (Nat.sub_le _ _)
  · intro s hs _
    omega
  · intro s s' hs _ hstep
    obtain ⟨⟨hlt, -⟩, rfl⟩ := visitNode_go hstep
    rw [advance_visited]
    omega
  · unfold startScan
    dsimp only
    split_ifs <;> exact Nat.zero_le _

/-- Everything the scan has dereferenced is readable. -/
def ReadsReadable (readable : Addr → Bool) (s : RewardScan) : Prop :=
  ∀ a ∈ s.derefs, readable a = true

theorem readsReadable_scan
    (h : loop (atNode player) (visitNode readable curSeason m) n (startScan readable player m) =
      some s') : ReadsReadable readable s' := by
  refine loop_rule (I := ReadsReadable readable) (fun s hs _ => hs) ?_ ?_ ?_ h
  · intro s s' hderefs _ hstep
    obtain ⟨⟨-, hseason, hnext⟩, rfl⟩ := visitNode_go hstep
    intro a ha
    rcases List.mem_append.1 ha with ha | ha
    · exact hderefs a ha
    · rcases List.mem_pair.1 ha with rfl | rfl
      · exact hseason
      · exact hnext
  · intro s s' hderefs _ hstep a ha
    rcases visitNode_break hstep with h | ⟨hseason, h⟩ <;> rw [h] at ha
    · exact hderefs a ha
    · rcases List.mem_append.1 ha with ha | ha
      · exact hderefs a ha
      · rwa [List.mem_singleton.1 ha]
  · unfold startScan
    dsimp only
    split_ifs with hhead
    · exact fun a ha => by rwa [List.mem_singleton.1 ha]
    · exact fun _ ha => absurd ha List.not_mem_nil

/-- Along a list that ends within the bound, with no node of the current season, the loop is over
at the end of the list and remembers the first untagged node. -/
theorem loop_of_reaches {nodes : List Addr} (hreach : Reaches readable player m s.node nodes)
    (hlength : s.visited + nodes.length ≤ kMaxRewardNodes)
    (hother : ∀ a ∈ nodes, seasonEarned m a ≠ curSeason) :
    ∃ s', loop (atNode player) (visitNode readable curSeason m) nodes.length s = some s' ∧
      s'.scanAborted = s.scanAborted ∧ s'.hasCurrent = s.hasCurrent ∧
        s'.firstZero = if s.firstZero = 0 then
          (nodes.find? fun a => seasonEarned m a = 0).getD 0 else s.firstZero := by
  induction nodes generalizing s with
  | nil =>
    refine ⟨s, loop_of_not (atNode_eq_false.2 hreach), rfl, rfl, ?_⟩
    split_ifs with hzero
    · exact hzero
    · rfl
  | cons first rest ih =>
    obtain ⟨rfl, hne, hsentinel, hseason, hnext, hrest⟩ := hreach
    rw [List.length_cons] at hlength
    have hvisit : visitNode readable curSeason m s = (true, s.advance m) :=
      visitNode_advance (by omega) hseason hnext (hother _ List.mem_cons_self)
    obtain ⟨s', hloop, haborted, hcurrent, hfirst⟩ := ih (s := s.advance m) hrest
      (by rw [advance_visited]; omega) fun a ha => hother a (List.mem_cons_of_mem _ ha)
    rw [advance_scanAborted] at haborted
    rw [advance_hasCurrent] at hcurrent
    refine ⟨s', ?_, haborted, hcurrent, ?_⟩
    · rw [List.length_cons, loop_go (atNode_iff.2 ⟨hne, hsentinel⟩) hvisit, hloop]
    · rw [hfirst]
      by_cases huntagged : seasonEarned m s.node = 0
      · rw [List.find?_cons_of_pos (by rw [huntagged]; rfl), Option.getD_some]
        by_cases hzero : s.firstZero = 0
        · have hadvance : (s.advance m).firstZero = s.node := if_pos ⟨huntagged, hzero⟩
          rw [hadvance, if_neg hne, if_pos hzero]
        · have hadvance : (s.advance m).firstZero = s.firstZero := if_neg fun h => hzero h.2
          rw [hadvance, if_neg hzero, if_neg hzero]
      · have hadvance : (s.advance m).firstZero = s.firstZero := if_neg fun h => huntagged h.1
        rw [List.find?_cons_of_neg (by simpa using huntagged), hadvance]

/-- A loop that is over with no abort and no node of the current season has met the whole list. -/
theorem reaches_of_loop
    (h : loop (atNode player) (visitNode readable curSeason m) n s = some s')
    (haborted : s'.scanAborted = false) (hcurrent : s'.hasCurrent = false)
    (hbound : s.visited ≤ kMaxRewardNodes) :
    ∃ nodes, Reaches readable player m s.node nodes ∧
      s.visited + nodes.length ≤ kMaxRewardNodes ∧
        ∀ a ∈ nodes, seasonEarned m a ≠ curSeason := by
  induction n generalizing s with
  | zero =>
    cases hc : atNode player s with
    | false => exact ⟨[], atNode_eq_false.1 hc, hbound, fun _ ha => absurd ha List.not_mem_nil⟩
    | true =>
      rw [loop_zero hc] at h
      cases h
  | succ n ih =>
    cases hc : atNode player s with
    | false => exact ⟨[], atNode_eq_false.1 hc, hbound, fun _ ha => absurd ha List.not_mem_nil⟩
    | true =>
      rcases visitNode_cases readable curSeason m s with
        hvisit | ⟨⟨hlt, hseason, hnext⟩, ⟨-, hvisit⟩ | ⟨hother, hvisit⟩⟩
      · rw [loop_break hc hvisit] at h
        obtain rfl := Option.some.inj h
        cases haborted
      · rw [loop_break hc hvisit] at h
        obtain rfl := Option.some.inj h
        cases hcurrent
      · rw [loop_go hc hvisit] at h
        obtain ⟨nodes, hreach, hlength, hothers⟩ := ih h hlt
        obtain ⟨hne, hsentinel⟩ := atNode_iff.1 hc
        rw [advance_visited] at hlength
        refine ⟨s.node :: nodes, ⟨rfl, hne, hsentinel, hseason, hnext, hreach⟩, ?_, ?_⟩
        · rw [List.length_cons]
          omega
        · rintro a (_ | ⟨_, ha⟩)
          · exact hother
          · exact hothers a ha

/-! ## The repair -/

/-- A season written to a node is the node's, and nothing else changes. -/
theorem store_season (m : Memory) (z : Addr) (season : BitVec 32) :
    seasonEarned (store m (z + kNodeSeasonEarnedOff) 4 season.toNat) z = season ∧
      ∀ x, ¬InWindow (z + kNodeSeasonEarnedOff) 4 x →
        store m (z + kNodeSeasonEarnedOff) 4 season.toNat x = m x := by
  refine ⟨?_, fun x hx => store_of_not_inWindow hx⟩
  have hlt : season.toNat < 256 ^ 4 := season.isLt
  rw [seasonEarned, load_store (by omega), Nat.mod_eq_of_lt hlt, BitVec.ofNat_toNat,
    BitVec.setWidth_eq]

theorem startScan_flags (readable : Addr → Bool) (player : Addr) (m : Memory) :
    (startScan readable player m).visited = 0 ∧
      (startScan readable player m).scanAborted = false ∧
        (startScan readable player m).hasCurrent = false ∧
          (startScan readable player m).firstZero = 0 := by
  unfold startScan
  dsimp only
  split_ifs <;> exact ⟨rfl, rfl, rfl, rfl⟩

/-- Where the scan gets to the end of the list and meets no node of the current season, the first
untagged node is written, if there is one. -/
theorem writeSeason_of_reaches {nodes : List Addr}
    (hreach : Reaches readable player m (headNode readable player m) nodes)
    (hlength : nodes.length ≤ kMaxRewardNodes)
    (hother : ∀ a ∈ nodes, seasonEarned m a ≠ curSeason)
    (h : loop (atNode player) (visitNode readable curSeason m) n (startScan readable player m) =
      some s') (hn : kMaxRewardNodes ≤ n) :
    (writeSeason readable curSeason m s').mem =
      match nodes.find? fun a => seasonEarned m a = 0 with
      | some z => store m (z + kNodeSeasonEarnedOff) 4 curSeason.toNat
      | none => m := by
  obtain ⟨hvisited, haborted₀, hcurrent₀, hfirst₀⟩ := startScan_flags readable player m
  obtain ⟨s'', hloop, haborted, hcurrent, hfirst⟩ := loop_of_reaches hreach
    (by rw [hvisited]; omega) hother
  obtain rfl := Option.some.inj ((loop_mono hloop (Nat.le_trans hlength hn)).symm.trans h)
  rw [haborted₀] at haborted
  rw [hcurrent₀] at hcurrent
  rw [hfirst₀, if_pos rfl] at hfirst
  unfold writeSeason
  rw [haborted, hcurrent, hfirst]
  cases hfind : nodes.find? fun a => seasonEarned m a = 0 with
  | none => rw [if_neg (by simp)]
  | some z =>
    obtain ⟨hne, hseason⟩ := hreach.mem z (List.mem_of_find?_eq_some hfind)
    rw [Option.getD_some, if_pos ⟨rfl, rfl, hne⟩]
    dsimp only
    rw [hseason, if_neg (by simp)]

/-- Where it does not, the memory is unchanged. -/
theorem writeSeason_of_not_reaches
    (hnone : ∀ nodes, Reaches readable player m (headNode readable player m) nodes →
      nodes.length ≤ kMaxRewardNodes → ¬∀ a ∈ nodes, seasonEarned m a ≠ curSeason)
    (h : loop (atNode player) (visitNode readable curSeason m) n (startScan readable player m) =
      some s') : (writeSeason readable curSeason m s').mem = m := by
  unfold writeSeason
  rw [if_neg]
  rintro ⟨haborted, hcurrent, -⟩
  have hvisited := (startScan_flags readable player m).1
  obtain ⟨nodes, hreach, hlength, hother⟩ := reaches_of_loop h (by simpa using haborted)
    (by simpa using hcurrent) (by rw [hvisited]; exact Nat.zero_le _)
  rw [hvisited, Nat.zero_add] at hlength
  exact hnone nodes hreach hlength hother

/-- The season is written to a readable address. -/
theorem derefs_writeSeason {s : RewardScan} (hs : ReadsReadable readable s) :
    ∀ a ∈ (writeSeason readable curSeason m s).derefs, readable a = true := by
  unfold writeSeason
  dsimp only
  split_ifs with hwrite hreadable
  · exact hs
  · intro a ha
    rcases List.mem_append.1 ha with ha | ha
    · exact hs a ha
    · obtain rfl : a = s.firstZero + kNodeSeasonEarnedOff := by simpa using ha
      simpa using hreadable
  · exact hs

theorem repairRewards_mem {r : Repair}
    (hr : repairRewards readable curSeason player m (kMaxRewardNodes + 1) = some r) :
    (∀ z, FirstUntagged readable curSeason player m z →
        r.mem = store m (z + kNodeSeasonEarnedOff) 4 curSeason.toNat) ∧
      ((∀ z, ¬FirstUntagged readable curSeason player m z) → r.mem = m) := by
  obtain ⟨s', hloop, rfl⟩ := Option.map_eq_some_iff.1 hr
  refine ⟨?_, fun hnone => ?_⟩
  · rintro z ⟨nodes, hreach, hlength, hother, hfind⟩
    rw [writeSeason_of_reaches hreach hlength hother hloop (Nat.le_succ _), hfind]
  · by_cases hend : ∃ nodes, Reaches readable player m (headNode readable player m) nodes ∧
        nodes.length ≤ kMaxRewardNodes ∧ ∀ a ∈ nodes, seasonEarned m a ≠ curSeason
    · obtain ⟨nodes, hreach, hlength, hother⟩ := hend
      rw [writeSeason_of_reaches hreach hlength hother hloop (Nat.le_succ _)]
      cases hfind : nodes.find? fun a => seasonEarned m a = 0 with
      | none => rfl
      | some z => exact absurd ⟨nodes, hreach, hlength, hother, hfind⟩ (hnone z)
    · exact writeSeason_of_not_reaches (fun nodes hreach hlength hother =>
        hend ⟨nodes, hreach, hlength, hother⟩) hloop

/-! ## Repairing twice -/

theorem separate_words {a b : Addr} (h : Separate a 0x4C b 0x4C) :
    Separate (a + kNodeSeasonEarnedOff) 4 (b + kNodeNextOff) 8 := by
  intro x hx hx'
  exact h x (hx.add (k := 0x48) (by omega)) ((hx'.add (k := 8) (by omega)).mono (by omega))

/-- The two words of a node do not overlap. -/
theorem separate_self (a : Addr) : Separate (a + kNodeSeasonEarnedOff) 4 (a + kNodeNextOff) 8 := by
  intro x hx hx'
  unfold InWindow kNodeSeasonEarnedOff kNodeNextOff at *
  bv_omega

/-- A season written to a node of a list whose nodes are apart changes no link of the list. -/
theorem nextNode_store {z a : Addr} {season : BitVec 32} (h : z ≠ a → Separate z 0x4C a 0x4C) :
    nextNode (store m (z + kNodeSeasonEarnedOff) 4 season.toNat) a = nextNode m a := by
  have hwords : Separate (z + kNodeSeasonEarnedOff) 4 (a + kNodeNextOff) 8 := by
    by_cases hza : z = a
    · rw [hza]
      exact separate_self a
    · exact separate_words (h hza)
  rw [nextNode, load_store_of_separate (by omega) hwords, nextNode]

theorem headNode_store {z : Addr} {season : BitVec 32}
    (h : Separate z 0x4C (player + kRewardsListHeadOff) 8) :
    headNode readable player (store m (z + kNodeSeasonEarnedOff) 4 season.toNat) =
      headNode readable player m := by
  have hhead : Separate (z + kNodeSeasonEarnedOff) 4 (player + kRewardsListHeadOff) 8 :=
    fun x hx => h x (hx.add (k := 0x48) (by omega))
  unfold headNode startScan
  dsimp only
  rw [load_store_of_separate (by omega) hhead]

/-- Lists through the same links from the same node have the same nodes. -/
theorem reaches_unique {m' : Memory} {node : Addr} {nodes nodes' : List Addr}
    (h : Reaches readable player m node nodes) (h' : Reaches readable player m' node nodes')
    (hnext : ∀ a ∈ nodes, nextNode m' a = nextNode m a) : nodes' = nodes := by
  induction nodes generalizing node nodes' with
  | nil =>
    cases nodes' with
    | nil => rfl
    | cons first rest =>
      obtain ⟨-, hne, hsentinel, -⟩ := h'
      rcases h with hzero | hend
      · exact absurd hzero hne
      · exact absurd hend hsentinel
  | cons first rest ih =>
    obtain ⟨rfl, hne, hsentinel, -, -, hrest⟩ := h
    cases nodes' with
    | nil =>
      rcases h' with hzero | hend
      · exact absurd hzero hne
      · exact absurd hend hsentinel
    | cons first' rest' =>
      obtain ⟨rfl, -, -, -, -, hrest'⟩ := h'
      rw [hnext _ List.mem_cons_self] at hrest'
      rw [ih hrest hrest' fun a ha => hnext a (List.mem_cons_of_mem _ ha)]

/-- After a node has been given the current season, the scan of a list whose nodes are apart from
each other and from its head finds no untagged node to change. -/
theorem not_firstUntagged_store (hapart : NodesApart readable player m)
    (hhead : HeadApart readable player m) {z : Addr}
    (hz : FirstUntagged readable curSeason player m z) (z' : Addr) :
    ¬FirstUntagged readable curSeason player
      (store m (z + kNodeSeasonEarnedOff) 4 curSeason.toNat) z' := by
  obtain ⟨nodes, hreach, -, -, hfind⟩ := hz
  have hmem := List.mem_of_find?_eq_some hfind
  rintro ⟨nodes', hreach', -, hother', -⟩
  rw [headNode_store (hhead nodes hreach z hmem)] at hreach'
  have hnodes := hapart nodes hreach z hmem
  obtain rfl := reaches_unique hreach hreach' fun a ha => nextNode_store (hnodes a ha)
  exact hother' z hmem (store_season m z curSeason).1

/-- The repair is over within 4097 iterations, writes the first untagged node or nothing, and
changes nothing more when it is made again. -/
theorem repairRewards_spec (readable : Addr → Bool) (curSeason : BitVec 32) (player : Addr)
    (m : Memory) : ∃ r,
      repairRewards readable curSeason player m (kMaxRewardNodes + 1) = some r ∧
        (∀ a ∈ r.derefs, readable a = true) ∧
          (∀ z, FirstUntagged readable curSeason player m z →
            r.mem = store m (z + kNodeSeasonEarnedOff) 4 curSeason.toNat ∧
              seasonEarned r.mem z = curSeason ∧
                ∀ x, ¬InWindow (z + kNodeSeasonEarnedOff) 4 x → r.mem x = m x) ∧
            ((∀ z, ¬FirstUntagged readable curSeason player m z) → r.mem = m) ∧
              (NodesApart readable player m → HeadApart readable player m → ∃ r',
                repairRewards readable curSeason player r.mem (kMaxRewardNodes + 1) = some r' ∧
                  r'.mem = r.mem) := by
  have hrun : ∀ m, ∃ r,
      repairRewards readable curSeason player m (kMaxRewardNodes + 1) = some r := by
    intro m
    obtain ⟨s', hloop⟩ := scan_terminates readable curSeason player m
    exact ⟨_, by rw [repairRewards, hloop]; rfl⟩
  obtain ⟨r, hr⟩ := hrun m
  obtain ⟨hwrite, hkeep⟩ := repairRewards_mem hr
  refine ⟨r, hr, ?_, fun z hz => ?_, hkeep, fun hapart hhead => ?_⟩
  · obtain ⟨s', hloop, rfl⟩ := Option.map_eq_some_iff.1 hr
    exact derefs_writeSeason (readsReadable_scan hloop)
  · rw [hwrite z hz]
    exact ⟨rfl, store_season m z curSeason⟩
  · obtain ⟨r', hr'⟩ := hrun r.mem
    refine ⟨r', hr', (repairRewards_mem hr').2 ?_⟩
    by_cases hnone : ∀ z, ¬FirstUntagged readable curSeason player m z
    · rw [hkeep hnone]
      exact hnone
    · obtain ⟨z, hz⟩ := not_forall_not.1 hnone
      rw [hwrite z hz]
      exact not_firstUntagged_store hapart hhead hz

/-- With a current season, the hook gives it to the first untagged node of the list. -/
theorem exists_grant (hplayer : player ≠ 0) (hseason : curSeason ≠ 0) {z : Addr}
    (hz : FirstUntagged readable curSeason player m z) : ∃ r,
      challengeRiftGrantReward readable curSeason player m true (kMaxRewardNodes + 1) = some r ∧
        r.mem = store m (z + kNodeSeasonEarnedOff) 4 curSeason.toNat := by
  obtain ⟨r, hr, -, hwrite, -⟩ := repairRewards_spec readable curSeason player m
  refine ⟨r, ?_, (hwrite z hz).1⟩
  rw [challengeRiftGrantReward, if_pos ⟨rfl, hplayer, hseason⟩, hr]

/-- **The hook is over with a reward list within 4097 iterations for every memory and oracle, and
dereferences readable addresses only. With a current season, it gives it to the first untagged
node of a list that it walks to the end with no node of that season, and changes nothing else;
where the nodes are apart from each other and from the word of the head, running it twice is
running it once.** -/
theorem challengeRiftGrantReward_spec (readable : Addr → Bool) (curSeason : BitVec 32)
    (player : Addr) (m : Memory) (active : Bool) : ∃ r,
      challengeRiftGrantReward readable curSeason player m active (kMaxRewardNodes + 1) = some r ∧
        (∀ a ∈ r.derefs, readable a = true) ∧
          (active = true → player ≠ 0 → curSeason ≠ 0 →
            ∀ z, FirstUntagged readable curSeason player m z →
              r.mem = store m (z + kNodeSeasonEarnedOff) 4 curSeason.toNat ∧
                seasonEarned r.mem z = curSeason ∧
                  ∀ x, ¬InWindow (z + kNodeSeasonEarnedOff) 4 x → r.mem x = m x) ∧
            ((∀ z, ¬FirstUntagged readable curSeason player m z) → r.mem = m) ∧
              (NodesApart readable player m → HeadApart readable player m → ∃ r',
                challengeRiftGrantReward readable curSeason player r.mem active
                    (kMaxRewardNodes + 1) = some r' ∧ r'.mem = r.mem) := by
  unfold challengeRiftGrantReward
  split_ifs with hguard
  · obtain ⟨r, hr, hderefs, hwrite, hkeep, htwice⟩ :=
      repairRewards_spec readable curSeason player m
    exact ⟨r, hr, hderefs, fun _ _ _ => hwrite, hkeep, htwice⟩
  · refine ⟨_, rfl, fun _ ha => absurd ha List.not_mem_nil, fun hactive hplayer hseason => ?_,
      fun _ => rfl, fun _ _ => ⟨_, rfl, rfl⟩⟩
    exact absurd ⟨hactive, hplayer, hseason⟩ hguard

/-- The reward list of the player at `0x100000`: nodes of the seasons 7, 0 and 0. -/
def rewardList : Memory :=
  [(0x10DD90, 8, 0x1000), (0x1008, 8, 0x2000), (0x1048, 4, 7), (0x2008, 8, 0x3000),
    (0x3008, 8, 0x10DD88)].foldl (fun m (a, n, v) => store m a n v) fun _ => 0

theorem reaches_rewardList : Reaches (fun _ => true) 0x100000 rewardList
    (headNode (fun _ => true) 0x100000 rewardList) [0x1000, 0x2000, 0x3000] := by
  refine ⟨?_, ?_, ?_, rfl, rfl, ?_, ?_, ?_, rfl, rfl, ?_, ?_, ?_, rfl, rfl, Or.inr ?_⟩
  all_goals decide +kernel

/-- The list ends with its three nodes, which are apart from each other and from its head. -/
theorem apart_rewardList : NodesApart (fun _ => true) 0x100000 rewardList ∧
    HeadApart (fun _ => true) 0x100000 rewardList := by
  have hnodes : ∀ nodes, Reaches (fun _ => true) 0x100000 rewardList
      (headNode (fun _ => true) 0x100000 rewardList) nodes → nodes = [0x1000, 0x2000, 0x3000] :=
    fun nodes h => reaches_unique reaches_rewardList h fun _ _ => rfl
  refine ⟨fun nodes h => ?_, fun nodes h => ?_⟩
  · rw [hnodes nodes h]
    simp only [List.forall_mem_cons, List.not_mem_nil, false_imp_iff, implies_true, and_true]
    unfold Separate InWindow
    refine ⟨⟨?_, ?_, ?_⟩, ⟨?_, ?_, ?_⟩, ?_, ?_, ?_⟩ <;> intro hne x <;> bv_omega
  · rw [hnodes nodes h]
    simp only [List.forall_mem_cons, List.not_mem_nil, false_imp_iff, implies_true, and_true]
    unfold Separate InWindow kRewardsListHeadOff
    refine ⟨?_, ?_, ?_⟩ <;> intro x <;> bv_omega

theorem firstUntagged_rewardList :
    FirstUntagged (fun _ => true) 30 0x100000 rewardList 0x2000 := by
  refine ⟨_, reaches_rewardList, by decide, ?_, by decide +kernel⟩
  simp only [List.forall_mem_cons, List.not_mem_nil, false_imp_iff, implies_true, and_true]
  decide +kernel

/-- The second node is given the season 30, and running the hook again changes nothing. -/
theorem challengeRiftGrantReward_rewardList : ∃ r,
    challengeRiftGrantReward (fun _ => true) 30 0x100000 rewardList true (kMaxRewardNodes + 1) =
        some r ∧
      r.mem = store rewardList (0x2000 + kNodeSeasonEarnedOff) 4 30 ∧ ∃ r',
        challengeRiftGrantReward (fun _ => true) 30 0x100000 r.mem true (kMaxRewardNodes + 1) =
          some r' ∧ r'.mem = r.mem := by
  obtain ⟨r, hr, -, hwrite, -, htwice⟩ :=
    challengeRiftGrantReward_spec (fun _ => true) 30 0x100000 rewardList true
  obtain ⟨hmem, -⟩ := hwrite rfl (by decide) (by decide) 0x2000 firstUntagged_rewardList
  exact ⟨r, hr, hmem, htwice apart_rewardList.1 apart_rewardList.2⟩

/-- A list of one node of season 0 whose season is the low half of the word of the head. -/
def headOverlap : Memory := store (fun _ => 0) 0x100000048 8 0x100000000

theorem reaches_headOverlap : Reaches (fun _ => true) 0xFFFF22B8 headOverlap
    (headNode (fun _ => true) 0xFFFF22B8 headOverlap) [0x100000000] := by
  refine ⟨?_, ?_, ?_, rfl, rfl, Or.inl ?_⟩
  all_goals decide +kernel

theorem firstUntagged_headOverlap :
    FirstUntagged (fun _ => true) 30 0xFFFF22B8 headOverlap 0x100000000 := by
  refine ⟨_, reaches_headOverlap, by decide, ?_, by decide +kernel⟩
  rw [List.forall_mem_singleton]
  decide +kernel

/-- With the season 30, the head points into the node, to a node of season 0 at the list's end. -/
theorem firstUntagged_headOverlap_store : FirstUntagged (fun _ => true) 30 0xFFFF22B8
    (store headOverlap (0x100000000 + kNodeSeasonEarnedOff) 4 30) 0x10000001E := by
  refine ⟨[0x10000001E], ⟨?_, ?_, ?_, rfl, rfl, Or.inl ?_⟩, by decide, ?_, by decide +kernel⟩
  case refine_5 =>
    rw [List.forall_mem_singleton]
    decide +kernel
  all_goals decide +kernel

/-- The node overlaps no other node, but the season that it is given moves the head, and running
the hook again writes to the node that is now the first. -/
theorem not_twiceIsOnce_headOverlap : ¬(NodesApart (fun _ => true) 0xFFFF22B8 headOverlap →
    TwiceIsOnce (fun _ => true) 30 0xFFFF22B8 headOverlap) := by
  intro h
  have hapart : NodesApart (fun _ => true) 0xFFFF22B8 headOverlap := by
    intro nodes hnodes a ha b hb hne
    obtain rfl := reaches_unique reaches_headOverlap hnodes fun _ _ => rfl
    exact absurd ((List.mem_singleton.1 ha).trans (List.mem_singleton.1 hb).symm) hne
  obtain ⟨r, hr, hmem⟩ := exists_grant (by decide) (by decide) firstUntagged_headOverlap
  obtain ⟨r', hr', hsame⟩ := h hapart r hr
  rw [hmem] at hr' hsame
  obtain ⟨r'', hr'', hmem'⟩ := exists_grant (by decide) (by decide) firstUntagged_headOverlap_store
  obtain rfl := Option.some.inj (hr'.symm.trans hr'')
  exact absurd (congrFun (hmem'.symm.trans hsame) 0x100000066) (by decide +kernel)

end D3Hack
