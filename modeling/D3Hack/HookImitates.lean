import D3Hack.HookBlock

/-!
# What a moved instruction does

`Imitates` says what is asked of the words that an instruction becomes: from their start the
trampoline does what the instruction did at its old address, up to where that led (`Lands`). An
instruction of the window is found at its place in the trampoline, the next one right behind, and
every other address is the same. A branch that is too far to be reached otherwise goes through
`X17`.

The words do not always do that. `Movable` is what an instruction has to meet: the offsets of
conditional branches, literals and addresses are not sign-extended, so that they have to be
positive; an address in the window is not translated back; a literal below the trampoline and an
address between two words are encoded into the wrong bits. What an instruction reaches through a
register is found by `Direct`, since the window is no longer where it was.
-/

namespace D3Hack

open A64 BackPatch WordMemory

/-- The instruction is an `ADRP`, whose place is not where it is executed. -/
def aarch64IsAdrp : Instr → Bool
  | .adrp _ _ => true
  | _ => false

/-! ## Addresses -/

namespace FixSite

variable (e : FixSite)

/-- The old address of an instruction. -/
def pcAt (idx : ℕ) : Addr := e.basep + BitVec.ofNat 64 (4 * idx)

/-- The address of a word of the trampoline. -/
def rxAt (n : ℕ) : Addr := e.rx + BitVec.ofNat 64 (4 * n)

/-- The instruction that was at an index of the window. -/
def insAt (idx : ℕ) : Instr := decode (fetch e.mem (e.pcAt idx))

/-- Words are aligned, the window has at most `MaxInstructions` of them, and it is an interval of
addresses without a sign. -/
structure WellPlaced : Prop where
  basep_aligned : 4 ∣ e.basep.toNat
  rx_aligned : 4 ∣ e.rx.toNat
  count_le : e.count ≤ maxInstructions
  endp_lt : e.basep.toNat + 4 * e.count < 2 ^ 63

variable {e}

theorem pcAt_succ (idx : ℕ) : e.pcAt (idx + 1) = e.pcAt idx + 4 := by
  rw [pcAt, Nat.mul_succ, add_ofNat_add]
  rfl

theorem rxAt_add (n k : ℕ) : e.rxAt (n + k) = e.rxAt n + BitVec.ofNat 64 (4 * k) := by
  rw [rxAt, Nat.mul_add, add_ofNat_add]
  rfl

theorem rxAt_succ (n : ℕ) : e.rxAt (n + 1) = e.rxAt n + 4 := rxAt_add n 1

namespace WellPlaced

variable (he : e.WellPlaced)
include he

theorem toNat_pcAt {idx : ℕ} (h : idx ≤ e.count) :
    (e.pcAt idx).toNat = e.basep.toNat + 4 * idx := by
  have hlt := he.endp_lt
  rw [pcAt, BitVec.toNat_add, BitVec.toNat_ofNat]
  omega

theorem getRefInsIndex_pcAt {idx : ℕ} (h : idx ≤ e.count) :
    e.getRefInsIndex (e.pcAt idx) = idx := by
  have hlt := he.endp_lt
  have hidx : e.pcAt idx - e.basep = BitVec.ofNat 64 (4 * idx) := by
    rw [pcAt]
    bv_omega
  rw [getRefInsIndex, hidx, BitVec.toNat_ofNat]
  omega

theorem isInFixingRange_iff {a : Addr} : e.isInFixingRange a = true ↔
    e.basep.toNat ≤ a.toNat ∧ a.toNat < e.basep.toNat + 4 * e.count := by
  have hlt := he.endp_lt
  have hend : e.endp.toNat = e.basep.toNat + 4 * e.count := he.toNat_pcAt (Nat.le_refl _)
  rw [isInFixingRange, Bool.and_eq_true, decide_eq_true_iff, decide_eq_true_iff,
    BitVec.toInt_eq_toNat_cond, BitVec.toInt_eq_toNat_cond, BitVec.toInt_eq_toNat_cond, hend]
  have := a.isLt
  split <;> split <;> split <;> omega

theorem isInFixingRange_endp : e.isInFixingRange (e.pcAt e.count) = false := by
  rw [← Bool.not_eq_true, he.isInFixingRange_iff, he.toNat_pcAt (Nat.le_refl _)]
  omega

/-- An aligned address in the window is the address of an instruction. -/
theorem exists_pcAt {a : Addr} (ha : e.isInFixingRange a = true) (halign : 4 ∣ a.toNat) :
    ∃ idx < e.count, a = e.pcAt idx := by
  have hlt := he.endp_lt
  have hbase := he.basep_aligned
  obtain ⟨hlo, hhi⟩ := he.isInFixingRange_iff.1 ha
  refine ⟨(a.toNat - e.basep.toNat) / 4, by omega, ?_⟩
  apply BitVec.eq_of_toNat_eq
  rw [he.toNat_pcAt (by omega)]
  omega

theorem dvd_pcAt {idx : ℕ} (h : idx ≤ e.count) : 4 ∣ (e.pcAt idx).toNat := by
  have hbase := he.basep_aligned
  rw [he.toNat_pcAt h]
  omega

theorem dvd_rxAt (n : ℕ) : 4 ∣ (e.rxAt n).toNat := by
  have hrx := he.rx_aligned
  rw [rxAt, BitVec.toNat_add, BitVec.toNat_ofNat]
  omega

end WellPlaced

end FixSite

theorem dvd_add_ofInt {a : Addr} (h : 4 ∣ a.toNat) (z : ℤ) :
    4 ∣ (a + BitVec.ofInt 64 (4 * z)).toNat := by
  rw [BitVec.toNat_add, BitVec.toNat_ofInt]
  omega

theorem dvd_sub {a b : Addr} (ha : 4 ∣ a.toNat) (hb : 4 ∣ b.toNat) : 4 ∣ (a - b).toNat := by
  rw [BitVec.toNat_sub]
  omega

/-- Places in the trampoline are close to each other. -/
theorem fits_rxAt (e : FixSite) {m n : ℕ} (hm : m < 128) (hn : n < 128) :
    Fits 13 ((e.rxAt m - e.rxAt n).sshiftRight 2) := by
  have hsub : (e.rxAt m - e.rxAt n).toInt = 4 * ((m : ℤ) - n) := by
    have hdiff : e.rxAt m - e.rxAt n = BitVec.ofNat 64 (4 * m) - BitVec.ofNat 64 (4 * n) := by
      unfold FixSite.rxAt
      bv_omega
    rw [hdiff, BitVec.toInt_sub, BitVec.toInt_ofNat', BitVec.toInt_ofNat']
    simp only [Int.bmod]
    omega
  rw [Fits, BitVec.toInt_sshiftRight, hsub, Int.shiftRight_eq_div_pow]
  omega

/-! ## What has to be met -/

namespace FixSite

variable (e : FixSite)

/-- A branch may not lead to an `ADRP` of the window, whose place is taken from the writable
mapping. -/
def MayEnter (t : Addr) : Prop :=
  ∀ idx < e.count, t = e.pcAt idx → aarch64IsAdrp (e.insAt idx) = false

instance (t : Addr) : Decidable (e.MayEnter t) := inferInstanceAs (Decidable (∀ _ < _, _))

/-- What an instruction has to meet that is moved to word `n` of the trampoline. -/
def CanMove (n : ℕ) (pc : Addr) : Instr → Prop
  | .branch _ offset => e.MayEnter (pc + BitVec.ofInt 64 offset)
  | .branchIf _ offset => 0 ≤ offset ∧ e.MayEnter (pc + BitVec.ofInt 64 offset)
  | .load k _ offset =>
    let t := pc + BitVec.ofInt 64 offset
    let newPcOffset := (t - e.rxAt n).sshiftRight 2
    0 ≤ offset ∧ (k = .x ∨ k = .sw ∨ e.isInFixingRange t = true ∨ newPcOffset.toInt ≤ -0x3ffff ∨
      0 ≤ newPcOffset.toInt)
  | .adr _ offset =>
    let t := pc + BitVec.ofInt 64 offset
    0 ≤ offset ∧ e.isInFixingRange t = false ∧
      (4 ∣ offset ∨ 0xfffff ≤ (t - e.rxAt n).toInt.natAbs)
  | .adrp _ offset =>
    0 ≤ offset ∧ e.isInFixingRange ((pc &&& ~~~(0xfff : Addr)) + BitVec.ofInt 64 offset) = false
  | .other w => w &&& 0x3f000000 ≠ 0x1c000000
  | .branchReg _ => True
  | .prefetch => True
  | .nop => True

instance (n : ℕ) (pc : Addr) : (i : Instr) → Decidable (e.CanMove n pc i)
  | .branch _ _ => inferInstanceAs (Decidable (e.MayEnter _))
  | .branchIf _ _ => inferInstanceAs (Decidable (_ ∧ _))
  | .load _ _ _ => inferInstanceAs (Decidable (_ ∧ _))
  | .adr _ _ => inferInstanceAs (Decidable (_ ∧ _))
  | .adrp _ _ => inferInstanceAs (Decidable (_ ∧ _))
  | .other _ => inferInstanceAs (Decidable (_ ≠ _))
  | .branchReg _ => inferInstanceAs (Decidable True)
  | .prefetch => inferInstanceAs (Decidable True)
  | .nop => inferInstanceAs (Decidable True)

/-- The instruction at an index can be moved to word `n`. -/
def Movable (n idx : ℕ) : Prop := e.CanMove n (e.pcAt idx) (e.insAt idx)

instance (n idx : ℕ) : Decidable (e.Movable n idx) := inferInstanceAs (Decidable (e.CanMove _ _ _))

/-- A literal outside of the window is still what it was. -/
def KeepsLiteralOf (I : Memory) (pc : Addr) : Instr → Prop
  | .load k _ offset =>
    e.isInFixingRange (pc + BitVec.ofInt 64 offset) = false →
      WordMemory.load I (pc + BitVec.ofInt 64 offset) k.size =
        WordMemory.load e.mem (pc + BitVec.ofInt 64 offset) k.size
  | _ => True

instance (I : Memory) (pc : Addr) (i : Instr) : Decidable (e.KeepsLiteralOf I pc i) :=
  match i with
  | .load _ _ _ => inferInstanceAs (Decidable (_ → _))
  | .branch _ _ => isTrue trivial
  | .branchIf _ _ => isTrue trivial
  | .prefetch => isTrue trivial
  | .adr _ _ => isTrue trivial
  | .adrp _ _ => isTrue trivial
  | .branchReg _ => isTrue trivial
  | .nop => isTrue trivial
  | .other _ => isTrue trivial

/-- The literal of the instruction at an index is still what it was. -/
def KeepsLiteral (I : Memory) (idx : ℕ) : Prop := e.KeepsLiteralOf I (e.pcAt idx) (e.insAt idx)

instance (I : Memory) (idx : ℕ) : Decidable (e.KeepsLiteral I idx) :=
  inferInstanceAs (Decidable (e.KeepsLiteralOf _ _ _))

end FixSite

/-! ## What a block does -/

section

variable {C : Type*} (core : Core C) (e : FixSite) (φ : ℕ → Addr)

/-- What is reached through a register is not in the window. -/
def DirectOf (next : Addr) (c : C) : Instr → Prop
  | .branchReg rn => e.isInFixingRange (core.reg c rn) = false
  | .other w => ∀ t ∈ (core.exec w next c).2, e.isInFixingRange t = false
  | _ => True

instance (next : Addr) (c : C) (i : Instr) : Decidable (DirectOf core e next c i) :=
  match i with
  | .branchReg _ => inferInstanceAs (Decidable (_ = _))
  | .other _ => inferInstanceAs (Decidable (∀ _ ∈ _, _))
  | .branch _ _ => isTrue trivial
  | .branchIf _ _ => isTrue trivial
  | .load _ _ _ => isTrue trivial
  | .prefetch => isTrue trivial
  | .adr _ _ => isTrue trivial
  | .adrp _ _ => isTrue trivial
  | .nop => isTrue trivial

/-- The instruction at an index does not reach the window through a register. -/
def Direct (next : Addr) (c : C) (idx : ℕ) : Prop := DirectOf core e next c (e.insAt idx)

instance (next : Addr) (c : C) (idx : ℕ) : Decidable (Direct core e next c idx) :=
  inferInstanceAs (Decidable (DirectOf _ _ _ _ _))

/-- Where the trampoline is when an instruction has led to an address, with the place `φ r` of
each instruction and what is next in the trampoline. -/
inductive Lands (idx : ℕ) (next : Addr) : Addr × C → Cpu C → Prop
  | next (c : C) : Lands idx next (e.pcAt (idx + 1), c) ⟨next, c⟩
  | place (r : ℕ) (c : C) (hr : r < e.count) (hadrp : aarch64IsAdrp (e.insAt r) = false) :
      Lands idx next (e.pcAt r, c) ⟨φ r, c⟩
  | out (t : Addr) (c : C) (ht : e.isInFixingRange t = false) : Lands idx next (t, c) ⟨t, c⟩
  | veneer (t : Addr) (c : C) (ht : e.isInFixingRange t = false) :
      Lands idx next (t, c) ⟨t, core.setReg c 17 t⟩

/-- From `pc` on the trampoline does what the instruction did. -/
def Imitates (I : Memory) (idx : ℕ) (next pc : Addr) (c : C) : Prop :=
  ∃ u, core.Reaches I ⟨pc, c⟩ u ∧
    Lands core e φ idx next (core.execAt e.mem (e.pcAt idx) next c (e.insAt idx)) u

variable {core e φ} {I : Memory} {idx : ℕ} {next pc pc' : Addr} {c c' : C}

theorem Imitates.trans (h : core.Reaches I ⟨pc, c⟩ ⟨pc', c⟩)
    (hf : Imitates core e φ I idx next pc' c) : Imitates core e φ I idx next pc c := by
  obtain ⟨u, hu, hlands⟩ := hf
  exact ⟨u, h.trans hu, hlands⟩

/-- The state that is reached, and what the instruction did. -/
theorem Imitates.of_reaches {u : Cpu C} {r : Addr × C} (hu : core.Reaches I ⟨pc, c⟩ u)
    (hr : core.execAt e.mem (e.pcAt idx) next c (e.insAt idx) = r)
    (hlands : Lands core e φ idx next r u) : Imitates core e φ I idx next pc c :=
  ⟨u, hu, hr ▸ hlands⟩

end

/-- The state before an instruction is moved. -/
structure ReadyToMove (e : FixSite) (s : FixState) (idx : ℕ) : Prop where
  inprx_eq : s.inprx = e.pcAt idx
  lt : idx < e.count
  length_lt : s.out.length < 100
  not_full : ∀ l, idx < l → (s.dat l).fmap.length < maxReferences
  written : ∀ r ∈ s.pending idx, r.1 < s.out.length

theorem ReadyToMove.currentIdx_eq {e : FixSite} {s : FixState} {idx : ℕ} (hs : ReadyToMove e s idx)
    (he : e.WellPlaced) : e.currentIdx s = idx := by
  rw [FixSite.currentIdx, hs.inprx_eq, he.getRefInsIndex_pcAt hs.lt.le]

/-- How many `NOP`s stand before words that have to be aligned. -/
def padding (p : Prop) [Decidable p] : ℕ := if p then 1 else 0

theorem padding_le (p : Prop) [Decidable p] : padding p ≤ 1 := by
  unfold padding
  split <;> decide

theorem outprx_write (e : FixSite) (s : FixState) (ws : List Word) :
    e.outprx (s.write ws) = e.rxAt (s.out.length + ws.length) := by
  unfold FixSite.outprx FixState.write
  rw [List.length_append]
  rfl

theorem FixState.aligned_outprx {e : FixSite} (s : FixState) (idx : ℕ) (p : Prop) [Decidable p] :
    (if p then ((s.setIns idx (e.outprx s)).write [aarch64Nop]).setIns idx
        (e.outprx ((s.setIns idx (e.outprx s)).write [aarch64Nop]))
      else s.setIns idx (e.outprx s)) =
      (s.setIns idx (e.rxAt (s.out.length + padding p))).write
        (List.replicate (padding p) aarch64Nop) := by
  rw [FixState.aligned_eq]
  unfold padding
  split
  · rw [outprx_write]
    rfl
  · rfl

/-- A `NOP` that belongs to the instruction that follows. -/
theorem FixState.aligned_kept (s : FixState) (idx : ℕ) (place : Addr) (p : Prop) [Decidable p] :
    (if p then ((s.setIns idx place).setIns idx place).write [aarch64Nop]
      else s.setIns idx place) =
      (s.setIns idx place).write (List.replicate (padding p) aarch64Nop) := by
  unfold padding
  split
  · rw [setIns_setIns]
    rfl
  · exact (write_nil _).symm

/-- The places in the finished trampoline. -/
structure Places (e : FixSite) (s : FixState) (idx : ℕ) (b : Block) (φ : ℕ → Addr) : Prop where
  earlier : ∀ i < idx, φ i = (s.dat i).ins
  self : φ idx = b.place
  inside : ∀ r < e.count, aarch64IsAdrp (e.insAt r) = false → ∃ m < 128, φ r = e.rxAt m

/-- The block of an instruction: it is small, refers to later instructions only, and does what the
instruction did if that can be moved. -/
structure Block.Moves (e : FixSite) (s : FixState) (idx : ℕ) (b : Block) : Prop where
  length_le : b.items.length ≤ 9
  later : ∀ item ∈ b.items, ∀ l, item.label? = some l → idx < l ∧ l < e.count
  refs_le : ∀ l n, (waiting l n b.items).length ≤ 1
  place_eq : aarch64IsAdrp (e.insAt idx) = false →
    ∃ m ≤ s.out.length + b.items.length, b.place = e.rxAt m
  imitates : e.Movable s.out.length idx → ∀ {C : Type} (core : Core C) {I : Memory} {φ : ℕ → Addr},
    Places e s idx b φ →
    CodeAt I (e.outprx s) (link (patchWord e.rx) (fun l => some (φ l)) s.out.length b.items) →
    e.KeepsLiteral I idx → ∀ {c : C} {pc : Addr},
    Direct core e (e.rxAt (s.out.length + b.items.length)) c idx →
    (pc = e.outprx s ∨ pc = b.place ∧ aarch64IsAdrp (e.insAt idx) = false) →
    Imitates core e φ I idx (e.rxAt (s.out.length + b.items.length)) pc c

namespace Block

variable {e : FixSite} {s : FixState} {idx : ℕ}

/-- A block of finished words behind `NOP`s. -/
theorem moves_of_write {k : ℕ} {v : List Word} {place : Addr} (hlen : k + v.length ≤ 9)
    (hplace : aarch64IsAdrp (e.insAt idx) = false →
      place = e.rxAt s.out.length ∨ place = e.rxAt (s.out.length + k))
    (himitates : e.Movable s.out.length idx → ∀ {C : Type} (core : Core C) {I : Memory}
      {φ : ℕ → Addr}, Places e s idx ⟨(List.replicate k aarch64Nop ++ v).map .word, place⟩ φ →
      CodeAt I (e.rxAt (s.out.length + k)) v → e.KeepsLiteral I idx → ∀ {c : C},
      Direct core e (e.rxAt (s.out.length + k + v.length)) c idx →
      Imitates core e φ I idx (e.rxAt (s.out.length + k + v.length))
        (e.rxAt (s.out.length + k)) c) :
    Moves e s idx ⟨(List.replicate k aarch64Nop ++ v).map .word, place⟩ where
  length_le := by simpa using hlen
  later item hmem l hl := by
    obtain ⟨w, -, rfl⟩ := List.mem_map.1 hmem
    cases hl
  refs_le l n := by
    have hnone : waiting l n ((List.replicate k aarch64Nop ++ v).map Item.word :
        List HookItem) = [] := by
      refine waiting_eq_nil fun item hmem h => ?_
      obtain ⟨w, -, rfl⟩ := List.mem_map.1 hmem
      cases h
    rw [hnone]
    exact Nat.zero_le 1
  place_eq hadrp := by
    rcases hplace hadrp with hstart | hbody
    · exact ⟨_, Nat.le_add_right _ _, hstart⟩
    · refine ⟨_, ?_, hbody⟩
      simp
  imitates := by
    intro hmov C core I φ hφ hcode hlit c pc hdirect hpc
    have hlength : s.out.length + ((List.replicate k aarch64Nop ++ v).map Item.word :
        List HookItem).length = s.out.length + k + v.length := by
      simp only [List.length_map, List.length_append, List.length_replicate]
      omega
    rw [link_words, codeAt_append, List.length_replicate] at hcode
    obtain ⟨hpad, hbody⟩ := hcode
    have hstart : e.outprx s + BitVec.ofNat 64 (4 * k) = e.rxAt (s.out.length + k) :=
      (FixSite.rxAt_add _ _).symm
    rw [hstart] at hbody
    have hpadded : core.Reaches I ⟨e.outprx s, c⟩ ⟨e.rxAt (s.out.length + k), c⟩ := by
      rw [← hstart]
      exact Core.reaches_nops hpad c
    rw [hlength] at hdirect ⊢
    have hf := himitates hmov core hφ hbody hlit hdirect
    rcases hpc with rfl | ⟨rfl, hadrp⟩
    · exact hf.trans hpadded
    · rcases hplace hadrp with hentry | hentry
      · rw [hentry]
        exact hf.trans hpadded
      · rw [hentry]
        exact hf

/-- A block of an instruction that is not moved rightly. -/
theorem moves_of_not_movable {b : Block} (hlen : b.items.length ≤ 1)
    (hlater : ∀ item ∈ b.items, ∀ l, item.label? = some l → idx < l ∧ l < e.count)
    (hplace : aarch64IsAdrp (e.insAt idx) = false → b.place = e.outprx s)
    (hmov : ¬e.Movable s.out.length idx) : Moves e s idx b where
  length_le := hlen.trans (by decide)
  later := hlater
  refs_le l n := length_waiting_le.trans hlen
  place_eq hadrp := ⟨_, Nat.le_add_right _ _, hplace hadrp⟩
  imitates h := absurd h hmov

/-- A word that waits for the place of a later instruction. -/
theorem moves_of_refer {l : ℕ} {w : Word} {f : ℕ × Word} (hl : idx < l ∧ l < e.count)
    (himitates : e.Movable s.out.length idx → ∀ {C : Type} (core : Core C) {I : Memory}
      {φ : ℕ → Addr}, (aarch64IsAdrp (e.insAt l) = false → ∃ m < 128, φ l = e.rxAt m) →
      fetch I (e.rxAt s.out.length) = patchWord e.rx f s.out.length (φ l) w → ∀ {c : C},
      Imitates core e φ I idx (e.rxAt (s.out.length + 1)) (e.rxAt s.out.length) c) :
    Moves e s idx ⟨[.refer w l f], e.outprx s⟩ where
  length_le := Nat.succ_le_succ (Nat.zero_le _)
  later item hmem l' hl' := by
    obtain rfl := List.mem_singleton.1 hmem
    cases hl'
    exact hl
  refs_le l n := length_waiting_le
  place_eq _ := ⟨_, Nat.le_add_right _ _, rfl⟩
  imitates := by
    intro hmov C core I φ hφ hcode _ c pc _ hpc
    have hf := himitates hmov core (hφ.inside l hl.2) (codeAt_singleton.1 hcode) (c := c)
    rcases hpc with rfl | ⟨rfl, -⟩ <;> exact hf

end Block

/-! ## Leaving the window -/

section

variable {C : Type} {core : Core C} {e : FixSite} {φ : ℕ → Addr} {I : Memory} {idx : ℕ}
  {next pc t : Addr} {c : C}

/-- The far jump goes through `X17`. -/
theorem reaches_jumpWords (h : CodeAt I pc (jumpWords t)) :
    core.Reaches I ⟨pc, c⟩ ⟨t, core.setReg c 17 t⟩ := by
  obtain ⟨hload, hrest⟩ := codeAt_cons.1 h
  obtain ⟨hbr, haddr⟩ := codeAt_cons.1 hrest
  have hlit : pc + 4 + 4 = pc + BitVec.ofInt 64 8 := by
    rw [BitVec.add_assoc]
    rfl
  rw [hlit] at haddr
  have hX17 : core.Reaches I ⟨pc, c⟩ ⟨pc + 4, core.setReg c 17 t⟩ := by
    refine Core.Reaches.exec hload (by decide +kernel : decode 0x58000051 = .load .x 17 8) ?_
    rw [Core.execAt, Core.setLiteral, Literal.size, load_address haddr]
  have hjump : core.Reaches I ⟨pc + 4, core.setReg c 17 t⟩ ⟨t, core.setReg c 17 t⟩ := by
    refine Core.Reaches.exec hbr (by decide +kernel : decode 0xd61f0220 = .branchReg 17) ?_
    rw [Core.execAt, core.reg_setReg _ _ _ (by decide)]
  exact hX17.trans hjump

end

end D3Hack
