import D3Hack.HookLiterals

/-!
# The trampoline of a hook

The words that `fixInstructions` leaves, and what they do. Each instruction of the window emits a
block (`fixInstruction_spec`); in the finished trampoline the blocks stand one after the other, with
every reference completed (`linked_stateAt`), and the jump back to the rest of the function is
behind them.
-/

namespace D3Hack

open A64 BackPatch WordMemory

/-! ## Instructions that do not depend on their address -/

section

variable {e : FixSite} {s s' : FixState} {idx : ℕ} {w : Word}

theorem and_of_topByte {m v : Word} (h : w &&& 0xff000000 = v) (hm : 0xff000000 &&& m = m) :
    w &&& m = v &&& m := by
  rw [← h, BitVec.and_assoc, hm]

theorem literalMasks_of_none (h : literalMasks w = none) : w &&& 0xbf000000 ≠ 0x18000000 ∧
    w &&& 0x3f000000 ≠ 0x1c000000 ∧ w &&& 0xff000000 ≠ 0x98000000 := by
  unfold literalMasks at h
  dsimp only at h
  by_cases hldr : w &&& 0xbf000000 = 0x18000000
  · rw [if_pos hldr] at h
    cases h
  · rw [if_neg hldr] at h
    by_cases hldrv : w &&& 0x3f000000 = 0x1c000000
    · rw [if_pos hldrv] at h
      cases h
    · rw [if_neg hldrv] at h
      exact ⟨hldr, hldrv, fun hldrsw => by rw [if_pos hldrsw] at h; cases h⟩

theorem literalMasks_ne_none {f : Format} (hf : f ∈ loads) (h : f.Matches w) :
    literalMasks w ≠ none := by
  intro hnone
  obtain ⟨hldr, hldrv, hldrsw⟩ := literalMasks_of_none hnone
  fin_cases hf
  · exact hldr (and_of_topByte h (by decide))
  · exact hldr (and_of_topByte h (by decide))
  · exact hldrsw h
  · exact hldrv (and_of_topByte h (by decide))
  · exact hldrv (and_of_topByte h (by decide))
  · exact hldrv (and_of_topByte h (by decide))

theorem lmaskOf_of_none (h : lmaskOf w = none) : w &&& 0xff000010 ≠ 0x54000000 ∧
    ¬(w &&& 0x7f000000 = 0x34000000 ∨ w &&& 0x7f000000 = 0x35000000) ∧
    ¬(w &&& 0x7f000000 = 0x36000000 ∨ w &&& 0x7f000000 = 0x37000000) := by
  unfold lmaskOf at h
  by_cases hbc : w &&& 0xff000010 = 0x54000000
  · rw [if_pos hbc] at h
    cases h
  · rw [if_neg hbc] at h
    by_cases hcb : w &&& 0x7f000000 = 0x34000000 ∨ w &&& 0x7f000000 = 0x35000000
    · rw [if_pos hcb] at h
      cases h
    · rw [if_neg hcb] at h
      exact ⟨hbc, hcb, fun htb => by rw [if_pos htb] at h; cases h⟩

theorem fixBranchImm_of_none (hw : fetch e.mem s.inprx = w) (hnone : fixBranchImm e s = none) :
    ¬(w &&& 0xfc000000 = 0x14000000 ∨ w &&& 0xfc000000 = 0x94000000) := by
  intro h
  unfold fixBranchImm at hnone
  rw [hw] at hnone
  simp only [h, if_true] at hnone
  cases hnone

theorem fixCondCompTestBranch_of_none (hw : fetch e.mem s.inprx = w)
    (hnone : fixCondCompTestBranch e s = none) : lmaskOf w = none := by
  unfold fixCondCompTestBranch at hnone
  rw [hw] at hnone
  cases hmask : lmaskOf w with
  | none => rfl
  | some lmask =>
    dsimp only at hnone
    rw [hmask] at hnone
    cases hnone

theorem fixLoadlit_of_none (hw : fetch e.mem s.inprx = w) (hnone : fixLoadlit e s = none) :
    ¬w &&& 0xff000000 = 0xd8000000 ∧ literalMasks w = none := by
  unfold fixLoadlit at hnone
  rw [hw] at hnone
  by_cases hprfm : w &&& 0xff000000 = 0xd8000000
  · simp only [hprfm, if_true] at hnone
    cases hnone
  · refine ⟨hprfm, ?_⟩
    cases hmasks : literalMasks w with
    | none => rfl
    | some masks =>
      simp only [hprfm, if_false, hmasks] at hnone
      cases hnone

theorem fixPcreladdr_of_none (hw : fetch e.mem s.inprx = w) (hnone : fixPcreladdr e s = none) :
    ¬w &&& 0x9f000000 = 0x10000000 ∧ ¬w &&& 0x9f000000 = 0x90000000 := by
  unfold fixPcreladdr at hnone
  rw [hw] at hnone
  by_cases hadr : w &&& 0x9f000000 = 0x10000000
  · simp only [hadr, if_true] at hnone
    cases hnone
  · refine ⟨hadr, fun hadrp => ?_⟩
    simp only [hadrp, if_true] at hnone
    cases hnone

/-- What none of the fixers takes does not depend on its address. -/
theorem isPlain_of_none (hw : fetch e.mem s.inprx = w) (hbranch : fixBranchImm e s = none)
    (hcond : fixCondCompTestBranch e s = none) (hload : fixLoadlit e s = none)
    (haddr : fixPcreladdr e s = none) :
    decode w = .nop ∨ (∃ rn, decode w = .branchReg rn) ∨ decode w = .other w := by
  have hb := fixBranchImm_of_none hw hbranch
  have hl := fixLoadlit_of_none hw hload
  have ha := fixPcreladdr_of_none hw haddr
  obtain ⟨hbc, hcb, htb⟩ := lmaskOf_of_none (fixCondCompTestBranch_of_none hw hcond)
  unfold decode
  cases hfind : formats.find? fun f => decide (f.Matches w) with
  | none => exact Or.inr (Or.inr rfl)
  | some f =>
    have hf : f.Matches w := by simpa using List.find?_some hfind
    have hload' (hmem : f ∈ loads) : False := literalMasks_ne_none hmem hf hl.2
    have hmem := List.mem_of_find?_eq_some hfind
    fin_cases hmem
    · exact absurd (Or.inl hf) hb
    · exact absurd (Or.inr hf) hb
    · exact absurd hf hbc
    · exact absurd (Or.inl hf) hcb
    · exact absurd (Or.inr hf) hcb
    · exact absurd (Or.inl hf) htb
    · exact absurd (Or.inr hf) htb
    · exact absurd (by simp [loads]) hload'
    · exact absurd (by simp [loads]) hload'
    · exact absurd (by simp [loads]) hload'
    · exact absurd (by simp [loads]) hload'
    · exact absurd (by simp [loads]) hload'
    · exact absurd (by simp [loads]) hload'
    · exact absurd hf hl.1
    · exact absurd hf ha.1
    · exact absurd hf ha.2
    · exact Or.inr (Or.inl ⟨_, rfl⟩)
    · exact Or.inl rfl

theorem copyInstruction_emits (he : e.WellPlaced) (hs : ReadyToMove e s idx) :
    s.Emits e idx ⟨[.word (fetch e.mem (e.pcAt idx))], e.outprx s⟩ (copyInstruction e s) where
  inprx_eq := rfl
  out_eq := by
    have hplace : ((s.setIns idx (e.outprx s)).dat idx).ins = e.outprx s := by
      rw [FixState.setIns_ins, if_pos rfl]
    change (processFixMap e (s.setIns (e.currentIdx s) (e.outprx s)) (e.currentIdx s)).out ++
      [fetch e.mem s.inprx] = _
    rw [hs.currentIdx_eq he, hs.inprx_eq, FixState.processFixMap_out, hplace,
      FixState.setIns_pending]
    exact (complete_append hs.written).symm
  ins_eq i := by
    change ((processFixMap e (s.setIns (e.currentIdx s) (e.outprx s))
      (e.currentIdx s)).dat i).ins = _
    rw [hs.currentIdx_eq he, FixState.processFixMap_ins, FixState.setIns_ins]
  pending_eq i hi := by
    change (processFixMap e (s.setIns (e.currentIdx s) (e.outprx s)) (e.currentIdx s)).pending i = _
    rw [hs.currentIdx_eq he, FixState.processFixMap_pending _ hi, FixState.setIns_pending]
    exact (List.append_nil _).symm

/-- A copied instruction does the same at its new address. -/
theorem imitates_copy {C : Type} {core : Core C} {φ : ℕ → Addr} {I : Memory} {c : C} {n : ℕ}
    (hplain : e.insAt idx = .nop ∨ (∃ rn, e.insAt idx = .branchReg rn) ∨
      e.insAt idx = .other (fetch e.mem (e.pcAt idx)))
    (hword : fetch I (e.rxAt n) = fetch e.mem (e.pcAt idx))
    (hdirect : Direct core e (e.rxAt (n + 1)) c idx) :
    Imitates core e φ I idx (e.rxAt (n + 1)) (e.rxAt n) c := by
  rw [FixSite.rxAt_succ] at hdirect ⊢
  unfold Direct at hdirect
  rcases hplain with hins | ⟨rn, hins⟩ | hins
  · have hold : core.execAt e.mem (e.pcAt idx) (e.rxAt n + 4) c (e.insAt idx) =
        (e.pcAt idx + 4, c) := by
      rw [hins]
      rfl
    refine Imitates.of_reaches (Core.Reaches.exec hword hins rfl) hold ?_
    rw [← FixSite.pcAt_succ]
    exact Lands.next c
  · rw [hins] at hdirect
    exact Imitates.of_reaches (Core.Reaches.exec hword hins rfl) (hins ▸ rfl)
      (Lands.out _ _ hdirect)
  · rw [hins] at hdirect
    cases hexec : core.exec (fetch e.mem (e.pcAt idx)) (e.rxAt n + 4) c with
    | mk c' target =>
      have hstep (I : Memory) (pc : Addr) : core.execAt I pc (e.rxAt n + 4) c
          (.other (fetch e.mem (e.pcAt idx))) = (target.getD (pc + 4), c') := by
        rw [Core.execAt, hexec]
      refine Imitates.of_reaches (Core.Reaches.exec hword hins (hstep I (e.rxAt n)))
        (hins ▸ hstep e.mem (e.pcAt idx)) ?_
      cases target with
      | none =>
        rw [Option.getD_none, Option.getD_none, ← FixSite.pcAt_succ]
        exact Lands.next c'
      | some t => exact Lands.out t c' (hdirect t (congrArg Prod.snd hexec))

theorem moves_copy (hplain : e.insAt idx = .nop ∨ (∃ rn, e.insAt idx = .branchReg rn) ∨
    e.insAt idx = .other (fetch e.mem (e.pcAt idx))) :
    Block.Moves e s idx ⟨[.word (fetch e.mem (e.pcAt idx))], e.outprx s⟩ := by
  refine Block.moves_of_write (k := 0) (v := [_]) (by simp) (fun _ => Or.inl rfl) ?_
  intro _ C core I φ _ hcode _ c hdirect
  exact imitates_copy hplain (codeAt_singleton.1 hcode) hdirect

/-- What a step of the loop does. -/
theorem fixInstruction_spec (he : e.WellPlaced) (hs : ReadyToMove e s idx) :
    ∃ b, s.Emits e idx b (fixInstruction e s) ∧ b.Moves e s idx := by
  unfold fixInstruction
  cases hbranch : fixBranchImm e s with
  | some s' => exact fixBranchImm_spec he hs hbranch
  | none =>
    cases hcond : fixCondCompTestBranch e s with
    | some s' => exact fixCondCompTestBranch_spec he hs hcond
    | none =>
      cases hload : fixLoadlit e s with
      | some s' => exact fixLoadlit_spec he hs hload
      | none =>
        cases haddr : fixPcreladdr e s with
        | some s' => exact fixPcreladdr_spec he hs haddr
        | none =>
          have hplain := isPlain_of_none (congrArg (fetch e.mem) hs.inprx_eq) hbranch hcond hload
            haddr
          exact ⟨_, copyInstruction_emits he hs, moves_copy hplain⟩

end

/-! ## The loop -/

/-- The state before the instruction at an index is moved. -/
def stateAt (e : FixSite) (idx : ℕ) : FixState := (fixInstruction e)^[idx] { inprx := e.basep }

/-- The words of the blocks. -/
def itemsOf (bs : List Block) : List HookItem := bs.flatMap Block.items

/-- The places of the instructions before an index. -/
def placesBefore (s : FixState) (idx : ℕ) (i : ℕ) : Option Addr :=
  if i < idx then some (s.dat i).ins else none

/-- The blocks of the instructions before an index, and the words that they have become. -/
structure Laid (e : FixSite) (idx : ℕ) (bs : List Block) : Prop where
  length_eq : bs.length = idx
  inprx_eq : (stateAt e idx).inprx = e.pcAt idx
  linked : Linked (patchWord e.rx) (placesBefore (stateAt e idx) idx) (itemsOf bs)
    (stateAt e idx).out (stateAt e idx).pending
  moves : ∀ i (hi : i < bs.length), bs[i].Moves e (stateAt e i) i
  ins_eq : ∀ i (hi : i < bs.length), ((stateAt e idx).dat i).ins = bs[i].place
  start_eq : ∀ i ≤ idx, (stateAt e i).out.length = (itemsOf (bs.take i)).length
  earlier : ∀ i ≤ idx, ∀ r < i, ((stateAt e i).dat r).ins = ((stateAt e idx).dat r).ins
  length_le : (itemsOf bs).length ≤ 9 * idx
  refs_le : ∀ l n, (waiting l n (itemsOf bs)).length ≤ idx

namespace Laid

variable {e : FixSite} {idx : ℕ} {bs : List Block}

theorem zero (e : FixSite) : Laid e 0 [] where
  length_eq := rfl
  inprx_eq := (BitVec.add_zero e.basep).symm
  linked := linked_nil fun _ => rfl
  moves i hi := absurd hi (Nat.not_lt_zero i)
  ins_eq i hi := absurd hi (Nat.not_lt_zero i)
  start_eq i hi := by
    obtain rfl : i = 0 := Nat.le_zero.1 hi
    rfl
  earlier i hi r hr := by omega
  length_le := Nat.le_refl 0
  refs_le l n := Nat.le_refl 0

/-- A list of references for an instruction to come has one for each instruction at most. -/
theorem not_full (he : e.WellPlaced) (h : Laid e idx bs) (hidx : idx ≤ e.count) {l : ℕ}
    (hl : idx ≤ l) : ((stateAt e idx).dat l).fmap.length < maxReferences := by
  have hplace : placesBefore (stateAt e idx) idx l = none := if_neg (Nat.not_lt.2 hl)
  have hpending := congrArg List.length (h.linked.pending_eq l hplace)
  have hrefs := h.refs_le l 0
  have hcount := he.count_le
  rw [FixState.pending, List.length_map] at hpending
  unfold maxInstructions at hcount
  unfold maxReferences maxInstructions
  omega

theorem ready (he : e.WellPlaced) (h : Laid e idx bs) (hidx : idx < e.count) :
    ReadyToMove e (stateAt e idx) idx where
  inprx_eq := h.inprx_eq
  lt := hidx
  length_lt := by
    have hlen := h.length_le
    have hcount := he.count_le
    rw [h.linked.length_eq]
    unfold maxInstructions at hcount
    omega
  not_full l hl := h.not_full he hidx.le hl.le
  written r hr := h.linked.lt_length (if_neg (Nat.lt_irrefl idx)) hr

theorem stateAt_succ (e : FixSite) (idx : ℕ) :
    stateAt e (idx + 1) = fixInstruction e (stateAt e idx) :=
  Function.iterate_succ_apply' _ _ _

theorem ins_eq_of_emits {b : Block} (hemits : (stateAt e idx).Emits e idx b (stateAt e (idx + 1)))
    {i : ℕ} (hi : i < idx) : ((stateAt e (idx + 1)).dat i).ins = ((stateAt e idx).dat i).ins := by
  rw [hemits.ins_eq, if_neg hi.ne]

/-- A step places its index, and no other. -/
theorem placesBefore_succ {b : Block}
    (hemits : (stateAt e idx).Emits e idx b (stateAt e (idx + 1))) :
    Function.update (placesBefore (stateAt e idx) idx) idx (some b.place) =
      placesBefore (stateAt e (idx + 1)) (idx + 1) := by
  funext i
  unfold placesBefore
  rcases Nat.lt_trichotomy i idx with hlt | rfl | hgt
  · rw [Function.update_of_ne hlt.ne, if_pos hlt, if_pos (Nat.lt_succ_of_lt hlt),
      ins_eq_of_emits hemits hlt]
  · rw [Function.update_self, if_pos (Nat.lt_succ_self i), hemits.ins_eq, if_pos rfl]
  · rw [Function.update_of_ne hgt.ne', if_neg (Nat.not_lt.2 hgt.le), if_neg (Nat.not_lt.2 hgt)]

theorem itemsOf_concat (bs : List Block) (b : Block) :
    itemsOf (bs ++ [b]) = itemsOf bs ++ b.items := by
  rw [itemsOf, List.flatMap_append, List.flatMap_singleton]
  rfl

theorem linked_succ (h : Laid e idx bs) {b : Block}
    (hemits : (stateAt e idx).Emits e idx b (stateAt e (idx + 1)))
    (hmoves : b.Moves e (stateAt e idx) idx) :
    Linked (patchWord e.rx) (placesBefore (stateAt e (idx + 1)) (idx + 1))
      (itemsOf (bs ++ [b])) (stateAt e (idx + 1)).out (stateAt e (idx + 1)).pending := by
  have hunplaced (item) (hmem : item ∈ b.items) (l : ℕ) (hl : item.label? = some l) :
      placesBefore (stateAt e idx) idx l = none :=
    if_neg (Nat.not_lt.2 (hmoves.later item hmem l hl).1.le)
  have hself : waiting idx (stateAt e idx).out.length b.items = [] :=
    waiting_eq_nil fun item hmem hl => Nat.lt_irrefl idx (hmoves.later item hmem idx hl).1
  have hwritten : Linked (patchWord e.rx) (placesBefore (stateAt e idx) idx)
      (itemsOf bs ++ b.items) ((stateAt e idx).out ++ b.items.map Item.bare)
      (fun l => (stateAt e idx).pending l ++ waiting l (stateAt e idx).out.length b.items) :=
    h.linked.write hunplaced fun l _ => rfl
  have hplaced := hwritten.place (if_neg (Nat.lt_irrefl idx)) b.place hemits.pending_eq
  rwa [hself, List.append_nil, ← hemits.out_eq, ← itemsOf_concat, placesBefore_succ hemits]
    at hplaced

/-- The blocks after a step are those before, and the new one. -/
theorem getElem_concat (h : Laid e idx bs) (b : Block) {i : ℕ} (hi : i < (bs ++ [b]).length) :
    (∃ hlt : i < bs.length, (bs ++ [b])[i] = bs[i]) ∨ i = idx ∧ (bs ++ [b])[i] = b := by
  by_cases hlt : i < bs.length
  · exact Or.inl ⟨hlt, List.getElem_append_left hlt⟩
  · have hbound : i < bs.length + 1 := by
      rw [List.length_append] at hi
      exact hi
    obtain rfl : i = bs.length := by omega
    exact Or.inr ⟨h.length_eq, List.getElem_concat_length rfl _⟩

/-- A step appends a block. -/
theorem succ (h : Laid e idx bs) {b : Block}
    (hemits : (stateAt e idx).Emits e idx b (stateAt e (idx + 1)))
    (hmoves : b.Moves e (stateAt e idx) idx) : Laid e (idx + 1) (bs ++ [b]) := by
  have hlinked := h.linked_succ hemits hmoves
  have hlen : (bs ++ [b]).length = idx + 1 := by
    rw [List.length_append, h.length_eq, List.length_singleton]
  exact {
    length_eq := hlen
    inprx_eq := by rw [hemits.inprx_eq, h.inprx_eq, FixSite.pcAt_succ]
    linked := hlinked
    moves := by
      intro i hi
      rcases h.getElem_concat b hi with ⟨hlt, hb⟩ | ⟨rfl, hb⟩
      · rw [hb]
        exact h.moves i hlt
      · rw [hb]
        exact hmoves
    ins_eq := by
      intro i hi
      rcases h.getElem_concat b hi with ⟨hlt, hb⟩ | ⟨rfl, hb⟩
      · rw [hb, ins_eq_of_emits hemits (h.length_eq ▸ hlt)]
        exact h.ins_eq i hlt
      · rw [hb, hemits.ins_eq, if_pos rfl]
    start_eq := by
      intro i hi
      rcases Nat.lt_or_eq_of_le hi with hlt | rfl
      · rw [h.start_eq i (Nat.le_of_lt_succ hlt), List.take_append_of_le_length]
        rw [h.length_eq]
        exact Nat.le_of_lt_succ hlt
      · rw [hlinked.length_eq, List.take_of_length_le hlen.le]
    earlier := by
      intro i hi r hr
      rcases Nat.lt_or_eq_of_le hi with hlt | rfl
      · rw [h.earlier i (Nat.le_of_lt_succ hlt) r hr, ins_eq_of_emits hemits (by omega)]
      · rfl
    length_le := by
      have hblock := hmoves.length_le
      have hle := h.length_le
      rw [itemsOf_concat, List.length_append]
      omega
    refs_le := by
      intro l n
      have hblock := hmoves.refs_le l (n + (itemsOf bs).length)
      have hle := h.refs_le l n
      rw [itemsOf_concat, waiting_append, List.length_append]
      omega }

/-- Every instruction of the window becomes a block. -/
theorem exists_laid (he : e.WellPlaced) (hidx : idx ≤ e.count) : ∃ bs, Laid e idx bs := by
  induction idx with
  | zero => exact ⟨[], Laid.zero e⟩
  | succ idx ih =>
    obtain ⟨bs, hbs⟩ := ih (Nat.le_of_succ_le hidx)
    obtain ⟨b, hemits, hmoves⟩ := fixInstruction_spec he (hbs.ready he hidx)
    rw [← stateAt_succ] at hemits
    exact ⟨bs ++ [b], hbs.succ hemits hmoves⟩

end Laid

/-! ## The jump back -/

section

variable {e : FixSite} {s : FixState}

/-- The words of the jump back from word `n` of the trampoline. -/
def callbackWords (e : FixSite) (s : FixState) : List Word :=
  if 0x1ffffff ≤ (pcOffset e s s.inprx).toInt.natAbs then
    List.replicate (padding (e.isAligned s 2 7 = false)) aarch64Nop ++ jumpWords s.inprx
  else [branchOp false ||| ((pcOffset e s s.inprx).setWidth 32 &&& 0x03ffffff)]

theorem writeCallback_out (e : FixSite) (s : FixState) :
    (writeCallback e s).out = s.out ++ callbackWords e s := by
  unfold writeCallback callbackWords padding
  dsimp only
  split
  · split
    · rw [FixState.write_write]
      rfl
    · rfl
  · rfl

theorem length_callbackWords_le (e : FixSite) (s : FixState) : (callbackWords e s).length ≤ 5 := by
  unfold callbackWords
  split
  · have := padding_le (e.isAligned s 2 7 = false)
    simp only [jumpWords, addrWords, List.length_append, List.length_replicate, List.length_cons,
      List.length_nil]
    omega
  · exact (by decide : 1 ≤ 5)

/-- The jump back leads behind the moved instructions. -/
theorem reaches_callback {C : Type} (core : Core C) {I : Memory} (he : e.WellPlaced)
    (hs : s.inprx = e.pcAt e.count) (h : CodeAt I (e.outprx s) (callbackWords e s)) (c : C) :
    ∃ c', (c' = c ∨ c' = core.setReg c 17 (e.pcAt e.count)) ∧
      core.Reaches I ⟨e.outprx s, c⟩ ⟨e.pcAt e.count, c'⟩ := by
  unfold callbackWords at h
  rw [hs] at h
  split at h
  · obtain ⟨hpad, hjump⟩ := codeAt_append.1 h
    rw [List.length_replicate] at hjump
    exact ⟨_, Or.inr rfl, (Core.reaches_nops hpad c).trans (reaches_jumpWords hjump)⟩
  · next hnear =>
    refine ⟨c, Or.inl rfl, ?_⟩
    have hd : e.outprx s + BitVec.ofInt 64 (4 * (((pcOffset e s
        (e.pcAt e.count)).setWidth 32).extractLsb' 0 26).toInt) = e.pcAt e.count :=
      add_ofInt_field (by decide) (dvd_sub (he.dvd_pcAt (Nat.le_refl _)) (he.dvd_rxAt _))
        (fits_of_near hnear) (extractLsb'_setWidth _ (by decide))
    refine Core.Reaches.exec (codeAt_singleton.1 h) (decode_branchOp false _) ?_
    rw [execAt_branch, hd]
    rfl

end

/-! ## The finished trampoline -/

/-- The trampoline's address of the code of an instruction, `NOP`s included. -/
def entryAt (e : FixSite) (idx : ℕ) : Addr := e.outprx (stateAt e idx)

/-- The place that branches to an instruction lead to. -/
def placeAt (e : FixSite) (idx : ℕ) : Addr := ((stateAt e e.count).dat idx).ins

theorem fixInstructions_eq (e : FixSite) : fixInstructions e =
    (stateAt e e.count).out ++ callbackWords e (stateAt e e.count) := writeCallback_out _ _

section

variable {e : FixSite} {bs : List Block}

/-- The trampoline has room for the words of all instructions. -/
theorem length_fixInstructions_le (he : e.WellPlaced) :
    (fixInstructions e).length ≤ trampolineSize := by
  obtain ⟨bs, hbs⟩ := Laid.exists_laid he (Nat.le_refl e.count)
  have hout := hbs.linked.length_eq
  have hlen := hbs.length_le
  have hcallback := length_callbackWords_le e (stateAt e e.count)
  have hcount := he.count_le
  rw [fixInstructions_eq, List.length_append]
  unfold maxInstructions at hcount
  unfold trampolineSize maxInstructions
  omega

/-- **Moving needs no more than there is room for.** The words of a trampoline fit into its slot,
no list of references is ever full when an instruction is moved, and what waits for a place has
been written. -/
theorem fixInstructions_room (he : e.WellPlaced) :
    4 * (fixInstructions e).length ≤ trampolineSize * 4 ∧ ∀ idx ≤ e.count, ∀ l, idx ≤ l →
      ((stateAt e idx).dat l).fmap.length < maxReferences ∧
        ∀ f ∈ ((stateAt e idx).dat l).fmap, f.bpr < (stateAt e idx).out.length := by
  have hlen := length_fixInstructions_le he
  refine ⟨by omega, fun idx hidx l hl => ?_⟩
  obtain ⟨bs, hbs⟩ := Laid.exists_laid he hidx
  refine ⟨hbs.not_full he hidx hl, fun f hf => ?_⟩
  exact hbs.linked.lt_length (if_neg (Nat.not_lt.2 hl)) (List.mem_map_of_mem hf)

theorem mem_itemsOf {item : HookItem} (hmem : item ∈ itemsOf bs) :
    ∃ i, ∃ hi : i < bs.length, item ∈ bs[i].items := by
  obtain ⟨b, hb, hitem⟩ := List.mem_flatMap.1 hmem
  obtain ⟨i, hi, rfl⟩ := List.mem_iff_getElem.1 hb
  exact ⟨i, hi, hitem⟩

/-- The words of the loop are the blocks, with every reference completed. -/
theorem Laid.out_eq (h : Laid e e.count bs) : (stateAt e e.count).out =
    link (patchWord e.rx) (fun l => some (placeAt e l)) 0 (itemsOf bs) := by
  rw [h.linked.out_eq]
  refine link_congr fun item hmem l hl => ?_
  obtain ⟨i, hi, hitem⟩ := mem_itemsOf hmem
  exact if_pos ((h.moves i hi).later item hitem l hl).2

theorem Laid.codeAt_block (h : Laid e e.count bs) {I : Memory}
    (hcode : CodeAt I e.rx (fixInstructions e)) {i : ℕ} (hi : i < bs.length) :
    CodeAt I (entryAt e i) (link (patchWord e.rx) (fun l => some (placeAt e l))
      (stateAt e i).out.length bs[i].items) := by
  have hle : i ≤ e.count := h.length_eq ▸ hi.le
  have hsplit : itemsOf bs = itemsOf (bs.take i) ++ (bs[i].items ++ itemsOf (bs.drop (i + 1))) := by
    rw [itemsOf, itemsOf, itemsOf, ← List.flatMap_cons, ← List.flatMap_append,
      ← List.drop_eq_getElem_cons hi, List.take_append_drop]
  rw [fixInstructions_eq, h.out_eq, hsplit, link_append, link_append, Nat.zero_add,
    ← h.start_eq i hle] at hcode
  have hblock := (codeAt_append.1 (codeAt_append.1 hcode).1).2
  rw [length_link, ← h.start_eq i hle] at hblock
  exact (codeAt_append.1 hblock).1

theorem Laid.codeAt_callback {I : Memory}
    (hcode : CodeAt I e.rx (fixInstructions e)) :
    CodeAt I (entryAt e e.count) (callbackWords e (stateAt e e.count)) := by
  rw [fixInstructions_eq] at hcode
  exact (codeAt_append.1 hcode).2

theorem Laid.start_succ (h : Laid e e.count bs) {i : ℕ} (hi : i < bs.length) :
    (stateAt e (i + 1)).out.length = (stateAt e i).out.length + bs[i].items.length := by
  have hle : i + 1 ≤ e.count := h.length_eq ▸ hi
  rw [h.start_eq _ hle, h.start_eq i (Nat.le_of_succ_le hle), List.take_succ_eq_append_getElem hi,
    itemsOf, List.flatMap_append, List.flatMap_singleton, List.length_append]
  rfl

theorem Laid.places (he : e.WellPlaced) (h : Laid e e.count bs) {i : ℕ} (hi : i < bs.length) :
    Places e (stateAt e i) i bs[i] (placeAt e) where
  earlier r hr := (h.earlier i (h.length_eq ▸ hi.le) r hr).symm
  self := h.ins_eq i hi
  inside r hr hadrp := by
    have hr' : r < bs.length := by
      rw [h.length_eq]
      exact hr
    obtain ⟨m, hm, hplace⟩ := (h.moves r hr').place_eq hadrp
    have hwhole : (itemsOf (bs.take (r + 1))).length ≤ (itemsOf bs).length := by
      conv_rhs => rw [← List.take_append_drop (r + 1) bs]
      rw [itemsOf, itemsOf, List.flatMap_append, List.length_append]
      exact Nat.le_add_right _ _
    have hstart := h.start_succ hr'
    rw [h.start_eq (r + 1) (h.length_eq ▸ hr')] at hstart
    have hlen := h.length_le
    have hcount := he.count_le
    unfold maxInstructions at hcount
    exact ⟨m, by omega, (h.ins_eq r hr').trans hplace⟩

end

/-- A trampoline in an image, for a window whose instructions can be moved. -/
structure Installed (e : FixSite) (I : Memory) : Prop where
  placed : e.WellPlaced
  code : CodeAt I e.rx (fixInstructions e)
  movable : ∀ idx < e.count, e.Movable (stateAt e idx).out.length idx
  literals : ∀ idx < e.count, e.KeepsLiteral I idx

/-- Where the trampoline stands for an instruction of the window: at its first word, or at the
place that branches lead to. -/
def StandsFor (e : FixSite) (idx : ℕ) (pc : Addr) : Prop :=
  pc = entryAt e idx ∨ pc = placeAt e idx ∧ aarch64IsAdrp (e.insAt idx) = false

section

variable {C : Type} {core : Core C} {e : FixSite} {I : Memory} {idx : ℕ} {pc : Addr} {c : C}

/-- The trampoline does what the instruction did at its old address. -/
theorem Installed.imitates (h : Installed e I) (hidx : idx < e.count)
    (hdirect : Direct core e (entryAt e (idx + 1)) c idx) (hpc : StandsFor e idx pc) :
    Imitates core e (placeAt e) I idx (entryAt e (idx + 1)) pc c := by
  obtain ⟨bs, hbs⟩ := Laid.exists_laid h.placed (Nat.le_refl e.count)
  have hi : idx < bs.length := by
    rw [hbs.length_eq]
    exact hidx
  have hnext : entryAt e (idx + 1) =
      e.rxAt ((stateAt e idx).out.length + bs[idx].items.length) := by
    rw [← hbs.start_succ hi]
    rfl
  rw [hnext] at hdirect ⊢
  refine (hbs.moves idx hi).imitates (h.movable idx hidx) core (Laid.places h.placed hbs hi)
    (hbs.codeAt_block h.code hi) (h.literals idx hidx) hdirect ?_
  rw [← hbs.ins_eq idx hi]
  exact hpc

/-- A state of the trampoline for a state of the window: at the same instruction with the same
registers, or outside of both at the same address, with `X17` overwritten at most. -/
inductive Tracks (core : Core C) (e : FixSite) (s : Cpu C) : Cpu C → Prop
  | inside (idx : ℕ) (pc : Addr) (hidx : idx < e.count) (hs : s.pc = e.pcAt idx)
      (hpc : StandsFor e idx pc) : Tracks core e s ⟨pc, s.ctx⟩
  | outside (c : C) (hs : e.isInFixingRange s.pc = false)
      (hc : c = s.ctx ∨ c = core.setReg s.ctx 17 s.pc) : Tracks core e s ⟨s.pc, c⟩

/-- A state that a run of the window leads to, and the one that the trampoline gets to: they track
each other, or the run has left the window by a call, and they would, had the call linked the
address where the trampoline goes on with the next instruction. -/
inductive Shadows (core : Core C) (e : FixSite) (s u : Cpu C) : Prop
  | tracks (h : Tracks core e s u)
  | called (idx : ℕ) (c₀ c : C) (hidx : idx < e.count) (hlinks : (e.insAt idx).links = true)
      (hs : e.isInFixingRange s.pc = false)
      (hcall : core.execAt e.mem (e.pcAt idx) (e.pcAt (idx + 1)) c₀ (e.insAt idx) = (s.pc, s.ctx))
      (hmoved : core.execAt e.mem (e.pcAt idx) (entryAt e (idx + 1)) c₀ (e.insAt idx) = (s.pc, c))
      (h : Tracks core e ⟨s.pc, c⟩ u)

/-- What is reached through a register is not in the window. -/
def DirectAt (core : Core C) (e : FixSite) (s : Cpu C) : Prop :=
  DirectOf core e (s.pc + 4) s.ctx (decode (fetch e.mem s.pc))

instance (s : Cpu C) : Decidable (DirectAt core e s) := inferInstanceAs (Decidable (DirectOf ..))

/-- A call leads out of the window. -/
def CallsOut (core : Core C) (e : FixSite) (s : Cpu C) : Prop :=
  (decode (fetch e.mem s.pc)).links = true → e.isInFixingRange (core.step e.mem s).pc = false

instance (s : Cpu C) : Decidable (CallsOut core e s) := inferInstanceAs (Decidable (_ → _))

theorem DirectOf.ret {next next' : Addr} {i : Instr} (h : DirectOf core e next c i) :
    DirectOf core e next' c i := by
  cases i with
  | other w =>
    intro t ht
    rw [core.exec_target w next' next c] at ht
    exact h t ht
  | _ => exact h

/-- Behind the last instruction, the trampoline jumps back. -/
theorem Installed.tracks_next (h : Installed e I) (core : Core C) (hidx : idx < e.count) (c : C) :
    ∃ u, core.Reaches I ⟨entryAt e (idx + 1), c⟩ u ∧ Tracks core e ⟨e.pcAt (idx + 1), c⟩ u := by
  rcases Nat.lt_or_eq_of_le (Nat.succ_le_of_lt hidx) with hlt | heq
  · exact ⟨_, Core.Reaches.refl _, Tracks.inside (idx + 1) _ hlt rfl (Or.inl rfl)⟩
  · obtain ⟨bs, hbs⟩ := Laid.exists_laid h.placed (Nat.le_refl e.count)
    obtain ⟨c', hc', hreach⟩ := reaches_callback core h.placed hbs.inprx_eq
      (Laid.codeAt_callback h.code) c
    have hidx' : idx + 1 = e.count := heq
    rw [hidx']
    exact ⟨_, hreach, Tracks.outside c' h.placed.isInFixingRange_endp hc'⟩

/-- From an instruction on, some steps of the trampoline are what the instruction does when the
address that it links is one of the trampoline. -/
theorem Installed.exec (h : Installed e I) (hidx : idx < e.count) (hpc : StandsFor e idx pc)
    (hdirect : Direct core e (entryAt e (idx + 1)) c idx) {r : Addr × C}
    (hr : core.execAt e.mem (e.pcAt idx) (entryAt e (idx + 1)) c (e.insAt idx) = r) :
    ∃ u, core.Reaches I ⟨pc, c⟩ u ∧ Tracks core e ⟨r.1, r.2⟩ u := by
  obtain ⟨u, hreach, hlands⟩ := h.imitates hidx hdirect hpc
  rw [hr] at hlands
  cases hlands with
  | next c =>
    obtain ⟨u', hreach', htracks⟩ := h.tracks_next core hidx c
    exact ⟨u', hreach.trans hreach', htracks⟩
  | place i c hi hadrp => exact ⟨_, hreach, Tracks.inside i _ hi rfl (Or.inr ⟨rfl, hadrp⟩)⟩
  | out t c ht => exact ⟨_, hreach, Tracks.outside c ht (Or.inl rfl)⟩
  | veneer t c ht => exact ⟨_, hreach, Tracks.outside _ ht (Or.inr rfl)⟩

/-- A step of the window is some steps of the trampoline. -/
theorem Installed.step (h : Installed e I) {s u : Cpu C} (hin : e.isInFixingRange s.pc = true)
    (hdirect : DirectAt core e s) (hcall : CallsOut core e s) (htracks : Tracks core e s u) :
    ∃ u', core.Reaches I u u' ∧ Shadows core e (core.step e.mem s) u' := by
  cases htracks with
  | outside c hs hc =>
    rw [hs] at hin
    cases hin
  | inside idx pc hidx hs hpc =>
    obtain ⟨spc, c⟩ := s
    dsimp only at hs
    subst hs
    obtain ⟨t, c', hr⟩ : ∃ t c', core.execAt e.mem (e.pcAt idx) (entryAt e (idx + 1)) c
        (e.insAt idx) = (t, c') := ⟨_, _, rfl⟩
    obtain ⟨u', hreach, htracks⟩ := h.exec hidx hpc (DirectOf.ret hdirect) hr
    refine ⟨u', hreach, ?_⟩
    cases hlinks : (e.insAt idx).links with
    | false =>
      rw [core.execAt_ret hlinks _ _ _ (e.pcAt idx + 4)] at hr
      have hstep : core.step e.mem ⟨e.pcAt idx, c⟩ = ⟨t, c'⟩ :=
        congrArg (fun r => (⟨r.1, r.2⟩ : Cpu C)) hr
      rw [hstep]
      exact Shadows.tracks htracks
    | true =>
      have ht : t = (core.step e.mem ⟨e.pcAt idx, c⟩).pc :=
        (congrArg Prod.fst hr).symm.trans (core.fst_execAt_ret _ _ _ _ _ _)
      rw [ht] at hr htracks
      exact Shadows.called idx c c' hidx hlinks (hcall hlinks) (by rw [FixSite.pcAt_succ]; rfl) hr
        htracks

/-- **The trampoline runs the moved instructions.** A run of the processor through the window, from
any of its instructions, is followed by the trampoline step by step. When the run leaves the window,
the trampoline leaves to the same address, with the same registers but for `X17`, and but for the
linked address if it leaves by a call: the callee then returns to the trampoline, to where it goes
on with the next instruction. -/
theorem Installed.run (h : Installed e I) (hidx : idx < e.count) (hpc : StandsFor e idx pc) (c : C)
    (n : ℕ) (hin : ∀ k < n, e.isInFixingRange ((core.step e.mem)^[k] ⟨e.pcAt idx, c⟩).pc = true)
    (hdirect : ∀ k < n, DirectAt core e ((core.step e.mem)^[k] ⟨e.pcAt idx, c⟩))
    (hcall : ∀ k < n, CallsOut core e ((core.step e.mem)^[k] ⟨e.pcAt idx, c⟩)) :
    ∃ u, core.Reaches I ⟨pc, c⟩ u ∧
      Shadows core e ((core.step e.mem)^[n] ⟨e.pcAt idx, c⟩) u := by
  induction n with
  | zero => exact ⟨_, Core.Reaches.refl _, .tracks (Tracks.inside idx pc hidx rfl hpc)⟩
  | succ n ih =>
    obtain ⟨u, hreach, hshadows⟩ := ih (fun k hk => hin k (Nat.lt_succ_of_lt hk))
      (fun k hk => hdirect k (Nat.lt_succ_of_lt hk)) fun k hk => hcall k (Nat.lt_succ_of_lt hk)
    have hin' := hin n (Nat.lt_succ_self n)
    cases hshadows with
    | called idx c₀ c' hidx hlinks hs =>
      rw [hs] at hin'
      cases hin'
    | tracks htracks =>
      obtain ⟨u', hreach', hshadows'⟩ :=
        h.step hin' (hdirect n (Nat.lt_succ_self n)) (hcall n (Nat.lt_succ_self n)) htracks
      rw [Function.iterate_succ_apply']
      exact ⟨u', hreach.trans hreach', hshadows'⟩

end

/-! ### A window of five instructions -/

/-- Registers alone. -/
def sampleCore : Core (BitVec 5 → Addr) where
  reg c r := c r
  setReg := Function.update
  setVec c _ _ := c
  holds _ _ := false
  exec _ _ c := (c, none)
  reg_setReg c r v _ := Function.update_self r v c
  setReg_comm c _ _ v v' h := Function.update_comm h v v' c
  exec_ret _ _ _ _ _ := rfl
  exec_target _ _ _ _ := rfl

/-- `CBZ X0` over the next instruction, `BL` and `B` out of the window, `ADD` and `NOP`. -/
def sampleSite : FixSite where
  rx := 0x20000000
  rw := 0x30000000
  basep := 0x10000
  count := 5
  mem := storeWords (fun _ => 0) 0x10000
    [0xb4000040, 0x94010000, 0x14010000, 0x910043ff, 0xd503201f]

/-- The trampoline of `sampleSite` in memory. -/
def sampleImage : Memory := storeWords sampleSite.mem sampleSite.rx (fixInstructions sampleSite)

theorem installed_sample : Installed sampleSite sampleImage where
  placed := ⟨by decide, by decide, by decide, by decide⟩
  code := codeAt_storeWords _ _ (by decide +kernel)
  movable := (by decide +kernel :
    ∀ idx < 5, sampleSite.Movable (stateAt sampleSite idx).out.length idx)
  literals := (by decide +kernel : ∀ idx < 5, sampleSite.KeepsLiteral sampleImage idx)

theorem room_sample : 4 * (fixInstructions sampleSite).length ≤ trampolineSize * 4 ∧
    ∀ idx ≤ sampleSite.count, ∀ l, idx ≤ l →
      ((stateAt sampleSite idx).dat l).fmap.length < maxReferences ∧
        ∀ f ∈ ((stateAt sampleSite idx).dat l).fmap, f.bpr < (stateAt sampleSite idx).out.length :=
  fixInstructions_room installed_sample.placed

/-- With `X0` zero the sample takes its first branch and leaves with the jump, and with `X0` one it
leaves by the call. -/
theorem run_sample :
    (∃ u, sampleCore.Reaches sampleImage ⟨sampleSite.rx, fun _ => 0⟩ u ∧
      Shadows sampleCore sampleSite
        ((sampleCore.step sampleSite.mem)^[2] ⟨sampleSite.pcAt 0, fun _ => 0⟩) u) ∧
    ∃ u, sampleCore.Reaches sampleImage ⟨sampleSite.rx, fun _ => 1⟩ u ∧
      Shadows sampleCore sampleSite
        ((sampleCore.step sampleSite.mem)^[2] ⟨sampleSite.pcAt 0, fun _ => 1⟩) u :=
  ⟨installed_sample.run (by decide) (Or.inl (by decide +kernel)) _ 2 (by decide +kernel)
      (by decide +kernel) (by decide +kernel),
    installed_sample.run (by decide) (Or.inl (by decide +kernel)) _ 2 (by decide +kernel)
      (by decide +kernel) (by decide +kernel)⟩

end D3Hack
