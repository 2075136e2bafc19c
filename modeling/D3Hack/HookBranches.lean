import D3Hack.HookImitates

/-!
# Moved branches

`fixBranchImm` and `fixCondCompTestBranch` emit blocks that do what the branch did
(`fixBranchImm_spec`, `fixCondCompTestBranch_spec`). A branch within the window refers to the place
of an instruction, which is known or waited for. Otherwise it is given its new offset where that
fits into its field, and goes through `X17` where it does not.
-/

namespace D3Hack

open A64 BackPatch WordMemory

/-! ## Where a branch leads -/

section

variable {C : Type} {core : Core C} {e : FixSite} {φ : ℕ → Addr} {I : Memory} {idx n : ℕ} {c : C}
  {link : Bool} {offset : ℤ} {t d : Addr}

/-- What a branch leaves in the registers. -/
def linked (core : Core C) (link : Bool) (next : Addr) (c : C) : C :=
  if link then core.setReg c 30 next else c

theorem execAt_branch (I : Memory) (pc next : Addr) (c : C) :
    core.execAt I pc next c (.branch link offset) =
      (pc + BitVec.ofInt 64 offset, linked core link next c) := rfl

/-- A branch in the trampoline to where the old one landed. -/
theorem imitates_branch {w x : Word} (hw : fetch I (e.rxAt n) = w)
    (hx : w = branchOp link ||| (x &&& 0x03ffffff))
    (hd : e.rxAt n + BitVec.ofInt 64 (4 * (x.extractLsb' 0 26).toInt) = d)
    (hins : e.insAt idx = .branch link offset)
    (hlands : ∀ c' : C, Lands core e φ idx (e.rxAt (n + 1))
      (e.pcAt idx + BitVec.ofInt 64 offset, c') ⟨d, c'⟩) :
    Imitates core e φ I idx (e.rxAt (n + 1)) (e.rxAt n) c := by
  have hstep : core.Reaches I ⟨e.rxAt n, c⟩ ⟨d, linked core link (e.rxAt (n + 1)) c⟩ := by
    refine Core.Reaches.exec hw (hx ▸ decode_branchOp link x) ?_
    rw [execAt_branch, hd, FixSite.rxAt_succ]
  exact Imitates.of_reaches hstep (hins ▸ execAt_branch _ _ _ _) (hlands _)

end

/-! ## Unconditional branches -/

section

variable {e : FixSite} {s s' : FixState} {idx : ℕ} {link : Bool} {offset : ℤ} {t : Addr}

theorem fits_of_near {o : BitVec 64} (h : ¬0x1ffffff ≤ o.toInt.natAbs) : Fits 25 o :=
  ⟨by omega, by omega⟩

/-- A branch with the offset to a place. -/
theorem imitates_near_branch {C : Type} {core : Core C} {φ : ℕ → Addr} {I : Memory} {c : C} {n : ℕ}
    {x : Word} {d : Addr} (he : e.WellPlaced) (hd : 4 ∣ d.toNat)
    (hfits : Fits 25 ((d - e.rxAt n).sshiftRight 2))
    (hw : fetch I (e.rxAt n) = branchOp link ||| (x &&& 0x03ffffff))
    (hx : x.extractLsb' 0 26 = ((d - e.rxAt n).sshiftRight 2).extractLsb' 0 26)
    (hins : e.insAt idx = .branch link offset)
    (hlands : ∀ c' : C, Lands core e φ idx (e.rxAt (n + 1))
      (e.pcAt idx + BitVec.ofInt 64 offset, c') ⟨d, c'⟩) :
    Imitates core e φ I idx (e.rxAt (n + 1)) (e.rxAt n) c :=
  imitates_branch hw rfl
    (add_ofInt_field (by decide) (dvd_sub hd (he.dvd_rxAt n)) hfits hx) hins hlands

/-- A call that is too far for an offset. -/
theorem reaches_callWords {C : Type} {core : Core C} {I : Memory} {pc : Addr} {c : C}
    (h : CodeAt I pc ([0x58000071, 0x1000009e, 0xd61f0220] ++ addrWords t)) :
    core.Reaches I ⟨pc, c⟩
      ⟨t, core.setReg (core.setReg c 30 (pc + BitVec.ofNat 64 (4 * 5))) 17 t⟩ := by
  obtain ⟨hload, hrest⟩ := codeAt_cons.1 h
  obtain ⟨hadr, hrest⟩ := codeAt_cons.1 hrest
  obtain ⟨hbr, haddr⟩ := codeAt_cons.1 hrest
  have hlit : pc + 4 + 4 + 4 = pc + BitVec.ofInt 64 12 := by
    rw [BitVec.add_assoc, BitVec.add_assoc]
    rfl
  rw [hlit] at haddr
  have hX17 : core.Reaches I ⟨pc, c⟩ ⟨pc + 4, core.setReg c 17 t⟩ := by
    refine Core.Reaches.exec hload (by decide +kernel : decode 0x58000071 = .load .x 17 12) ?_
    rw [Core.execAt, Core.setLiteral, Literal.size, load_address haddr]
  have hX30 : core.Reaches I ⟨pc + 4, core.setReg c 17 t⟩ ⟨pc + 4 + 4,
      core.setReg (core.setReg c 17 t) 30 (pc + BitVec.ofNat 64 (4 * 5))⟩ := by
    refine Core.Reaches.exec hadr (by decide +kernel : decode 0x1000009e = .adr 30 16) ?_
    rw [Core.execAt, BitVec.add_assoc, BitVec.add_assoc]
    rfl
  have hcomm : core.setReg (core.setReg c 17 t) 30 (pc + BitVec.ofNat 64 (4 * 5)) =
      core.setReg (core.setReg c 30 (pc + BitVec.ofNat 64 (4 * 5))) 17 t :=
    core.setReg_comm _ _ _ _ _ (by decide)
  rw [hcomm] at hX30
  have hjump : core.Reaches I ⟨pc + 4 + 4, core.setReg (core.setReg c 30
      (pc + BitVec.ofNat 64 (4 * 5))) 17 t⟩ ⟨t, core.setReg (core.setReg c 30
        (pc + BitVec.ofNat 64 (4 * 5))) 17 t⟩ := by
    refine Core.Reaches.exec hbr (by decide +kernel : decode 0xd61f0220 = .branchReg 17) ?_
    rw [Core.execAt, core.reg_setReg _ _ _ (by decide)]
  exact (hX17.trans hX30).trans hjump

/-- The place of an instruction that has one. -/
theorem Places.eq_ins {b : Block} {φ : ℕ → Addr} (h : Places e s idx b φ)
    (hplace : b.place = e.outprx s) {r : ℕ} (hr : r ≤ idx) :
    φ r = ((s.setIns idx (e.outprx s)).dat r).ins := by
  rw [FixState.setIns_ins]
  rcases Nat.lt_or_eq_of_le hr with hlt | rfl
  · rw [if_neg hlt.ne, h.earlier r hlt]
  · rw [if_pos rfl, h.self, hplace]

/-- A branch to an earlier instruction of the window, or to itself. -/
theorem moves_branch_back (he : e.WellPlaced) (hs : ReadyToMove e s idx)
    (hins : e.insAt idx = .branch link offset) {r : ℕ} (hr : r ≤ idx)
    (ht : e.pcAt idx + BitVec.ofInt 64 offset = e.pcAt r) :
    Block.Moves e s idx ⟨[.word (branchOp link |||
      ((pcOffset e s ((s.setIns idx (e.outprx s)).dat r).ins).setWidth 32 &&& 0x03ffffff))],
      e.outprx s⟩ := by
  have hlt : r < e.count := Nat.lt_of_le_of_lt hr hs.lt
  refine Block.moves_of_write (k := 0) (v := [_]) (by simp) (fun _ => Or.inl rfl) ?_
  intro hmov C core I φ hφ hcode _ c _
  have hadrp : aarch64IsAdrp (e.insAt r) = false := by
    have hmay : e.CanMove _ _ (e.insAt idx) := hmov
    rw [hins] at hmay
    exact hmay r hlt ht
  have hplace := hφ.eq_ins rfl hr
  obtain ⟨m, hm, hrx⟩ := hφ.inside r hlt hadrp
  rw [← hplace] at hcode
  refine imitates_near_branch (d := φ r) he ?_ ?_ (codeAt_singleton.1 hcode) ?_ hins ?_
  · rw [hrx]
    exact he.dvd_rxAt m
  · rw [hrx]
    exact (fits_rxAt e hm (by have := hs.length_lt; omega)).mono (by decide)
  · exact extractLsb'_setWidth _ (by decide)
  · rw [ht]
    exact fun c' => Lands.place r c' hlt hadrp

/-- A branch to a later instruction of the window. -/
theorem moves_branch_forward (he : e.WellPlaced) (hs : ReadyToMove e s idx)
    (hins : e.insAt idx = .branch link offset) {r : ℕ} (hr : idx < r ∧ r < e.count)
    (ht : e.pcAt idx + BitVec.ofInt 64 offset = e.pcAt r) :
    Block.Moves e s idx ⟨[.refer (branchOp link) r (0, 0x03ffffff)], e.outprx s⟩ := by
  refine Block.moves_of_refer hr ?_
  intro hmov C core I φ hplace hw c
  have hadrp : aarch64IsAdrp (e.insAt r) = false := by
    have hmay : e.CanMove _ _ (e.insAt idx) := hmov
    rw [hins] at hmay
    exact hmay r hr.2 ht
  obtain ⟨m, hm, hrx⟩ := hplace hadrp
  refine imitates_near_branch (d := φ r)
    (x := ((φ r - e.rxAt s.out.length).setWidth 32).sshiftRight 2) he ?_ ?_ ?_ ?_ hins ?_
  · rw [hrx]
    exact he.dvd_rxAt m
  · rw [hrx]
    exact (fits_rxAt e hm (by have := hs.length_lt; omega)).mono (by decide)
  · rw [hw, patchWord, FixInfo.patch, BitVec.shiftLeft_zero]
    rfl
  · exact extractLsb'_sshiftRight _ (by decide)
  · rw [ht]
    exact fun c' => Lands.place r c' hr.2 hadrp

/-- A branch out of the window. -/
theorem moves_branch_near (he : e.WellPlaced)
    (hins : e.insAt idx = .branch link offset)
    (ht : e.pcAt idx + BitVec.ofInt 64 offset = t) (hdvd : 4 ∣ t.toNat)
    (hout : e.isInFixingRange t = false) (hnear : ¬0x1ffffff ≤ (pcOffset e s t).toInt.natAbs) :
    Block.Moves e s idx
      ⟨[.word (branchOp link ||| ((pcOffset e s t).setWidth 32 &&& 0x03ffffff))], e.outprx s⟩ := by
  refine Block.moves_of_write (k := 0) (v := [_]) (by simp) (fun _ => Or.inl rfl) ?_
  intro _ C core I φ _ hcode _ c _
  refine imitates_near_branch (d := t) he hdvd (fits_of_near hnear) (codeAt_singleton.1 hcode)
    (extractLsb'_setWidth _ (by decide)) hins ?_
  rw [ht]
  exact fun c' => Lands.out t c' hout

/-- A jump that is too far for an offset. -/
theorem moves_jump_far (hins : e.insAt idx = .branch false offset)
    (ht : e.pcAt idx + BitVec.ofInt 64 offset = t) (hout : e.isInFixingRange t = false) {k : ℕ}
    (hk : k ≤ 1) : Block.Moves e s idx ⟨(List.replicate k aarch64Nop ++ jumpWords t).map .word,
      e.rxAt (s.out.length + k)⟩ := by
  refine Block.moves_of_write (by simp [jumpWords, addrWords]; omega) (fun _ => Or.inr rfl) ?_
  intro _ C core I φ _ hcode _ c _
  refine Imitates.of_reaches (reaches_jumpWords hcode) (hins ▸ execAt_branch _ _ _ _) ?_
  rw [ht]
  exact Lands.veneer t _ hout

theorem moves_call_far (hins : e.insAt idx = .branch true offset)
    (ht : e.pcAt idx + BitVec.ofInt 64 offset = t) (hout : e.isInFixingRange t = false) {k : ℕ}
    (hk : k ≤ 1) : Block.Moves e s idx ⟨(List.replicate k aarch64Nop ++
      ([0x58000071, 0x1000009e, 0xd61f0220] ++ addrWords t)).map .word,
      e.rxAt (s.out.length + k)⟩ := by
  refine Block.moves_of_write (by simp [addrWords]; omega) (fun _ => Or.inr rfl) ?_
  intro _ C core I φ _ hcode _ c _
  refine Imitates.of_reaches (reaches_callWords hcode) (hins ▸ execAt_branch _ _ _ _) ?_
  rw [ht, ← FixSite.rxAt_add]
  exact Lands.veneer t _ hout

theorem fixBranchImm_spec (he : e.WellPlaced) (hs : ReadyToMove e s idx)
    (h : fixBranchImm e s = some s') : ∃ b, s.Emits e idx b s' ∧ b.Moves e s idx := by
  have hidx : e.currentIdx s = idx := hs.currentIdx_eq he
  unfold fixBranchImm at h
  simp only [hidx, FixState.setIns_inprx, FixState.pcOffset_setIns,
    FixState.isAligned_setIns, FixState.setIns_out, hs.inprx_eq, signExtend_imm26] at h
  split at h
  next hopc =>
    obtain ⟨link, hop⟩ : ∃ link, fetch e.mem (e.pcAt idx) &&& 0xfc000000 = branchOp link := by
      rcases hopc with hopc | hopc
      · exact ⟨false, hopc⟩
      · exact ⟨true, hopc⟩
    have hins : e.insAt idx = .branch link (4 * (imm26 (fetch e.mem (e.pcAt idx))).toInt) :=
      decode_of_branchOp hop
    have hdvd : 4 ∣ (e.pcAt idx + BitVec.ofInt 64
        (4 * (imm26 (fetch e.mem (e.pcAt idx))).toInt)).toNat :=
      dvd_add_ofInt (he.dvd_pcAt hs.lt.le) _
    generalize (4 * (imm26 (fetch e.mem (e.pcAt idx))).toInt) = offset at h hins hdvd
    rw [hop] at h
    injection h with h
    by_cases hin : e.isInFixingRange (e.pcAt idx + BitVec.ofInt 64 offset) = true
    · obtain ⟨r, hr, ht⟩ := he.exists_pcAt hin hdvd
      rw [ht] at hin
      simp only [ht, hin, Bool.true_eq_false, false_and, if_false, if_true,
        he.getRefInsIndex_pcAt hr.le] at h
      by_cases hle : r ≤ idx
      · rw [if_pos hle] at h
        exact ⟨_, FixState.emits_of_write (v := [_]) h.symm, moves_branch_back he hs hins hle ht⟩
      · rw [if_neg hle] at h
        have hlt : idx < r := Nat.lt_of_not_le hle
        exact ⟨_, FixState.emits_of_refer hlt.ne' (hs.not_full r hlt) h.symm,
          moves_branch_forward he hs hins ⟨hlt, hr⟩ ht⟩
    · have hout : e.isInFixingRange (e.pcAt idx + BitVec.ofInt 64 offset) = false :=
        Bool.not_eq_true _ ▸ hin
      by_cases hfar : 0x1ffffff ≤ (pcOffset e s (e.pcAt idx + BitVec.ofInt 64 offset)).toInt.natAbs
      · rw [if_pos ⟨hout, hfar⟩] at h
        cases link with
        | false =>
          rw [if_pos (by decide : branchOp false = 0x14000000), FixState.aligned_outprx,
            FixState.write_write] at h
          exact ⟨_, FixState.emits_of_write h.symm,
            moves_jump_far hins rfl hout (padding_le _)⟩
        | true =>
          rw [if_neg (by decide : branchOp true ≠ 0x14000000), FixState.aligned_outprx,
            FixState.write_write] at h
          exact ⟨_, FixState.emits_of_write h.symm,
            moves_call_far hins rfl hout (padding_le _)⟩
      · simp only [hout, hfar, and_false, if_false, Bool.false_eq_true] at h
        exact ⟨_, FixState.emits_of_write (v := [_]) h.symm,
          moves_branch_near he hins rfl hdvd hout hfar⟩
  next hopc => cases h

end

/-! ## Conditional branches -/

section

variable {e : FixSite} {s s' : FixState} {idx n : ℕ} {t : Addr} {w lmask : Word}

/-- A conditional branch: its test, its offset in words, and the branches that differ from it in
the offset alone. -/
structure IsBranchIf (w lmask : Word) (n : ℕ) (test : Test) (imm : BitVec (n + 1)) : Prop where
  width : n = 13 ∨ n = 18
  decode_eq : decode w = .branchIf test (4 * imm.toInt)
  offset_eq : ((w &&& ~~~lmask) >>> 3).setWidth 64 = BitVec.ofNat 64 (4 * imm.toNat)
  retarget : ∀ x : Word, decode (((x <<< 5) &&& ~~~lmask) ||| (w &&& lmask)) =
    .branchIf test (4 * (x.extractLsb' 0 (n + 1)).toInt)
  limit_eq : (~~~lmask >>> 6).toNat = 2 ^ n - 1

theorem isBranchIf19 {f : Format} (hf : f ∈ branches19) (h : f.Matches w) :
    ∃ test, IsBranchIf w 0xff00001f 18 test (imm19 w) := by
  obtain ⟨test, hdecode, hretarget⟩ := decode_retarget19 hf h
  exact ⟨test, Or.inr rfl, hdecode, zeroExtend_imm19 w, hretarget, by decide⟩

theorem isBranchIf14 {f : Format} (hf : f ∈ branches14) (h : f.Matches w) :
    ∃ test, IsBranchIf w 0xfff8001f 13 test (imm14 w) := by
  obtain ⟨test, hdecode, hretarget⟩ := decode_retarget14 hf h
  exact ⟨test, Or.inl rfl, hdecode, zeroExtend_imm14 w, hretarget, by decide⟩

theorem isBranchIf_of_lmaskOf (h : lmaskOf w = some lmask) :
    ∃ n test, ∃ imm : BitVec (n + 1), IsBranchIf w lmask n test imm := by
  unfold lmaskOf at h
  split at h
  next hbc =>
    cases h
    obtain ⟨test, hb⟩ := isBranchIf19 (f := Format.bCond) (by simp [branches19]) hbc
    exact ⟨_, test, _, hb⟩
  next =>
    split at h
    next hcb =>
      cases h
      rcases hcb with hcbz | hcbnz
      · obtain ⟨test, hb⟩ := isBranchIf19 (f := Format.cbz) (by simp [branches19]) hcbz
        exact ⟨_, test, _, hb⟩
      · obtain ⟨test, hb⟩ := isBranchIf19 (f := Format.cbnz) (by simp [branches19]) hcbnz
        exact ⟨_, test, _, hb⟩
    next =>
      split at h
      next htb =>
        cases h
        rcases htb with htbz | htbnz
        · obtain ⟨test, hb⟩ := isBranchIf14 (f := Format.tbz) (by simp [branches14]) htbz
          exact ⟨_, test, _, hb⟩
        · obtain ⟨test, hb⟩ := isBranchIf14 (f := Format.tbnz) (by simp [branches14]) htbnz
          exact ⟨_, test, _, hb⟩
      next => cases h

variable {test : Test} {imm : BitVec (n + 1)}

theorem execAt_branchIf {C : Type} (core : Core C) (I : Memory) (pc next : Addr) (c : C)
    (test : Test) (offset : ℤ) : core.execAt I pc next c (.branchIf test offset) =
      (if core.takes c test then pc + BitVec.ofInt 64 offset else pc + 4, c) := rfl

/-- A conditional branch with the offset to a place. -/
theorem imitates_branchIf {C : Type} {core : Core C} {φ : ℕ → Addr} {I : Memory} {c : C} {m : ℕ}
    {x : Word} {d : Addr} (he : e.WellPlaced) (hb : IsBranchIf w lmask n test imm)
    (hins : e.insAt idx = .branchIf test (4 * imm.toInt)) (hd : 4 ∣ d.toNat)
    (hfits : Fits n ((d - e.rxAt m).sshiftRight 2))
    (hw : fetch I (e.rxAt m) = ((x <<< 5) &&& ~~~lmask) ||| (w &&& lmask))
    (hx : x.extractLsb' 0 (n + 1) = ((d - e.rxAt m).sshiftRight 2).extractLsb' 0 (n + 1))
    (hlands : Lands core e φ idx (e.rxAt (m + 1))
      (e.pcAt idx + BitVec.ofInt 64 (4 * imm.toInt), c) ⟨d, c⟩) :
    Imitates core e φ I idx (e.rxAt (m + 1)) (e.rxAt m) c := by
  have hn : n < 64 := by
    rcases hb.width with rfl | rfl <;> decide
  have htarget : e.rxAt m + BitVec.ofInt 64 (4 * (x.extractLsb' 0 (n + 1)).toInt) = d :=
    add_ofInt_field hn (dvd_sub hd (he.dvd_rxAt m)) hfits hx
  have hstep := execAt_branchIf core I (e.rxAt m) (e.rxAt m + 4) c test
    (4 * (x.extractLsb' 0 (n + 1)).toInt)
  have hold := execAt_branchIf core e.mem (e.pcAt idx) (e.rxAt (m + 1)) c test
    (4 * imm.toInt)
  rw [htarget] at hstep
  cases htakes : core.takes c test with
  | true =>
    rw [htakes, if_pos rfl] at hstep hold
    exact Imitates.of_reaches (Core.Reaches.exec hw (hb.retarget x) hstep) (hins ▸ hold) hlands
  | false =>
    rw [htakes, if_neg Bool.false_ne_true] at hstep hold
    refine Imitates.of_reaches (Core.Reaches.exec hw (hb.retarget x) hstep) (hins ▸ hold) ?_
    rw [← FixSite.pcAt_succ, ← FixSite.rxAt_succ]
    exact Lands.next c

/-- A conditional branch over a jump, to the far jump behind it. -/
theorem imitates_branchIf_far {C : Type} {core : Core C} {φ : ℕ → Addr} {I : Memory} {c : C}
    {m : ℕ} (hb : IsBranchIf w lmask n test imm)
    (hins : e.insAt idx = .branchIf test (4 * imm.toInt))
    (hcode : CodeAt I (e.rxAt m)
      ([(((2 : Word) <<< 5) &&& ~~~lmask) ||| (w &&& lmask), 0x14000005] ++ jumpWords t))
    (ht : e.pcAt idx + BitVec.ofInt 64 (4 * imm.toInt) = t) (hout : e.isInFixingRange t = false) :
    Imitates core e φ I idx (e.rxAt (m + 6)) (e.rxAt m) c := by
  obtain ⟨hcond, hrest⟩ := codeAt_cons.1 hcode
  obtain ⟨hover, hjump⟩ := codeAt_cons.1 hrest
  have htwo : ((2 : Word).extractLsb' 0 (n + 1)).toInt = 2 := by
    rcases hb.width with rfl | rfl <;> decide
  have hstep := execAt_branchIf core I (e.rxAt m) (e.rxAt m + 4) c test
    (4 * ((2 : Word).extractLsb' 0 (n + 1)).toInt)
  have hold := execAt_branchIf core e.mem (e.pcAt idx) (e.rxAt (m + 6)) c test
    (4 * imm.toInt)
  have hfar : e.rxAt m + BitVec.ofInt 64 (4 * 2) = e.rxAt m + 4 + 4 := by
    rw [BitVec.add_assoc]
    rfl
  have hretarget := hb.retarget 2
  rw [htwo] at hretarget
  rw [htwo, hfar] at hstep
  cases htakes : core.takes c test with
  | true =>
    rw [htakes, if_pos rfl] at hstep hold
    rw [ht] at hold
    exact Imitates.of_reaches ((Core.Reaches.exec hcond hretarget hstep).trans
      (reaches_jumpWords hjump)) (hins ▸ hold) (Lands.veneer t c hout)
  | false =>
    rw [htakes, if_neg Bool.false_ne_true] at hstep hold
    have hskip : core.Reaches I ⟨e.rxAt m + 4, c⟩ ⟨e.rxAt (m + 6), c⟩ := by
      refine Core.Reaches.exec hover
        (by decide +kernel : decode 0x14000005 = .branch false 20) ?_
      rw [Core.execAt, BitVec.add_assoc, FixSite.rxAt_add]
      rfl
    refine Imitates.of_reaches ((Core.Reaches.exec hcond hretarget hstep).trans hskip)
      (hins ▸ hold) ?_
    rw [← FixSite.pcAt_succ]
    exact Lands.next c

/-- Where the source takes a conditional branch to lead is right for an offset without a sign. -/
theorem movable_branchIf (hins : e.insAt idx = .branchIf test (4 * imm.toInt))
    (hmov : e.Movable s.out.length idx)
    (ht : e.pcAt idx + BitVec.ofNat 64 (4 * imm.toNat) = t) :
    e.pcAt idx + BitVec.ofInt 64 (4 * imm.toInt) = t ∧ e.MayEnter t := by
  have hcan : e.CanMove _ _ (e.insAt idx) := hmov
  rw [hins] at hcan
  obtain ⟨hpos, hmay⟩ := hcan
  have hnonneg : 0 ≤ imm.toInt := by omega
  have hofInt : BitVec.ofInt 64 (4 * imm.toInt) = BitVec.ofNat 64 (4 * imm.toNat) :=
    ofInt_of_nonneg hnonneg 4
  rw [hofInt, ht] at hmay
  exact ⟨hofInt ▸ ht, hmay⟩

theorem moves_branchIf_back (he : e.WellPlaced) (hs : ReadyToMove e s idx)
    (hb : IsBranchIf w lmask n test imm) (hins : e.insAt idx = .branchIf test (4 * imm.toInt))
    {r : ℕ} (hr : r ≤ idx) (ht : e.pcAt idx + BitVec.ofNat 64 (4 * imm.toNat) = e.pcAt r) :
    Block.Moves e s idx ⟨[.word
      ((((pcOffset e s ((s.setIns idx (e.outprx s)).dat r).ins).setWidth 32 <<< 5) &&& ~~~lmask) |||
        (w &&& lmask))], e.outprx s⟩ := by
  have hlt : r < e.count := Nat.lt_of_le_of_lt hr hs.lt
  refine Block.moves_of_write (k := 0) (v := [_]) (by simp) (fun _ => Or.inl rfl) ?_
  intro hmov C core I φ hφ hcode _ c _
  obtain ⟨htarget, hmay⟩ := movable_branchIf hins hmov ht
  have hadrp := hmay r hlt rfl
  have hplace := hφ.eq_ins rfl hr
  obtain ⟨m, hm, hrx⟩ := hφ.inside r hlt hadrp
  have hn : 13 ≤ n ∧ n + 1 ≤ 32 := by
    rcases hb.width with rfl | rfl <;> decide
  rw [← hplace] at hcode
  refine imitates_branchIf (d := φ r) he hb hins ?_ ?_ (codeAt_singleton.1 hcode) ?_ ?_
  · rw [hrx]
    exact he.dvd_rxAt m
  · rw [hrx]
    exact (fits_rxAt e hm (by have := hs.length_lt; omega)).mono hn.1
  · exact extractLsb'_setWidth _ hn.2
  · rw [htarget]
    exact Lands.place r c hlt hadrp

theorem moves_branchIf_forward (he : e.WellPlaced) (hs : ReadyToMove e s idx)
    (hb : IsBranchIf w lmask n test imm) (hins : e.insAt idx = .branchIf test (4 * imm.toInt))
    {r : ℕ} (hr : idx < r ∧ r < e.count)
    (ht : e.pcAt idx + BitVec.ofNat 64 (4 * imm.toNat) = e.pcAt r) :
    Block.Moves e s idx ⟨[.refer (w &&& lmask) r (5, ~~~lmask)], e.outprx s⟩ := by
  refine Block.moves_of_refer hr ?_
  intro hmov C core I φ hplace hw c
  obtain ⟨htarget, hmay⟩ := movable_branchIf hins hmov ht
  have hadrp := hmay r hr.2 rfl
  obtain ⟨m, hm, hrx⟩ := hplace hadrp
  have hn : 13 ≤ n ∧ n + 1 ≤ 30 := by
    rcases hb.width with rfl | rfl <;> decide
  refine imitates_branchIf (d := φ r)
    (x := ((φ r - e.rxAt s.out.length).setWidth 32).sshiftRight 2) he hb hins ?_ ?_ ?_ ?_ ?_
  · rw [hrx]
    exact he.dvd_rxAt m
  · rw [hrx]
    exact (fits_rxAt e hm (by have := hs.length_lt; omega)).mono hn.1
  · rw [hw, patchWord, FixInfo.patch, BitVec.or_comm]
    rfl
  · exact extractLsb'_sshiftRight _ hn.2
  · rw [htarget]
    exact Lands.place r c hr.2 hadrp

theorem moves_branchIf_near (he : e.WellPlaced) (hb : IsBranchIf w lmask n test imm)
    (hins : e.insAt idx = .branchIf test (4 * imm.toInt))
    (ht : e.pcAt idx + BitVec.ofNat 64 (4 * imm.toNat) = t) (hdvd : 4 ∣ t.toNat)
    (hout : e.isInFixingRange t = false)
    (hnear : ¬(~~~lmask >>> 6).toNat ≤ (pcOffset e s t).toInt.natAbs) :
    Block.Moves e s idx ⟨[.word ((((pcOffset e s t).setWidth 32 <<< 5) &&& ~~~lmask) |||
      (w &&& lmask))], e.outprx s⟩ := by
  refine Block.moves_of_write (k := 0) (v := [_]) (by simp) (fun _ => Or.inl rfl) ?_
  intro hmov C core I φ hφ hcode _ c _
  obtain ⟨htarget, -⟩ := movable_branchIf hins hmov ht
  have hn : n + 1 ≤ 32 := by
    rcases hb.width with rfl | rfl <;> decide
  have hfits : Fits n (pcOffset e s t) := by
    rw [hb.limit_eq] at hnear
    have hpow : (2 ^ n : ℕ) = (2 ^ n : ℤ) := by norm_cast
    exact ⟨by omega, by omega⟩
  refine imitates_branchIf (d := t) he hb hins hdvd hfits (codeAt_singleton.1 hcode)
    (extractLsb'_setWidth _ hn) ?_
  rw [htarget]
  exact Lands.out t c hout

theorem moves_branchIf_far (hb : IsBranchIf w lmask n test imm)
    (hins : e.insAt idx = .branchIf test (4 * imm.toInt))
    (ht : e.pcAt idx + BitVec.ofNat 64 (4 * imm.toNat) = t) (hout : e.isInFixingRange t = false)
    {k : ℕ} (hk : k ≤ 1) : Block.Moves e s idx ⟨(List.replicate k aarch64Nop ++
      ([(((2 : Word) <<< 5) &&& ~~~lmask) ||| (w &&& lmask), 0x14000005] ++ jumpWords t)).map .word,
      e.outprx s⟩ := by
  refine Block.moves_of_write (by simp [jumpWords, addrWords]; omega) (fun _ => Or.inl rfl) ?_
  intro hmov C core I φ _ hcode _ c _
  exact imitates_branchIf_far hb hins hcode (movable_branchIf hins hmov ht).1 hout

theorem fixCondCompTestBranch_spec (he : e.WellPlaced) (hs : ReadyToMove e s idx)
    (h : fixCondCompTestBranch e s = some s') : ∃ b, s.Emits e idx b s' ∧ b.Moves e s idx := by
  have hidx : e.currentIdx s = idx := hs.currentIdx_eq he
  unfold fixCondCompTestBranch at h
  simp only [hidx, FixState.setIns_inprx, FixState.outprx_setIns, FixState.pcOffset_setIns,
    FixState.isAligned_setIns, FixState.setIns_out, hs.inprx_eq] at h
  split at h
  next => cases h
  next lmask hlmask =>
    obtain ⟨n, test, imm, hb⟩ := isBranchIf_of_lmaskOf hlmask
    have hins : e.insAt idx = .branchIf test (4 * imm.toInt) := hb.decode_eq
    have hdvd : 4 ∣ (e.pcAt idx + BitVec.ofNat 64 (4 * imm.toNat)).toNat := by
      have := dvd_add_ofInt (he.dvd_pcAt hs.lt.le) (imm.toNat : ℤ)
      rwa [← BitVec.ofInt_natCast, Nat.cast_mul]
    rw [hb.offset_eq] at h
    injection h with h
    generalize htarget : e.pcAt idx + BitVec.ofNat 64 (4 * imm.toNat) = t at h hdvd
    by_cases hin : e.isInFixingRange t = true
    · obtain ⟨r, hr, ht⟩ := he.exists_pcAt hin hdvd
      subst ht
      simp only [hin, Bool.true_eq_false, false_and, if_false, if_true,
        he.getRefInsIndex_pcAt hr.le] at h
      by_cases hle : r ≤ idx
      · rw [if_pos hle] at h
        exact ⟨_, FixState.emits_of_write (v := [_]) h.symm,
          moves_branchIf_back he hs hb hins hle htarget⟩
      · rw [if_neg hle] at h
        have hlt : idx < r := Nat.lt_of_not_le hle
        exact ⟨_, FixState.emits_of_refer hlt.ne' (hs.not_full r hlt) h.symm,
          moves_branchIf_forward he hs hb hins ⟨hlt, hr⟩ htarget⟩
    · have hout : e.isInFixingRange t = false := Bool.not_eq_true _ ▸ hin
      by_cases hfar : (~~~lmask >>> 6).toNat ≤ (pcOffset e s t).toInt.natAbs
      · rw [if_pos ⟨hout, hfar⟩, FixState.aligned_kept, FixState.write_write] at h
        exact ⟨_, FixState.emits_of_write h.symm,
          moves_branchIf_far hb hins htarget hout (padding_le _)⟩
      · simp only [hout, hfar, and_false, if_false, Bool.false_eq_true] at h
        exact ⟨_, FixState.emits_of_write (v := [_]) h.symm,
          moves_branchIf_near he hb hins htarget hdvd hout hfar⟩

end

end D3Hack
