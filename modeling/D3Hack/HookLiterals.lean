import D3Hack.HookBranches

/-!
# Moved loads and addresses

`fixLoadlit` and `fixPcreladdr` emit blocks that do what the instruction did (`fixLoadlit_spec`,
`fixPcreladdr_spec`), and so does the copy of an instruction that does not depend on its address
(`copyInstruction_spec`).

A literal of the window, or one that is far away, is copied behind the instruction. `NOP`s are
written until it is aligned: at most three, since words are aligned (`exists_alignNops`). A literal
that can be reached is loaded with its new offset, again behind `NOP`s (`exists_offsetNops`).
-/

namespace D3Hack

open A64 BackPatch WordMemory

/-! ## The kinds of literals -/

section

variable {w mask : Word} {faligned : Addr} {k : Literal}

theorem decode_of_apart {g : Format} (hg : ∀ f ∈ formats, g.Apart f) (h : g.Matches w) :
    decode w = .other w := by
  unfold decode
  cases hfind : formats.find? fun f => decide (f.Matches w) with
  | none => rfl
  | some f =>
    have hf : f.Matches w := by simpa using List.find?_some hfind
    exact absurd hf ((hg f (List.mem_of_find?_eq_some hfind)).not_matches h)

/-- A load of a literal under the masks of the source: its kind, the loads that differ from it in
the offset alone, and where the mask of the source keeps no other bits. -/
structure IsLoad (w mask : Word) (faligned : Addr) (k : Literal) : Prop where
  decode_eq : decode w = .load k (low5 w) (4 * (imm19 w).toInt)
  retarget : ∀ x : Word, decode (((x <<< 5) &&& 0x00ffffe0) ||| (w &&& (0xff00001f : Word))) =
    .load k (low5 w) (4 * (x.extractLsb' 0 19).toInt)
  word_eq : ∀ x : Word, k = .x ∨ k = .sw ∨ x.toNat < 2 ^ 19 →
    ((x <<< 5) &&& ~~~mask) ||| (w &&& (0xff00001f : Word)) =
      ((x <<< 5) &&& (0x00ffffe0 : Word)) ||| (w &&& (0xff00001f : Word))
  size_le : k.size ≤ faligned.toNat + 1

theorem isLoad_of_matches {f : Format} (hf : f ∈ loads) {value : Word} (hk : f = Format.ldr k value)
    (h : f.Matches w) (hsize : k.size ≤ faligned.toNat + 1)
    (hword : ∀ x : Word, k = .x ∨ k = .sw ∨ x.toNat < 2 ^ 19 →
      ((x <<< 5) &&& ~~~mask) ||| (w &&& (0xff00001f : Word)) =
        ((x <<< 5) &&& (0x00ffffe0 : Word)) ||| (w &&& (0xff00001f : Word))) :
    IsLoad w mask faligned k := by
  obtain ⟨k', hdecode, hretarget⟩ := decode_ldr hf h
  have hmem : f ∈ formats := by
    fin_cases hf <;> simp [formats]
  have hk' : k' = k := by
    have heq := hdecode.symm.trans (decode_of_mem hmem h)
    rw [hk] at heq
    injection heq
  subst hk'
  exact ⟨hdecode, hretarget, hword, hsize⟩

theorem and_bit (w : Word) (n : ℕ) :
    w &&& BitVec.twoPow 32 n = 0 ∨ w &&& BitVec.twoPow 32 n = BitVec.twoPow 32 n := by
  rw [BitVec.and_twoPow]
  split
  · exact Or.inr rfl
  · exact Or.inl rfl

/-- The top byte of a word, from some of its bits. -/
theorem topByte_eq {m c v : Word} (hm : m ||| c = 0xff000000) (hv : w &&& m = v) :
    w &&& 0xff000000 = v ||| (w &&& c) := by
  rw [← hm, BitVec.and_or_distrib_left, hv]

theorem isLoad_small {f : Format} (hf : f ∈ loads) {value : Word} (hk : f = Format.ldr k value)
    (h : f.Matches w) (hsize : k.size ≤ faligned.toNat + 1) (hx : k ≠ .x) (hsw : k ≠ .sw)
    (hmask : (0x00ffffe0 : Word) &&& ~~~mask = 0x00ffffe0) : IsLoad w mask faligned k := by
  refine isLoad_of_matches hf hk h hsize fun x hsmall => ?_
  rcases hsmall with heq | heq | hlt
  · exact absurd heq hx
  · exact absurd heq hsw
  · rw [and_mask_of_lt hlt hmask]

theorem isLoad_x (h : Format.ldrX.Matches w) : IsLoad w 0xbf000000 7 .x := by
  refine isLoad_of_matches (f := Format.ldrX) (by simp [loads]) rfl h (by decide) fun x _ => ?_
  have hset : (0x40000000 : Word) ||| (w &&& 0xff00001f) = w &&& 0xff00001f := by
    have hfield : w &&& 0xff00001f = (w &&& 0xff000000) ||| (w &&& 0x1f) := by
      rw [← BitVec.and_or_distrib_left]
      rfl
    have htop : w &&& 0xff000000 = 0x58000000 := h
    rw [hfield, htop, ← BitVec.or_assoc]
    rfl
  exact and_mask_or x hset

theorem isLoad_sw (h : Format.ldrSW.Matches w) : IsLoad w 0xff000000 7 .sw :=
  isLoad_of_matches (f := Format.ldrSW) (by simp [loads]) rfl h (by decide) fun x _ =>
    congrArg (· ||| (w &&& (0xff00001f : Word))) (and_mask24 x)

/-- What the source takes for a load is one, apart from an unallocated encoding. -/
theorem literalMasks_spec (h : literalMasks w = some (mask, faligned)) :
    (faligned = 3 ∨ faligned = 7 ∨ faligned = 15) ∧
      ((∃ k, IsLoad w mask faligned k) ∨ decode w = .other w ∧ w &&& 0x3f000000 = 0x1c000000) := by
  have hbit30 : w &&& 0x40000000 = 0 ∨ w &&& 0x40000000 = 0x40000000 := and_bit w 30
  have hbit31 : w &&& 0x80000000 = 0 ∨ w &&& 0x80000000 = 0x80000000 := and_bit w 31
  have hbits : w &&& 0xc0000000 = (w &&& 0x40000000) ||| (w &&& 0x80000000) := by
    rw [← BitVec.and_or_distrib_left]
    rfl
  unfold literalMasks at h
  by_cases hldr : w &&& 0xbf000000 = 0x18000000
  · have htop := topByte_eq (c := 0x40000000) (by decide) hldr
    rcases hbit30 with h30 | h30
    · simp only [h30, hldr, ne_eq, not_true_eq_false, if_false, if_true] at h
      cases h
      rw [h30] at htop
      exact ⟨Or.inl rfl, Or.inl ⟨.w, isLoad_small (f := Format.ldrW) (by simp [loads]) rfl htop
        (by decide) (by decide) (by decide) (by decide)⟩⟩
    · have hne : ¬(0x40000000 : Word) = 0 := by decide
      simp only [h30, hldr, ne_eq, hne, not_false_eq_true, if_true] at h
      cases h
      rw [h30] at htop
      exact ⟨Or.inr (Or.inl rfl), Or.inl ⟨.x, isLoad_x htop⟩⟩
  · have hne7 : ¬(3 : Addr) = 7 := by decide
    have hne30 : ¬(0x40000000 : Word) = 0 := by decide
    have hne31 : ¬(0x80000000 : Word) = 0 := by decide
    by_cases hv : w &&& 0x3f000000 = 0x1c000000
    · have htop := topByte_eq (c := 0xc0000000) (by decide) hv
      rw [hbits] at htop
      rcases hbit30 with h30 | h30 <;> rcases hbit31 with h31 | h31 <;>
        simp only [h30, h31, hldr, hv, hne7, hne30, hne31, ne_eq, not_true_eq_false,
          not_false_eq_true, if_false, if_true, Option.some.injEq, Prod.mk.injEq] at h <;>
        obtain ⟨rfl, rfl⟩ := h <;> rw [h30, h31] at htop
      · exact ⟨Or.inl rfl, Or.inl ⟨.s, isLoad_small (f := Format.ldrS) (by simp [loads]) rfl htop
          (by decide) (by decide) (by decide) (by decide)⟩⟩
      · exact ⟨Or.inr (Or.inr rfl), Or.inl ⟨.q, isLoad_small (f := Format.ldrQ) (by simp [loads])
          rfl htop (by decide) (by decide) (by decide) (by decide)⟩⟩
      · exact ⟨Or.inr (Or.inl rfl), Or.inl ⟨.d, isLoad_small (f := Format.ldrD) (by simp [loads])
          rfl htop (by decide) (by decide) (by decide) (by decide)⟩⟩
      · refine ⟨Or.inr (Or.inl rfl), Or.inr ⟨?_, hv⟩⟩
        exact decode_of_apart (g := ⟨0xff000000, 0xdc000000, fun _ => .nop⟩) (by decide +kernel)
          htop
    · by_cases hsw : w &&& 0xff000000 = 0x98000000
      · simp only [hldr, hv, hsw, if_false, if_true, Option.some.injEq, Prod.mk.injEq] at h
        obtain ⟨rfl, rfl⟩ := h
        exact ⟨Or.inr (Or.inl rfl), Or.inl ⟨.sw, isLoad_sw hsw⟩⟩
      · simp only [hldr, hv, hsw, if_false] at h
        cases h

end

/-! ## Padding -/

section

variable {e : FixSite} {s : FixState} {t : Addr} {k : ℕ}

/-- The output with `NOP`s. -/
def FixState.pad (s : FixState) (k : ℕ) : FixState := s.write (List.replicate k aarch64Nop)

theorem FixState.pad_succ (s : FixState) (k : ℕ) :
    (s.write [aarch64Nop]).pad k = s.pad (k + 1) := by
  rw [pad, pad, write_write]
  rfl

theorem outprx_pad (s : FixState) (k : ℕ) : e.outprx (s.pad k) = e.rxAt (s.out.length + k) := by
  rw [FixState.pad, outprx_write, List.length_replicate]

/-- The loop stops at the first place that is aligned. -/
theorem alignNops_eq {faligned : Addr} {n : ℕ}
    (hbefore : ∀ i < k, e.isAligned (s.pad i) 2 faligned = false)
    (hk : e.isAligned (s.pad k) 2 faligned = true) (hn : k < n) :
    alignNops e faligned n s = s.pad k := by
  induction n generalizing s k with
  | zero => exact absurd hn (Nat.not_lt_zero k)
  | succ n ih =>
    have hzero : s.pad 0 = s := FixState.write_nil s
    cases k with
    | zero =>
      rw [hzero] at hk ⊢
      rw [alignNops, if_pos hk]
    | succ k =>
      have hfirst := hbefore 0 (Nat.succ_pos k)
      rw [hzero] at hfirst
      rw [alignNops, if_neg (Bool.eq_false_iff.1 hfirst), ← FixState.pad_succ]
      refine ih (fun i hi => ?_) ?_ (Nat.lt_of_succ_lt_succ hn)
      · rw [FixState.pad_succ]
        exact hbefore (i + 1) (Nat.succ_lt_succ hi)
      · rw [FixState.pad_succ]
        exact hk

theorem offsetNops_eq {faligned : Addr} {n : ℕ}
    (hbefore : ∀ i < k, pcOffset e (s.pad i) t &&& faligned ≠ 0)
    (hk : pcOffset e (s.pad k) t &&& faligned = 0) (hn : k < n) :
    offsetNops e t faligned n s = s.pad k := by
  induction n generalizing s k with
  | zero => exact absurd hn (Nat.not_lt_zero k)
  | succ n ih =>
    have hzero : s.pad 0 = s := FixState.write_nil s
    cases k with
    | zero =>
      rw [hzero] at hk ⊢
      rw [offsetNops, if_pos hk]
    | succ k =>
      have hfirst := hbefore 0 (Nat.succ_pos k)
      rw [hzero] at hfirst
      rw [offsetNops, if_neg hfirst, ← FixState.pad_succ]
      refine ih (fun i hi => ?_) ?_ (Nat.lt_of_succ_lt_succ hn)
      · rw [FixState.pad_succ]
        exact hbefore (i + 1) (Nat.succ_lt_succ hi)
      · rw [FixState.pad_succ]
        exact hk

/-- Bits that are all low. -/
theorem and_low_eq_zero_iff (x : Addr) (j : ℕ) (hj : j < 64) :
    x &&& BitVec.ofNat 64 (2 ^ j - 1) = 0 ↔ x.toNat % 2 ^ j = 0 := by
  have hlt : 2 ^ j - 1 < 2 ^ 64 := by
    have := Nat.pow_lt_pow_right (by decide : 1 < 2) hj
    omega
  rw [← BitVec.toNat_inj, BitVec.toNat_and, BitVec.toNat_ofNat, Nat.mod_eq_of_lt hlt,
    Nat.and_two_pow_sub_one_eq_mod]
  rfl

/-- How a place in the trampoline is aligned. -/
theorem isAligned_pad (j : ℕ) (hj : j < 64) (i : ℕ) :
    e.isAligned (s.pad i) 2 (BitVec.ofNat 64 (2 ^ j - 1)) = true ↔
      (e.rxAt (s.out.length + i + 2)).toNat % 2 ^ j = 0 := by
  rw [FixSite.isAligned, beq_iff_eq, outprx_pad, ← FixSite.rxAt_add]
  exact and_low_eq_zero_iff _ j hj

theorem toNat_rxAt_add (n i : ℕ) :
    (e.rxAt (n + i)).toNat = ((e.rxAt n).toNat + 4 * i) % 2 ^ 64 := by
  rw [FixSite.rxAt_add, BitVec.toNat_add, BitVec.toNat_ofNat]
  omega

/-- The least number of words up to a multiple of `m` words. -/
theorem exists_least_pad {a m : ℕ} (hm : 0 < m) :
    ∃ k < m, (a + k) % m = 0 ∧ ∀ i < k, (a + i) % m ≠ 0 := by
  have hlt := Nat.mod_lt a hm
  have hdiv := Nat.div_add_mod a m
  rcases Nat.eq_zero_or_pos (a % m) with h0 | hpos
  · exact ⟨0, hm, h0, fun i hi => absurd hi (Nat.not_lt_zero i)⟩
  · refine ⟨m - a % m, by omega, ?_, fun i hi => ?_⟩
    · have hmul : a + (m - a % m) = m * (a / m + 1) := by
        rw [Nat.mul_succ]
        omega
      rw [hmul, Nat.mul_mod_right]
    · have hsmall : (a + i) % m = a % m + i := by
        rw [← hdiv, Nat.add_assoc, Nat.mul_add_mod, Nat.mul_add_mod, Nat.mod_mod,
          Nat.mod_eq_of_lt (by omega)]
      omega

/-- A literal is aligned after a few `NOP`s. -/
theorem exists_alignNops (he : e.WellPlaced) {faligned : Addr}
    (hf : faligned = 3 ∨ faligned = 7 ∨ faligned = 15) :
    ∃ k, 4 * (k + 1) ≤ faligned.toNat + 1 ∧ alignNops e faligned 4 s = s.pad k := by
  obtain ⟨j, hj, hmask, hsize⟩ : ∃ j ≤ 2, faligned = BitVec.ofNat 64 (2 ^ (j + 2) - 1) ∧
      faligned.toNat + 1 = 4 * 2 ^ j := by
    rcases hf with rfl | rfl | rfl
    · exact ⟨0, by decide⟩
    · exact ⟨1, by decide⟩
    · exact ⟨2, by decide⟩
  have hdvd := he.dvd_rxAt (s.out.length + 2)
  obtain ⟨k, hlt, hk, hbefore⟩ :=
    exists_least_pad (a := (e.rxAt (s.out.length + 2)).toNat / 4) (Nat.two_pow_pos j)
  have haligned (i : ℕ) : e.isAligned (s.pad i) 2 faligned = true ↔
      ((e.rxAt (s.out.length + 2)).toNat / 4 + i) % 2 ^ j = 0 := by
    rw [hmask, isAligned_pad _ (by omega), Nat.add_right_comm, toNat_rxAt_add,
      Nat.mod_mod_of_dvd _ (Nat.pow_dvd_pow 2 (by omega : j + 2 ≤ 64)), Nat.pow_add]
    have hmul : (e.rxAt (s.out.length + 2)).toNat + 4 * i =
        ((e.rxAt (s.out.length + 2)).toNat / 4 + i) * 2 ^ 2 := by
      omega
    rw [hmul, Nat.mul_mod_mul_right, Nat.mul_eq_zero]
    simp
  have hfuel : 2 ^ j ≤ 4 := Nat.pow_le_pow_right (by decide) hj
  refine ⟨k, by omega, alignNops_eq (fun i hi => ?_) ((haligned k).2 hk) (by omega)⟩
  exact Bool.eq_false_iff.2 fun h => hbefore i hi ((haligned i).1 h)

/-- The offset to an address gets smaller with every word. -/
theorem pcOffset_pad (hfits : Fits 18 (pcOffset e s t)) {i : ℕ} (hi : i < 4) :
    (pcOffset e (s.pad i) t).toInt = (pcOffset e s t).toInt - i := by
  have hsub : t - e.outprx (s.pad i) = (t - e.outprx s) - BitVec.ofNat 64 (4 * i) := by
    have hpad : e.outprx (s.pad i) = e.outprx s + BitVec.ofNat 64 (4 * i) := by
      rw [outprx_pad, FixSite.rxAt_add]
      rfl
    rw [hpad]
    bv_omega
  have hofNat : (BitVec.ofNat 64 (4 * i)).toInt = 4 * i := by
    rw [BitVec.toInt_ofNat']
    exact Int.bmod_eq_of_le (by omega) (by omega)
  unfold Fits pcOffset at hfits
  unfold pcOffset
  rw [BitVec.toInt_sshiftRight, Int.shiftRight_eq_div_pow] at hfits ⊢
  rw [BitVec.toInt_sshiftRight, Int.shiftRight_eq_div_pow, hsub, BitVec.toInt_sub, hofNat,
    Int.bmod_eq_of_le (by omega) (by omega)]
  omega

theorem toNat_emod_eq_zero_iff (x : Addr) (j : ℕ) (hj : j ≤ 64) :
    x.toNat % 2 ^ j = 0 ↔ x.toInt % ((2 ^ j : ℕ) : ℤ) = 0 := by
  have hpow : ((2 ^ j : ℕ) : ℤ) ∣ ((2 ^ 64 : ℕ) : ℤ) :=
    Int.natCast_dvd_natCast.2 (Nat.pow_dvd_pow 2 hj)
  rw [← Nat.dvd_iff_mod_eq_zero, ← Int.dvd_iff_emod_eq_zero, ← Int.natCast_dvd_natCast,
    BitVec.toInt_eq_toNat_cond]
  split
  · rfl
  · constructor
    · exact fun h => Int.dvd_sub h hpow
    · intro h
      have hsum := Int.dvd_add h hpow
      rwa [Int.sub_add_cancel] at hsum

/-- The least number of words down to a multiple of `m` words. -/
theorem exists_least_drop (o : ℤ) {m : ℕ} (hm : 0 < m) :
    ∃ k < m, (0 ≤ o → (k : ℤ) ≤ o) ∧ (o - k) % m = 0 ∧ ∀ i < k, (o - (i : ℕ)) % (m : ℤ) ≠ 0 := by
  have hpos := Int.emod_nonneg o (b := m) (by omega)
  have hlt := Int.emod_lt_of_pos o (b := m) (by omega)
  have hdiv := Int.mul_ediv_add_emod o m
  obtain ⟨k, hk⟩ := Int.eq_ofNat_of_zero_le hpos
  refine ⟨k, by omega, fun ho => ?_, ?_, fun i hi => ?_⟩
  · have hquot : 0 ≤ (m : ℤ) * (o / m) := Int.mul_nonneg (by omega) (Int.ediv_nonneg ho (by omega))
    omega
  · have hmul : o - k = m * (o / m) := by omega
    rw [hmul, Int.mul_emod_right]
  · have hsmall : o - i = (k - i : ℤ) + m * (o / m) := by omega
    rw [hsmall, Int.add_mul_emod_self_left, Int.emod_eq_of_lt (by omega) (by omega)]
    omega

/-- The offset to a literal is aligned after a few `NOP`s. -/
theorem exists_offsetNops (hfits : Fits 18 (pcOffset e s t)) {faligned : Addr}
    (hf : faligned = 3 ∨ faligned = 7 ∨ faligned = 15) :
    ∃ k, 4 * (k + 1) ≤ faligned.toNat + 1 ∧
      (0 ≤ (pcOffset e s t).toInt → (k : ℤ) ≤ (pcOffset e s t).toInt) ∧
      offsetNops e t (faligned >>> 2) 4 s = s.pad k := by
  obtain ⟨j, hj, hmask, hsize⟩ : ∃ j ≤ 2, faligned >>> 2 = BitVec.ofNat 64 (2 ^ j - 1) ∧
      faligned.toNat + 1 = 4 * 2 ^ j := by
    rcases hf with rfl | rfl | rfl
    · exact ⟨0, by decide⟩
    · exact ⟨1, by decide⟩
    · exact ⟨2, by decide⟩
  have haligned (i : ℕ) (hi : i < 4) : pcOffset e (s.pad i) t &&& (faligned >>> 2) = 0 ↔
      ((pcOffset e s t).toInt - i) % ((2 ^ j : ℕ) : ℤ) = 0 := by
    rw [hmask, and_low_eq_zero_iff _ j (by omega), toNat_emod_eq_zero_iff _ j (by omega),
      pcOffset_pad hfits hi]
  obtain ⟨k, hlt, hle, hk, hbefore⟩ :=
    exists_least_drop (pcOffset e s t).toInt (Nat.two_pow_pos j)
  have hfuel : 2 ^ j ≤ 4 := Nat.pow_le_pow_right (by decide) hj
  refine ⟨k, by omega, hle, offsetNops_eq (fun i hi h => ?_) ?_ (by omega)⟩
  · exact hbefore i hi ((haligned i (by omega)).1 h)
  · exact (haligned k (by omega)).2 hk

end

/-! ## Loads of literals -/

section

variable {e : FixSite} {s s' : FixState} {idx m : ℕ} {w mask : Word} {faligned t : Addr}
  {kind : Literal} {C : Type} {core : Core C} {φ : ℕ → Addr} {I : Memory} {c : C}

theorem execAt_load (core : Core C) (I : Memory) (pc next : Addr) (c : C) (kind : Literal)
    (rt : BitVec 5) (offset : ℤ) : core.execAt I pc next c (.load kind rt offset) =
      (pc + 4, core.setLiteral c rt
        (WordMemory.load I (pc + BitVec.ofInt 64 offset) kind.size) kind) := rfl

/-- A literal that is copied behind the load. -/
theorem imitates_load_far {ns : ℕ} (hns : ns = 1 ∨ ns = 2 ∨ ns = 4)
    (hw : IsLoad w mask faligned kind) (hsize : kind.size ≤ 4 * ns)
    (hins : e.insAt idx = .load kind (low5 w) (4 * (imm19 w).toInt))
    (ht : e.pcAt idx + BitVec.ofInt 64 (4 * (imm19 w).toInt) = t)
    (hcode : CodeAt I (e.rxAt m) ([(((2 : Word) <<< 5) &&& ~~~mask) ||| (w &&& 0xff00001f),
      0x14000001 + BitVec.ofNat 32 ns] ++ copyWords e.mem t ns)) :
    Imitates core e φ I idx (e.rxAt (m + (2 + ns))) (e.rxAt m) c := by
  obtain ⟨hload, hrest⟩ := codeAt_cons.1 hcode
  obtain ⟨hskip, hcopy⟩ := codeAt_cons.1 hrest
  have height : e.rxAt m + BitVec.ofInt 64 (4 * 2) = e.rxAt m + 4 + 4 := by
    rw [BitVec.add_assoc]
    rfl
  have hdecode := hw.retarget 2
  rw [← hw.word_eq 2 (Or.inr (Or.inr (by decide)))] at hdecode
  have hcopied : WordMemory.load I (e.rxAt m + 4 + 4) kind.size =
      WordMemory.load e.mem t kind.size := by
    refine load_copied (k := ns) (fun i hi => ?_) hsize
    have hword := hcopy i (by simpa [copyWords] using hi)
    simpa [copyWords] using hword
  have hstep := execAt_load core I (e.rxAt m) (e.rxAt m + 4) c kind (low5 w) (4 * 2)
  rw [height, hcopied] at hstep
  have hold := execAt_load core e.mem (e.pcAt idx) (e.rxAt (m + (2 + ns))) c kind (low5 w)
    (4 * (imm19 w).toInt)
  rw [ht] at hold
  have hjump : ∀ c : C, core.Reaches I ⟨e.rxAt m + 4, c⟩ ⟨e.rxAt (m + (2 + ns)), c⟩ := by
    intro c
    have hbranch : decode (0x14000001 + BitVec.ofNat 32 ns) = .branch false (4 * (1 + ns)) := by
      rcases hns with rfl | rfl | rfl <;> decide +kernel
    refine Core.Reaches.exec hskip hbranch ?_
    rw [Core.execAt, FixSite.rxAt_add]
    rcases hns with rfl | rfl | rfl <;> rw [BitVec.add_assoc] <;> rfl
  refine Imitates.of_reaches ((Core.Reaches.exec hload hdecode hstep).trans (hjump _))
    (hins ▸ hold) ?_
  rw [← FixSite.pcAt_succ]
  exact Lands.next _

/-- A literal that is loaded with its new offset. -/
theorem imitates_load_near (he : e.WellPlaced) (hw : IsLoad w mask faligned kind)
    (hins : e.insAt idx = .load kind (low5 w) (4 * (imm19 w).toInt))
    (ht : e.pcAt idx + BitVec.ofInt 64 (4 * (imm19 w).toInt) = t) (hdvd : 4 ∣ t.toNat)
    (hfits : Fits 18 ((t - e.rxAt m).sshiftRight 2))
    (hsmall : kind = .x ∨ kind = .sw ∨ 0 ≤ ((t - e.rxAt m).sshiftRight 2).toInt)
    (hlit : WordMemory.load I t kind.size = WordMemory.load e.mem t kind.size)
    (hcode : fetch I (e.rxAt m) = (((((t - e.rxAt m).sshiftRight 2).setWidth 32) <<< 5) &&&
      ~~~mask) ||| (w &&& 0xff00001f)) :
    Imitates core e φ I idx (e.rxAt (m + 1)) (e.rxAt m) c := by
  have hx : kind = .x ∨ kind = .sw ∨
      (((t - e.rxAt m).sshiftRight 2).setWidth 32).toNat < 2 ^ 19 := by
    refine hsmall.imp_right (Or.imp_right fun hpos => ?_)
    have hlt := hfits.2
    rw [BitVec.toInt_eq_toNat_of_msb (msb_of_nonneg hpos)] at hlt
    rw [BitVec.toNat_setWidth]
    omega
  have hdecode := hw.retarget (((t - e.rxAt m).sshiftRight 2).setWidth 32)
  rw [← hw.word_eq _ hx] at hdecode
  have htarget : e.rxAt m + BitVec.ofInt 64
      (4 * ((((t - e.rxAt m).sshiftRight 2).setWidth 32).extractLsb' 0 19).toInt) = t :=
    add_ofInt_field (by decide) (dvd_sub hdvd (he.dvd_rxAt m)) hfits
      (extractLsb'_setWidth _ (by decide))
  have hstep := execAt_load core I (e.rxAt m) (e.rxAt m + 4) c kind (low5 w)
    (4 * ((((t - e.rxAt m).sshiftRight 2).setWidth 32).extractLsb' 0 19).toInt)
  rw [htarget, hlit, ← FixSite.rxAt_succ] at hstep
  have hold := execAt_load core e.mem (e.pcAt idx) (e.rxAt (m + 1)) c kind (low5 w)
    (4 * (imm19 w).toInt)
  rw [ht] at hold
  refine Imitates.of_reaches (Core.Reaches.exec hcode hdecode hstep) (hins ▸ hold) ?_
  rw [← FixSite.pcAt_succ]
  exact Lands.next _

theorem movable_load {rt : BitVec 5} {offset : ℤ} (hins : e.insAt idx = .load kind rt offset)
    (hmov : e.Movable s.out.length idx) : 0 ≤ offset ∧
      (kind = .x ∨ kind = .sw ∨ e.isInFixingRange (e.pcAt idx + BitVec.ofInt 64 offset) = true ∨
        (pcOffset e s (e.pcAt idx + BitVec.ofInt 64 offset)).toInt ≤ -0x3ffff ∨
        0 ≤ (pcOffset e s (e.pcAt idx + BitVec.ofInt 64 offset)).toInt) := by
  have hcan : e.CanMove _ _ (e.insAt idx) := hmov
  rw [hins] at hcan
  exact hcan

/-- An unallocated encoding is not moved. -/
theorem not_movable_unallocated (hins : e.insAt idx = .other w) (hw : w &&& 0x3f000000 = 0x1c000000)
    (hmov : e.Movable s.out.length idx) : False := by
  have hcan : e.CanMove _ _ (e.insAt idx) := hmov
  rw [hins] at hcan
  exact hcan hw

theorem keepsLiteral_load {rt : BitVec 5} {offset : ℤ} (hins : e.insAt idx = .load kind rt offset)
    (h : e.KeepsLiteral I idx)
    (hout : e.isInFixingRange (e.pcAt idx + BitVec.ofInt 64 offset) = false) :
    WordMemory.load I (e.pcAt idx + BitVec.ofInt 64 offset) kind.size =
      WordMemory.load e.mem (e.pcAt idx + BitVec.ofInt 64 offset) kind.size := by
  unfold FixSite.KeepsLiteral at h
  rw [hins] at h
  exact h hout

theorem moves_load_far (hf : faligned = 3 ∨ faligned = 7 ∨ faligned = 15)
    (hins : e.insAt idx = decode w)
    (hw : (∃ kind, IsLoad w mask faligned kind) ∨
      decode w = .other w ∧ w &&& 0x3f000000 = 0x1c000000)
    (ht : e.pcAt idx + (((w <<< 8).sshiftRight 11) &&& ~~~(3 : Word)).setWidth 64 = t) {k : ℕ}
    (hk : 4 * (k + 1) ≤ faligned.toNat + 1) :
    Block.Moves e s idx ⟨(List.replicate k aarch64Nop ++
      ([(((2 : Word) <<< 5) &&& ~~~mask) ||| (w &&& 0xff00001f),
        0x14000001 + BitVec.ofNat 32 ((faligned.toNat + 1) / 4)] ++
        copyWords e.mem t ((faligned.toNat + 1) / 4))).map .word,
      e.rxAt (s.out.length + k)⟩ := by
  have hsize : (faligned.toNat + 1) / 4 = 1 ∨ (faligned.toNat + 1) / 4 = 2 ∨
      (faligned.toNat + 1) / 4 = 4 := by
    rcases hf with rfl | rfl | rfl <;> decide
  refine Block.moves_of_write ?_ (fun _ => Or.inr rfl) ?_
  · simp only [copyWords, List.length_append, List.length_cons, List.length_nil, List.length_map,
      List.length_range]
    omega
  intro hmov C core I φ _ hcode _ c _
  rcases hw with ⟨kind, hw⟩ | ⟨hother, hbits⟩
  · rw [hw.decode_eq] at hins
    obtain ⟨hpos, -⟩ := movable_load hins hmov
    have hle := hw.size_le
    have hmul : 4 * ((faligned.toNat + 1) / 4) = faligned.toNat + 1 := by
      rcases hf with rfl | rfl | rfl <;> decide
    rw [literalOffset_eq (by omega)] at ht
    have himitates : Imitates core e φ I idx
        (e.rxAt (s.out.length + k + (2 + (faligned.toNat + 1) / 4))) (e.rxAt (s.out.length + k))
        c :=
      imitates_load_far hsize hw (by omega) hins ht hcode
    simpa [copyWords, Nat.add_comm 2] using himitates
  · exact absurd hmov (not_movable_unallocated (hins.trans hother) hbits)

theorem moves_load_near (he : e.WellPlaced) (hs : ReadyToMove e s idx)
    (hf : faligned = 3 ∨ faligned = 7 ∨ faligned = 15) (hins : e.insAt idx = decode w)
    (hw : (∃ kind, IsLoad w mask faligned kind) ∨
      decode w = .other w ∧ w &&& 0x3f000000 = 0x1c000000)
    (ht : e.pcAt idx + (((w <<< 8).sshiftRight 11) &&& ~~~(3 : Word)).setWidth 64 = t)
    (hout : e.isInFixingRange t = false)
    (hnear : ¬0x3ffff ≤ (pcOffset e s t).toInt.natAbs + (faligned.toNat + 1 - 4) / 4) {k : ℕ}
    (hk : 4 * (k + 1) ≤ faligned.toNat + 1)
    (hle : 0 ≤ (pcOffset e s t).toInt → (k : ℤ) ≤ (pcOffset e s t).toInt) :
    Block.Moves e s idx ⟨(List.replicate k aarch64Nop ++
      [((((t - e.rxAt (s.out.length + k)).sshiftRight 2).setWidth 32 <<< 5) &&& ~~~mask) |||
        (w &&& 0xff00001f)]).map .word, e.rxAt (s.out.length + k)⟩ := by
  have hsize : faligned.toNat + 1 ≤ 16 := by
    rcases hf with rfl | rfl | rfl <;> decide
  refine Block.moves_of_write ?_ (fun _ => Or.inr rfl) ?_
  · rw [List.length_singleton]
    omega
  intro hmov C core I φ _ hcode hlit c _
  rcases hw with ⟨kind, hw⟩ | ⟨hother, hbits⟩
  · rw [hw.decode_eq] at hins
    obtain ⟨hpos, hkind⟩ := movable_load hins hmov
    rw [literalOffset_eq (by omega)] at ht
    have hdvd : 4 ∣ t.toNat := ht ▸ dvd_add_ofInt (he.dvd_pcAt hs.lt.le) _
    have hkept : WordMemory.load I t kind.size = WordMemory.load e.mem t kind.size := by
      have := keepsLiteral_load hins hlit
      rw [ht] at this
      exact this hout
    have hfits : Fits 18 (pcOffset e s t) := ⟨by omega, by omega⟩
    have hpad : ((t - e.rxAt (s.out.length + k)).sshiftRight 2).toInt =
        (pcOffset e s t).toInt - k := by
      rw [← pcOffset_pad hfits (by omega), pcOffset, outprx_pad]
    refine imitates_load_near he hw hins ht hdvd ?_ ?_ hkept (codeAt_singleton.1 hcode)
    · rw [Fits, hpad]
      omega
    · rw [hpad]
      rw [ht, hout] at hkind
      refine hkind.imp_right (Or.imp_right fun hkind => ?_)
      rcases hkind with hin | hbelow | habove
      · cases hin
      · omega
      · have := hle habove
        omega
  · exact absurd hmov (not_movable_unallocated (hins.trans hother) hbits)

theorem moves_prefetch (hins : e.insAt idx = .prefetch) :
    Block.Moves e s idx ⟨[], e.outprx s⟩ := by
  refine Block.moves_of_write (k := 0) (v := []) (by simp) (fun _ => Or.inl rfl) ?_
  intro _ C core I φ _ _ _ c _
  refine Imitates.of_reaches (Core.Reaches.refl _) (r := (e.pcAt (idx + 1), c)) ?_ (Lands.next c)
  rw [hins, FixSite.pcAt_succ]
  rfl

/-- A place that is set again behind `NOP`s. -/
theorem setIns_pad (s : FixState) (idx k : ℕ) (place place' : Addr) :
    ((s.setIns idx place).pad k).setIns idx place' = (s.setIns idx place').pad k :=
  congrArg (FixState.pad · k) (FixState.setIns_setIns s place')

theorem fixLoadlit_spec (he : e.WellPlaced) (hs : ReadyToMove e s idx)
    (h : fixLoadlit e s = some s') : ∃ b, s.Emits e idx b s' ∧ b.Moves e s idx := by
  have hidx : e.currentIdx s = idx := hs.currentIdx_eq he
  unfold fixLoadlit at h
  simp only [hidx, FixState.setIns_inprx, FixState.pcOffset_setIns, hs.inprx_eq] at h
  split at h
  next hprfm =>
    injection h with h
    have hins : e.insAt idx = .prefetch :=
      decode_of_mem (f := Format.prfm) (by simp [formats]) hprfm
    refine ⟨_, FixState.emits_of_write (v := []) ?_, moves_prefetch hins⟩
    rw [FixState.write_nil]
    exact h.symm
  next =>
    split at h
    next => cases h
    next mask faligned hmasks =>
      obtain ⟨hf, hw⟩ := literalMasks_spec hmasks
      injection h with h
      generalize ht : e.pcAt idx + (((fetch e.mem (e.pcAt idx) <<< 8).sshiftRight 11) &&&
        ~~~(3 : Word)).setWidth 64 = t at h
      split at h
      next =>
        obtain ⟨k, hk, halign⟩ := exists_alignNops (s := s.setIns idx (e.outprx s)) he hf
        rw [halign, outprx_pad, setIns_pad, FixState.pad, FixState.write_write] at h
        exact ⟨_, FixState.emits_of_write h.symm, moves_load_far hf rfl hw ht hk⟩
      next hnear =>
        obtain ⟨hin, hnear⟩ := not_or.1 hnear
        have hout : e.isInFixingRange t = false := Bool.not_eq_true _ ▸ hin
        have hfits : Fits 18 (pcOffset e s t) := ⟨by omega, by omega⟩
        obtain ⟨k, hk, hle, halign⟩ :=
          exists_offsetNops (s := s.setIns idx (e.outprx s)) (t := t) hfits hf
        rw [halign, pcOffset, outprx_pad, setIns_pad, FixState.pad, FixState.write_write] at h
        exact ⟨_, FixState.emits_of_write h.symm,
          moves_load_near he hs hf rfl hw ht hout hnear hk hle⟩

end

/-! ## Addresses -/

section

variable {e : FixSite} {s s' : FixState} {idx m : ℕ} {w : Word} {t : Addr}

/-- The address behind a load and a jump over it. -/
theorem reaches_loadAddrWords {C : Type} {core : Core C} {I : Memory} {c : C}
    (h : CodeAt I (e.rxAt m) (loadAddrWords (w &&& 0x0000001f) t)) :
    core.Reaches I ⟨e.rxAt m, c⟩ ⟨e.rxAt (m + 4), core.setReg c (low5 w) t⟩ := by
  obtain ⟨hload, hrest⟩ := codeAt_cons.1 h
  obtain ⟨hskip, haddr⟩ := codeAt_cons.1 hrest
  have hdecode : decode ((0x58000000 : Word) ||| (((2 : Word) <<< 5) &&& ~~~(0x9f000000 : Word)) |||
      (w &&& 0x0000001f)) = .load .x (low5 w) 8 := by
    have hop : (0x58000000 : Word) ||| (((2 : Word) <<< 5) &&& ~~~(0x9f000000 : Word)) =
        0x58000040 &&& 0x58000040 := by decide
    rw [hop, BitVec.or_comm]
    have hmatch : Format.ldrX.Matches ((w &&& 0x1f) ||| ((0x58000040 : Word) &&& 0x58000040)) := by
      unfold Format.Matches Format.ldrX Format.ldr
      rw [BitVec.and_or_distrib_right, BitVec.and_assoc]
      simp
    have hlow : low5 ((w &&& 0x1f) ||| ((0x58000040 : Word) &&& 0x58000040)) = low5 w :=
      field_replaced w 0x58000040 (by decide) (by decide)
    have himm : imm19 ((w &&& 0x1f) ||| ((0x58000040 : Word) &&& 0x58000040)) = 2 := by
      have hzero : (0x1f : Word).extractLsb' 5 19 = 0 := by decide
      rw [imm19, BitVec.extractLsb'_or, BitVec.extractLsb'_and, hzero]
      simp
    rw [decode_of_mem (by simp [formats]) hmatch]
    simp only [Format.ldrX, Format.ldr, hlow, himm]
    rfl
  have hlit : e.rxAt m + 4 + 4 = e.rxAt m + BitVec.ofInt 64 8 := by
    rw [BitVec.add_assoc]
    rfl
  rw [hlit] at haddr
  have hstep := execAt_load core I (e.rxAt m) (e.rxAt m + 4) c .x (low5 w) 8
  rw [Core.setLiteral, Literal.size, load_address haddr] at hstep
  have hjump (c : C) : core.Reaches I ⟨e.rxAt m + 4, c⟩ ⟨e.rxAt (m + 4), c⟩ := by
    refine Core.Reaches.exec hskip (by decide +kernel : decode 0x14000003 = .branch false 12) ?_
    rw [Core.execAt, FixSite.rxAt_add, BitVec.add_assoc]
    rfl
  exact (Core.Reaches.exec hload hdecode hstep).trans (hjump _)

/-- An address that is loaded. -/
theorem imitates_loadAddrWords {C : Type} {core : Core C} {φ : ℕ → Addr} {I : Memory} {c : C}
    (hold : core.execAt e.mem (e.pcAt idx) (e.rxAt (m + 4)) c (e.insAt idx) =
      (e.pcAt idx + 4, core.setReg c (low5 w) t))
    (h : CodeAt I (e.rxAt m) (loadAddrWords (w &&& 0x0000001f) t)) :
    Imitates core e φ I idx (e.rxAt (m + 4)) (e.rxAt m) c := by
  refine Imitates.of_reaches (reaches_loadAddrWords h) hold ?_
  rw [← FixSite.pcAt_succ]
  exact Lands.next _

theorem movable_adr {rd : BitVec 5} {offset : ℤ} (hins : e.insAt idx = .adr rd offset)
    (hmov : e.Movable s.out.length idx) : 0 ≤ offset ∧
      e.isInFixingRange (e.pcAt idx + BitVec.ofInt 64 offset) = false ∧
      (4 ∣ offset ∨
        0xfffff ≤ (e.pcAt idx + BitVec.ofInt 64 offset - e.outprx s).toInt.natAbs) := by
  have hcan : e.CanMove _ _ (e.insAt idx) := hmov
  rw [hins] at hcan
  exact hcan

/-- The offset in bytes takes the field of an offset in words. -/
theorem shiftLeft_three {d : BitVec 64} (h : 4 ∣ d.toNat) :
    (d <<< 3).setWidth 32 = ((d.sshiftRight 2).setWidth 32) <<< 5 := by
  have hlow {i : ℕ} (hi : i < 2) : d.getLsbD i = false := by
    obtain ⟨q, hq⟩ := h
    have hpow : d.toNat = 2 ^ 2 * q := hq
    rw [BitVec.getLsbD, hpow, Nat.testBit_two_pow_mul, decide_eq_false (Nat.not_le.2 hi),
      Bool.false_and]
  refine BitVec.eq_of_getLsbD_eq fun i hi => ?_
  rw [BitVec.getLsbD_setWidth, BitVec.getLsbD_shiftLeft, BitVec.getLsbD_shiftLeft,
    BitVec.getLsbD_setWidth, BitVec.getLsbD_sshiftRight]
  have hlt : i < 64 := by omega
  by_cases h5 : i < 5
  · by_cases h3 : i < 3
    · simp [h3, h5]
    · simp [h5, hlow (by omega : i - 3 < 2)]
  · have h3 : ¬i < 3 := by omega
    have hsmall : i - 5 < 32 := by omega
    have hindex : 2 + (i - 5) = i - 3 := by omega
    have hlt' : 2 + (i - 5) < 64 := by omega
    have hle : ¬64 ≤ i - 5 := by omega
    rw [if_pos hlt', hindex]
    simp [hi, hlt, h3, h5, hsmall, hle]

theorem moves_adr_near (he : e.WellPlaced) (hs : ReadyToMove e s idx)
    (hw : Format.adr.Matches w) (hins : e.insAt idx = .adr (low5 w) (imm21 w).toInt)
    (ht : 0 ≤ (imm21 w).toInt → e.pcAt idx + BitVec.ofInt 64 (imm21 w).toInt = t)
    (hnear : ¬0xfffff ≤ (t - e.outprx s).toInt.natAbs) :
    Block.Moves e s idx ⟨[.word ((((t - e.outprx s) <<< 3).setWidth 32 &&& 0x00ffffff) |||
      (w &&& 0xff00001f))], e.outprx s⟩ := by
  refine Block.moves_of_write (k := 0) (v := [_]) (by simp) (fun _ => Or.inl rfl) ?_
  intro hmov C core I φ _ hcode _ c _
  obtain ⟨hpos, hout, hdvd⟩ := movable_adr hins hmov
  have htarget := ht hpos
  rw [htarget] at hdvd hout
  have hoffset : 4 ∣ (imm21 w).toInt := hdvd.resolve_right hnear
  have hlow : w.extractLsb' 29 2 = 0 := by
    rw [imm21, BitVec.toInt_append] at hoffset
    have hlt := (w.extractLsb' 29 2).isLt
    apply BitVec.eq_of_toNat_eq
    change _ = 0
    simp only [Nat.reduceBEq, Bool.false_eq_true, if_false] at hoffset
    omega
  have htdvd : 4 ∣ t.toNat := by
    obtain ⟨z, hz⟩ := hoffset
    rw [← htarget, hz]
    exact dvd_add_ofInt (he.dvd_pcAt hs.lt.le) z
  have hddvd : 4 ∣ (t - e.rxAt s.out.length).toNat := dvd_sub htdvd (he.dvd_rxAt _)
  have hfits : Fits 18 ((t - e.rxAt s.out.length).sshiftRight 2) := by
    have hnear' : ¬0xfffff ≤ (t - e.rxAt s.out.length).toInt.natAbs := hnear
    rw [Fits, BitVec.toInt_sshiftRight, Int.shiftRight_eq_div_pow]
    omega
  have hword := codeAt_singleton.1 hcode
  have hfield : ((t - e.outprx s) <<< 3).setWidth 32 =
      ((t - e.rxAt s.out.length).sshiftRight 2).setWidth 32 <<< 5 := shiftLeft_three hddvd
  rw [hfield, and_mask24] at hword
  have hd : e.rxAt s.out.length + BitVec.ofInt 64
      (4 * ((((t - e.rxAt s.out.length).sshiftRight 2).setWidth 32).extractLsb' 0 19).toInt) = t :=
    add_ofInt_field (by decide) hddvd hfits (extractLsb'_setWidth _ (by decide))
  have hstep : core.Reaches I ⟨e.rxAt s.out.length, c⟩
      ⟨e.rxAt (s.out.length + 1), core.setReg c (low5 w) t⟩ := by
    refine Core.Reaches.exec hword (decode_adr hw hlow _) ?_
    rw [Core.execAt, hd, FixSite.rxAt_succ]
  refine Imitates.of_reaches hstep (r := (e.pcAt (idx + 1), core.setReg c (low5 w) t)) ?_
    (Lands.next _)
  rw [hins, Core.execAt, htarget, FixSite.pcAt_succ]

theorem moves_adr_far (hins : e.insAt idx = .adr (low5 w) (imm21 w).toInt)
    (ht : 0 ≤ (imm21 w).toInt → e.pcAt idx + BitVec.ofInt 64 (imm21 w).toInt = t) {k : ℕ}
    (hk : k ≤ 1) : Block.Moves e s idx ⟨(List.replicate k aarch64Nop ++
      loadAddrWords (w &&& 0x0000001f) t).map .word, e.rxAt (s.out.length + k)⟩ := by
  refine Block.moves_of_write (by simp [loadAddrWords, addrWords]; omega) (fun _ => Or.inr rfl) ?_
  intro hmov C core I φ _ hcode _ c _
  refine imitates_loadAddrWords ?_ hcode
  rw [hins, Core.execAt, ht (movable_adr hins hmov).1]

theorem moves_adrp {offset : ℤ} (hins : e.insAt idx = .adrp (low5 w) offset)
    (ht : 0 ≤ offset →
      (e.pcAt idx &&& ~~~(0xfff : Addr)) + BitVec.ofInt 64 offset = t) {k : ℕ} (hk : k ≤ 1)
    (place : Addr) : Block.Moves e s idx ⟨(List.replicate k aarch64Nop ++
      loadAddrWords (w &&& 0x0000001f) t).map .word, place⟩ := by
  have hadrp : aarch64IsAdrp (e.insAt idx) = true := by
    rw [hins]
    rfl
  refine Block.moves_of_write (by simp [loadAddrWords, addrWords]; omega)
    (fun h => absurd (h.symm.trans hadrp) Bool.false_ne_true) ?_
  intro hmov C core I φ _ hcode _ c _
  have hcan : e.CanMove _ _ (e.insAt idx) := hmov
  rw [hins] at hcan
  refine imitates_loadAddrWords ?_ hcode
  rw [hins, Core.execAt, ht hcan.1]

theorem not_movable_adr {rd : BitVec 5} {offset : ℤ} (hins : e.insAt idx = .adr rd offset)
    (ht : 0 ≤ offset → e.pcAt idx + BitVec.ofInt 64 offset = t)
    (hin : e.isInFixingRange t = true) : ¬e.Movable s.out.length idx := by
  intro hmov
  obtain ⟨hpos, hout, -⟩ := movable_adr hins hmov
  rw [ht hpos, hin] at hout
  cases hout

theorem not_movable_adrp {rd : BitVec 5} {offset : ℤ} (hins : e.insAt idx = .adrp rd offset)
    (ht : 0 ≤ offset → (e.pcAt idx &&& ~~~(0xfff : Addr)) + BitVec.ofInt 64 offset = t)
    (hin : e.isInFixingRange t = true) : ¬e.Movable s.out.length idx := by
  intro hmov
  have hcan : e.CanMove _ _ (e.insAt idx) := hmov
  rw [hins] at hcan
  obtain ⟨hpos, hout⟩ := hcan
  rw [ht hpos, hin] at hout
  cases hout

/-- The word that an address points into. -/
theorem getRefInsIndex_lt (he : e.WellPlaced) (hin : e.isInFixingRange t = true) :
    e.getRefInsIndex (t &&& ~~~(3 : Addr)) < e.count := by
  obtain ⟨hlo, hhi⟩ := he.isInFixingRange_iff.1 hin
  have hbase := he.basep_aligned
  have hlt := he.endp_lt
  have hword : (t &&& ~~~(3 : Addr)).toNat = t.toNat / 4 * 4 := by
    have hshift : t &&& ~~~(3 : Addr) = (t >>> 2) <<< 2 := by
      refine BitVec.eq_of_getLsbD_eq fun i hi => ?_
      have hones : ~~~(3 : Addr) = (BitVec.allOnes 62).setWidth 64 <<< 2 := by decide
      rw [hones, BitVec.getLsbD_and, BitVec.getLsbD_shiftLeft, BitVec.getLsbD_shiftLeft,
        BitVec.getLsbD_setWidth, BitVec.getLsbD_allOnes, BitVec.getLsbD_ushiftRight]
      by_cases h2 : i < 2
      · simp [h2]
      · have hindex : 2 + (i - 2) = i := by omega
        have hsmall : i - 2 < 62 := by omega
        have hsmall' : i - 2 < 64 := by omega
        simp [hi, h2, hindex, hsmall, hsmall']
    have := t.isLt
    rw [hshift, BitVec.toNat_shiftLeft, BitVec.toNat_ushiftRight, Nat.shiftLeft_eq,
      Nat.shiftRight_eq_div_pow]
    omega
  rw [FixSite.getRefInsIndex, BitVec.toNat_sub, hword]
  omega

theorem fixPcreladdr_spec (he : e.WellPlaced) (hs : ReadyToMove e s idx)
    (h : fixPcreladdr e s = some s') : ∃ b, s.Emits e idx b s' ∧ b.Moves e s idx := by
  have hidx : e.currentIdx s = idx := hs.currentIdx_eq he
  unfold fixPcreladdr at h
  simp only [hidx, FixState.setIns_inprx, FixState.outprx_setIns, FixState.isAligned_setIns,
    FixState.setIns_out, hs.inprx_eq] at h
  split at h
  next hadr =>
    injection h with h
    have hins : e.insAt idx = .adr (low5 (fetch e.mem (e.pcAt idx)))
        (imm21 (fetch e.mem (e.pcAt idx))).toInt :=
      decode_of_mem (f := Format.adr) (by simp [formats]) hadr
    have ht (hpos : 0 ≤ (imm21 (fetch e.mem (e.pcAt idx))).toInt) :=
      congrArg (e.pcAt idx + ·) (addressOffset_eq hpos).symm
    generalize e.pcAt idx + ((((fetch e.mem (e.pcAt idx) <<< 8).sshiftRight 11) &&&
      ~~~(3 : Word)) ||| ((fetch e.mem (e.pcAt idx) <<< 1) >>> 30)).setWidth 64 = t at h ht
    by_cases hin : e.isInFixingRange t = true
    · simp only [hin, Bool.true_eq_false, false_and, if_false, if_true] at h
      have hmov : ¬e.Movable s.out.length idx := not_movable_adr hins ht hin
      by_cases hle : e.getRefInsIndex (t &&& ~~~(3 : Addr)) ≤ idx
      · rw [if_pos hle] at h
        refine ⟨_, FixState.emits_of_write (v := [_]) h.symm,
          Block.moves_of_not_movable (by simp) ?_ (fun _ => rfl) hmov⟩
        intro item hmem l hl
        obtain rfl := List.mem_singleton.1 hmem
        cases hl
      · rw [if_neg hle] at h
        have hlt := Nat.lt_of_not_le hle
        refine ⟨_, FixState.emits_of_refer hlt.ne' (hs.not_full _ hlt) h.symm,
          Block.moves_of_not_movable (by simp) ?_ (fun _ => rfl) hmov⟩
        intro item hmem l hl
        obtain rfl := List.mem_singleton.1 hmem
        cases hl
        exact ⟨hlt, getRefInsIndex_lt he hin⟩
    · have hout : e.isInFixingRange t = false := Bool.not_eq_true _ ▸ hin
      by_cases hfar : 0xfffff ≤ (t - e.outprx s).toInt.natAbs
      · rw [if_pos ⟨hout, hfar⟩, FixState.aligned_outprx, FixState.write_write] at h
        exact ⟨_, FixState.emits_of_write h.symm, moves_adr_far hins ht (padding_le _)⟩
      · simp only [hout, hfar, and_false, if_false, Bool.false_eq_true] at h
        exact ⟨_, FixState.emits_of_write (v := [_]) h.symm,
          moves_adr_near he hs hadr hins ht hfar⟩
  next =>
    split at h
    next hadrp =>
      injection h with h
      have hins : e.insAt idx = .adrp (low5 (fetch e.mem (e.pcAt idx)))
          (4096 * (imm21 (fetch e.mem (e.pcAt idx))).toInt) :=
        decode_of_mem (f := Format.adrp) (by simp [formats]) hadrp
      have ht (hpos : 0 ≤ 4096 * (imm21 (fetch e.mem (e.pcAt idx))).toInt) :=
        congrArg ((e.pcAt idx &&& ~~~(0xfff : Addr)) + ·)
          (pageOffset_eq (w := fetch e.mem (e.pcAt idx)) (by omega)).symm
      generalize (e.pcAt idx &&& ~~~(0xfff : Addr)) + (((((fetch e.mem (e.pcAt idx) <<<
        8).sshiftRight 11) &&& ~~~(3 : Word)) ||| ((fetch e.mem (e.pcAt idx) <<< 1) >>> 30)) <<<
          12).setWidth 64 = t at h ht
      by_cases hin : e.isInFixingRange t = true
      · rw [if_pos hin] at h
        refine ⟨_, FixState.emits_of_write (v := [_]) h.symm,
          Block.moves_of_not_movable (by simp) ?_ ?_ (not_movable_adrp hins ht hin)⟩
        · intro item hmem l hl
          obtain rfl := List.mem_singleton.1 hmem
          cases hl
        · rw [hins]
          exact fun h => Bool.noConfusion h
      · rw [if_neg hin, FixState.aligned_eq, FixState.write_write] at h
        exact ⟨_, FixState.emits_of_write h.symm, moves_adrp hins ht (padding_le _) _⟩
    next => cases h

end

end D3Hack
