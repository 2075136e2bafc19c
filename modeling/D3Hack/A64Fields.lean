import D3Hack.A64
import Mathlib.Tactic.FinCases

/-!
# Instruction words with another offset

A word whose offset field is replaced decodes to the same instruction with the new offset, as long
as the field is the one of its format: `decode_retarget19` and `decode_retarget14` for conditional
branches and `decode_ldr` for literals. `decode_branchOp` is the branch that is made of an offset
alone.

Programs that rewrite instructions read the offset of a word by shifts and masks. A few such
readings are related to the offset that the word decodes to: `signExtend_imm26`,
`zeroExtend_imm19`, `literalOffset_eq`, `addressOffset_eq`. In the other direction a field takes
the low bits of an offset in words, and `add_ofInt_field` says that a field which holds an offset
in its range leads to the address that the offset was computed from.
-/

namespace A64

open Format WordMemory

/-! ## Fields of words -/

theorem extractLsb'_shiftLeft (x : Word) {n k : ℕ} (h : n + k ≤ 32) :
    (x <<< n).extractLsb' n k = x.extractLsb' 0 k := by
  refine BitVec.eq_of_getLsbD_eq fun i hi => ?_
  have hlt : n + i < 32 := by omega
  rw [BitVec.getLsbD_extractLsb', BitVec.getLsbD_extractLsb', BitVec.getLsbD_shiftLeft]
  simp only [hlt, decide_true, Nat.not_lt.2 (Nat.le_add_right n i), decide_false, Bool.not_false,
    Bool.true_and, Nat.add_sub_cancel_left, Nat.zero_add]

/-- A field within the replaced bits. -/
theorem field_replaced {m l : Word} (y w : Word) {n k : ℕ}
    (hm : m.extractLsb' n k = BitVec.allOnes k) (hl : l.extractLsb' n k = 0) :
    ((y &&& m) ||| (w &&& l)).extractLsb' n k = y.extractLsb' n k := by
  rw [BitVec.extractLsb'_or, BitVec.extractLsb'_and, BitVec.extractLsb'_and, hm, hl,
    BitVec.and_allOnes]
  simp

/-- A field that is kept. -/
theorem field_kept {m l : Word} (y w : Word) {n k : ℕ} (hm : m.extractLsb' n k = 0)
    (hl : l.extractLsb' n k = BitVec.allOnes k) :
    ((y &&& m) ||| (w &&& l)).extractLsb' n k = w.extractLsb' n k := by
  rw [BitVec.or_comm, field_replaced w y hl hm]

theorem getLsbD_kept {m l : Word} (y w : Word) {n : ℕ} (hm : m.getLsbD n = false)
    (hl : l.getLsbD n = true) : ((y &&& m) ||| (w &&& l)).getLsbD n = w.getLsbD n := by
  rw [BitVec.getLsbD_or, BitVec.getLsbD_and, BitVec.getLsbD_and, hm, hl]
  simp

/-- A word with other bits outside of the mask of its format. -/
theorem Format.Matches.replace {f : Format} {m l : Word} (y : Word) {w : Word} (h : f.Matches w)
    (hm : m &&& f.mask = 0) (hl : l &&& f.mask = f.mask) :
    f.Matches ((y &&& m) ||| (w &&& l)) := by
  unfold Format.Matches at h ⊢
  rw [BitVec.and_or_distrib_right, BitVec.and_assoc, BitVec.and_assoc, hm, hl, h]
  simp

theorem imm19_replaced (x w : Word) :
    imm19 (((x <<< 5) &&& 0x00ffffe0) ||| (w &&& 0xff00001f)) = x.extractLsb' 0 19 := by
  rw [imm19, field_replaced _ _ (by decide) (by decide), extractLsb'_shiftLeft x (by decide)]

theorem imm14_replaced (x w : Word) :
    imm14 (((x <<< 5) &&& 0x0007ffe0) ||| (w &&& 0xfff8001f)) = x.extractLsb' 0 14 := by
  rw [imm14, field_replaced _ _ (by decide) (by decide), extractLsb'_shiftLeft x (by decide)]

theorem low5_kept19 (y w : Word) :
    low5 ((y &&& 0x00ffffe0) ||| (w &&& 0xff00001f)) = low5 w :=
  field_kept y w (by decide) (by decide)

theorem low5_kept14 (y w : Word) :
    low5 ((y &&& 0x0007ffe0) ||| (w &&& 0xfff8001f)) = low5 w :=
  field_kept y w (by decide) (by decide)

/-! ## Branches -/

/-- A branch without its offset. -/
def branchOp (link : Bool) : Word := if link then 0x94000000 else 0x14000000

theorem decode_of_branchOp {link : Bool} {w : Word} (h : w &&& 0xfc000000 = branchOp link) :
    decode w = .branch link (4 * (imm26 w).toInt) := by
  cases link with
  | false => exact decode_of_mem (f := b) (by simp [formats]) h
  | true => exact decode_of_mem (f := bl) (by simp [formats]) h

/-- A branch that is made of an offset. -/
theorem decode_branchOp (link : Bool) (x : Word) :
    decode (branchOp link ||| (x &&& 0x03ffffff)) =
      .branch link (4 * (x.extractLsb' 0 26).toInt) := by
  have hop : (branchOp link).extractLsb' 0 26 = 0 ∧
      branchOp link &&& 0xfc000000 = branchOp link := by
    cases link <;> decide
  have hmatch : (branchOp link ||| (x &&& 0x03ffffff)) &&& 0xfc000000 = branchOp link := by
    rw [BitVec.and_or_distrib_right, BitVec.and_assoc, hop.2]
    simp
  have hfield := field_replaced (m := 0x03ffffff) (l := branchOp link) x (branchOp link) (n := 0)
    (k := 26) (by decide) hop.1
  rw [BitVec.or_comm, BitVec.and_self] at hfield
  rw [decode_of_branchOp hmatch, imm26, hfield]

/-- The formats of the conditional branches with an offset of nineteen bits. -/
def branches19 : List Format := [bCond, cbz, cbnz]

/-- The formats of the conditional branches with an offset of fourteen bits. -/
def branches14 : List Format := [tbz, tbnz]

/-- A conditional branch with another offset tests the same. -/
theorem decode_retarget19 {f : Format} (hf : f ∈ branches19) {w : Word} (h : f.Matches w) :
    ∃ t, decode w = .branchIf t (4 * (imm19 w).toInt) ∧ ∀ x : Word,
      decode (((x <<< 5) &&& 0x00ffffe0) ||| (w &&& 0xff00001f)) =
        .branchIf t (4 * (x.extractLsb' 0 19).toInt) := by
  have hmask : 0x00ffffe0 &&& f.mask = 0 ∧ 0xff00001f &&& f.mask = f.mask := by
    fin_cases hf <;> decide
  have hmem : f ∈ formats := by
    fin_cases hf <;> simp [formats]
  have hnew (x : Word) := decode_of_mem hmem (h.replace (x <<< 5) hmask.1 hmask.2)
  have hold := decode_of_mem hmem h
  fin_cases hf
  · refine ⟨_, hold, fun x => (hnew x).trans ?_⟩
    simp only [bCond, imm19_replaced]
    rw [field_kept _ _ (by decide) (by decide)]
  · refine ⟨_, hold, fun x => (hnew x).trans ?_⟩
    simp only [cbz, cb, imm19_replaced, low5_kept19]
    rw [getLsbD_kept _ _ (by decide) (by decide)]
  · refine ⟨_, hold, fun x => (hnew x).trans ?_⟩
    simp only [cbnz, cb, imm19_replaced, low5_kept19]
    rw [getLsbD_kept _ _ (by decide) (by decide)]

theorem bitNumber_kept14 (y w : Word) :
    bitNumber ((y &&& 0x0007ffe0) ||| (w &&& 0xfff8001f)) = bitNumber w := by
  unfold bitNumber
  rw [field_kept y w (by decide) (by decide), field_kept y w (by decide) (by decide)]

theorem decode_retarget14 {f : Format} (hf : f ∈ branches14) {w : Word} (h : f.Matches w) :
    ∃ t, decode w = .branchIf t (4 * (imm14 w).toInt) ∧ ∀ x : Word,
      decode (((x <<< 5) &&& 0x0007ffe0) ||| (w &&& 0xfff8001f)) =
        .branchIf t (4 * (x.extractLsb' 0 14).toInt) := by
  have hmask : 0x0007ffe0 &&& f.mask = 0 ∧ 0xfff8001f &&& f.mask = f.mask := by
    fin_cases hf <;> decide
  have hmem : f ∈ formats := by
    fin_cases hf <;> simp [formats]
  have hnew (x : Word) := decode_of_mem hmem (h.replace (x <<< 5) hmask.1 hmask.2)
  have hold := decode_of_mem hmem h
  fin_cases hf
  · refine ⟨_, hold, fun x => (hnew x).trans ?_⟩
    simp only [tbz, tb, imm14_replaced, low5_kept14, bitNumber_kept14]
  · refine ⟨_, hold, fun x => (hnew x).trans ?_⟩
    simp only [tbnz, tb, imm14_replaced, low5_kept14, bitNumber_kept14]

/-! ## Literals and addresses -/

/-- The formats of the loads of literals. -/
def loads : List Format := [ldrW, ldrX, ldrSW, ldrS, ldrD, ldrQ]

theorem decode_ldr {f : Format} (hf : f ∈ loads) {w : Word} (h : f.Matches w) :
    ∃ k, decode w = .load k (low5 w) (4 * (imm19 w).toInt) ∧ ∀ x : Word,
      decode (((x <<< 5) &&& 0x00ffffe0) ||| (w &&& 0xff00001f)) =
        .load k (low5 w) (4 * (x.extractLsb' 0 19).toInt) := by
  have hmask : 0x00ffffe0 &&& f.mask = 0 ∧ 0xff00001f &&& f.mask = f.mask := by
    fin_cases hf <;> decide
  have hmem : f ∈ formats := by
    fin_cases hf <;> simp [formats]
  have hnew (x : Word) := decode_of_mem hmem (h.replace (x <<< 5) hmask.1 hmask.2)
  have hold := decode_of_mem hmem h
  fin_cases hf <;>
  · refine ⟨_, hold, fun x => (hnew x).trans ?_⟩
    simp only [ldrW, ldrX, ldrSW, ldrS, ldrD, ldrQ, ldr, imm19_replaced, low5_kept19]

/-- The address of a later word is computed with another offset. -/
theorem decode_adr {w : Word} (h : adr.Matches w) (hlow : w.extractLsb' 29 2 = 0) (x : Word) :
    decode (((x <<< 5) &&& 0x00ffffe0) ||| (w &&& 0xff00001f)) =
      .adr (low5 w) (4 * (x.extractLsb' 0 19).toInt) := by
  have hnew := decode_of_mem (f := adr) (by simp [formats])
    (h.replace (m := 0x00ffffe0) (l := 0xff00001f) (x <<< 5) (by decide) (by decide))
  have hhigh := imm19_replaced x w
  rw [imm19] at hhigh
  refine hnew.trans ?_
  simp only [adr, imm21, low5_kept19]
  rw [hhigh, field_kept _ _ (by decide) (by decide), hlow]
  exact congrArg _ BitVec.toInt_append_zero

/-! ## Masks that keep more than the field -/

theorem shiftLeft_and_low (x : Word) : (x <<< 5) &&& (0x1f : Word) = 0 := by
  apply BitVec.eq_of_toNat_eq
  have hmask := Nat.and_two_pow_sub_one_eq_mod (x <<< 5).toNat 5
  rw [BitVec.toNat_and]
  refine hmask.trans ?_
  rw [BitVec.toNat_shiftLeft, Nat.shiftLeft_eq]
  change _ = 0
  omega

theorem shiftLeft_and_imm19 {x : Word} (h : x.toNat < 2 ^ 19) :
    (x <<< 5) &&& (0x00ffffe0 : Word) = x <<< 5 := by
  have hmask : (0x00ffffe0 : Word) = (BitVec.allOnes 19).setWidth 32 <<< 5 := by decide
  refine BitVec.eq_of_getLsbD_eq fun i hi => ?_
  rw [hmask, BitVec.getLsbD_and, BitVec.getLsbD_shiftLeft, BitVec.getLsbD_shiftLeft,
    BitVec.getLsbD_setWidth, BitVec.getLsbD_allOnes]
  by_cases hfield : i - 5 < 19
  · have hlt : i - 5 < 32 := by omega
    simp +contextual [hfield, hlt]
  · have hbit : x.getLsbD (i - 5) = false := by
      refine Nat.testBit_lt_two_pow (Nat.lt_of_lt_of_le h ?_)
      exact Nat.pow_le_pow_right (by decide) (by omega)
    simp [hbit]

/-- A small offset, under a mask with more bits than the field. -/
theorem and_mask_of_lt {x m : Word} (h : x.toNat < 2 ^ 19) (hm : 0x00ffffe0 &&& m = 0x00ffffe0) :
    (x <<< 5) &&& m = (x <<< 5) &&& (0x00ffffe0 : Word) := by
  rw [← shiftLeft_and_imm19 h, BitVec.and_assoc, hm, BitVec.and_assoc, BitVec.and_self]

theorem and_mask24 (x : Word) :
    (x <<< 5) &&& (0x00ffffff : Word) = (x <<< 5) &&& (0x00ffffe0 : Word) := by
  have hmask : (0x00ffffff : Word) = 0x00ffffe0 ||| 0x1f := by decide
  rw [hmask, BitVec.and_or_distrib_left, shiftLeft_and_low]
  simp

/-- Bits that are set already. -/
theorem and_or_of_or_eq {c w : Word} (h : c ||| w = w) (y : Word) : (y &&& c) ||| w = w := by
  rw [← h, ← BitVec.or_assoc]
  congr 1
  refine BitVec.eq_of_getLsbD_eq fun i hi => ?_
  rw [BitVec.getLsbD_or, BitVec.getLsbD_and]
  cases c.getLsbD i <;> simp

theorem and_mask_or {w c : Word} (x : Word) (h : c ||| (w &&& 0xff00001f) = w &&& 0xff00001f) :
    ((x <<< 5) &&& ((0x00ffffff : Word) ||| c)) ||| (w &&& (0xff00001f : Word)) =
      ((x <<< 5) &&& (0x00ffffe0 : Word)) ||| (w &&& (0xff00001f : Word)) := by
  rw [BitVec.and_or_distrib_left, and_mask24, BitVec.or_assoc, and_or_of_or_eq h]

/-! ## Offsets of words -/

theorem and_mask_ushiftRight (w : Word) {n k i : ℕ} (hi : i ≤ n) (hn : n + k ≤ 32) :
    (w &&& ((BitVec.allOnes k).setWidth 32 <<< n)) >>> i =
      (w.extractLsb' n k).setWidth 32 <<< (n - i) := by
  refine BitVec.eq_of_getLsbD_eq fun j hj => ?_
  simp only [BitVec.getLsbD_ushiftRight, BitVec.getLsbD_and, BitVec.getLsbD_shiftLeft,
    BitVec.getLsbD_setWidth, BitVec.getLsbD_allOnes, BitVec.getLsbD_extractLsb']
  by_cases hlow : j < n - i
  · have hlt : i + j < n := by omega
    simp [hlow, hlt]
  · have hge : ¬i + j < n := by omega
    have hbit : n + (j - (n - i)) = i + j := by omega
    have hfield : i + j - n = j - (n - i) := by omega
    rw [hbit, hfield]
    by_cases hk : j - (n - i) < k
    · have hlt : i + j < 32 := by omega
      have hlt' : j - (n - i) < 32 := by omega
      simp [hlow, hge, hk, hlt, hlt', hj]
    · simp [hk]

theorem getLsbD_shiftLeft_sshiftRight (w : Word) {m : ℕ} (hm : m < 32) (n i : ℕ) :
    ((w <<< m).sshiftRight n).getLsbD i =
      (decide (i < 32) && decide (m ≤ n + i) && w.getLsbD (min (n + i) 31 - m)) := by
  rw [BitVec.getLsbD_sshiftRight]
  by_cases hi : i < 32
  · by_cases hlt : n + i < 32
    · have hmin : min (n + i) 31 = n + i := by omega
      rw [if_pos hlt, BitVec.getLsbD_shiftLeft, hmin]
      by_cases hle : m ≤ n + i
      · simp [hi, hlt, hle, Nat.not_lt.2 hle, Nat.not_le.2 hi]
      · simp [hi, hlt, hle, Nat.lt_of_not_le hle]
    · have hmin : min (n + i) 31 = 31 := by omega
      have hle : m ≤ n + i := by omega
      have hge : ¬31 < m := by omega
      rw [if_neg hlt, hmin, BitVec.msb_eq_getLsbD_last, BitVec.getLsbD_shiftLeft]
      simp [hi, hle, hge]
  · simp [hi]

theorem getLsbD_signExtend_extractLsb' (w : Word) {n k v i : ℕ} (hk : 0 < k) (hi : i < v) :
    ((w.extractLsb' n k).signExtend v).getLsbD i = w.getLsbD (n + min i (k - 1)) := by
  rw [BitVec.getLsbD_signExtend]
  by_cases hlt : i < k
  · have hmin : min i (k - 1) = i := by omega
    rw [if_pos hlt, BitVec.getLsbD_extractLsb', hmin]
    simp [hi, hlt]
  · have hmin : min i (k - 1) = k - 1 := by omega
    have hlast : k - 1 < k := by omega
    rw [if_neg hlt, BitVec.msb_eq_getLsbD_last, BitVec.getLsbD_extractLsb', hmin]
    simp [hi, hlast]

/-- The offset of a branch, sign-extended by shifts. -/
theorem signExtend_imm26 (w : Word) :
    ((w <<< 6).sshiftRight 4).signExtend 64 = BitVec.ofInt 64 (4 * (imm26 w).toInt) := by
  have hbits : ((w <<< 6).sshiftRight 4).signExtend 64 = (imm26 w).signExtend 64 <<< 2 := by
    refine BitVec.eq_of_getLsbD_eq fun i hi => ?_
    have hlow : ((w <<< 6).sshiftRight 4).getLsbD (min i 31) =
        (((w <<< 6).sshiftRight 4).signExtend 64).getLsbD i := by
      rw [BitVec.getLsbD_signExtend, BitVec.msb_eq_getLsbD_last]
      by_cases hlt : i < 32
      · have hmin : min i 31 = i := by omega
        simp [hi, hlt, hmin]
      · have hmin : min i 31 = 31 := by omega
        simp [hi, hlt, hmin]
    rw [← hlow, getLsbD_shiftLeft_sshiftRight _ (by decide), BitVec.getLsbD_shiftLeft]
    by_cases h2 : i < 2
    · have hlt : ¬6 ≤ 4 + min i 31 := by omega
      simp [h2, hlt]
    · have hle : 6 ≤ 4 + min i 31 := by omega
      have hindex : min (4 + min i 31) 31 - 6 = 0 + min (i - 2) (26 - 1) := by omega
      rw [hindex, imm26, getLsbD_signExtend_extractLsb' w (by decide) (by omega)]
      simp [h2, hle, hi]
  rw [hbits, BitVec.shiftLeft_eq_mul_twoPow, BitVec.ofInt_mul, BitVec.mul_comm]
  rfl

/-- The offset of a literal, sign-extended by shifts. -/
theorem signExtend_imm19 (w : Word) :
    ((w <<< 8).sshiftRight 11) &&& ~~~(3 : Word) = (imm19 w).signExtend 32 <<< 2 := by
  refine BitVec.eq_of_getLsbD_eq fun i hi => ?_
  have hmask : (~~~(3 : Word)).getLsbD i = decide (2 ≤ i) := by
    have hones : ~~~(3 : Word) = (BitVec.allOnes 30).setWidth 32 <<< 2 := by decide
    rw [hones, BitVec.getLsbD_shiftLeft, BitVec.getLsbD_setWidth, BitVec.getLsbD_allOnes]
    by_cases h2 : i < 2
    · simp [h2]
    · have hlt : i - 2 < 30 := by omega
      have hlt' : i - 2 < 32 := by omega
      simp [hi, h2, hlt, hlt', Nat.le_of_not_lt h2]
  rw [BitVec.getLsbD_and, getLsbD_shiftLeft_sshiftRight _ (by decide), hmask,
    BitVec.getLsbD_shiftLeft]
  by_cases h2 : i < 2
  · simp [h2]
  · have hindex : min (11 + i) 31 - 8 = 5 + min (i - 2) (19 - 1) := by omega
    have hle : 8 ≤ 11 + i := by omega
    rw [hindex, imm19, getLsbD_signExtend_extractLsb' w (by decide) (by omega)]
    simp [h2, hle, hi, Nat.le_of_not_lt h2]

theorem msb_of_nonneg {n : ℕ} {x : BitVec n} (h : 0 ≤ x.toInt) : x.msb = false := by
  rw [BitVec.msb_eq_toInt]
  exact decide_eq_false (Int.not_lt.2 h)

theorem ofInt_of_nonneg {n : ℕ} {x : BitVec n} (h : 0 ≤ x.toInt) (k : ℕ) :
    BitVec.ofInt 64 (k * x.toInt) = BitVec.ofNat 64 (k * x.toNat) := by
  rw [BitVec.toInt_eq_toNat_of_msb (msb_of_nonneg h), ← Int.natCast_mul, BitVec.ofInt_natCast]

theorem setWidth_shiftLeft {n : ℕ} (x : BitVec n) {k : ℕ} (h : n + k ≤ 32) :
    (x.setWidth 32 <<< k).setWidth 64 = BitVec.ofNat 64 (2 ^ k * x.toNat) := by
  have hpow : 2 ^ k * 2 ^ n ≤ 2 ^ 32 := by
    rw [← Nat.pow_add]
    exact Nat.pow_le_pow_right (by decide) (by omega)
  have hlt : 2 ^ k * x.toNat < 2 ^ 32 :=
    Nat.lt_of_lt_of_le (Nat.mul_lt_mul_of_pos_left x.isLt (Nat.two_pow_pos k)) hpow
  have hx : x.toNat < 2 ^ 32 :=
    Nat.lt_of_lt_of_le x.isLt (Nat.pow_le_pow_right (by decide) (by omega))
  apply BitVec.eq_of_toNat_eq
  rw [BitVec.toNat_setWidth, BitVec.toNat_shiftLeft, BitVec.toNat_setWidth, BitVec.toNat_ofNat,
    Nat.mod_eq_of_lt hx, Nat.shiftLeft_eq, Nat.mul_comm, Nat.mod_eq_of_lt hlt]

/-- The offset of a conditional branch, which is not sign-extended. -/
theorem zeroExtend_imm19 (w : Word) :
    ((w &&& 0x00ffffe0) >>> 3).setWidth 64 = BitVec.ofNat 64 (4 * (imm19 w).toNat) := by
  have hmask : (0x00ffffe0 : Word) = (BitVec.allOnes 19).setWidth 32 <<< 5 := by decide
  rw [hmask, and_mask_ushiftRight w (by decide) (by decide)]
  exact setWidth_shiftLeft (imm19 w) (by decide)

theorem zeroExtend_imm14 (w : Word) :
    ((w &&& 0x0007ffe0) >>> 3).setWidth 64 = BitVec.ofNat 64 (4 * (imm14 w).toNat) := by
  have hmask : (0x0007ffe0 : Word) = (BitVec.allOnes 14).setWidth 32 <<< 5 := by decide
  rw [hmask, and_mask_ushiftRight w (by decide) (by decide)]
  exact setWidth_shiftLeft (imm14 w) (by decide)

/-- The offset of a literal that comes later. -/
theorem literalOffset_eq {w : Word} (h : 0 ≤ (imm19 w).toInt) :
    (((w <<< 8).sshiftRight 11) &&& ~~~(3 : Word)).setWidth 64 =
      BitVec.ofInt 64 (4 * (imm19 w).toInt) := by
  rw [signExtend_imm19, BitVec.signExtend_eq_setWidth_of_msb_false (msb_of_nonneg h),
    setWidth_shiftLeft _ (by decide)]
  exact (ofInt_of_nonneg h 4).symm

/-- The bits of an address offset, put together by shifts. -/
theorem imm21_eq {w : Word} (h : 0 ≤ (imm21 w).toInt) :
    ((w <<< 8).sshiftRight 11) &&& ~~~(3 : Word) ||| (w <<< 1) >>> 30 = (imm21 w).setWidth 32 := by
  have hmsb : (imm19 w).msb = false := by
    have := msb_of_nonneg h
    rwa [imm21, BitVec.msb_append] at this
  have hlow : (w <<< 1) >>> 30 = (w.extractLsb' 29 2).setWidth 32 := by
    refine BitVec.eq_of_getLsbD_eq fun i hi => ?_
    rw [BitVec.getLsbD_ushiftRight, BitVec.getLsbD_shiftLeft, BitVec.getLsbD_setWidth,
      BitVec.getLsbD_extractLsb']
    by_cases h2 : i < 2
    · have hlt : 30 + i < 32 := by omega
      have hge : ¬30 + i < 1 := by omega
      have hindex : 30 + i - 1 = 29 + i := by omega
      simp [hi, h2, hlt, hge, hindex]
    · have hge : ¬30 + i < 32 := by omega
      simp [h2, hge]
  rw [signExtend_imm19, BitVec.signExtend_eq_setWidth_of_msb_false hmsb, hlow]
  refine BitVec.eq_of_getLsbD_eq fun i hi => ?_
  rw [BitVec.getLsbD_or, BitVec.getLsbD_shiftLeft, BitVec.getLsbD_setWidth, BitVec.getLsbD_setWidth,
    BitVec.getLsbD_setWidth, imm21, BitVec.getLsbD_append, imm19]
  by_cases h2 : i < 2
  · simp [hi, h2]
  · have hlt : i - 2 < 32 := by omega
    have hfield : (w.extractLsb' 29 2).getLsbD i = false := BitVec.getLsbD_of_ge _ _ (by omega)
    simp [hi, h2, hlt, hfield]

theorem addressOffset_eq {w : Word} (h : 0 ≤ (imm21 w).toInt) :
    (((w <<< 8).sshiftRight 11) &&& ~~~(3 : Word) ||| (w <<< 1) >>> 30).setWidth 64 =
      BitVec.ofInt 64 (imm21 w).toInt := by
  have hofInt := ofInt_of_nonneg h 1
  rw [Nat.cast_one, one_mul, one_mul] at hofInt
  rw [imm21_eq h, hofInt]
  apply BitVec.eq_of_toNat_eq
  have := (imm21 w).isLt
  rw [BitVec.toNat_setWidth, BitVec.toNat_setWidth, BitVec.toNat_ofNat]
  omega

theorem pageOffset_eq {w : Word} (h : 0 ≤ (imm21 w).toInt) :
    ((((w <<< 8).sshiftRight 11) &&& ~~~(3 : Word) ||| (w <<< 1) >>> 30) <<< 12).setWidth 64 =
      BitVec.ofInt 64 (4096 * (imm21 w).toInt) := by
  have hlt : 2 * (imm21 w).toNat < 2 ^ 21 := by
    exact BitVec.msb_eq_false_iff_two_mul_lt.1 (msb_of_nonneg h)
  have hofInt := ofInt_of_nonneg h 4096
  rw [imm21_eq h]
  refine Eq.trans ?_ hofInt.symm
  apply BitVec.eq_of_toNat_eq
  rw [BitVec.toNat_setWidth, BitVec.toNat_shiftLeft, BitVec.toNat_setWidth, BitVec.toNat_ofNat,
    Nat.shiftLeft_eq]
  omega

/-! ## Offsets between places -/

theorem toInt_extractLsb' (o : BitVec 64) {n : ℕ} (hn : n < 64) (hlo : -(2 ^ n : ℤ) ≤ o.toInt)
    (hhi : o.toInt < 2 ^ n) : (o.extractLsb' 0 (n + 1)).toInt = o.toInt := by
  have hext : o.extractLsb' 0 (n + 1) = o.signExtend (n + 1) := by
    rw [BitVec.signExtend_eq_setWidth_of_le o (by omega), BitVec.setWidth_eq_extractLsb' (by omega)]
  rw [hext, BitVec.toInt_signExtend, Nat.min_eq_left (by omega)]
  apply Int.bmod_eq_of_le
  · rw [Nat.pow_succ]; push_cast; omega
  · rw [Nat.pow_succ]; push_cast; omega

theorem extractLsb'_setWidth (o : BitVec 64) {n : ℕ} (hn : n ≤ 32) :
    (o.setWidth 32).extractLsb' 0 n = o.extractLsb' 0 n := by
  refine BitVec.eq_of_getLsbD_eq fun i hi => ?_
  rw [BitVec.getLsbD_extractLsb', BitVec.getLsbD_extractLsb', BitVec.getLsbD_setWidth]
  have hlt : i < 32 := by omega
  simp only [Nat.zero_add, hlt, decide_true, Bool.true_and]

/-- The offset in words may be taken before or after the high bits are dropped. -/
theorem extractLsb'_sshiftRight (o : BitVec 64) {n : ℕ} (hn : n ≤ 30) :
    ((o.setWidth 32).sshiftRight 2).extractLsb' 0 n = (o.sshiftRight 2).extractLsb' 0 n := by
  refine BitVec.eq_of_getLsbD_eq fun i hi => ?_
  have hlt : i < 32 := by omega
  have hlt' : 2 + i < 32 := by omega
  have hlt64 : 2 + i < 64 := by omega
  simp only [BitVec.getLsbD_extractLsb', BitVec.getLsbD_sshiftRight, BitVec.getLsbD_setWidth,
    Nat.zero_add, if_pos hlt64, hlt', decide_true, Bool.true_and]
  simp [hi, Nat.not_le.2 hlt, Nat.not_le.2 (Nat.lt_trans hlt (by decide : 32 < 64))]

theorem ofInt_sshiftRight {d : Addr} (h : 4 ∣ d.toNat) :
    BitVec.ofInt 64 (4 * (d.sshiftRight 2).toInt) = d := by
  have hdvd : (4 : ℤ) ∣ d.toInt := by
    rw [BitVec.toInt_eq_toNat_cond]
    split <;> omega
  rw [BitVec.toInt_sshiftRight, Int.shiftRight_eq_div_pow]
  have : 4 * (d.toInt / ((2 ^ 2 : ℕ) : ℤ)) = d.toInt := Int.mul_ediv_cancel' hdvd
  rw [this, BitVec.ofInt_toInt]

/-- Whether a field with a sign takes an offset in words. -/
def Fits (n : ℕ) (o : BitVec 64) : Prop := -(2 ^ n : ℤ) ≤ o.toInt ∧ o.toInt < 2 ^ n

theorem Fits.mono {n k : ℕ} {o : BitVec 64} (h : Fits n o) (hnk : n ≤ k) : Fits k o := by
  have hpow : (2 ^ n : ℤ) ≤ 2 ^ k := by exact_mod_cast Nat.pow_le_pow_right (by decide) hnk
  exact ⟨by have := h.1; omega, by have := h.2; omega⟩

/-- A field that holds an offset in its range leads to the target. -/
theorem add_ofInt_field {pc target : Addr} {n : ℕ} (hn : n < 64) (halign : 4 ∣ (target - pc).toNat)
    (hfits : Fits n ((target - pc).sshiftRight 2)) {field : BitVec (n + 1)}
    (hfield : field = ((target - pc).sshiftRight 2).extractLsb' 0 (n + 1)) :
    pc + BitVec.ofInt 64 (4 * field.toInt) = target := by
  rw [hfield, toInt_extractLsb' _ hn hfits.1 hfits.2, ofInt_sshiftRight halign]
  bv_omega

end A64
