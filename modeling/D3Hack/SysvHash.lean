import Mathlib.Data.Nat.Bitwise
import Mathlib.Tactic.Ring

/-!
# The hash of symbol names

The object file format hashes a name in 32 bits: each character is added to the hash shifted by
four, and the upper four bits are folded into the lower ones and cleared. `hash w` is the same
computation in words of `w` bits.

In more than 32 bits a carry out of bit 31 is not lost: it stays above the hash, and is shifted
on with every character. So the lower 32 bits are the hash of the format (`setWidth_hash`), and
`carried` are the carries above (`toNat_hash`); `hash_mod` is for tables whose number of buckets
is a power of two.
-/

namespace SysvHash

variable {w : ℕ}

/-- The upper four bits folded into the lower ones. -/
def fold (x : BitVec w) : BitVec w :=
  let g := x &&& BitVec.ofNat w 0xf0000000
  (x ^^^ (g >>> 24)) &&& ~~~g

/-- A byte is hashed. -/
def step (h : BitVec w) (c : UInt8) : BitVec w := fold ((h <<< 4) + c.toBitVec.setWidth w)

/-- The hash of a name, in words of `w` bits. -/
def hash (w : ℕ) (s : List UInt8) : BitVec w := s.foldl step 0

/-- The carry out of bit 31. -/
def carry (h : BitVec 32) (c : UInt8) : ℕ := (16 * h.toNat + c.toNat) / 2 ^ 32

/-- The carries of a hash from `h` on, above the carries `k` of what came before, as far as 64
bits hold them. -/
def carriedFrom : BitVec 32 → ℕ → List UInt8 → ℕ
  | _, k, [] => k
  | h, k, c :: s => carriedFrom (step h c) ((16 * k + carry h c) % 2 ^ 32) s

/-- The carries of a name. -/
def carried (s : List UInt8) : ℕ := carriedFrom 0 0 s

/-! ## Folding -/

theorem getLsbD_mask {i : ℕ} (hw : i < w) :
    (BitVec.ofNat w 0xf0000000).getLsbD i = (decide (28 ≤ i) && decide (i < 32)) := by
  have hmask : 0xf0000000 = 2 ^ 28 * (2 ^ 4 - 1) := by decide
  rw [BitVec.getLsbD_ofNat, hmask, Nat.testBit_two_pow_mul, Nat.testBit_two_pow_sub_one]
  by_cases h : 28 ≤ i
  · simp only [hw, h, decide_true, Bool.true_and]
    exact decide_eq_decide.2 (by omega)
  · simp [h]

theorem getLsbD_fold (x : BitVec w) {i : ℕ} (hw : i < w) : (fold x).getLsbD i =
    ((x.getLsbD i ^^ (decide (4 ≤ i) && decide (i < 8) && x.getLsbD (24 + i))) &&
      !(decide (28 ≤ i) && decide (i < 32))) := by
  have hshift : (BitVec.ofNat w 0xf0000000).getLsbD (24 + i) =
      (decide (24 + i < w) && (decide (4 ≤ i) && decide (i < 8))) := by
    by_cases h : 24 + i < w
    · rw [getLsbD_mask h]
      simp only [h, decide_true, Bool.true_and]
      exact congrArg₂ _ (decide_eq_decide.2 (by omega)) (decide_eq_decide.2 (by omega))
    · rw [BitVec.getLsbD_of_ge _ _ (Nat.le_of_not_lt h)]
      simp [h]
  unfold fold
  simp only [BitVec.getLsbD_and, BitVec.getLsbD_xor, BitVec.getLsbD_ushiftRight, BitVec.getLsbD_not,
    hw, decide_true, Bool.true_and, getLsbD_mask hw, hshift]
  have hover : ¬24 + i < w → x.getLsbD (24 + i) = false := fun h =>
    BitVec.getLsbD_of_ge x _ (Nat.le_of_not_lt h)
  by_cases h : 24 + i < w
  · simp only [h, decide_true, Bool.true_and]
    cases x.getLsbD i <;> cases x.getLsbD (24 + i) <;> simp
    omega
  · rw [hover h]
    cases x.getLsbD i <;> simp

/-- Folding works on the lower 32 bits alone. -/
theorem toNat_fold (x : BitVec 64) :
    (fold x).toNat = (fold (x.setWidth 32)).toNat + 2 ^ 32 * (x.toNat / 2 ^ 32) := by
  have hlow : (fold x).toNat % 2 ^ 32 = (fold (x.setWidth 32)).toNat := by
    rw [← BitVec.toNat_setWidth]
    refine congrArg _ (BitVec.eq_of_getLsbD_eq fun i hi => ?_)
    have hshift : i < 8 → 24 + i < 32 := fun h => by omega
    rw [BitVec.getLsbD_setWidth, getLsbD_fold x (by omega), getLsbD_fold _ hi,
      BitVec.getLsbD_setWidth, BitVec.getLsbD_setWidth]
    by_cases h : i < 8 <;> simp [hi, h, hshift]
  have hhigh : (fold x).toNat / 2 ^ 32 = x.toNat / 2 ^ 32 := by
    refine Nat.eq_of_testBit_eq fun i => ?_
    rw [Nat.testBit_div_two_pow, Nat.testBit_div_two_pow]
    rcases Nat.lt_or_ge (i + 32) 64 with hlt | hge
    · change (fold x).getLsbD (i + 32) = x.getLsbD (i + 32)
      rw [getLsbD_fold x hlt]
      simp [show ¬i + 32 < 8 by omega]
    · exact (BitVec.getLsbD_of_ge _ _ hge).trans (BitVec.getLsbD_of_ge _ _ hge).symm
  omega

/-! ## The hash in 64 bits -/

theorem toNat_step {h : BitVec 64} {h' : BitVec 32} {k : ℕ} (hk : h.toNat = h'.toNat + 2 ^ 32 * k)
    (c : UInt8) :
    (step h c).toNat = (step h' c).toNat + 2 ^ 32 * ((16 * k + carry h' c) % 2 ^ 32) := by
  have hc : c.toBitVec.toNat < 256 := c.toBitVec.isLt
  have hwide : ((h <<< 4) + c.toBitVec.setWidth 64).toNat =
      (16 * h.toNat + c.toBitVec.toNat) % 2 ^ 64 := by
    rw [BitVec.toNat_add, BitVec.toNat_shiftLeft, BitVec.toNat_setWidth, Nat.shiftLeft_eq]
    omega
  have hnarrow : ((h' <<< 4) + c.toBitVec.setWidth 32).toNat =
      (16 * h'.toNat + c.toBitVec.toNat) % 2 ^ 32 := by
    rw [BitVec.toNat_add, BitVec.toNat_shiftLeft, BitVec.toNat_setWidth, Nat.shiftLeft_eq]
    omega
  have hlow : ((h <<< 4) + c.toBitVec.setWidth 64).setWidth 32 =
      (h' <<< 4) + c.toBitVec.setWidth 32 := by
    refine BitVec.eq_of_toNat_eq ?_
    rw [BitVec.toNat_setWidth, hwide, hnarrow, hk]
    omega
  have hcarry : carry h' c = (16 * h'.toNat + c.toBitVec.toNat) / 2 ^ 32 := rfl
  unfold step
  rw [toNat_fold, hlow, hwide, hcarry, hk]
  omega

theorem toNat_foldl_step {h : BitVec 64} {h' : BitVec 32} {k : ℕ}
    (hk : h.toNat = h'.toNat + 2 ^ 32 * k) (s : List UInt8) :
    (s.foldl step h).toNat = (s.foldl step h').toNat + 2 ^ 32 * carriedFrom h' k s := by
  induction s generalizing h h' k with
  | nil => exact hk
  | cons c s ih => exact ih (toNat_step hk c)

/-- **The hash in 64 bits** is the hash of the format with the carries above it. -/
theorem toNat_hash (s : List UInt8) :
    (hash 64 s).toNat = (hash 32 s).toNat + 2 ^ 32 * carried s :=
  toNat_foldl_step rfl s

/-- Carries make no difference for a power of two. -/
theorem hash_mod {n : ℕ} (hn : n ∣ 2 ^ 32) (s : List UInt8) :
    (hash 64 s).toNat % n = (hash 32 s).toNat % n := by
  obtain ⟨k, hk⟩ := hn
  rw [toNat_hash, hk, Nat.mul_assoc, Nat.add_mul_mod_self_left]

end SysvHash
