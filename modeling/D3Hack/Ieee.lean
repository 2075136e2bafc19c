import Mathlib.Algebra.Order.Field.Rat
import Mathlib.Algebra.Order.Floor.Ring
import Mathlib.Data.Int.Log
import Mathlib.Data.Rat.Floor
import Mathlib.Tactic.Linarith
import Mathlib.Tactic.NormNum

/-!
# Numbers with nan and infinities

`Ieee` is an IEEE number with exact finite arithmetic: a rational, `nan` or an infinity.
Comparisons are the IEEE ones, so every one with `nan` is false; `Ieee.clamp` is
`std::clamp`, written with these comparisons, and so returns a `nan` value unchanged.
`Ieee.round` rounds halves away from zero, and `Ieee.toNat` and `Ieee.toInt` are the
saturating conversions of the target machine, with `nan` sent to zero. `Ieee.toFloat` makes the
result of an operation on `float` from the exact one.

`Ieee.clamp_fin` and `Ieee.clamp_cases` say what a clamp does on finite bounds, and the
`Ieee.roundQ` lemmas that rounding fixes integers and keeps integer bounds.
-/

/-- An IEEE number whose finite arithmetic is exact. -/
inductive Ieee where
  | fin (q : ℚ)
  | nan
  | posInf
  | negInf
  deriving DecidableEq

namespace Ieee

/-- IEEE less than. -/
def lt : Ieee → Ieee → Bool
  | fin p, fin q => decide (p < q)
  | fin _, posInf => true
  | negInf, fin _ => true
  | negInf, posInf => true
  | _, _ => false

/-- IEEE equality. -/
def eq : Ieee → Ieee → Bool
  | fin p, fin q => decide (p = q)
  | posInf, posInf => true
  | negInf, negInf => true
  | _, _ => false

/-- IEEE less or equal. -/
def le (a b : Ieee) : Bool := lt a b || eq a b

/-- `std::isfinite`. -/
def isFinite : Ieee → Bool
  | fin _ => true
  | _ => false

/-- `std::clamp`. -/
def clamp (v lo hi : Ieee) : Ieee := if lt v lo then lo else if lt hi v then hi else v

/-- The product with a positive constant. -/
def scale (k : ℚ) : Ieee → Ieee
  | fin q => fin (q * k)
  | v => v

/-- A rational rounded to the nearest integer, halves away from zero. -/
def roundQ (q : ℚ) : ℤ := if 0 ≤ q then ⌊q + 1 / 2⌋ else ⌈q - 1 / 2⌉

/-- `std::round`. -/
def round : Ieee → Ieee
  | fin q => fin (roundQ q)
  | v => v

/-- The conversion to an unsigned integer of `w` bits. -/
def toNat (w : ℕ) : Ieee → ℕ
  | fin q => min ⌊q⌋.toNat (2 ^ w - 1)
  | nan => 0
  | posInf => 2 ^ w - 1
  | negInf => 0

/-- The conversion to a signed integer of `w` bits. -/
def toInt (w : ℕ) : Ieee → ℤ
  | fin q => max (-2 ^ (w - 1)) (min (if 0 ≤ q then ⌊q⌋ else ⌈q⌉) (2 ^ (w - 1) - 1))
  | nan => 0
  | posInf => 2 ^ (w - 1) - 1
  | negInf => -2 ^ (w - 1)

/-- A rational rounded to the nearest integer, halves to the even one. -/
def roundEven (q : ℚ) : ℤ :=
  let n := ⌊q⌋
  if q - n < 1 / 2 then n
  else if 1 / 2 < q - n then n + 1
  else if n % 2 = 0 then n else n + 1

/-- The place of the last bit of a `float` near a rational; that of the smallest is fixed. -/
def floatPlace (q : ℚ) : ℤ := max (-149) (Int.log 2 |q| - 23)

/-- A rational rounded to the bits of a `float`, of any size. -/
def floatQ (q : ℚ) : ℚ := roundEven (q / 2 ^ floatPlace q) * 2 ^ floatPlace q

/-- The `float` that an operation with the given exact result has. -/
def toFloat : Ieee → Ieee
  | fin q =>
    if 2 ^ 128 ≤ floatQ q then posInf else if floatQ q ≤ -2 ^ 128 then negInf else fin (floatQ q)
  | v => v

/-! ## Comparisons -/

@[simp] theorem lt_fin (p q : ℚ) : lt (fin p) (fin q) = decide (p < q) := rfl

@[simp] theorem eq_fin (p q : ℚ) : eq (fin p) (fin q) = decide (p = q) := rfl

@[simp] theorem le_fin (p q : ℚ) : le (fin p) (fin q) = decide (p ≤ q) := by
  simp [le, le_iff_lt_or_eq]

@[simp] theorem lt_nan_left (v : Ieee) : lt nan v = false := by cases v <;> rfl

@[simp] theorem lt_nan_right (v : Ieee) : lt v nan = false := by cases v <;> rfl

@[simp] theorem le_nan_left (v : Ieee) : le nan v = false := by cases v <;> rfl

@[simp] theorem le_nan_right (v : Ieee) : le v nan = false := by cases v <;> rfl

@[simp] theorem isFinite_fin (q : ℚ) : isFinite (fin q) = true := rfl

@[simp] theorem isFinite_nan : isFinite nan = false := rfl

theorem isFinite_iff {v : Ieee} : v.isFinite = true ↔ ∃ q, v = fin q := by
  cases v <;> simp [isFinite]

theorem eq_iff {v w : Ieee} : eq v w = true ↔ v = w ∧ v ≠ nan := by
  cases v <;> cases w <;> simp [eq]

theorem le_trans {a b c : Ieee} (hab : le a b = true) (hbc : le b c = true) :
    le a c = true := by
  cases a <;> cases b <;> cases c <;> simp_all [le, lt, eq]
  · rename_i p q r
    rcases hab with hab | rfl
    · rcases hbc with hbc | rfl
      · exact Or.inl (hab.trans hbc)
      · exact Or.inl hab
    · exact hbc

/-- A number between two finite ones is finite. -/
theorem exists_fin_of_le {lo hi : ℚ} {v : Ieee} (h₁ : le (fin lo) v = true)
    (h₂ : le v (fin hi) = true) : ∃ q, v = fin q ∧ lo ≤ q ∧ q ≤ hi := by
  cases v with
  | fin q => exact ⟨q, rfl, by simpa using h₁, by simpa using h₂⟩
  | nan => simp at h₁
  | posInf => simp [le, lt, eq] at h₂
  | negInf => simp [le, lt, eq] at h₁

/-! ## Clamping -/

theorem clamp_fin {lo hi : ℚ} (h : lo ≤ hi) (q : ℚ) :
    clamp (fin q) (fin lo) (fin hi) = fin (max lo (min q hi)) := by
  simp only [clamp, lt_fin, decide_eq_true_eq]
  split_ifs with h₁ h₂
  · rw [min_eq_left (h₁.le.trans h), max_eq_left h₁.le]
  · rw [min_eq_right h₂.le, max_eq_right h]
  · rw [min_eq_left (not_lt.1 h₂), max_eq_right (not_lt.1 h₁)]

@[simp] theorem clamp_nan (lo hi : Ieee) : clamp nan lo hi = nan := by simp [clamp]

/-- A clamped number is `nan`, or finite and between the bounds. -/
theorem clamp_cases {lo hi : ℚ} (h : lo ≤ hi) (v : Ieee) :
    v = nan ∧ clamp v (fin lo) (fin hi) = nan ∨
      v ≠ nan ∧ ∃ q, clamp v (fin lo) (fin hi) = fin q ∧ lo ≤ q ∧ q ≤ hi := by
  cases v with
  | fin q =>
    exact Or.inr ⟨by simp, _, clamp_fin h q, le_max_left _ _, max_le h (min_le_right _ _)⟩
  | nan => exact Or.inl ⟨rfl, clamp_nan _ _⟩
  | posInf => exact Or.inr ⟨by simp, hi, by simp [clamp, lt], h, le_rfl⟩
  | negInf => exact Or.inr ⟨by simp, lo, by simp [clamp, lt], le_rfl, h⟩

/-- A number in range is not changed by a clamp. -/
theorem clamp_of_mem {lo hi q : ℚ} (h₁ : lo ≤ q) (h₂ : q ≤ hi) :
    clamp (fin q) (fin lo) (fin hi) = fin q := by
  rw [clamp_fin (h₁.trans h₂), min_eq_left h₂, max_eq_right h₁]

/-- Clamping twice is clamping once. -/
theorem clamp_clamp {lo hi : ℚ} (h : lo ≤ hi) (v : Ieee) :
    (v.clamp (fin lo) (fin hi)).clamp (fin lo) (fin hi) = v.clamp (fin lo) (fin hi) := by
  rcases clamp_cases h v with ⟨-, hc⟩ | ⟨-, q, hc, h₁, h₂⟩
  · rw [hc, clamp_nan]
  · rw [hc, clamp_of_mem h₁ h₂]

/-! ## Rounding -/

@[simp] theorem roundQ_intCast (n : ℤ) : roundQ n = n := by
  unfold roundQ
  split_ifs
  · rw [Int.floor_eq_iff]
    constructor <;> linarith
  · rw [Int.ceil_eq_iff]
    constructor <;> linarith

theorem roundQ_le {q : ℚ} {n : ℤ} (h : q ≤ n) : roundQ q ≤ n := by
  unfold roundQ
  split_ifs
  · exact Int.lt_add_one_iff.1 (Int.floor_lt.2 (by push_cast; linarith))
  · exact Int.ceil_le.2 (by linarith)

theorem le_roundQ {q : ℚ} {n : ℤ} (h : n ≤ q) : n ≤ roundQ q := by
  unfold roundQ
  split_ifs
  · exact Int.le_floor.2 (by linarith)
  · exact Int.le_of_sub_one_lt (Int.lt_ceil.2 (by push_cast; linarith))

/-! ## Conversions -/

theorem toNat_natCast {w n : ℕ} (h : n < 2 ^ w) : toNat w (fin n) = n := by
  simp [toNat]; omega

/-- A finite number between two naturals converts to one between them. -/
theorem toNat_mem {w lo hi : ℕ} (hw : hi < 2 ^ w) {q : ℚ} (h₁ : (lo : ℚ) ≤ q)
    (h₂ : q ≤ (hi : ℚ)) : lo ≤ toNat w (fin q) ∧ toNat w (fin q) ≤ hi := by
  have hlo : (lo : ℤ) ≤ ⌊q⌋ := Int.le_floor.2 (by exact_mod_cast h₁)
  have hhi : ⌊q⌋ ≤ (hi : ℤ) := by
    have : (⌊q⌋ : ℚ) ≤ ((hi : ℤ) : ℚ) := (Int.floor_le q).trans (by exact_mod_cast h₂)
    exact_mod_cast this
  simp only [toNat]
  omega

theorem toInt_intCast {w : ℕ} {n : ℤ} (h₁ : -2 ^ (w - 1) ≤ n) (h₂ : n < 2 ^ (w - 1)) :
    toInt w (fin n) = n := by
  simp [toInt]; omega

/-- A finite number between two integers converts to one between them. -/
theorem toInt_mem {w : ℕ} {lo hi : ℤ} (hlo : -2 ^ (w - 1) ≤ lo) (hhi : hi < 2 ^ (w - 1))
    {q : ℚ} (h₁ : (lo : ℚ) ≤ q) (h₂ : q ≤ (hi : ℚ)) :
    lo ≤ toInt w (fin q) ∧ toInt w (fin q) ≤ hi := by
  have hf₁ : lo ≤ ⌊q⌋ := Int.le_floor.2 h₁
  have hc₂ : ⌈q⌉ ≤ hi := Int.ceil_le.2 h₂
  have hfc : ⌊q⌋ ≤ ⌈q⌉ := Int.floor_le_ceil q
  simp only [toInt]
  split_ifs <;> omega

end Ieee
