import Mathlib.Algebra.Group.Nat.Defs
import Mathlib.Data.Nat.Notation

/-!
# The 32-bit FNV-1a hash

A hash folds `Fnv.step` over the bytes, from the offset basis. Two hashes whose difference
leaves the low byte alone keep it up to a factor under each step (`Fnv.step_add`), since the
byte that comes in touches the low byte only.

`Fnv.toNat_and_mask` reads the bucket of a hash off its remainder.
-/

namespace Fnv

/-- The value that hashing starts from. -/
def offsetBasis : BitVec 32 := 0x811C9DC5

/-- The multiplier. -/
def prime : BitVec 32 := 16777619

/-- One byte more. -/
def step (h : BitVec 32) (b : BitVec 8) : BitVec 32 := (h ^^^ b.setWidth 32) * prime

/-- The hash of the bytes that follow on `h`. -/
def hashFrom (h : BitVec 32) (bytes : List (BitVec 8)) : BitVec 32 := bytes.foldl step h

/-- The hash of bytes. -/
def hash (bytes : List (BitVec 8)) : BitVec 32 := hashFrom offsetBasis bytes

/-- A byte changes the low byte of a number only. -/
theorem xor_byte (x : ℕ) {b : ℕ} (hb : b < 2 ^ 8) :
    x ^^^ b = 2 ^ 8 * (x / 2 ^ 8) + (x % 2 ^ 8 ^^^ b) := by
  have hdiv : (x ^^^ b) / 2 ^ 8 = x / 2 ^ 8 := by
    rw [Nat.xor_div_two_pow, Nat.div_eq_of_lt hb, Nat.xor_zero]
  have hmod : (x ^^^ b) % 2 ^ 8 = x % 2 ^ 8 ^^^ b := by
    rw [Nat.xor_mod_two_pow, Nat.mod_eq_of_lt hb]
  rw [← hdiv, ← hmod, Nat.div_add_mod]

/-- A step keeps a difference above the low byte, times the prime. -/
theorem step_add {d : BitVec 32} (hd : d.toNat % 2 ^ 8 = 0) (h : BitVec 32) (b : BitVec 8) :
    step (h + d) b = step h b + d * prime := by
  have hb : (b.setWidth 32).toNat < 2 ^ 8 := by
    rw [BitVec.toNat_setWidth]
    have hlt := b.isLt
    omega
  have hxor : (h + d) ^^^ b.setWidth 32 = (h ^^^ b.setWidth 32) + d := by
    apply BitVec.eq_of_toNat_eq
    have hlow : (h + d).toNat % 2 ^ 8 = h.toNat % 2 ^ 8 := by
      rw [BitVec.toNat_add]
      omega
    have hbyte : h.toNat % 2 ^ 8 ^^^ (b.setWidth 32).toNat < 2 ^ 8 :=
      Nat.xor_lt_two_pow (Nat.mod_lt _ (by omega)) hb
    have hleft := xor_byte (h + d).toNat hb
    have hright := xor_byte h.toNat hb
    rw [hlow] at hleft
    rw [BitVec.toNat_xor, hleft, BitVec.toNat_add, BitVec.toNat_add, BitVec.toNat_xor, hright]
    omega
  rw [step, step, hxor, BitVec.add_mul]

theorem mul_prime_mod {d : BitVec 32} (hd : d.toNat % 2 ^ 8 = 0) :
    (d * prime).toNat % 2 ^ 8 = 0 := by
  rw [BitVec.toNat_mul, Nat.mod_mod_of_dvd _ (by decide), Nat.mul_mod, hd, Nat.zero_mul,
    Nat.zero_mod]

/-- Bytes keep a difference above the low byte, times the prime for each. -/
theorem hashFrom_add {d : BitVec 32} (hd : d.toNat % 2 ^ 8 = 0) (h : BitVec 32)
    (bytes : List (BitVec 8)) :
    hashFrom (h + d) bytes = hashFrom h bytes + bytes.foldl (fun d _ => d * prime) d := by
  induction bytes generalizing h d with
  | nil => rfl
  | cons b bytes ih =>
    rw [hashFrom, List.foldl_cons, step_add hd]
    exact ih (mul_prime_mod hd) (step h b)

/-- A mask of `k` ones keeps the remainder by `2 ^ k`. -/
theorem toNat_and_mask {mask : BitVec 32} {k : ℕ} (hmask : mask.toNat = 2 ^ k - 1)
    (h : BitVec 32) : (mask &&& h).toNat = h.toNat % 2 ^ k := by
  rw [BitVec.toNat_and, hmask, Nat.and_comm, Nat.and_two_pow_sub_one_eq_mod]

end Fnv
