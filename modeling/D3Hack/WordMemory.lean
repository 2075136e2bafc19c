import Mathlib.Algebra.Group.Nat.Defs
import Mathlib.Data.Nat.Notation

/-!
# A memory of bytes at 64-bit addresses

A memory gives each address its byte, and addresses wrap around. `InWindow a n x` says that
`x` is one of the `n` addresses from `a` on. `store` puts the low bytes of a number at an
address, the lowest first, `load` reads them, and `fill` sets a window to one byte.

What is loaded depends on its window alone (`load_congr`), so that a load from a window apart
from a store is unchanged (`load_store_of_separate`), and a load of what was stored gives it back
(`load_store`).
-/

namespace WordMemory

/-- An address. -/
abbrev Addr := BitVec 64

/-- The bytes at all addresses. -/
abbrev Memory := Addr → UInt8

/-- `x` is one of the `n` addresses from `a` on. -/
def InWindow (a : Addr) (n : ℕ) (x : Addr) : Prop := (x - a).toNat < n

instance (a : Addr) (n : ℕ) (x : Addr) : Decidable (InWindow a n x) :=
  inferInstanceAs (Decidable (_ < _))

/-- No address is in both windows. -/
def Separate (a : Addr) (n : ℕ) (b : Addr) (k : ℕ) : Prop := ∀ x, InWindow a n x → ¬InWindow b k x

/-- The number whose low bytes are the `n` bytes from `a` on, the lowest first. -/
def load (m : Memory) : Addr → ℕ → ℕ
  | _, 0 => 0
  | a, n + 1 => (m a).toNat + 256 * load m (a + 1) n

/-- The memory with the `n` low bytes of `v` from `a` on. -/
def store (m : Memory) (a : Addr) (n v : ℕ) : Memory := fun x =>
  if InWindow a n x then UInt8.ofNat (v / 256 ^ (x - a).toNat) else m x

/-- The memory with `n` bytes `b` from `a` on. -/
def fill (m : Memory) (a : Addr) (n : ℕ) (b : UInt8) : Memory := fun x =>
  if InWindow a n x then b else m x

variable {m m' : Memory} {a b x : Addr} {n k v : ℕ}

theorem store_of_not_inWindow (h : ¬InWindow a n x) : store m a n v x = m x := if_neg h

theorem fill_of_not_inWindow {c : UInt8} (h : ¬InWindow a n x) : fill m a n c x = m x := if_neg h

theorem fill_of_inWindow {c : UInt8} (h : InWindow a n x) : fill m a n c x = c := if_pos h

theorem Separate.symm (h : Separate a n b k) : Separate b k a n := fun x hx hx' => h x hx' hx

theorem InWindow.mono (h : InWindow a n x) (hn : n ≤ k) : InWindow a k x := Nat.lt_of_lt_of_le h hn

/-- A window within another. -/
theorem InWindow.add (h : InWindow (a + BitVec.ofNat 64 k) n x) (hn : n + k ≤ 2 ^ 64) :
    InWindow a (n + k) x := by
  unfold InWindow at h ⊢
  bv_omega

theorem inWindow_self (hn : 0 < n) : InWindow a n a := by
  unfold InWindow
  rw [BitVec.sub_self]
  exact hn

theorem inWindow_succ (h : InWindow (a + 1) n x) (hn : n < 2 ^ 64) : InWindow a (n + 1) x := by
  unfold InWindow at h ⊢
  bv_omega

/-- Where a window does not wrap around, it is an interval. -/
theorem inWindow_iff (hn : a.toNat + n ≤ 2 ^ 64) :
    InWindow a n x ↔ a.toNat ≤ x.toNat ∧ x.toNat < a.toNat + n := by
  unfold InWindow
  bv_omega

/-- What is loaded depends on its window alone. -/
theorem load_congr (hn : n ≤ 2 ^ 64) (h : ∀ x, InWindow a n x → m x = m' x) :
    load m a n = load m' a n := by
  induction n generalizing a with
  | zero => rfl
  | succ n ih =>
    have htail := ih (a := a + 1) (by omega) fun x hx => h x (inWindow_succ hx (by omega))
    rw [load, load, htail, h a (inWindow_self (Nat.succ_pos n))]

theorem load_store_of_separate (hk : k ≤ 2 ^ 64) (h : Separate a n b k) :
    load (store m a n v) b k = load m b k :=
  load_congr hk fun x hx => store_of_not_inWindow (h.symm x hx)

/-- A memory that holds the bytes of a number holds the number. -/
theorem load_of_bytes (hn : n ≤ 2 ^ 64)
    (h : ∀ i < n, m (a + BitVec.ofNat 64 i) = UInt8.ofNat (v / 256 ^ i)) :
    load m a n = v % 256 ^ n := by
  induction n generalizing a v with
  | zero => simp [load, Nat.mod_one]
  | succ n ih =>
    have hhead : (m a).toNat = v % 256 := by
      have h0 := h 0 (Nat.succ_pos n)
      rw [BitVec.add_zero, Nat.pow_zero, Nat.div_one] at h0
      rw [h0, UInt8.toNat_ofNat']
    have htail : load m (a + 1) n = v / 256 % 256 ^ n := by
      refine ih (by omega) fun i hi => ?_
      have hi' := h (i + 1) (by omega)
      rw [Nat.pow_succ', ← Nat.div_div_eq_div_mul] at hi'
      rw [← hi', BitVec.add_assoc, Nat.add_comm i 1, BitVec.ofNat_add]
      rfl
    rw [load, hhead, htail, Nat.pow_succ', Nat.mod_mul]

/-- What was stored is loaded. -/
theorem load_store (hn : n ≤ 2 ^ 64) : load (store m a n v) a n = v % 256 ^ n := by
  refine load_of_bytes hn fun i hi => ?_
  have hdiff : (a + BitVec.ofNat 64 i - a).toNat = i := by bv_omega
  rw [store, if_pos (by rwa [InWindow, hdiff]), hdiff]

/-- What was stored is loaded as long as its window is kept. -/
theorem load_of_store_kept (hn : n ≤ 2 ^ 64)
    (h : ∀ x, InWindow a n x → m' x = store m a n v x) : load m' a n = v % 256 ^ n :=
  (load_congr hn h).trans (load_store hn)

/-- Two windows with the same bytes. -/
theorem load_eq_of_bytes
    (h : ∀ i < n, m (a + BitVec.ofNat 64 i) = m' (b + BitVec.ofNat 64 i)) :
    load m a n = load m' b n := by
  induction n generalizing a b with
  | zero => rfl
  | succ n ih =>
    have hhead := h 0 (Nat.succ_pos n)
    rw [BitVec.add_zero, BitVec.add_zero] at hhead
    have htail : load m (a + 1) n = load m' (b + 1) n := by
      refine ih fun i hi => ?_
      have hi' := h (i + 1) (by omega)
      rw [Nat.add_comm i 1, BitVec.ofNat_add, ← BitVec.add_assoc, ← BitVec.add_assoc] at hi'
      exact hi'
    rw [load, load, hhead, htail]

/-- Two windows one after the other. -/
theorem load_add : load m a (n + k) = load m a n + 256 ^ n * load m (a + BitVec.ofNat 64 n) k := by
  induction n generalizing a with
  | zero => simp [load]
  | succ n ih =>
    have hnext : a + 1 + BitVec.ofNat 64 n = a + BitVec.ofNat 64 (n + 1) := by
      rw [BitVec.add_assoc, Nat.add_comm n 1, BitVec.ofNat_add]
      rfl
    rw [Nat.add_right_comm, load, load, ih, hnext, Nat.pow_succ', Nat.mul_add, Nat.mul_assoc,
      Nat.add_assoc]

theorem load_lt : load m a n < 256 ^ n := by
  induction n generalizing a with
  | zero => exact Nat.one_pos
  | succ n ih =>
    have hbyte := (m a).toNat_lt
    have htail := ih (a := a + 1)
    rw [load, Nat.pow_succ']
    omega

/-- The bytes of what is loaded. -/
theorem byte_of_load_eq (h : load m a n = load m' b n) {i : ℕ} (hi : i < n) :
    m (a + BitVec.ofNat 64 i) = m' (b + BitVec.ofNat 64 i) := by
  induction n generalizing a b i with
  | zero => exact absurd hi (Nat.not_lt_zero i)
  | succ n ih =>
    have hbyte := (m a).toNat_lt
    have hbyte' := (m' b).toNat_lt
    rw [load, load] at h
    cases i with
    | zero =>
      rw [BitVec.add_zero, BitVec.add_zero]
      exact UInt8.toNat_inj.1 (by omega)
    | succ i =>
      have htail := ih (a := a + 1) (b := b + 1) (by omega) (Nat.lt_of_succ_lt_succ hi)
      rw [Nat.add_comm i 1, BitVec.ofNat_add, ← BitVec.add_assoc, ← BitVec.add_assoc]
      exact htail

end WordMemory
