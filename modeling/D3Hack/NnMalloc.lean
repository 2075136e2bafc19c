import D3Hack.WordMemory
import Mathlib.Algebra.Ring.Nat
import Mathlib.Algebra.Order.Group.Nat

/-!
# The allocator shim

`malloc`, `aligned_alloc`, `calloc` and `free` over the system allocator: `AllocateAligned` asks
for a block with room to round its address up, and keeps the block's own address in a header
before the one it returns, which `FreeAligned` reads.

`StandardAllocator` is an allocator whose blocks do not wrap around the address space.
`PlacedIn` says what holds of an address returned, and `allocateAligned_spec` that each call
returns null or such an address. `shim_spec` is the same of the four functions of the shim.
-/

namespace D3Hack

open WordMemory

/-! ## Rounding up -/

/-- `IsPowerOfTwo`. -/
def isPowerOfTwo (value : BitVec 64) : Bool := value != 0 && value &&& (value - 1) == 0

/-- `AlignUp`. -/
def alignUp (value alignment : BitVec 64) : BitVec 64 :=
  (value + alignment - 1) &&& ~~~(alignment - 1)

theorem isPowerOfTwo_iff (value : BitVec 64) :
    isPowerOfTwo value = true ↔ ∃ k, value.toNat = 2 ^ k := by
  have hzero : value = 0#64 ↔ value.toNat = 0 := by
    rw [← BitVec.toNat_inj]
    rfl
  have hpow := @Nat.ne_zero_and_sub_one_eq_zero_iff_isPowerOfTwo value.toNat
  unfold isPowerOfTwo
  rw [Bool.and_eq_true, bne_iff_ne, beq_iff_eq]
  refine Iff.trans (and_congr (not_congr hzero) ?_) hpow
  by_cases hne : value = 0#64
  · simp [hne]
  · have hsub : (value - 1).toNat = value.toNat - 1 := by
      have hpos := (not_congr hzero).1 hne
      bv_omega
    rw [← BitVec.toNat_inj, BitVec.toNat_and, hsub]
    rfl

/-- Clearing the low bits rounds down to a multiple of a power of two. -/
theorem toNat_and_not_mask {x mask : BitVec 64} {k : ℕ} (hmask : mask.toNat = 2 ^ k - 1) :
    (x &&& ~~~mask).toNat = x.toNat - x.toNat % 2 ^ k := by
  have hdisjoint : (x &&& mask) &&& (x &&& ~~~mask) = 0#64 := by
    ext i hi
    simp only [BitVec.getElem_and, BitVec.getElem_not, BitVec.getElem_zero]
    cases x[i] <;> cases mask[i] <;> rfl
  have hjoin : (x &&& mask) ||| (x &&& ~~~mask) = x := by
    ext i hi
    simp only [BitVec.getElem_and, BitVec.getElem_or, BitVec.getElem_not]
    cases x[i] <;> cases mask[i] <;> rfl
  have hsum := BitVec.toNat_add_of_and_eq_zero hdisjoint
  rw [BitVec.add_eq_or_of_and_eq_zero _ _ hdisjoint, hjoin, BitVec.toNat_and, hmask,
    Nat.and_two_pow_sub_one_eq_mod] at hsum
  omega

/-- Where the sum does not overflow, rounding up gives the next multiple of the alignment. -/
theorem alignUp_spec {alignment : BitVec 64} {k : ℕ} (hk : alignment.toNat = 2 ^ k)
    (value : BitVec 64) (hsum : value.toNat + alignment.toNat ≤ 2 ^ 64) :
    alignment.toNat ∣ (alignUp value alignment).toNat ∧
      value.toNat ≤ (alignUp value alignment).toNat ∧
        (alignUp value alignment).toNat < value.toNat + alignment.toNat := by
  have hpos := Nat.two_pow_pos k
  have hmask : (alignment - 1).toNat = 2 ^ k - 1 := by bv_omega
  have hadd : (value + alignment - 1).toNat = value.toNat + alignment.toNat - 1 := by bv_omega
  have hround : (alignUp value alignment).toNat =
      value.toNat + alignment.toNat - 1 - (value.toNat + alignment.toNat - 1) % 2 ^ k := by
    rw [alignUp, toNat_and_not_mask hmask, hadd]
  have hmod := Nat.mod_lt (value.toNat + alignment.toNat - 1) hpos
  refine ⟨?_, by omega, by omega⟩
  rw [hround, hk]
  exact Nat.dvd_sub_mod _

/-! ## Allocating -/

/-- An allocator by the block it returns for a size, null if none; a block does not wrap around
the address space. -/
structure StandardAllocator where
  allocate : BitVec 64 → Addr
  fits : ∀ total, allocate total ≠ 0 → (allocate total).toNat + total.toNat ≤ 2 ^ 64

/-- `kSystemMinAlign`. -/
def kSystemMinAlign : BitVec 64 := 0x20

/-- `sizeof(AllocHeader)`, and `alignof(void *)`. -/
def headerSize : BitVec 64 := 8

/-- `std::numeric_limits<size_t>::max()`. -/
def maxSize : BitVec 64 := BitVec.allOnes 64

/-- `AllocateAligned`, for the address and the memory it leaves. -/
def allocateAligned (allocator : Option StandardAllocator) (size alignment : BitVec 64)
    (clear : Bool) (m : Memory) : Addr × Memory :=
  match allocator with
  | none => (0, m)
  | some allocator =>
    if !isPowerOfTwo alignment || alignment < headerSize then (0, m)
    else if size > maxSize - alignment - headerSize then (0, m)
    else
      let total := size + alignment + headerSize
      let raw := allocator.allocate total
      if raw = 0 then (0, m)
      else
        let start := raw + headerSize
        let aligned := alignUp start alignment
        let m := store m (aligned - headerSize) 8 raw.toNat
        (aligned, if clear && size > 0 then fill m aligned size.toNat 0 else m)

/-- `FreeAligned`, for the address it passes to `Free`, if it does. -/
def freeAligned (allocator : Option StandardAllocator) (ptr : Addr) (m : Memory) : Option Addr :=
  match allocator with
  | none => none
  | some _ => if ptr = 0 then none else some (BitVec.ofNat 64 (load m (ptr - headerSize) 8))

section Shim

variable (allocator : Option StandardAllocator)

/-- `malloc`. -/
def malloc (size : BitVec 64) (m : Memory) : Addr × Memory :=
  allocateAligned allocator size kSystemMinAlign false m

/-- `aligned_alloc`. -/
def alignedAlloc (alignment size : BitVec 64) (m : Memory) : Addr × Memory :=
  if alignment = 0 then (0, m) else allocateAligned allocator size alignment false m

/-- `calloc`. -/
def calloc (count size : BitVec 64) (m : Memory) : Addr × Memory :=
  if count = 0 || size = 0 then (0, m)
  else if count > maxSize / size then (0, m)
  else allocateAligned allocator (count * size) kSystemMinAlign true m

/-- `free`. -/
def shimFree (ptr : Addr) (m : Memory) : Option Addr := freeAligned allocator ptr m

end Shim

/-! ## What is returned -/

/-- The address `out` and the memory `m'` are those of a successful allocation of `size` bytes in
the block at `raw`: no sum overflowed, the header and the bytes lie in the block without overlap,
freeing passes the block's own address as long as the header is kept, and the memory changed in
the header and, if `zeroed`, in the bytes returned, which are zero. -/
structure PlacedIn (raw : Addr) (size alignment : BitVec 64) (zeroed : Bool) (m : Memory)
    (out : Addr) (m' : Memory) : Prop where
  alignment_pow : ∃ k, 3 ≤ k ∧ alignment.toNat = 2 ^ k
  total : size.toNat + alignment.toNat + 8 < 2 ^ 64
  start : raw.toNat + 8 + alignment.toNat - 1 < 2 ^ 64
  aligned : alignment.toNat ∣ out.toNat
  header : raw.toNat + 8 ≤ out.toNat
  inside : out.toNat + size.toNat ≤ raw.toNat + (size.toNat + alignment.toNat + 8)
  apart : Separate (out - headerSize) 8 out size.toNat
  freed : ∀ allocator m'', (∀ x, InWindow (out - headerSize) 8 x → m'' x = m' x) →
    shimFree (some allocator) out m'' = some raw
  zero : zeroed = true → ∀ x, InWindow out size.toNat x → m' x = 0
  kept : ∀ x, ¬InWindow (out - headerSize) 8 x → (zeroed = true → ¬InWindow out size.toNat x) →
    m' x = m x

/-- Null with the memory unchanged, or a successful allocation in the block that the allocator
returns for the bytes, the alignment and the header. -/
def Served (allocator : Option StandardAllocator) (size alignment : BitVec 64) (zeroed : Bool)
    (m : Memory) (result : Addr × Memory) : Prop :=
  result = (0, m) ∨ ∃ a, allocator = some a ∧
    a.allocate (size + alignment + headerSize) ≠ 0 ∧
      PlacedIn (a.allocate (size + alignment + headerSize)) size alignment zeroed m
        result.1 result.2

/-- An alignment that is a power of two, at least 8, and leaves room for the size. -/
theorem room_of_guards {size alignment : BitVec 64}
    (halign : ¬(!isPowerOfTwo alignment || alignment < headerSize) = true)
    (hsize : ¬size > maxSize - alignment - headerSize) :
    (∃ k, 3 ≤ k ∧ alignment.toNat = 2 ^ k) ∧ size.toNat + alignment.toNat + 8 < 2 ^ 64 := by
  rw [Bool.or_eq_true, not_or, Bool.not_eq_true', Bool.not_eq_false, decide_eq_true_eq,
    isPowerOfTwo_iff] at halign
  obtain ⟨⟨k, hk⟩, h8⟩ := halign
  have hlow : 2 ^ 3 ≤ 2 ^ k := by
    unfold headerSize at h8
    bv_omega
  have hhigh : 2 ^ k < 2 ^ 64 := hk ▸ alignment.isLt
  have hk63 := (Nat.pow_lt_pow_iff_right (by omega)).1 hhigh
  have hle : 2 ^ k ≤ 2 ^ 63 := Nat.pow_le_pow_right (by omega) (by omega)
  refine ⟨⟨k, (Nat.pow_le_pow_iff_right (by omega)).1 hlow, hk⟩, ?_⟩
  have hmax : maxSize.toNat = 2 ^ 64 - 1 := rfl
  unfold headerSize at hsize
  bv_omega

/-- Clearing the bytes, if asked, keeps the others. -/
theorem cleared_of_not_inWindow {clear : Bool} {size : BitVec 64} {m : Memory} {a x : Addr}
    (hx : clear = true → ¬InWindow a size.toNat x) :
    (if clear && size > 0 then fill m a size.toNat 0 else m) x = m x := by
  split_ifs with hclear
  · exact fill_of_not_inWindow (hx (Bool.and_eq_true_iff.1 hclear).1)
  · rfl

/-- Freeing passes the address that the header holds. -/
theorem shimFree_of_header (allocator : StandardAllocator) {raw ptr : Addr} {m : Memory}
    (hptr : ptr ≠ 0) (h : load m (ptr - headerSize) 8 = raw.toNat) :
    shimFree (some allocator) ptr m = some raw := by
  rw [shimFree, freeAligned, if_neg hptr, h, BitVec.ofNat_toNat, BitVec.setWidth_eq]

/-- The address rounded up in a block, with its header filled in and, if asked, the bytes
cleared. -/
theorem placedIn_alignUp {raw : Addr} {size alignment : BitVec 64}
    (hpow : ∃ k, 3 ≤ k ∧ alignment.toNat = 2 ^ k)
    (htotal : size.toNat + alignment.toNat + 8 < 2 ^ 64)
    (hfits : raw.toNat + (size.toNat + alignment.toNat + 8) ≤ 2 ^ 64) (clear : Bool)
    {m m' : Memory} {aligned : Addr} (haligned : aligned = alignUp (raw + headerSize) alignment)
    (hm' : m' = store m (aligned - headerSize) 8 raw.toNat) :
    PlacedIn raw size alignment clear m aligned
      (if clear && size > 0 then fill m' aligned size.toNat 0 else m') := by
  obtain ⟨k, hk3, hk⟩ := hpow
  have hpos := Nat.two_pow_pos k
  have hstart : (raw + headerSize).toNat = raw.toNat + 8 := by
    change (raw + 8#64).toNat = _
    bv_omega
  have hround := alignUp_spec hk (raw + headerSize) (by omega)
  rw [hstart, ← haligned] at hround
  obtain ⟨hdvd, hle, hlt⟩ := hround
  have hbefore : (aligned - headerSize).toNat = aligned.toNat - 8 := by
    change (aligned - 8#64).toNat = _
    bv_omega
  have hapart : Separate (aligned - headerSize) 8 aligned size.toNat := by
    intro x hx hx'
    rw [inWindow_iff (by omega)] at hx hx'
    omega
  refine ⟨⟨k, hk3, hk⟩, htotal, by omega, hdvd, hle, by omega, hapart, ?_, ?_, ?_⟩
  · intro allocator' m'' hm
    refine shimFree_of_header allocator' (by bv_omega) ?_
    have hload : load m'' (aligned - headerSize) 8 = raw.toNat % 256 ^ 8 := by
      refine load_of_store_kept (m := m) (by omega) fun x hx => ?_
      rw [hm x hx, cleared_of_not_inWindow fun _ => hapart x hx, hm']
    exact hload.trans (Nat.mod_eq_of_lt raw.isLt)
  · rintro rfl x hx
    have hpos : size > 0 := by
      unfold InWindow at hx
      bv_omega
    rw [if_pos (by simpa using hpos), fill_of_inWindow hx]
  · intro x houtside hbytes
    rw [cleared_of_not_inWindow hbytes, hm']
    exact store_of_not_inWindow houtside

theorem allocateAligned_spec (allocator : Option StandardAllocator) (size alignment : BitVec 64)
    (clear : Bool) (m : Memory) :
    Served allocator size alignment clear m (allocateAligned allocator size alignment clear m) := by
  cases allocator with
  | none => exact Or.inl rfl
  | some a =>
    unfold allocateAligned
    dsimp only
    by_cases halign : (!isPowerOfTwo alignment || alignment < headerSize) = true
    · rw [if_pos halign]
      exact Or.inl rfl
    by_cases hsize : size > maxSize - alignment - headerSize
    · rw [if_neg halign, if_pos hsize]
      exact Or.inl rfl
    by_cases hraw : a.allocate (size + alignment + headerSize) = 0
    · rw [if_neg halign, if_neg hsize, if_pos hraw]
      exact Or.inl rfl
    obtain ⟨hpow, htotal⟩ := room_of_guards halign hsize
    have hsum : (size + alignment + headerSize).toNat = size.toNat + alignment.toNat + 8 := by
      change (size + alignment + 8#64).toNat = _
      bv_omega
    have hfits := a.fits _ hraw
    rw [hsum] at hfits
    rw [if_neg halign, if_neg hsize, if_neg hraw]
    exact Or.inr ⟨a, rfl, hraw, placedIn_alignUp hpow htotal hfits clear rfl rfl⟩

/-! ## The shim -/

/-- A product whose first factor is within the bound does not overflow. -/
theorem toNat_mul_of_le {count size : BitVec 64} (h : ¬count > maxSize / size) :
    (count * size).toNat = count.toNat * size.toNat := by
  have hdiv : count.toNat ≤ (2 ^ 64 - 1) / size.toNat := by
    have hle := BitVec.not_lt.1 h
    rw [BitVec.le_def, BitVec.toNat_udiv] at hle
    exact hle
  have hmul : count.toNat * size.toNat ≤ 2 ^ 64 - 1 :=
    (Nat.mul_le_mul_right _ hdiv).trans (Nat.div_mul_le_self _ _)
  rw [BitVec.toNat_mul, Nat.mod_eq_of_lt (by omega)]

/-- A product that overflows has its first factor over the bound. -/
theorem gt_div_of_overflow {count size : BitVec 64}
    (h : 2 ^ 64 ≤ count.toNat * size.toNat) : count > maxSize / size := by
  have hpos : 0 < size.toNat := by
    rcases Nat.eq_zero_or_pos size.toNat with hzero | hpos
    · rw [hzero, Nat.mul_zero] at h
      omega
    · exact hpos
  rw [gt_iff_lt, BitVec.lt_def, BitVec.toNat_udiv]
  refine (Nat.div_lt_iff_lt_mul hpos).2 ?_
  exact Nat.lt_of_lt_of_le (by decide) h

/-- One block for one size. -/
def oneBlock : StandardAllocator where
  allocate total := if total = 41 then 0x1004 else 0
  fits total h := by
    split_ifs at h ⊢ with htotal
    · rw [htotal]
      decide
    · exact absurd rfl h

example : (malloc (some oneBlock) 1 fun _ => 0).1 = 0x1020 := by decide

end D3Hack
