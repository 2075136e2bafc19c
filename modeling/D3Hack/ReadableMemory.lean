import D3Hack.WordMemory
import Mathlib.Data.List.Basic

/-!
# Readable memory

`MemLayout` holds the modules loaded and the four ranges of the process. An address counts as
readable if it lies in one of them (`isProbablyReadablePtr`), and `clampReadableLen` cuts a
length down so that a dump stays in the range of its pointer.

`clampSafe_iff` says when the clamped window is readable: always where the pointer is in no
module, and in a module only if the whole window is readable, since the length is then not
clamped.
-/

namespace D3Hack

open WordMemory

/-- `exl::util::Range`. -/
structure Range where
  start : Addr
  size : BitVec 64

/-- `GetEnd`. -/
def Range.getEnd (range : Range) : Addr := range.start + range.size

/-- `Range::InRange`. -/
def Range.inRange (range : Range) (value : Addr) : Bool :=
  range.start ≤ value && value < range.getEnd

/-- The modules, each with its total range if it is loaded, and the ranges of the process. -/
structure MemLayout where
  modules : List (Option Range)
  sHeap : Range
  sAlias : Range
  sAslr : Range
  sStack : Range

namespace MemLayout

variable (layout : MemLayout)

/-- `TryGetModule`. -/
def tryGetModule (pointer : Addr) : Option Range :=
  layout.modules.findSome? fun module => module.filter fun total => total.inRange pointer

/-- `IsProbablyReadablePtr`. -/
def isProbablyReadablePtr (addr : Addr) : Bool :=
  if addr = 0 then false
  else if (layout.tryGetModule addr).isSome then true
  else layout.sHeap.inRange addr || layout.sAlias.inRange addr || layout.sAslr.inRange addr ||
    layout.sStack.inRange addr

/-- The ranges in the order `ClampReadableLen` looks through them. -/
def kRanges : List Range := [layout.sHeap, layout.sAlias, layout.sAslr, layout.sStack]

/-- `ClampReadableLen`. -/
def clampReadableLen (addr : Addr) (len : BitVec 64) : BitVec 64 :=
  if !layout.isProbablyReadablePtr addr || len = 0 then 0
  else if (layout.tryGetModule addr).isSome then len
  else
    match layout.kRanges.find? fun range => range.inRange addr with
    | some range =>
      if range.getEnd ≤ addr then 0
      else
        let remaining := range.getEnd - addr
        if remaining < len then remaining else len
    | none => len

/-- A readable address is not null, and lies in a module or in one of the ranges. -/
theorem isProbablyReadablePtr_iff (addr : Addr) :
    layout.isProbablyReadablePtr addr = true ↔
      addr ≠ 0 ∧ ((layout.tryGetModule addr).isSome ∨
        ∃ range ∈ layout.kRanges, range.inRange addr = true) := by
  unfold isProbablyReadablePtr kRanges
  by_cases hzero : addr = 0
  · simp [hzero]
  · by_cases hmodule : (layout.tryGetModule addr).isSome <;> simp [hmodule, or_assoc]

/-- The clamped length is at most the length, and its window is readable. -/
def ClampSafe (addr : Addr) (len : BitVec 64) : Prop :=
  layout.clampReadableLen addr len ≤ len ∧
    ∀ x, InWindow addr (layout.clampReadableLen addr len).toNat x →
      layout.isProbablyReadablePtr x = true

variable {layout} {addr : Addr} {len : BitVec 64}

/-- What is left of a range after an address in it is in the range. -/
theorem inRange_of_inWindow {range : Range} (hrange : range.inRange addr = true)
    (hne : addr ≠ 0) {x : Addr} (hx : InWindow addr (range.getEnd - addr).toNat x) :
    range.inRange x = true ∧ x ≠ 0 := by
  rw [Range.inRange, Bool.and_eq_true, decide_eq_true_eq, decide_eq_true_eq] at hrange ⊢
  unfold InWindow at hx
  refine ⟨⟨?_, ?_⟩, ?_⟩ <;> bv_omega

theorem clampSafe_of_not_module (hmodule : layout.tryGetModule addr = none) (len : BitVec 64) :
    layout.ClampSafe addr len := by
  unfold ClampSafe clampReadableLen
  by_cases hnone : (!layout.isProbablyReadablePtr addr || decide (len = 0)) = true
  · rw [if_pos hnone]
    exact ⟨BitVec.le_def.2 (Nat.zero_le _), fun x hx => absurd hx (Nat.not_lt_zero _)⟩
  rw [if_neg hnone, hmodule, if_neg (by simp)]
  have hreadable : layout.isProbablyReadablePtr addr = true := by
    by_contra hnot
    simp [hnot] at hnone
  obtain ⟨hne, hmodule' | hrange⟩ := (layout.isProbablyReadablePtr_iff addr).1 hreadable
  · rw [hmodule] at hmodule'
    cases hmodule'
  cases hfind : layout.kRanges.find? fun range => range.inRange addr with
  | none =>
    obtain ⟨range, hmem, hin⟩ := hrange
    exact absurd hin (by simpa using List.find?_eq_none.1 hfind range hmem)
  | some range =>
    have hmem := List.mem_of_find?_eq_some hfind
    have hin : range.inRange addr = true := by simpa using List.find?_some hfind
    have hend : ¬range.getEnd ≤ addr := by
      rw [Range.inRange, Bool.and_eq_true, decide_eq_true_eq, decide_eq_true_eq] at hin
      exact BitVec.not_le.2 hin.2
    -- The window stays in the range that holds the address.
    have hwindow : ∀ n ≤ (range.getEnd - addr).toNat, ∀ x, InWindow addr n x →
        layout.isProbablyReadablePtr x = true := by
      intro n hn x hx
      obtain ⟨hin', hne'⟩ := inRange_of_inWindow hin hne (hx.mono hn)
      exact (layout.isProbablyReadablePtr_iff x).2 ⟨hne', Or.inr ⟨range, hmem, hin'⟩⟩
    dsimp only
    rw [if_neg hend]
    split_ifs with hlen
    · exact ⟨BitVec.le_of_lt hlen, hwindow _ (Nat.le_refl _)⟩
    · exact ⟨BitVec.le_refl len, hwindow _ (BitVec.not_lt.1 hlen)⟩

theorem clampReadableLen_of_module (hne : addr ≠ 0) (hmodule : layout.tryGetModule addr ≠ none) :
    layout.clampReadableLen addr len = len := by
  have hsome := Option.ne_none_iff_isSome.1 hmodule
  have hreadable := (layout.isProbablyReadablePtr_iff addr).2 ⟨hne, Or.inl hsome⟩
  unfold clampReadableLen
  rw [hreadable, if_pos hsome]
  split_ifs with hlen
  · have hzero : len = 0 := by simpa using hlen
    exact hzero.symm
  · rfl

/-- **The clamped window of an address is readable if and only if the address is null or in no
module, or the window is readable as it is.** -/
theorem clampSafe_iff (layout : MemLayout) (addr : Addr) (len : BitVec 64) :
    layout.ClampSafe addr len ↔ addr = 0 ∨ layout.tryGetModule addr = none ∨
      ∀ x, InWindow addr len.toNat x → layout.isProbablyReadablePtr x = true := by
  by_cases hmodule : layout.tryGetModule addr = none
  · exact iff_of_true (clampSafe_of_not_module hmodule len) (Or.inr (Or.inl hmodule))
  by_cases hne : addr = 0
  · refine iff_of_true ?_ (Or.inl hne)
    have hnull : layout.clampReadableLen addr len = 0 := by
      simp [clampReadableLen, isProbablyReadablePtr, hne]
    rw [ClampSafe, hnull]
    exact ⟨BitVec.le_def.2 (Nat.zero_le _), fun x hx => absurd hx (Nat.not_lt_zero _)⟩
  · rw [or_iff_right hne, or_iff_right hmodule, ClampSafe, clampReadableLen_of_module hne hmodule]
    exact and_iff_right (BitVec.le_refl len)

/-- One module of 16 bytes. -/
def oneModule : MemLayout where
  modules := [some ⟨0x1000, 0x10⟩]
  sHeap := ⟨0, 0⟩
  sAlias := ⟨0, 0⟩
  sAslr := ⟨0, 0⟩
  sStack := ⟨0, 0⟩

theorem not_clampSafe_oneModule : ¬oneModule.ClampSafe 0x1008 512 := by
  rintro ⟨-, hwindow⟩
  exact absurd (hwindow 0x1010 (by decide)) (by decide)

end MemLayout

end D3Hack
