import D3Hack.Runs
import D3Hack.SystemAllocator
import Mathlib.Data.List.Nodup
import Mathlib.Data.List.Count

/-!
# The buffer and the blocks it owns

`BlockBuffer` is `Buffer` down to its block: `Reserve` obtains a new block, copies the
contents and returns the old one, and the destructor returns the last. What the allocator
answers is an input of each operation (`Answer`).

`Rep` is the representation invariant and `Owned` says that no block is lost.
`BufferLawful` states what is asked of a sequence of operations and the destruction after it,
and `bufferLawful_iff` when the buffer does it: if and only if it never grows while it holds a
block and no contents, since `Reserve` returns the old block only if there is something to
copy. `append_refines` connects this model with `Buffer`.
-/

namespace D3Hack

open Runs Calls

/-! ## Blocks -/

/-- The blocks obtained from an allocator, by their bytes, and the blocks returned to it. The
name of a block is its place among those obtained. -/
structure Blocks where
  obtained : List (List UInt8) := []
  returned : List ℕ := []

namespace Blocks

variable (blocks : Blocks)

/-- The bytes of a block. -/
def bytes (block : ℕ) : List UInt8 := blocks.obtained.getD block []

/-- `Allocate`, where it gives a block that holds `held`. -/
def allocate (held : List UInt8) : ℕ × Blocks :=
  (blocks.obtained.length, { blocks with obtained := blocks.obtained ++ [held] })

/-- `Free`. -/
def free (block : ℕ) : Blocks := { blocks with returned := blocks.returned ++ [block] }

/-- `memcpy` of `piece` to the place `start` of a block. -/
def copyTo (block start : ℕ) (piece : List UInt8) : Blocks :=
  let old := blocks.bytes block
  { blocks with
    obtained := blocks.obtained.set block
      (old.take start ++ piece ++ old.drop (start + piece.length)) }

@[simp] theorem length_copyTo (block start : ℕ) (piece : List UInt8) :
    (blocks.copyTo block start piece).obtained.length = blocks.obtained.length := by
  simp [copyTo]

@[simp] theorem returned_copyTo (block start : ℕ) (piece : List UInt8) :
    (blocks.copyTo block start piece).returned = blocks.returned := rfl

@[simp] theorem bytes_free (block block' : ℕ) :
    (blocks.free block').bytes block = blocks.bytes block := rfl

@[simp] theorem bytes_allocate (held : List UInt8) :
    (blocks.allocate held).2.bytes blocks.obtained.length = held := by
  simp [bytes, allocate]

theorem bytes_allocate_of_lt {block : ℕ} (h : block < blocks.obtained.length)
    (held : List UInt8) : (blocks.allocate held).2.bytes block = blocks.bytes block := by
  simp [bytes, allocate, List.getElem?_append_left h]

@[simp] theorem allocate_fst (held : List UInt8) :
    (blocks.allocate held).1 = blocks.obtained.length := rfl

theorem length_allocate (held : List UInt8) :
    (blocks.allocate held).2.obtained.length = blocks.obtained.length + 1 := by
  simp [allocate]

theorem bytes_copyTo {block start : ℕ} (h : block < blocks.obtained.length)
    (piece : List UInt8) : (blocks.copyTo block start piece).bytes block =
      (blocks.bytes block).take start ++ piece ++
        (blocks.bytes block).drop (start + piece.length) := by
  simp [bytes, copyTo, h]

/-- What is copied within a block keeps its length. -/
theorem length_bytes_copyTo {block : ℕ} (h : block < blocks.obtained.length) (start : ℕ)
    (piece : List UInt8)
    (hroom : start + piece.length ≤ (blocks.bytes block).length) :
    ((blocks.copyTo block start piece).bytes block).length = (blocks.bytes block).length := by
  rw [bytes_copyTo _ h]
  simp only [List.length_append, List.length_take, List.length_drop]
  omega

/-- The block holds, up to its end, what was there before `start`, then the piece. -/
theorem take_bytes_copyTo {block start : ℕ} (h : block < blocks.obtained.length)
    (piece : List UInt8) (hroom : start ≤ (blocks.bytes block).length) :
    ((blocks.copyTo block start piece).bytes block).take (start + piece.length) =
      (blocks.bytes block).take start ++ piece := by
  rw [bytes_copyTo _ h]
  exact List.take_left' (by rw [List.length_append, List.length_take, Nat.min_eq_left hroom])

/-- What is copied to a new block fills its beginning. -/
theorem bytes_copyTo_new {held piece : List UInt8} (hroom : piece.length ≤ held.length) :
    let new := ((blocks.allocate held).2.copyTo blocks.obtained.length 0 piece).bytes
      blocks.obtained.length
    new.length = held.length ∧ new.take piece.length = piece := by
  have hnew : blocks.obtained.length < (blocks.allocate held).2.obtained.length := by
    rw [length_allocate]
    exact Nat.lt_succ_self _
  refine ⟨?_, ?_⟩
  · rw [length_bytes_copyTo _ hnew 0 piece (by rwa [bytes_allocate, Nat.zero_add]), bytes_allocate]
  · have htake := take_bytes_copyTo _ hnew piece (Nat.zero_le _)
    rwa [Nat.zero_add, List.take_zero, List.nil_append] at htake

end Blocks

/-! ## The buffer -/

/-- `Buffer` with the blocks of its allocator; `data` names its block. -/
structure BlockBuffer where
  hasAllocator : Bool
  data : Option ℕ := none
  size : ℕ := 0
  capacity : ℕ := 0
  ok : Bool := true
  blocks : Blocks := {}

/-- What a call of `Allocate` returns: null, or a block that holds the given bytes. -/
abbrev Answer := Option (ℕ → UInt8)

namespace BlockBuffer

variable (buffer : BlockBuffer)

/-- `Buffer::view`. -/
def view : List UInt8 :=
  match buffer.data with
  | none => []
  | some block => (buffer.blocks.bytes block).take buffer.size

/-- The blocks once `Reserve` has obtained a block that holds `held`: the contents are copied to
it and the old block is returned, if there are contents. -/
def grow (held : List UInt8) : Blocks :=
  let (newData, blocks) := buffer.blocks.allocate held
  match buffer.data with
  | none => blocks
  | some old =>
    if 0 < buffer.size then
      (blocks.copyTo newData 0 ((blocks.bytes old).take buffer.size)).free old
    else blocks

/-- `Buffer::Reserve`. -/
def reserve (size : ℕ) (answer : Answer) : Bool × BlockBuffer :=
  if buffer.hasAllocator = false then (false, buffer)
  else if size ≤ buffer.capacity then (true, buffer)
  else
    let growBy := max (buffer.capacity / 2) 1024
    let target := max size ((buffer.capacity + growBy) % 2 ^ 64)
    match answer with
    | none => (false, buffer)
    | some held =>
      let blocks := buffer.grow ((List.range target).map held)
      (true, { buffer with data := some buffer.blocks.obtained.length, capacity := target, blocks })

/-- `Buffer::Clear`. -/
def clear : BlockBuffer := { buffer with size := 0 }

/-- `Buffer::Resize`. -/
def resize (size : ℕ) (answer : Answer) : Bool × BlockBuffer :=
  match buffer.reserve size answer with
  | (true, buffer) => (true, { buffer with size })
  | (false, buffer) => (false, { buffer with ok := false })

/-- The piece copied to the end of the contents. -/
def copyToEnd (piece : List UInt8) : BlockBuffer :=
  { buffer with
    blocks :=
      match buffer.data with
      | none => buffer.blocks
      | some block => buffer.blocks.copyTo block buffer.size piece
    size := buffer.size + piece.length }

/-- `Buffer::Append`. -/
def append (piece : List UInt8) (answer : Answer) : Bool × BlockBuffer :=
  if piece.length = 0 then (true, buffer)
  else if piece.length > Buffer.sizeMax - buffer.size then (false, { buffer with ok := false })
  else
    match buffer.reserve (buffer.size + piece.length) answer with
    | (true, buffer) => (true, buffer.copyToEnd piece)
    | (false, buffer) => (false, { buffer with ok := false })

/-- `Buffer::~Buffer`, for the blocks it leaves. -/
def destroy : Blocks :=
  match buffer.data with
  | none => buffer.blocks
  | some block => if buffer.hasAllocator then buffer.blocks.free block else buffer.blocks

end BlockBuffer

/-- An operation on a buffer. -/
inductive BufferOp where
  | resize (size : ℕ)
  | append (piece : List UInt8)
  | clear

/-- The result of an operation, and the buffer after it. -/
def BufferOp.perform (answer : Answer) (buffer : BlockBuffer) : BufferOp → Bool × BlockBuffer
  | .resize size => buffer.resize size answer
  | .append piece => buffer.append piece answer
  | .clear => (true, buffer.clear)

/-- The buffer after an operation with the answer of the allocator, if it is asked. -/
def bufferStep (buffer : BlockBuffer) (op : BufferOp × Answer) : BlockBuffer :=
  (op.1.perform op.2 buffer).2

/-! ## What is asked of it -/

/-- A failed operation keeps the contents, and the buffer remembers the failure. -/
def Failed (before after : BlockBuffer) : Prop := after.view = before.view ∧ after.ok = false

/-- What an operation does to the contents. -/
def BufferOp.Does (op : BufferOp) (before : BlockBuffer) (result : Bool × BlockBuffer) : Prop :=
  match op with
  | .resize size =>
    if result.1 then
      result.2.view.length = size ∧
        result.2.view.take (min before.size size) = before.view.take (min before.size size)
    else Failed before result.2
  | .append piece =>
    if result.1 then result.2.view = before.view ++ piece else Failed before result.2
  | .clear => result.2.view = []

/-- A sequence of operations on a new buffer keeps its size within its capacity, does what each
operation says, and leaves, once the buffer is destroyed, each block returned once. -/
def BufferLawful (hasAllocator : Bool) (ops : List (BufferOp × Answer)) : Prop :=
  (∀ before after, ops = before ++ after →
    (run bufferStep { hasAllocator } before).size ≤
      (run bufferStep { hasAllocator } before).capacity) ∧
    (∀ before op answer after, ops = before ++ (op, answer) :: after →
      op.Does (run bufferStep { hasAllocator } before)
        (op.perform answer (run bufferStep { hasAllocator } before))) ∧
      ∀ block < (run bufferStep { hasAllocator } ops).destroy.obtained.length,
        (run bufferStep { hasAllocator } ops).destroy.returned.count block = 1

/-- The bytes that an operation asks `Reserve` for. -/
def BufferOp.requests (buffer : BlockBuffer) : BufferOp → ℕ
  | .resize size => size
  | .append piece =>
    if piece.length > Buffer.sizeMax - buffer.size then 0 else buffer.size + piece.length
  | .clear => 0

/-- The operation does not grow a buffer that holds a block and no contents. -/
def KeepsBlock (buffer : BlockBuffer) (op : BufferOp × Answer) : Prop :=
  buffer.data.isSome → buffer.size = 0 → op.1.requests buffer ≤ buffer.capacity ∨ op.2 = none

/-! ## The representation -/

/-- The contents fit in the block, the buffer holds a block that it has not returned, and no
block is returned twice. -/
structure Rep (buffer : BlockBuffer) : Prop where
  size_le : buffer.size ≤ buffer.capacity
  capacity : buffer.data = none → buffer.capacity = 0
  block : ∀ block, buffer.data = some block →
    block < buffer.blocks.obtained.length ∧ block ∉ buffer.blocks.returned ∧
      (buffer.blocks.bytes block).length = buffer.capacity
  returned : buffer.blocks.returned.Nodup
  obtained : ∀ block ∈ buffer.blocks.returned, block < buffer.blocks.obtained.length
  allocator : buffer.hasAllocator = false → buffer.data = none

/-- Each block is returned, or is the one the buffer holds. -/
def Owned (buffer : BlockBuffer) : Prop :=
  ∀ block < buffer.blocks.obtained.length,
    block ∈ buffer.blocks.returned ∨ buffer.data = some block

theorem rep_new (hasAllocator : Bool) : Rep { hasAllocator } where
  size_le := Nat.le_refl 0
  capacity _ := rfl
  block _ h := by cases h
  returned := List.nodup_nil
  obtained _ h := by cases h
  allocator _ := rfl

namespace Rep

variable {buffer : BlockBuffer}

theorem view_length (hrep : Rep buffer) : buffer.view.length = buffer.size := by
  have hsize := hrep.size_le
  unfold BlockBuffer.view
  cases hdata : buffer.data with
  | none =>
    have hcapacity := hrep.capacity hdata
    simp only [List.length_nil]
    omega
  | some block =>
    obtain ⟨-, -, hlength⟩ := hrep.block block hdata
    simp only [List.length_take]
    omega

theorem clear (hrep : Rep buffer) : Rep buffer.clear :=
  { hrep with size_le := Nat.zero_le _ }

end Rep

/-! ## Growing -/

/-- What `Reserve` does when it returns true: it keeps the contents, gives the room, and loses
the old block exactly if it replaces it with nothing to copy. -/
structure Reserved (before after : BlockBuffer) (size : ℕ) (answer : Answer) : Prop where
  rep : Rep after
  view : after.view = before.view
  size_eq : after.size = before.size
  room : size ≤ after.capacity
  owned : Owned after ↔ Owned before ∧
    (before.data.isSome → before.size = 0 → size ≤ before.capacity ∨ answer = none)

section Grow

variable {buffer : BlockBuffer} {held : List UInt8}

theorem length_grow : (buffer.grow held).obtained.length = buffer.blocks.obtained.length + 1 := by
  unfold BlockBuffer.grow
  cases buffer.data with
  | none => simp [Blocks.allocate]
  | some old =>
    dsimp only
    split_ifs <;> simp [Blocks.allocate, Blocks.free]

theorem returned_grow : (buffer.grow held).returned =
    buffer.blocks.returned ++ if 0 < buffer.size then buffer.data.toList else [] := by
  unfold BlockBuffer.grow
  cases buffer.data with
  | none => simp [Blocks.allocate]
  | some old =>
    dsimp only
    split_ifs <;> simp [Blocks.allocate, Blocks.free]

/-- The new block keeps its length and begins with the contents. -/
theorem bytes_grow (hrep : Rep buffer) (held : List UInt8) (hheld : buffer.size ≤ held.length) :
    ((buffer.grow held).bytes buffer.blocks.obtained.length).length = held.length ∧
      ((buffer.grow held).bytes buffer.blocks.obtained.length).take buffer.size = buffer.view := by
  have hview := hrep.view_length
  unfold BlockBuffer.grow
  unfold BlockBuffer.view at hview ⊢
  cases hdata : buffer.data with
  | none =>
    have hsize := hrep.size_le
    rw [hrep.capacity hdata] at hsize
    simp [Nat.le_zero.1 hsize]
  | some old =>
    obtain ⟨hold, -, hlength⟩ := hrep.block old hdata
    rw [hdata] at hview
    change ((buffer.blocks.bytes old).take buffer.size).length = buffer.size at hview
    simp only [Blocks.bytes_allocate_of_lt _ hold]
    rw [Blocks.allocate_fst]
    split_ifs with hsize
    · obtain ⟨hnew, htake⟩ := buffer.blocks.bytes_copyTo_new (hview ▸ hheld)
      rw [hview] at htake
      exact ⟨hnew, htake⟩
    · simp [Nat.eq_zero_of_not_pos hsize]

/-- What the buffer holds while there are contents is a block not yet returned. -/
theorem mem_returned_grow (hrep : Rep buffer) (held : List UInt8) :
    (buffer.grow held).returned.Nodup ∧
      ∀ block ∈ (buffer.grow held).returned, block < buffer.blocks.obtained.length := by
  rw [returned_grow]
  split_ifs with hsize
  swap
  · rw [List.append_nil]
    exact ⟨hrep.returned, hrep.obtained⟩
  cases hdata : buffer.data with
  | none =>
    rw [Option.toList_none, List.append_nil]
    exact ⟨hrep.returned, hrep.obtained⟩
  | some old =>
    obtain ⟨hold, hfresh, -⟩ := hrep.block old hdata
    refine ⟨List.nodup_append.2 ⟨hrep.returned, List.nodup_singleton old, ?_⟩, ?_⟩
    · rintro block hblock _ (_ | ⟨_, ⟨⟩⟩) rfl
      exact hfresh hblock
    · intro block hblock
      rcases List.mem_append.1 hblock with hblock | hblock
      · exact hrep.obtained block hblock
      · rwa [List.mem_singleton.1 hblock]

/-- Growing keeps every block owned unless it drops the old one with nothing to copy. -/
theorem forall_returned_grow (hrep : Rep buffer) (held : List UInt8) :
    (∀ block < buffer.blocks.obtained.length, block ∈ (buffer.grow held).returned) ↔
      Owned buffer ∧ (buffer.data.isSome → buffer.size ≠ 0) := by
  rw [returned_grow]
  refine ⟨fun h => ⟨fun block hblock => ?_, fun hdata hsize => ?_⟩, ?_⟩
  · rcases List.mem_append.1 (h block hblock) with hmem | hmem
    · exact Or.inl hmem
    · split_ifs at hmem
      · exact Or.inr (Option.mem_toList.1 hmem)
      · cases hmem
  · obtain ⟨old, hold⟩ := Option.isSome_iff_exists.1 hdata
    obtain ⟨hlt, hfresh, -⟩ := hrep.block old hold
    have hmem := h old hlt
    rw [if_neg (by omega), List.append_nil] at hmem
    exact hfresh hmem
  · rintro ⟨howned, hkeep⟩ block hblock
    rcases howned block hblock with hmem | hdata
    · exact List.mem_append_left _ hmem
    · have hsize := hkeep (by rw [hdata]; rfl)
      rw [if_pos (by omega), hdata]
      exact List.mem_append_right _ (List.mem_singleton.2 rfl)

/-- The buffer with its new block represents the same contents. -/
theorem rep_grown (hrep : Rep buffer) (hallocator : buffer.hasAllocator ≠ false) {capacity : ℕ}
    (hheld : held.length = capacity) (hsize : buffer.size ≤ capacity) :
    Rep { buffer with
      data := some buffer.blocks.obtained.length, capacity, blocks := buffer.grow held } := by
  obtain ⟨hlength, -⟩ := bytes_grow hrep held (hheld ▸ hsize)
  obtain ⟨hnodup, hlt⟩ := mem_returned_grow hrep held
  refine ⟨hsize, ?_, ?_, hnodup, ?_, fun hnone => absurd hnone hallocator⟩
  · rintro ⟨⟩
  · rintro _ ⟨⟩
    refine ⟨?_, fun hmem => Nat.lt_irrefl _ (hlt _ hmem), hlength.trans hheld⟩
    rw [length_grow]
    exact Nat.lt_succ_self _
  · intro returned hmem
    rw [length_grow]
    exact Nat.lt_succ_of_lt (hlt returned hmem)

/-- The buffer owns its new block; the others are owned unless it dropped the old one. -/
theorem owned_grown (hrep : Rep buffer) (held : List UInt8) (capacity : ℕ) :
    Owned { buffer with
      data := some buffer.blocks.obtained.length, capacity, blocks := buffer.grow held } ↔
      Owned buffer ∧ (buffer.data.isSome → buffer.size ≠ 0) := by
  rw [← forall_returned_grow hrep held]
  unfold Owned
  dsimp only
  rw [length_grow]
  refine ⟨fun h returned hlt => ?_, fun h returned hlt => ?_⟩
  · rcases h returned (Nat.lt_succ_of_lt hlt) with hmem | hdata
    · exact hmem
    · exact absurd (Option.some.inj hdata) (by omega)
  · rcases Nat.lt_succ_iff_lt_or_eq.1 hlt with hlt | rfl
    · exact Or.inl (h returned hlt)
    · exact Or.inr rfl

end Grow

theorem reserve_spec {buffer : BlockBuffer} (hrep : Rep buffer) (size : ℕ) (answer : Answer) :
    (∃ after, buffer.reserve size answer = (true, after) ∧ Reserved buffer after size answer) ∨
      (buffer.reserve size answer = (false, buffer) ∧
        (buffer.hasAllocator = false ∨ answer = none)) := by
  unfold BlockBuffer.reserve
  split_ifs with hallocator hfits
  · exact Or.inr ⟨rfl, Or.inl hallocator⟩
  · exact Or.inl ⟨buffer, rfl, hrep, rfl, rfl, hfits, (and_iff_left fun _ _ => Or.inl hfits).symm⟩
  cases answer with
  | none => exact Or.inr ⟨rfl, Or.inr rfl⟩
  | some held =>
    set target := max size ((buffer.capacity + max (buffer.capacity / 2) 1024) % 2 ^ 64)
    set block := (List.range target).map held
    have hsize := hrep.size_le
    have hroom : size ≤ target := Nat.le_max_left _ _
    have hblock : block.length = target := by simp [block]
    obtain ⟨-, htake⟩ := bytes_grow hrep block (by omega)
    have hgrow : ¬(size ≤ buffer.capacity ∨ some held = none) := by simpa using hfits
    refine Or.inl ⟨_, rfl, rep_grown hrep hallocator hblock (by omega), htake, rfl, hroom, ?_⟩
    simp only [hgrow, imp_false]
    exact owned_grown hrep block target

/-! ## The operations -/

variable {buffer : BlockBuffer}

/-- Remembering a failure changes nothing else. -/
theorem Rep.failed (hrep : Rep buffer) : Rep { buffer with ok := false } := { hrep with }

theorem failed_of_not_ok (buffer : BlockBuffer) : Failed buffer { buffer with ok := false } :=
  ⟨rfl, rfl⟩

/-- A new size keeps the contents up to the smaller of the sizes. -/
theorem take_view_resize (buffer : BlockBuffer) (size : ℕ) :
    ({ buffer with size } : BlockBuffer).view.take (min buffer.size size) =
      buffer.view.take (min buffer.size size) := by
  unfold BlockBuffer.view
  cases buffer.data with
  | none => rfl
  | some block => simp [List.take_take]

/-- A piece that has room goes to the end of the contents, and no block is lost by it. -/
theorem copyToEnd_spec (hrep : Rep buffer) {piece : List UInt8} (hpiece : piece.length ≠ 0)
    (hroom : buffer.size + piece.length ≤ buffer.capacity) :
    Rep (buffer.copyToEnd piece) ∧ (buffer.copyToEnd piece).view = buffer.view ++ piece ∧
      (Owned (buffer.copyToEnd piece) ↔ Owned buffer) := by
  obtain ⟨block, hdata⟩ : ∃ block, buffer.data = some block := by
    refine Option.ne_none_iff_exists'.1 fun hnone => ?_
    have hcapacity := hrep.capacity hnone
    omega
  obtain ⟨hblock, hfresh, hlength⟩ := hrep.block block hdata
  have hlength' := Blocks.length_bytes_copyTo _ hblock buffer.size piece (by rwa [hlength])
  have hcopy : buffer.copyToEnd piece = { buffer with
      blocks := buffer.blocks.copyTo block buffer.size piece
      size := buffer.size + piece.length } := by
    rw [BlockBuffer.copyToEnd, hdata]
  rw [hcopy]
  refine ⟨⟨hroom, hrep.capacity, ?_, hrep.returned, ?_, hrep.allocator⟩, ?_, ?_⟩
  · intro other hother
    obtain rfl := Option.some.inj (hdata.symm.trans hother)
    refine ⟨?_, hfresh, hlength'.trans hlength⟩
    rwa [Blocks.length_copyTo]
  · intro returned hmem
    rw [Blocks.length_copyTo]
    exact hrep.obtained returned hmem
  · have htake := Blocks.take_bytes_copyTo _ hblock piece (by omega : buffer.size ≤ _)
    simp only [BlockBuffer.view, hdata]
    exact htake
  · unfold Owned
    rw [Blocks.length_copyTo, Blocks.returned_copyTo]

theorem resize_spec (hrep : Rep buffer) (size : ℕ) (answer : Answer) :
    (BufferOp.resize size).Does buffer (buffer.resize size answer) ∧
      Rep (buffer.resize size answer).2 ∧
        (Owned (buffer.resize size answer).2 ↔
          Owned buffer ∧ KeepsBlock buffer (.resize size, answer)) := by
  unfold BlockBuffer.resize
  rcases reserve_spec hrep size answer with ⟨after, hrun, hafter⟩ | ⟨hrun, hrefused⟩
  · rw [hrun]
    have hrep' : Rep { after with size } := { hafter.rep with size_le := hafter.room }
    refine ⟨⟨hrep'.view_length, ?_⟩, hrep', hafter.owned⟩
    rw [← hafter.size_eq, ← hafter.view]
    exact take_view_resize after size
  · rw [hrun]
    refine ⟨failed_of_not_ok buffer, hrep.failed, (and_iff_left ?_).symm⟩
    rintro hdata -
    rcases hrefused with hallocator | hanswer
    · rw [hrep.allocator hallocator] at hdata
      cases hdata
    · exact Or.inr hanswer

theorem append_spec (hrep : Rep buffer) (piece : List UInt8) (answer : Answer) :
    (BufferOp.append piece).Does buffer (buffer.append piece answer) ∧
      Rep (buffer.append piece answer).2 ∧
        (Owned (buffer.append piece answer).2 ↔
          Owned buffer ∧ KeepsBlock buffer (.append piece, answer)) := by
  unfold BlockBuffer.append KeepsBlock BufferOp.requests
  dsimp only
  have hsize := hrep.size_le
  by_cases hnil : piece.length = 0
  · rw [if_pos hnil, if_neg (by omega)]
    refine ⟨by simp [BufferOp.Does, List.length_eq_zero_iff.1 hnil], hrep, ?_⟩
    exact (and_iff_left fun _ _ => Or.inl (by omega)).symm
  rw [if_neg hnil]
  by_cases hover : piece.length > Buffer.sizeMax - buffer.size
  · rw [if_pos hover, if_pos hover]
    exact ⟨failed_of_not_ok buffer, hrep.failed,
      (and_iff_left fun _ _ => Or.inl (Nat.zero_le _)).symm⟩
  rw [if_neg hover, if_neg hover]
  rcases reserve_spec hrep (buffer.size + piece.length) answer with
    ⟨after, hrun, hafter⟩ | ⟨hrun, hrefused⟩
  · rw [hrun]
    have hroom := hafter.room
    rw [← hafter.size_eq] at hroom
    obtain ⟨hrep', hview, howned⟩ := copyToEnd_spec hafter.rep hnil hroom
    rw [hafter.view] at hview
    exact ⟨hview, hrep', howned.trans hafter.owned⟩
  · rw [hrun]
    refine ⟨failed_of_not_ok buffer, hrep.failed, (and_iff_left ?_).symm⟩
    rintro hdata -
    rcases hrefused with hallocator | hanswer
    · rw [hrep.allocator hallocator] at hdata
      cases hdata
    · exact Or.inr hanswer

/-- One operation does what it says, keeps the representation, and loses no block exactly if it
does not grow a buffer that holds a block and no contents. -/
theorem perform_spec (hrep : Rep buffer) (op : BufferOp) (answer : Answer) :
    op.Does buffer (op.perform answer buffer) ∧ Rep (op.perform answer buffer).2 ∧
      (Owned (op.perform answer buffer).2 ↔ Owned buffer ∧ KeepsBlock buffer (op, answer)) := by
  cases op with
  | resize size => exact resize_spec hrep size answer
  | append piece => exact append_spec hrep piece answer
  | clear =>
    refine ⟨?_, hrep.clear, (and_iff_left fun _ _ => Or.inl (Nat.zero_le _)).symm⟩
    exact List.length_eq_zero_iff.1 hrep.clear.view_length

theorem rep_bufferStep (hrep : Rep buffer) (op : BufferOp × Answer) : Rep (bufferStep buffer op) :=
  (perform_spec hrep op.1 op.2).2.1

/-- Whatever is done to a new buffer, its representation holds. -/
theorem rep_run (hasAllocator : Bool) (ops : List (BufferOp × Answer)) :
    Rep (run bufferStep { hasAllocator } ops) :=
  run_invariant (I := Rep) (fun _ op hrep => rep_bufferStep hrep op) (rep_new hasAllocator) ops

theorem destroy_eq (hrep : Rep buffer) : buffer.destroy.obtained = buffer.blocks.obtained ∧
    buffer.destroy.returned = buffer.blocks.returned ++ buffer.data.toList := by
  unfold BlockBuffer.destroy
  cases hdata : buffer.data with
  | none => simp
  | some block =>
    have hallocator : buffer.hasAllocator = true := by
      by_contra hnone
      cases hdata.symm.trans (hrep.allocator (by simpa using hnone))
    simp [hallocator, Blocks.free]

/-- A destroyed buffer leaves each block returned once exactly if it owned all of them. -/
theorem count_destroy_iff (hrep : Rep buffer) :
    (∀ block < buffer.destroy.obtained.length, buffer.destroy.returned.count block = 1) ↔
      Owned buffer := by
  obtain ⟨hobtained, hreturned⟩ := destroy_eq hrep
  have hnodup : (buffer.blocks.returned ++ buffer.data.toList).Nodup := by
    cases hdata : buffer.data with
    | none => simpa using hrep.returned
    | some block =>
      obtain ⟨-, hfresh, -⟩ := hrep.block block hdata
      refine List.nodup_append.2 ⟨hrep.returned, List.nodup_singleton block, ?_⟩
      rintro other hother _ (_ | ⟨_, ⟨⟩⟩) rfl
      exact hfresh hother
  rw [hobtained, hreturned]
  refine forall₂_congr fun block _ => ?_
  rw [← Option.mem_toList, ← List.mem_append]
  refine ⟨fun hcount => List.count_pos_iff.1 ?_, List.count_eq_one_of_mem hnodup⟩
  rw [hcount]
  exact Nat.one_pos

/-- **A buffer keeps its size within its capacity, does what its operations say and returns each
block once, if and only if it never grows while it holds a block and no contents.** -/
theorem bufferLawful_iff (hasAllocator : Bool) (ops : List (BufferOp × Answer)) :
    BufferLawful hasAllocator ops ↔ StepsMeet bufferStep KeepsBlock { hasAllocator } ops := by
  have hrep : ∀ buffer op, Rep buffer → Rep (bufferStep buffer op) :=
    fun _ op hrep => rep_bufferStep hrep op
  have hkeep : ∀ buffer op, Rep buffer →
      (Owned (bufferStep buffer op) ↔ Owned buffer ∧ KeepsBlock buffer op) :=
    fun _ op hrep => (perform_spec hrep op.1 op.2).2.2
  have howned := run_iff_stepsMeet hrep hkeep (rep_new hasAllocator) ops
  have hnew : Owned { hasAllocator } := fun _ hblock => absurd hblock (Nat.not_lt_zero _)
  rw [and_iff_right hnew, ← count_destroy_iff (rep_run hasAllocator ops)] at howned
  refine ⟨fun h => howned.1 h.2.2, fun h => ⟨?_, ?_, howned.2 h⟩⟩
  · intro before after _
    exact (rep_run hasAllocator before).size_le
  · intro before op answer after _
    exact (perform_spec (rep_run hasAllocator before) op answer).1

/-- A byte, a clear and a growth lose the first block. -/
def clearThenGrow : List (BufferOp × Answer) :=
  [(.append [97], some fun _ => 0), (.clear, none), (.resize 2000, some fun _ => 0)]

theorem not_bufferLawful_clearThenGrow : ¬BufferLawful true clearThenGrow := by
  rintro ⟨-, -, hreturned⟩
  have hfirst := hreturned 0 (by decide)
  exact absurd hfirst (by decide)

/-! ## The buffer by its contents -/

/-- A buffer by its contents. -/
def BlockBuffer.toBuffer (buffer : BlockBuffer) : Buffer :=
  { hasAllocator := buffer.hasAllocator, data := buffer.view, capacity := buffer.capacity
    ok := buffer.ok }

section Refines

variable {Site : Type} {place : ℕ → Site} {fails : Site → Bool} {answer : Answer}

theorem reserve_refines (hrep : Rep buffer) (hanswer : ∀ n, fails (place n) = answer.isNone)
    (size : ℕ) (fs : Fs) : (buffer.toBuffer.reserve place size).run (faulty fails) fs =
      (.value ((buffer.reserve size answer).1, (buffer.reserve size answer).2.toBuffer), fs) := by
  have hsize := hrep.size_le
  unfold Buffer.reserve BlockBuffer.reserve
  by_cases hallocator : buffer.hasAllocator = false
  · rw [if_pos (show buffer.toBuffer.hasAllocator = false from hallocator), if_pos hallocator]
    rfl
  rw [if_neg (show ¬buffer.toBuffer.hasAllocator = false from hallocator), if_neg hallocator]
  by_cases hfits : size ≤ buffer.capacity
  · rw [if_pos (show size ≤ buffer.toBuffer.capacity from hfits), if_pos hfits]
    rfl
  rw [if_neg (show ¬size ≤ buffer.toBuffer.capacity from hfits), if_neg hfits]
  set target := max size ((buffer.capacity + max (buffer.capacity / 2) 1024) % 2 ^ 64) with htarget
  have hroom : size ≤ target := Nat.le_max_left _ _
  change (Prog.perform (place target, FsCall.allocate target) >>= _ : FsProg Site _).run
    (faulty fails) fs = _
  rw [Prog.run_perform_bind]
  cases answer with
  | none =>
    rw [faulty_of_fails (hanswer target)]
    rfl
  | some held =>
    rw [faulty_of_not_fails (hanswer target)]
    obtain ⟨-, htake⟩ := bytes_grow hrep ((List.range target).map held)
      (by rw [List.length_map, List.length_range]; omega)
    refine congrArg (fun data => (Outcome.value (true, ({ buffer.toBuffer with
      data, capacity := target } : Buffer)), fs)) htake.symm

/-- **Appending does to the contents what `Buffer` says, whatever the allocator answers.** -/
theorem append_refines (hrep : Rep buffer) (hanswer : ∀ n, fails (place n) = answer.isNone)
    (piece : List UInt8) (fs : Fs) :
    (buffer.toBuffer.append place piece).run (faulty fails) fs =
      (.value ((buffer.append piece answer).1, (buffer.append piece answer).2.toBuffer), fs) := by
  have hlength : buffer.toBuffer.data.length = buffer.size := hrep.view_length
  unfold Buffer.append BlockBuffer.append
  rw [hlength]
  split_ifs with hnil hover
  · rfl
  · rfl
  rw [Prog.run_bind_value _ (reserve_refines hrep hanswer _ fs)]
  rcases reserve_spec hrep (buffer.size + piece.length) answer with
    ⟨after, hrun, hafter⟩ | ⟨hrun, -⟩
  · have hroom := hafter.room
    rw [← hafter.size_eq] at hroom
    obtain ⟨-, hview, -⟩ := copyToEnd_spec hafter.rep hnil hroom
    simp only [hrun, BlockBuffer.toBuffer, hview, hafter.view]
    rfl
  · simp only [hrun]
    rfl

end Refines

end D3Hack
