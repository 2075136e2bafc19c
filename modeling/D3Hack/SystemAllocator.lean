import D3Hack.FileSystem
import Mathlib.Algebra.Group.Nat.Defs

/-!
# Buffers of the system allocator

`Buffer` grows through the system allocator and remembers a failure. A stream writes to it
piece by piece (`Buffer.writeAll`): if it is `ok` at the end, it holds all the pieces
(`Buffer.writeAll_spec`). The place of an allocation carries its size, so that each
allocation of a buffer that grows can fail on its own.
-/

namespace D3Hack

open Calls

/-- `Buffer`; its size is the length of its data. -/
structure Buffer where
  hasAllocator : Bool
  data : List UInt8 := []
  capacity : ℕ := 0
  ok : Bool := true

namespace Buffer

variable {Site : Type} (place : ℕ → Site)

/-- `Buffer::Reserve`. -/
def reserve (buffer : Buffer) (size : ℕ) : FsProg Site (Bool × Buffer) :=
  if buffer.hasAllocator = false then pure (false, buffer)
  else if size ≤ buffer.capacity then pure (true, buffer)
  else do
    let growBy := max (buffer.capacity / 2) 1024
    let target := max size ((buffer.capacity + growBy) % 2 ^ 64)
    let allocated ← allocate (place target) target
    if allocated then pure (true, { buffer with capacity := target })
    else pure (false, buffer)

/-- `Buffer::Resize`; the bytes it adds are arbitrary in the source, and zero here. -/
def resize (buffer : Buffer) (size : ℕ) : FsProg Site (Bool × Buffer) := do
  let (reserved, buffer) ← buffer.reserve place size
  if reserved then
    let data := buffer.data.take size ++ List.replicate (size - buffer.data.length) 0
    pure (true, { buffer with data })
  else pure (false, { buffer with ok := false })

/-- The greatest `size_t`. -/
def sizeMax : ℕ := 2 ^ 64 - 1

/-- `Buffer::Append`. -/
def append (buffer : Buffer) (piece : List UInt8) : FsProg Site (Bool × Buffer) :=
  if piece.length = 0 then pure (true, buffer)
  else if piece.length > sizeMax - buffer.data.length then
    pure (false, { buffer with ok := false })
  else do
    let (reserved, buffer) ← buffer.reserve place (buffer.data.length + piece.length)
    if reserved then pure (true, { buffer with data := buffer.data ++ piece })
    else pure (false, { buffer with ok := false })

/-- `BufferStreamBuf::xsputn`. -/
def xsputn (buffer : Buffer) (piece : List UInt8) : FsProg Site Buffer :=
  if buffer.ok then do
    let (_, buffer) ← buffer.append place piece
    pure buffer
  else pure buffer

/-- The pieces written to a `BufferStreamBuf` one after the other. -/
def writeAll (buffer : Buffer) (pieces : List (List UInt8)) : FsProg Site Buffer :=
  pieces.foldlM (fun buffer piece => buffer.xsputn place piece) buffer

/-! ## What the operations do -/

variable (fails : Site → Bool) (fs : Fs)

/-- The block that a buffer asks for to hold `size` bytes. -/
def target (buffer : Buffer) (size : ℕ) : ℕ :=
  max size ((buffer.capacity + max (buffer.capacity / 2) 1024) % 2 ^ 64)

/-- Reserving changes the capacity alone, and succeeds if there is an allocator and either
the capacity is enough or the allocator gives the block. -/
theorem reserve_spec (buffer : Buffer) (size : ℕ) : ∃ capacity,
    (buffer.reserve place size).run (faulty fails) fs =
      (.value (buffer.hasAllocator &&
        (decide (size ≤ buffer.capacity) || !fails (place (buffer.target size))),
          { buffer with capacity }), fs) := by
  obtain ⟨_ | _, data, capacity, ok⟩ := buffer
  · exact ⟨capacity, rfl⟩
  set buffer : Buffer := ⟨true, data, capacity, ok⟩
  rw [reserve, if_neg (by simp [buffer])]
  split_ifs with hfits
  · exact ⟨capacity, by simp [buffer, show size ≤ capacity from hfits]⟩
  · change ∃ capacity, ((Prog.perform (place (buffer.target size),
      FsCall.allocate (buffer.target size)) >>= _ : FsProg Site _).run (faulty fails) fs) = _
    rw [Prog.run_perform_bind, decide_eq_false hfits]
    rcases hf : fails (place (buffer.target size)) with _ | _
    · rw [faulty_of_not_fails hf]
      exact ⟨buffer.target size, rfl⟩
    · rw [faulty_of_fails hf]
      exact ⟨capacity, rfl⟩

/-- A new buffer grows if there is an allocator that gives it the bytes, at least 1024. -/
theorem resize_new_spec (hasAllocator : Bool) {size : ℕ} (hs : 0 < size) : ∃ buffer',
    (({ hasAllocator } : Buffer).resize place size).run (faulty fails) fs =
      (.value (hasAllocator && !fails (place (max size 1024)), buffer'), fs) := by
  obtain ⟨capacity, hrun⟩ := reserve_spec place fails fs { hasAllocator } size
  have htarget : ({ hasAllocator } : Buffer).target size = max size 1024 := by simp [target]
  rw [htarget, decide_eq_false (by simp only; omega), Bool.false_or] at hrun
  rw [resize, Prog.run_bind_value _ hrun]
  rcases hok : hasAllocator && !fails (place (max size 1024)) with _ | _
  · exact ⟨_, rfl⟩
  · exact ⟨_, rfl⟩

/-- Appending adds the piece, or keeps the contents and remembers the failure. -/
theorem append_spec (buffer : Buffer) (piece : List UInt8) :
    ∃ appended buffer', (buffer.append place piece).run (faulty fails) fs =
      (.value (appended, buffer'), fs) ∧
        buffer'.data = (if appended then buffer.data ++ piece else buffer.data) ∧
          buffer'.ok = (buffer.ok && appended) := by
  unfold append
  split_ifs with hnil
  · exact ⟨true, buffer, rfl, by simp [List.length_eq_zero_iff.1 hnil], by simp⟩
  · exact ⟨false, _, rfl, rfl, (Bool.and_false _).symm⟩
  · obtain ⟨capacity, hrun⟩ :=
      reserve_spec place fails fs buffer (buffer.data.length + piece.length)
    rw [Prog.run_bind_value _ hrun, Prog.run_ite]
    split_ifs
    · exact ⟨true, _, rfl, rfl, (Bool.and_true _).symm⟩
    · exact ⟨false, _, rfl, rfl, (Bool.and_false _).symm⟩

/-- Where the allocator gives every block, appending adds the piece. -/
theorem append_given (hgives : ∀ size, fails (place size) = false) {buffer : Buffer}
    (hallocator : buffer.hasAllocator = true) (piece : List UInt8)
    (hsize : buffer.data.length + piece.length ≤ sizeMax) : ∃ capacity,
    (buffer.append place piece).run (faulty fails) fs =
      (.value (true, { buffer with data := buffer.data ++ piece, capacity }), fs) := by
  unfold append
  split_ifs with hnil hover
  · exact ⟨buffer.capacity, by simp [List.length_eq_zero_iff.1 hnil]⟩
  · omega
  · obtain ⟨capacity, hrun⟩ :=
      reserve_spec place fails fs buffer (buffer.data.length + piece.length)
    have hreserved : (buffer.hasAllocator &&
        (decide (buffer.data.length + piece.length ≤ buffer.capacity) ||
          !fails (place (buffer.target (buffer.data.length + piece.length))))) = true := by
      simp [hallocator, hgives]
    rw [hreserved] at hrun
    exact ⟨capacity, by rw [Prog.run_bind_value _ hrun]; rfl⟩

/-- A buffer that is `ok` after a series of writes was so before, and holds all of them. -/
theorem writeAll_spec (pieces : List (List UInt8)) (buffer : Buffer) : ∃ buffer',
    (buffer.writeAll place pieces).run (faulty fails) fs = (.value buffer', fs) ∧
      (buffer'.ok = true → buffer.ok = true ∧ buffer'.data = buffer.data ++ pieces.flatten) := by
  induction pieces generalizing buffer with
  | nil => exact ⟨buffer, rfl, fun h => ⟨h, by simp⟩⟩
  | cons piece pieces ih =>
    have hstep : ∃ buffer₁, (buffer.xsputn place piece).run (faulty fails) fs =
        (.value buffer₁, fs) ∧
          (buffer₁.ok = true → buffer.ok = true ∧ buffer₁.data = buffer.data ++ piece) := by
      unfold xsputn
      split_ifs with hok
      · obtain ⟨appended, buffer₁, hrun, hdata, hok₁⟩ := append_spec place fails fs buffer piece
        rw [Prog.run_bind_value _ hrun]
        refine ⟨buffer₁, rfl, fun h => ⟨hok, ?_⟩⟩
        rw [hok₁, hok, Bool.true_and] at h
        rw [hdata, if_pos h]
      · exact ⟨buffer, rfl, fun h => absurd h hok⟩
    obtain ⟨buffer₁, hrun₁, hok₁⟩ := hstep
    obtain ⟨buffer', hrun, hok⟩ := ih buffer₁
    refine ⟨buffer', ?_, fun h => ⟨(hok₁ (hok h).1).1, ?_⟩⟩
    · rw [writeAll, List.foldlM_cons, Prog.run_bind_value _ hrun₁]
      exact hrun
    · rw [(hok h).2, (hok₁ (hok h).1).2, List.flatten_cons, List.append_assoc]

/-- Where the allocator gives every block, a buffer holds all that is written. -/
theorem writeAll_given (hgives : ∀ size, fails (place size) = false) (pieces : List (List UInt8))
    (buffer : Buffer) (hallocator : buffer.hasAllocator = true) (hok : buffer.ok = true)
    (hsize : buffer.data.length + pieces.flatten.length ≤ sizeMax) : ∃ capacity,
    (buffer.writeAll place pieces).run (faulty fails) fs =
      (.value { buffer with data := buffer.data ++ pieces.flatten, capacity }, fs) := by
  induction pieces generalizing buffer with
  | nil => exact ⟨buffer.capacity, by rw [List.flatten_nil, List.append_nil]; rfl⟩
  | cons piece pieces ih =>
    rw [List.flatten_cons, List.length_append] at hsize
    obtain ⟨capacity, hrun⟩ := append_given place fails fs hgives hallocator piece (by omega)
    have hstep : (buffer.xsputn place piece).run (faulty fails) fs =
        (.value { buffer with data := buffer.data ++ piece, capacity }, fs) := by
      rw [xsputn, if_pos hok, Prog.run_bind_value _ hrun]
      rfl
    have hroom : (buffer.data ++ piece).length + pieces.flatten.length ≤ sizeMax := by
      rw [List.length_append]
      omega
    obtain ⟨capacity', hrest⟩ := ih { buffer with data := buffer.data ++ piece, capacity }
      hallocator hok hroom
    refine ⟨capacity', ?_⟩
    rw [writeAll, List.foldlM_cons, Prog.run_bind_value _ hstep, List.flatten_cons,
      ← List.append_assoc]
    exact hrest

end Buffer

end D3Hack
