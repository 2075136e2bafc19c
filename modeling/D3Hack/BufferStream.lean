import D3Hack.ConfigSave
import Mathlib.Data.List.Infix

/-!
# The stream over a buffer

`BufferStreamBuf` hands what an output stream writes to a `Buffer`: a character through
`overflow`, a block through `xsputn`. `StreamWrite` is one of the two and `writeStream` a
series of them; each write has places of its own for its allocation, so any of them can fail.

A buffer holds a beginning of what was written, all of it if it is `ok`, and takes nothing more
once it is not (`writeStream_spec`, `writeStream_of_not_ok`). `saveTo` is a save for any series
of writes and any use of the text, and `stream_saves_all` says that the text used is complete.
-/

namespace D3Hack

open Calls Toml

/-! ## Writes to the stream -/

/-- `traits_type::eof`. -/
def streamEof : ℤ := -1

/-- What a stream asks its buffer to write: a character, or a block. -/
inductive StreamWrite where
  | char (c : UInt8)
  | block (piece : List UInt8)

/-- The bytes of a write. -/
def StreamWrite.bytes : StreamWrite → List UInt8
  | .char c => [c]
  | .block piece => piece

/-- The bytes of a series of writes. -/
def streamText (writes : List StreamWrite) : List UInt8 := (writes.map StreamWrite.bytes).flatten

variable {Site : Type}

/-- `BufferStreamBuf::overflow`. -/
def Buffer.overflow (place : ℕ → Site) (buffer : Buffer) (ch : ℤ) : FsProg Site (ℤ × Buffer) :=
  if buffer.ok = false then pure (streamEof, buffer)
  else if ch = streamEof then pure (0, buffer)
  else do
    let (appended, buffer) ← buffer.append place [UInt8.ofInt ch]
    if appended then pure (ch, buffer) else pure (streamEof, buffer)

/-- `sputc` and `sputn`. There is no put area, so that a character goes to `overflow`, as an
unsigned one. -/
def StreamWrite.put (place : ℕ → Site) (buffer : Buffer) : StreamWrite → FsProg Site Buffer
  | .char c => do
    let (_, buffer) ← buffer.overflow place (c.toNat : ℤ)
    pure buffer
  | .block piece => buffer.xsputn place piece

/-- The writes one after the other; the `i`-th write has the places `place i`. -/
def writeStream (place : ℕ → ℕ → Site) : ℕ → Buffer → List StreamWrite → FsProg Site Buffer
  | _, buffer, [] => pure buffer
  | i, buffer, w :: ws => do
    let buffer ← w.put (place i) buffer
    writeStream place (i + 1) buffer ws

section Stream

variable (fails : Site → Bool) (fs : Fs)

theorem put_of_not_ok (place : ℕ → Site) {buffer : Buffer} (hok : buffer.ok = false)
    (w : StreamWrite) : w.put place buffer = pure buffer := by
  cases w with
  | char c => rw [StreamWrite.put, Buffer.overflow, if_pos hok, pure_bind]
  | block piece => rw [StreamWrite.put, Buffer.xsputn, if_neg (by simp [hok])]

/-- A write adds its bytes, or keeps the contents and leaves the buffer not `ok`. -/
theorem put_spec (place : ℕ → Site) {buffer : Buffer} (hok : buffer.ok = true)
    (w : StreamWrite) : ∃ buffer', (w.put place buffer).run (faulty fails) fs =
      (.value buffer', fs) ∧
        buffer'.data = if buffer'.ok then buffer.data ++ w.bytes else buffer.data := by
  cases w with
  | char c =>
    have hchar : (c.toNat : ℤ) ≠ streamEof := by
      unfold streamEof
      omega
    have hbyte : UInt8.ofInt (c.toNat : ℤ) = c := by
      have hlt := c.toNat_lt
      have hmod : ((c.toNat : ℤ) % 2 ^ 8).toNat = c.toNat := by omega
      rw [UInt8.ofInt, hmod, UInt8.ofNat_toNat]
    obtain ⟨appended, buffer', hrun, hdata, hok'⟩ :=
      Buffer.append_spec place fails fs buffer [c]
    rw [hok, Bool.true_and] at hok'
    rw [StreamWrite.put, Buffer.overflow, if_neg (by simp [hok]), if_neg hchar, hbyte, bind_assoc,
      Prog.run_bind_value _ hrun]
    refine ⟨buffer', ?_, by rw [hdata, hok']; rfl⟩
    cases appended <;> rfl
  | block piece =>
    obtain ⟨appended, buffer', hrun, hdata, hok'⟩ :=
      Buffer.append_spec place fails fs buffer piece
    rw [hok, Bool.true_and] at hok'
    rw [StreamWrite.put, Buffer.xsputn, if_pos hok, Prog.run_bind_value _ hrun]
    exact ⟨buffer', rfl, by rw [hdata, hok']; rfl⟩

/-- A buffer that is not `ok` takes nothing. -/
theorem writeStream_of_not_ok (place : ℕ → ℕ → Site) (i : ℕ) {buffer : Buffer}
    (hok : buffer.ok = false) (writes : List StreamWrite) :
    writeStream place i buffer writes = pure buffer := by
  induction writes generalizing i with
  | nil => rfl
  | cons w ws ih => rw [writeStream, put_of_not_ok _ hok, pure_bind, ih]

/-- What a stream writes after `text` leaves a beginning of the whole text, and all of it if the
buffer is `ok`. -/
theorem writeStream_spec (place : ℕ → ℕ → Site) (i : ℕ) (buffer : Buffer) (text : List UInt8)
    (hbegin : buffer.data <+: text) (hall : buffer.ok = true → buffer.data = text)
    (writes : List StreamWrite) : ∃ buffer',
      (writeStream place i buffer writes).run (faulty fails) fs = (.value buffer', fs) ∧
        buffer'.data <+: text ++ streamText writes ∧
          (buffer'.ok = true → buffer'.data = text ++ streamText writes) := by
  induction writes generalizing i buffer text with
  | nil =>
    rw [streamText, List.map_nil, List.flatten_nil, List.append_nil]
    exact ⟨buffer, rfl, hbegin, hall⟩
  | cons w ws ih =>
    have htext : text ++ streamText (w :: ws) = (text ++ w.bytes) ++ streamText ws := by
      simp [streamText]
    rw [htext]
    cases hok : buffer.ok with
    | false =>
      rw [writeStream_of_not_ok place i hok]
      refine ⟨buffer, rfl, ?_, fun h => absurd (hok.symm.trans h) (by simp)⟩
      rw [List.append_assoc]
      exact hbegin.trans (List.prefix_append _ _)
    | true =>
      obtain ⟨buffer₁, hrun, hdata⟩ := put_spec fails fs (place i) hok w
      rw [hall hok] at hdata
      rw [writeStream, Prog.run_bind_value _ hrun]
      refine ih (i + 1) _ _ ?_ fun h => by rw [hdata, if_pos h]
      rw [hdata]
      split_ifs
      · exact List.prefix_refl _
      · exact List.prefix_append _ _

theorem writeStream_append (place : ℕ → ℕ → Site) (i : ℕ) (buffer : Buffer)
    (writes rest : List StreamWrite) : writeStream place i buffer (writes ++ rest) =
      (writeStream place i buffer writes >>= fun buffer =>
        writeStream place (i + writes.length) buffer rest) := by
  induction writes generalizing i buffer with
  | nil => rfl
  | cons w ws ih =>
    rw [List.cons_append, writeStream, writeStream, bind_assoc]
    refine congrArg _ (funext fun buffer => ?_)
    rw [ih, List.length_cons, Nat.add_assoc, Nat.add_comm 1]

/-- Writes of blocks only. -/
theorem writeStream_blocks (place : ℕ → Site) (i : ℕ) (buffer : Buffer)
    (pieces : List (List UInt8)) :
    writeStream (fun _ => place) i buffer (pieces.map .block) = buffer.writeAll place pieces := by
  induction pieces generalizing i buffer with
  | nil => rfl
  | cons piece pieces ih =>
    rw [List.map_cons, writeStream, Buffer.writeAll, List.foldlM_cons]
    exact congrArg _ (funext fun buffer => ih (i + 1) buffer)

end Stream

/-! ## Saving -/

/-- `SavePatchConfigToPath` after the table is built: `writes` is what printing it writes to the
stream, and `write` is called with the text. -/
def saveTo (place : SaveSite → Site) (writes : List StreamWrite)
    (write : List UInt8 → FsProg Site (Bool × String)) : FsProg Site (Bool × String) := do
  let hasAllocator ← getSystemAllocator (place .allocator)
  if hasAllocator then
    let buffer ← writeStream (fun _ n => place (.allocate n)) 0 { hasAllocator } writes
    if buffer.ok then write buffer.data else pure (false, "Failed to allocate config buffer")
  else pure (false, "System allocator unavailable")

/-- A save prints its table to the stream in blocks, and writes the text to the file. -/
theorem savePatchConfigToPath_eq (place : SaveSite → Site) (path : String) (api : Api)
    (devMem : Option ℕ) (config : PatchConfig) (error : String) :
    savePatchConfigToPath place path api devMem config error =
      saveTo place ((api.print (buildPatchConfigTable devMem
        (normalizePatchConfig api devMem config))).map .block) fun text =>
          writeAllAtomic (fun site => place (.write site)) path text "config file" error := by
  unfold savePatchConfigToPath saveTo
  simp only [writeStream_blocks]

/-- A save uses the complete text, or fails and changes nothing. -/
theorem saveTo_spec (fails : Site → Bool) (fs : Fs) (place : SaveSite → Site)
    (writes : List StreamWrite) (write : List UInt8 → FsProg Site (Bool × String)) :
    (saveTo place writes write).run (faulty fails) fs =
        (write (streamText writes)).run (faulty fails) fs ∨
      ∃ error, (saveTo place writes write).run (faulty fails) fs = (.value (false, error), fs) := by
  rw [saveTo, run_getSystemAllocator_bind]
  cases hf : fails (place .allocator) with
  | true => exact Or.inr ⟨_, rfl⟩
  | false =>
    obtain ⟨buffer, hrun, -, hall⟩ := writeStream_spec fails fs
      (fun _ n => place (.allocate n)) 0 { hasAllocator := true } []
      (List.prefix_refl _) (fun _ => rfl) writes
    rw [List.nil_append] at hall
    simp only [Bool.not_false, if_true]
    rw [Prog.run_bind_value _ hrun, Prog.run_ite]
    split_ifs with hok
    · exact Or.inl (by rw [hall hok])
    · exact Or.inr ⟨_, rfl⟩

/-- **What is written to a new buffer through a stream is never cut off in silence: the buffer
holds a beginning of it, all of it if it is `ok`, and nothing more once it is not; and a save
calls `WriteAllAtomic` only with the complete text.** -/
theorem stream_saves_all (fails : Site → Bool) (fs : Fs) :
    (∀ (place : ℕ → ℕ → Site) (hasAllocator : Bool) (writes rest : List StreamWrite),
      ∃ buffer buffer',
        (writeStream place 0 { hasAllocator } writes).run (faulty fails) fs =
            (.value buffer, fs) ∧
          (writeStream place 0 { hasAllocator } (writes ++ rest)).run (faulty fails) fs =
              (.value buffer', fs) ∧
            buffer.data <+: streamText writes ∧
              (buffer.ok = true → buffer.data = streamText writes) ∧
                (buffer.ok = false → buffer'.ok = false ∧ buffer'.data = buffer.data)) ∧
      ∀ place : SaveSite → Site,
        (∀ writes write,
          (saveTo place writes write).run (faulty fails) fs =
              (write (streamText writes)).run (faulty fails) fs ∨
            ∃ error, (saveTo place writes write).run (faulty fails) fs =
              (.value (false, error), fs)) ∧
          ∀ path api devMem config error,
            savePatchConfigToPath place path api devMem config error =
              saveTo place ((api.print (buildPatchConfigTable devMem
                (normalizePatchConfig api devMem config))).map .block) fun text =>
                  writeAllAtomic (fun site => place (.write site)) path text "config file"
                    error := by
  refine ⟨fun place hasAllocator writes rest => ?_, fun place => ⟨?_, ?_⟩⟩
  · obtain ⟨buffer, hrun, hbegin, hall⟩ := writeStream_spec fails fs place 0
      { hasAllocator } [] (List.prefix_refl _) (fun _ => rfl) writes
    rw [List.nil_append] at hbegin hall
    obtain ⟨buffer', hrun', -, -⟩ := writeStream_spec fails fs place (0 + writes.length)
      buffer _ hbegin hall rest
    refine ⟨buffer, buffer', hrun, ?_, hbegin, hall, fun hok => ?_⟩
    · rw [writeStream_append, Prog.run_bind_value _ hrun, hrun']
    · rw [writeStream_of_not_ok place _ hok] at hrun'
      obtain ⟨hvalue, -⟩ := Prod.mk.inj hrun'
      obtain rfl := Outcome.value.inj hvalue
      exact ⟨hok, rfl⟩
  · exact fun writes write => saveTo_spec fails fs place writes write
  · exact fun path api devMem config error =>
      savePatchConfigToPath_eq place path api devMem config error

end D3Hack
