import D3Hack.Config
import Mathlib.Data.List.DropRight
import Mathlib.Data.String.Basic

/-!
# Game memory and publisher files

The game's heap, its strings, and the files that the program keeps next to its configuration.
A `Blob` is the content of a file or a string with the place it came from, `Heap` counts the
frees of an address that no live block has, and `Outcomes` says which calls of the game
succeed.

`blizzStringFromFile` reads a file into a string, and `buildPubfileCachePath` gives the path
of a cache file; a name without separators is kept whole (`buildPubfileCachePath_name`).
-/

namespace D3Hack

/-! ## Content -/

/-- Where bytes came from: an online retrieval, or the directory `rift_data`. -/
inductive Origin where
  | online
  | riftData
  deriving DecidableEq

/-- Bytes, with where they came from. -/
structure Blob where
  bytes : List UInt8
  origin : Origin
  deriving DecidableEq

/-- The content of the files, by their paths. -/
abbrev Files := String → Option Blob

/-- Which calls of the game succeed, by the file they are made for: `FileExists` with
`FileReadIntoMemory`, `SigmaMemoryNew`, and `FileCreate` with `FileOpen` and `FileWrite`. The three
calls of a write are the game's own code. They are taken to replace the whole content of the file
where all of them succeed, and to leave the file as it was where one fails. -/
structure Outcomes where
  reads : String → Bool := fun _ => true
  grants : String → Bool := fun _ => true
  writes : String → Bool := fun _ => true

/-! ## The heap -/

/-- What is passed to a free: the address of a block, or of a local variable. -/
inductive Address where
  | block (n : ℕ)
  | variable
  deriving DecidableEq

/-- The live blocks, the blocks that file reads returned, and the frees that met no live
block. -/
structure Heap where
  next : ℕ := 0
  live : List ℕ := []
  readBlocks : List ℕ := []
  badFrees : ℕ := 0

namespace Heap

/-- `SigmaMemoryNew`, for whether the block is granted. -/
def sigmaMemoryNew (granted : Bool) (h : Heap) : Option ℕ × Heap :=
  if granted then (some h.next, { h with next := h.next + 1, live := h.next :: h.live })
  else (none, h)

/-- `FileReadIntoMemory` where it returns a block. -/
def fileReadIntoMemory (h : Heap) : ℕ × Heap :=
  (h.next, { h with
    next := h.next + 1, live := h.next :: h.live, readBlocks := h.next :: h.readBlocks })

/-- `SigmaMemoryFree`. -/
def sigmaMemoryFree (p : Address) (h : Heap) : Heap :=
  match p with
  | .block n =>
    if n ∈ h.live then { h with live := h.live.erase n } else { h with badFrees := h.badFrees + 1 }
  | .variable => { h with badFrees := h.badFrees + 1 }

end Heap

/-! ## Strings -/

/-- The pointer `m_elements`: null, to the storage of the string, or to a block. -/
inductive Elements where
  | null
  | embedded
  | block (n : ℕ)
  deriving DecidableEq

/-- Content without bytes. -/
def Blob.empty : Blob := ⟨[], .online⟩

/-- `blz::string`; its size is the number of its bytes. -/
structure BlzString where
  elements : Elements := .embedded
  content : Blob := .empty

/-- The free of a string's block, if it has one. -/
def freeElements (s : BlzString) (h : Heap) : Heap :=
  match s.elements with
  | .block n => h.sigmaMemoryFree (.block n)
  | _ => h

/-- `ReplaceBlzString`. -/
def replaceBlzString (granted : Bool) (dst : BlzString) (data : Blob) (h : Heap) :
    BlzString × Heap :=
  match (freeElements dst h).sigmaMemoryNew granted with
  | (some n, h) => ({ elements := .block n, content := data }, h)
  | (none, h) => ({ elements := .null, content := .empty }, h)

/-- `ReadFileToBuffer`. -/
def readFileToBuffer (io : Outcomes) (files : Files) (path : String) (h : Heap) :
    Option (ℕ × Blob) × Heap :=
  match files path with
  | some blob =>
    if io.reads path then
      let (n, h) := h.fileReadIntoMemory
      (some (n, blob), h)
    else (none, h)
  | none => (none, h)

/-- `BlizzStringFromFile`. -/
def blizzStringFromFile (io : Outcomes) (files : Files) (path : String) (h : Heap) :
    BlzString × Heap :=
  match readFileToBuffer io files path h with
  | (some (_, blob), h) =>
    let (s, h) := replaceBlzString (io.grants path) {} blob h
    -- The address of the pointer is freed, not the block it points to.
    (s, h.sigmaMemoryFree .variable)
  | (none, h) => ({}, h)

/-- The content that a file is read as, if it is. -/
def readBlob (io : Outcomes) (files : Files) (path : String) : Option Blob :=
  if io.reads path then files path else none

theorem readFileToBuffer_none {io : Outcomes} {files : Files} {path : String} (h : Heap)
    (hr : readBlob io files path = none) : readFileToBuffer io files path h = (none, h) := by
  unfold readBlob at hr
  unfold readFileToBuffer
  rcases hf : files path with _ | blob
  · rfl
  · rw [hf] at hr
    dsimp only
    rw [if_neg (by simpa using hr)]

theorem readFileToBuffer_some {io : Outcomes} {files : Files} {path : String} {blob : Blob}
    (h : Heap) (hr : readBlob io files path = some blob) : readFileToBuffer io files path h =
      (some (h.fileReadIntoMemory.1, blob), h.fileReadIntoMemory.2) := by
  unfold readBlob at hr
  split_ifs at hr with hreads
  simp only [readFileToBuffer, hr, hreads, if_true]

/-- The content of a string that replaces an empty one. -/
theorem replaceBlzString_content (granted : Bool) (dst : BlzString) (data : Blob) (h : Heap) :
    (replaceBlzString granted dst data h).1.content = if granted then data else .empty := by
  cases granted <;> rfl

/-! ## Cache paths -/

/-- The directory of the hack. -/
def g_szBaseDir : String := "sd:/config/d3hack-nx"

/-- The directory of the cached files. -/
def g_szPubfileCacheDir : String := "sd:/config/d3hack-nx/pubfiles"

/-- `GetFilenameTail`: what follows the last separator. -/
def getFilenameTail (path : String) : String :=
  String.ofList (path.toList.rtakeWhile fun c => !(c == '/' || c == '\\'))

/-- `BuildPubfileCachePath`, for the path it writes if it returns true. -/
def buildPubfileCachePath (outSize : ℕ) (filename : Option String) : Option String :=
  match filename with
  | none => none
  | some filename =>
    if filename = "" then none
    else
      let tail := getFilenameTail filename
      if tail = "" then none
      else
        let out := g_szPubfileCacheDir ++ "/" ++ tail
        if out.utf8ByteSize ≥ outSize then none else some out

/-- A character takes four bytes at most. -/
theorem utf8ByteSize_le (s : String) : s.utf8ByteSize ≤ 4 * s.length := by
  rw [← String.ofList_toList (s := s), String.utf8ByteSize_ofList, String.length_ofList]
  induction s.toList with
  | nil => simp
  | cons c cs ih =>
    have hc := c.utf8Size_le_four
    rw [String.utf8Len_cons, List.length_cons]
    omega

/-- A name without separators is the tail of its path. -/
theorem getFilenameTail_eq {name : String} (h : ∀ c ∈ name.toList, c ≠ '/' ∧ c ≠ '\\') :
    getFilenameTail name = name := by
  rw [getFilenameTail, List.rtakeWhile_eq_self_iff.2, String.ofList_toList]
  intro c hc
  simp [h c hc]

/-- A name is free of separators if each of its characters is none. -/
theorem separatorFree_of_all {name : String}
    (h : name.toList.all (fun c => c != '/' && c != '\\') = true) :
    ∀ c ∈ name.toList, c ≠ '/' ∧ c ≠ '\\' := by
  simpa using h

/-- A name without separators is kept whole. -/
theorem buildPubfileCachePath_name {outSize : ℕ} {name : String} (hne : name ≠ "")
    (h : ∀ c ∈ name.toList, c ≠ '/' ∧ c ≠ '\\') (hlen : 4 * name.length + 31 ≤ outSize) :
    buildPubfileCachePath outSize (some name) = some (g_szPubfileCacheDir ++ "/" ++ name) := by
  have hsize : (g_szPubfileCacheDir ++ "/" ++ name).utf8ByteSize < outSize := by
    have hname := utf8ByteSize_le name
    have hdir : (g_szPubfileCacheDir ++ "/").utf8ByteSize = 30 := by decide +kernel
    rw [String.utf8ByteSize_append, hdir]
    omega
  simp only [buildPubfileCachePath, getFilenameTail_eq h, if_neg hne]
  rw [if_neg (by omega)]

end D3Hack
