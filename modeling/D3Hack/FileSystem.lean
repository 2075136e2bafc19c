import D3Hack.Calls
import Mathlib.Logic.Function.Basic

/-!
# A file system and its calls

`Fs` maps each path to a file with its bytes or to a directory. `FsCall` are the calls of
`nn::fs` that the program makes, with those of the system allocator, and `FsCall.exec` is
what a call does when nothing goes wrong: a rename moves a file, and fails if the source is
missing or the destination exists.

A program labels its calls with the place they are made from, and a pattern of faults makes
the calls of some places fail with no effect (`faulty`). A file is named by its path, so a
handle is the path it was opened with.
-/

namespace D3Hack

open Calls

/-- What a path holds. -/
inductive FsEntry where
  | file (content : List UInt8)
  | directory
  deriving DecidableEq

/-- The file system. -/
abbrev Fs := String → Option FsEntry

/-- `nn::fs::DirectoryEntryType`. -/
inductive EntryType where
  | directory
  | file
  deriving DecidableEq

/-- The type that a call tells of an entry. -/
def FsEntry.type : FsEntry → EntryType
  | .file _ => .file
  | .directory => .directory

/-- The content of the file at a path, if there is one. -/
def Fs.fileAt (fs : Fs) (path : String) : Option (List UInt8) :=
  match fs path with
  | some (.file content) => some content
  | _ => none

theorem Fs.fileAt_eq_some {fs : Fs} {path : String} {content : List UInt8} :
    fs.fileAt path = some content ↔ fs path = some (.file content) := by
  unfold fileAt
  rcases fs path with _ | ⟨c⟩ | _ <;> simp

/-- The calls of `nn::fs` and of the system allocator. -/
inductive FsCall where
  | createDirectory (path : String)
  | getEntryType (path : String)
  | deleteFile (path : String)
  | createFile (path : String) (size : ℕ)
  | openFile (path : String)
  | writeFile (handle : String) (offset : ℕ) (data : List UInt8)
  | flushFile (handle : String)
  | closeFile (handle : String)
  | renameFile (path newPath : String)
  | getFileSize (handle : String)
  | readFile (handle : String) (offset size : ℕ)
  | getSystemAllocator
  | allocate (size : ℕ)

/-- The reply to a call: a result code, or the value that a successful call returns. -/
abbrev FsReply : FsCall → Type
  | .getEntryType _ => Option EntryType
  | .closeFile _ => Unit
  | .getFileSize _ => Option ℕ
  | .readFile _ _ _ => Option (List UInt8)
  | _ => Bool

namespace FsCall

/-- The reply of a call that fails. -/
def failed : (call : FsCall) → FsReply call
  | createDirectory _ => false
  | getEntryType _ => none
  | deleteFile _ => false
  | createFile _ _ => false
  | openFile _ => false
  | writeFile _ _ _ => false
  | flushFile _ => false
  | closeFile _ => ()
  | renameFile _ _ => false
  | getFileSize _ => none
  | readFile _ _ _ => none
  | getSystemAllocator => false
  | allocate _ => false

/-- The reply and the effect of a call in which nothing goes wrong. -/
def exec : (call : FsCall) → Fs → FsReply call × Fs
  | createDirectory path, fs =>
    if fs path = none then (true, Function.update fs path (some .directory)) else (false, fs)
  | getEntryType path, fs => ((fs path).map FsEntry.type, fs)
  | deleteFile path, fs =>
    match fs path with
    | some (.file _) => (true, Function.update fs path none)
    | _ => (false, fs)
  | createFile path size, fs =>
    if fs path = none then
      (true, Function.update fs path (some (.file (List.replicate size 0))))
    else (false, fs)
  | openFile path, fs => ((fs.fileAt path).isSome, fs)
  | writeFile handle offset data, fs =>
    match fs handle with
    | some (.file old) =>
      if offset + data.length ≤ old.length then
        (true, Function.update fs handle
          (some (.file (old.take offset ++ data ++ old.drop (offset + data.length)))))
      else (false, fs)
    | _ => (false, fs)
  | flushFile _, fs => (true, fs)
  | closeFile _, fs => ((), fs)
  | renameFile path newPath, fs =>
    match fs path, fs newPath with
    | some (.file content), none =>
      (true, Function.update (Function.update fs path none) newPath (some (.file content)))
    | _, _ => (false, fs)
  | getFileSize handle, fs => ((fs.fileAt handle).map List.length, fs)
  | readFile handle offset size, fs =>
    match fs.fileAt handle with
    | some content =>
      if offset + size ≤ content.length then (some ((content.drop offset).take size), fs)
      else (none, fs)
    | none => (none, fs)
  | getSystemAllocator, fs => (true, fs)
  | allocate _, fs => (true, fs)

/-- Writing as many bytes as a file has replaces its content. -/
theorem exec_writeFile_whole {fs : Fs} {handle : String} {old data : List UInt8}
    (h : fs handle = some (.file old)) (hlen : data.length = old.length) :
    (writeFile handle 0 data).exec fs =
      (true, Function.update fs handle (some (.file data))) := by
  simp only [exec, h]
  rw [if_pos (by omega), List.drop_of_length_le (by omega)]
  simp

/-- Reading as many bytes as a file has reads the file. -/
theorem exec_readFile_whole {fs : Fs} {handle : String} {content : List UInt8}
    (h : fs.fileAt handle = some content) :
    (readFile handle 0 content.length).exec fs = (some content, fs) := by
  simp [exec, h]

end FsCall

/-- A program over the calls, each labelled with the place it is made from. -/
abbrev FsProg (Site : Type) := Prog (Site × FsCall) fun op => FsReply op.2

/-- One call from a place. -/
def sys {Site : Type} (site : Site) (call : FsCall) : FsProg Site (FsReply call) :=
  Prog.perform (site, call)

namespace NnFs

variable {Site : Type} (site : Site)

/-- `nn::fs::CreateDirectory`. -/
def createDirectory (path : String) : FsProg Site Bool := sys site (.createDirectory path)

/-- `nn::fs::GetEntryType`. -/
def getEntryType (path : String) : FsProg Site (Option EntryType) :=
  sys site (.getEntryType path)

/-- `nn::fs::DeleteFile`. -/
def deleteFile (path : String) : FsProg Site Bool := sys site (.deleteFile path)

/-- `nn::fs::CreateFile`. -/
def createFile (path : String) (size : ℕ) : FsProg Site Bool := sys site (.createFile path size)

/-- `nn::fs::OpenFile`; a handle is the path that it was opened with. -/
def openFile (path : String) : FsProg Site Bool := sys site (.openFile path)

/-- `nn::fs::WriteFile`. -/
def writeFile (handle : String) (offset : ℕ) (data : List UInt8) : FsProg Site Bool :=
  sys site (.writeFile handle offset data)

/-- `nn::fs::FlushFile`. -/
def flushFile (handle : String) : FsProg Site Bool := sys site (.flushFile handle)

/-- `nn::fs::CloseFile`. -/
def closeFile (handle : String) : FsProg Site Unit := sys site (.closeFile handle)

/-- `nn::fs::RenameFile`. -/
def renameFile (path newPath : String) : FsProg Site Bool := sys site (.renameFile path newPath)

/-- `nn::fs::GetFileSize`. -/
def getFileSize (handle : String) : FsProg Site (Option ℕ) := sys site (.getFileSize handle)

/-- `nn::fs::ReadFile`. -/
def readFile (handle : String) (offset size : ℕ) : FsProg Site (Option (List UInt8)) :=
  sys site (.readFile handle offset size)

end NnFs

/-- `GetSystemAllocator`, for whether there is one. -/
def getSystemAllocator {Site : Type} (site : Site) : FsProg Site Bool :=
  sys site .getSystemAllocator

/-- `StandardAllocator::Allocate`, for whether it returns a block. -/
def allocate {Site : Type} (site : Site) (size : ℕ) : FsProg Site Bool :=
  sys site (.allocate size)

/-- The calls under a pattern of faults: the calls of a faulty place fail with no effect. -/
def faulty {Site : Type} (fails : Site → Bool) :
    Handler (Site × FsCall) (fun op => FsReply op.2) Fs :=
  fun op fs => if fails op.1 then (op.2.failed, fs) else op.2.exec fs

section Faults

variable {Site : Type} {fails : Site → Bool} {site : Site}

theorem faulty_of_fails (h : fails site = true) (call : FsCall) (fs : Fs) :
    faulty fails (site, call) fs = (call.failed, fs) := if_pos h

theorem faulty_of_not_fails (h : fails site = false) (call : FsCall) (fs : Fs) :
    faulty fails (site, call) fs = call.exec fs := if_neg (by simp [h])

end Faults

/-- The paths whose entry a call may change. -/
def FsCall.touched : FsCall → List String
  | .createDirectory path => [path]
  | .deleteFile path => [path]
  | .createFile path _ => [path]
  | .writeFile handle _ _ => [handle]
  | .renameFile path newPath => [path, newPath]
  | _ => []

/-- A call leaves the paths it does not touch as they are. -/
theorem FsCall.exec_of_not_touched {call : FsCall} {path : String} (h : path ∉ call.touched)
    (fs : Fs) : (call.exec fs).2 path = fs path := by
  cases call with
  | createDirectory p | createFile p size =>
    have hne : path ≠ p := by simpa [touched] using h
    simp only [exec]
    split_ifs
    · exact Function.update_of_ne hne _ _
    · rfl
  | deleteFile p =>
    have hne : path ≠ p := by simpa [touched] using h
    simp only [exec]
    split
    · exact Function.update_of_ne hne _ _
    · rfl
  | writeFile p offset data =>
    have hne : path ≠ p := by simpa [touched] using h
    simp only [exec]
    split
    · split_ifs
      · exact Function.update_of_ne hne _ _
      · rfl
    · rfl
  | renameFile p q =>
    obtain ⟨hp, hq⟩ : path ≠ p ∧ path ≠ q := by simpa [touched] using h
    simp only [exec]
    split
    · exact (Function.update_of_ne hq _ _).trans (Function.update_of_ne hp _ _)
    · rfl
  | readFile p offset size =>
    simp only [exec]
    split
    · split_ifs <;> rfl
    · rfl
  | _ => rfl

theorem faulty_of_not_touched {Site : Type} (fails : Site → Bool) {op : Site × FsCall}
    {path : String} (h : path ∉ op.2.touched) (fs : Fs) :
    (faulty fails op fs).2 path = fs path := by
  unfold faulty
  split_ifs
  · rfl
  · exact FsCall.exec_of_not_touched h fs

/-- The frame rule: a path that no call of a program touches keeps its entry. -/
theorem run_faulty_of_not_touched {Site α : Type} (fails : Site → Bool) {path : String}
    {p : FsProg Site α} (hp : p.Only fun op => path ∉ op.2.touched) (fs : Fs) :
    (p.run (faulty fails) fs).2 path = fs path := by
  refine Prog.run_keeps (I := fun s : Fs => s path = fs path) _ (fun op s hop hs => ?_) hp rfl
  rw [faulty_of_not_touched fails hop, hs]

section Effects

variable {Site : Type} (fails : Site → Bool) (site : Site) (path : String) (fs : Fs)

theorem faulty_createDirectory_self :
    (faulty fails (site, .createDirectory path) fs).2 path =
      if fs path = none ∧ fails site = false then some .directory else fs path := by
  cases hf : fails site with
  | true => rw [faulty_of_fails hf]; simp
  | false =>
    rw [faulty_of_not_fails hf]
    by_cases hn : fs path = none
    · simp [FsCall.exec, hn]
    · simp [FsCall.exec, hn]

/-- A path is free after the deletion of what is there: nothing, or a file that the call
deletes. -/
def FreeAfterDelete : Prop :=
  fs path = none ∨ (fs.fileAt path).isSome ∧ fails site = false

theorem faulty_deleteFile_self :
    (faulty fails (site, .deleteFile path) fs).2 path = none ↔
      FreeAfterDelete fails site path fs := by
  unfold FreeAfterDelete
  cases hf : fails site with
  | true => rw [faulty_of_fails hf]; simp
  | false =>
    rw [faulty_of_not_fails hf]
    rcases hp : fs path with _ | ⟨content⟩ | _ <;> simp [FsCall.exec, Fs.fileAt, hp]

theorem faulty_renameFile {fs : Fs} {newPath : String} {content : List UInt8}
    (hf : fails site = false) (hsrc : fs path = some (.file content)) (hdst : fs newPath = none) :
    faulty fails (site, .renameFile path newPath) fs =
      (true, Function.update (Function.update fs path none) newPath (some (.file content))) := by
  rw [faulty_of_not_fails hf]
  simp only [FsCall.exec, hsrc, hdst]

/-- A rename to a path that exists fails. -/
theorem faulty_renameFile_of_exists {fs : Fs} {newPath : String} (hdst : fs newPath ≠ none) :
    faulty fails (site, .renameFile path newPath) fs = (false, fs) := by
  cases hf : fails site with
  | true => rw [faulty_of_fails hf]; rfl
  | false =>
    rw [faulty_of_not_fails hf]
    obtain ⟨entry, he⟩ := Option.ne_none_iff_exists'.1 hdst
    rcases hs : fs path with _ | ⟨content⟩ | _ <;> simp only [FsCall.exec, hs, he]

theorem run_getSystemAllocator_bind {α : Type} (f : Bool → FsProg Site α) :
    (getSystemAllocator site >>= f).run (faulty fails) fs =
      (f (!fails site)).run (faulty fails) fs := by
  rw [getSystemAllocator, sys, Prog.run_perform_bind]
  cases hf : fails site with
  | true => rw [faulty_of_fails hf]; rfl
  | false => rw [faulty_of_not_fails hf]; rfl

theorem run_closeFile_bind {α : Type} (f : Unit → FsProg Site α) :
    (NnFs.closeFile site path >>= f).run (faulty fails) fs = (f ()).run (faulty fails) fs := by
  rw [NnFs.closeFile, sys, Prog.run_perform_bind]
  cases hf : fails site with
  | true => rw [faulty_of_fails hf]
  | false => rw [faulty_of_not_fails hf]; rfl

end Effects

/-- The calls when nothing goes wrong. -/
abbrev reliable {Site : Type} : Handler (Site × FsCall) (fun op => FsReply op.2) Fs :=
  faulty fun _ => false

end D3Hack
