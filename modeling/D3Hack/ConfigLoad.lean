import D3Hack.ConfigTable
import D3Hack.FsUtil
import D3Hack.SystemAllocator

/-!
# Loading the configuration

`readAll` reads a file into a buffer, `loadFromPath` parses it and applies it, and
`loadPatchConfig` sets the global configuration from the file, or leaves the defaults.
`ReadSite` names the places of the calls.

`readAll_spec` says when reading aborts (`ReadAborts`: an existing file that does not open,
or a file with content that does not read) and what it returns otherwise;
`loadPatchConfig_spec` lifts it to the global configuration.
-/

namespace D3Hack

open Calls Toml

/-- The places of the calls of `LoadFromPath`. -/
inductive ReadSite where
  | bufferAllocator
  | stat
  | allocator
  | openConfig
  | size
  | closeEmpty
  | allocate (size : ℕ)
  | closeUnread
  | read
  | close
  deriving DecidableEq

/-- The path of the configuration. -/
def kConfigPath : String := "sd:/config/d3hack-nx/config.toml"

/-- The variables that loading sets. -/
structure Globals where
  config : PatchConfig := {}
  rtScale : Ieee :=
    ((Ieee.fin ResolutionHackConfig.kHandheldScaleDefault).scale
      ResolutionHackConfig.percent).toFloat
  rtScaleInitialized : Bool := false

variable {Site : Type}

section Load

variable (place : ReadSite → Site) (path : String)

/-- `ReadAll` from the open file on. -/
def readOpened (buffer : Buffer) (error : String) :
    FsProg Site (Option (List UInt8) × String) := do
  -- A failed size call and an empty file take the same branch.
  let size ← NnFs.getFileSize (place .size) path
  if size.getD 0 = 0 then
    NnFs.closeFile (place .closeEmpty) path
    pure (none, error)
  else
    let (resized, buffer) ← buffer.resize (fun n => place (.allocate n)) (size.getD 0)
    if resized then
      let bytes ← NnFs.readFile (place .read) path 0 (size.getD 0)
      match bytes with
      | some bytes =>
        let buffer := { buffer with data := bytes }
        NnFs.closeFile (place .close) path
        pure (some buffer.data, error)
      | none => Prog.abort ("Failed to read file: " ++ path)
    else
      NnFs.closeFile (place .closeUnread) path
      pure (none, "Failed to allocate config buffer")

/-- `ReadAll`, for the text it sets if it returns true; the string is `error_out`. -/
def readAll (buffer : Buffer) (error : String) :
    FsProg Site (Option (List UInt8) × String) := do
  let existing ← doesFileExist (place .stat) path
  if existing then
    let allocator ← getSystemAllocator (place .allocator)
    if allocator then
      let opened ← NnFs.openFile (place .openConfig) path
      if opened then readOpened place path buffer error
      else Prog.abort ("Failed to open file: " ++ path)
    else pure (none, "System allocator unavailable")
  else pure (none, error)

/-- The `error_out` of a text that does not parse. -/
def parseErrorText (e : ParseError) : String :=
  match e.position with
  | some (line, column) =>
    e.description ++ " (line " ++ toString line ++ ", col " ++ toString column ++ ")"
  | none => e.description

variable (api : Api) (devMem : Option ℕ)

/-- `LoadFromPath`, for its result, `out` and `error_out`. -/
def loadFromPath (out : PatchConfig) (error : String) :
    FsProg Site (Bool × PatchConfig × String) := do
  let hasAllocator ← getSystemAllocator (place .bufferAllocator)
  let (text, error) ← readAll place path { hasAllocator } error
  match text with
  | none => pure (false, out, error)
  | some text =>
    match api.parse text with
    | .error e => pure (false, out, parseErrorText e)
    | .ok root => pure (true, applyTable api devMem out root, error)

/-- The scale of the render targets, set once. -/
def Globals.initializeRtScale (g : Globals) : Globals :=
  if g.rtScaleInitialized then g
  else { g with
    rtScale := g.config.resolutionHack.handheldScaleFraction, rtScaleInitialized := true }

/-- `LoadPatchConfig`. -/
def loadPatchConfig (g : Globals) : FsProg Site Globals := do
  let (loaded, config, _) ← loadFromPath place kConfigPath api devMem {} ""
  if loaded then
    let config := { config with initialized := true, defaultsOnly := false }
    pure { g with config }.initializeRtScale
  else
    let config := { config with initialized := true, defaultsOnly := true }
    pure { g with config }.initializeRtScale

/-- `LoadPatchConfigFromPath`, among the variables. -/
def loadPatchConfigFromPath (error : String) (g : Globals) :
    FsProg Site ((Bool × PatchConfig × String) × Globals) := do
  let result ← loadFromPath place path api devMem {} error
  pure (result, g)

end Load

/-! ## What loading does -/

section Spec

variable (place : ReadSite → Site) (fails : Site → Bool) (path : String) (fs : Fs)

/-- The read of a file with content fails, with a buffer for it. -/
def ReadFails (content : List UInt8) : Prop :=
  fails (place .size) = false ∧ content ≠ [] ∧ fails (place .bufferAllocator) = false ∧
    fails (place (.allocate (max content.length 1024))) = false ∧ fails (place .read) = true

/-- The calls that abort: opening a file that is there, or reading it. -/
def ReadAborts : Prop :=
  fails (place .stat) = false ∧ fails (place .allocator) = false ∧
    ∃ content, fs.fileAt path = some content ∧
      (fails (place .openConfig) = true ∨ ReadFails place fails content)

variable {fs}

/-- Reading an open file aborts, or returns nothing, or the whole content. -/
theorem readOpened_spec {content : List UInt8} (hc : fs.fileAt path = some content)
    (error : String) :
    (ReadFails place fails content ∧ ∃ msg,
        (readOpened place path { hasAllocator := !fails (place .bufferAllocator) } error).run
          (faulty fails) fs = (.aborted msg, fs)) ∨
      ¬ReadFails place fails content ∧ ∃ text e,
        (readOpened place path { hasAllocator := !fails (place .bufferAllocator) } error).run
          (faulty fails) fs = (.value (text, e), fs) ∧ (text = none ∨ text = some content) := by
  simp only [readOpened, NnFs.getFileSize, sys, Prog.run_perform_bind]
  rcases hs : fails (place .size) with _ | _
  swap
  · rw [faulty_of_fails hs]
    refine Or.inr ⟨fun h => absurd h.1 (by simp [hs]), none, error, ?_, Or.inl rfl⟩
    exact run_closeFile_bind ..
  rw [faulty_of_not_fails hs]
  simp only [FsCall.exec, hc, Option.map_some, Option.getD_some, List.length_eq_zero_iff]
  rw [Prog.run_ite]
  split_ifs with hnil
  · exact Or.inr ⟨fun h => h.2.1 hnil, none, error, run_closeFile_bind .., Or.inl rfl⟩
  obtain ⟨buffer, hrun⟩ := Buffer.resize_new_spec (fun n => place (.allocate n)) fails fs
    (!fails (place .bufferAllocator)) (List.length_pos_iff.2 hnil)
  rw [Prog.run_bind_value _ hrun, Prog.run_ite]
  split_ifs with hresized
  swap
  · refine Or.inr ⟨fun h => hresized ?_, none, _, run_closeFile_bind .., Or.inl rfl⟩
    simp [h.2.2.1, h.2.2.2.1]
  obtain ⟨halloc, hblock⟩ : fails (place .bufferAllocator) = false ∧
      fails (place (.allocate (max content.length 1024))) = false := by simpa using hresized
  simp only [NnFs.readFile, sys, Prog.run_perform_bind]
  rcases hr : fails (place .read) with _ | _
  · rw [faulty_of_not_fails hr, FsCall.exec_readFile_whole hc]
    refine Or.inr ⟨fun h => absurd h.2.2.2.2 (by simp [hr]), some content, error, ?_, Or.inr rfl⟩
    exact run_closeFile_bind ..
  · rw [faulty_of_fails hr]
    exact Or.inl ⟨⟨hs, hnil, halloc, hblock, hr⟩, _, rfl⟩

/-- Reading aborts, or returns nothing, or the whole content of the file. -/
theorem readAll_spec (hpath : path ≠ "") (error : String) :
    (ReadAborts place fails path fs ∧ ∃ msg,
        (readAll place path { hasAllocator := !fails (place .bufferAllocator) } error).run
          (faulty fails) fs = (.aborted msg, fs)) ∨
      ¬ReadAborts place fails path fs ∧ ∃ text e,
        (readAll place path { hasAllocator := !fails (place .bufferAllocator) } error).run
          (faulty fails) fs = (.value (text, e), fs) ∧
            (text = none ∨ text = fs.fileAt path) := by
  simp only [readAll]
  rw [Prog.run_bind_value _ (run_doesFileExist fails fs _ hpath), Prog.run_ite]
  split_ifs with hfound
  swap
  · refine Or.inr ⟨fun h => hfound ?_, none, error, rfl, Or.inl rfl⟩
    obtain ⟨hstat, -, content, hc, -⟩ := h
    simp [hstat, hc]
  obtain ⟨hstat, content, hc⟩ : fails (place .stat) = false ∧
      ∃ content, fs.fileAt path = some content := by
    simpa [Option.isSome_iff_exists] using hfound
  rw [run_getSystemAllocator_bind]
  rcases halloc : fails (place .allocator) with _ | _
  swap
  · exact Or.inr ⟨fun h => absurd h.2.1 (by simp [halloc]), none, _, rfl, Or.inl rfl⟩
  simp only [Bool.not_false, if_true, NnFs.openFile, sys, Prog.run_perform_bind]
  rcases ho : fails (place .openConfig) with _ | _
  swap
  · rw [faulty_of_fails ho]
    exact Or.inl ⟨⟨hstat, halloc, content, hc, Or.inl ho⟩, _, rfl⟩
  rw [faulty_of_not_fails ho]
  simp only [FsCall.exec, hc, Option.isSome_some, if_true]
  rcases readOpened_spec place fails path hc error with ⟨hfail, hrun⟩ | ⟨hfail, text, e, hrun, ht⟩
  · exact Or.inl ⟨⟨hstat, halloc, content, hc, Or.inr hfail⟩, hrun⟩
  · refine Or.inr ⟨fun h => ?_, text, e, hrun, ht⟩
    obtain ⟨-, -, content', hc', hopen | hread⟩ := h
    · simp [ho] at hopen
    · obtain rfl : content = content' := by simpa [hc] using hc'
      exact hfail hread

/-- With nothing going wrong, reading returns the content of a file that is not empty. -/
theorem readAll_reliable (hpath : path ≠ "") (error : String) :
    (readAll place path { hasAllocator := true } error).run reliable fs =
      (.value ((fs.fileAt path).filter (· ≠ []), error), fs) := by
  simp only [readAll]
  rw [Prog.run_bind_value _ (run_doesFileExist (fun _ => false) fs _ hpath), Prog.run_ite]
  rcases hc : fs.fileAt path with _ | content
  · rfl
  simp only [Bool.not_false, Bool.true_and, Option.isSome_some, if_true]
  rw [run_getSystemAllocator_bind]
  simp only [Bool.not_false, if_true, NnFs.openFile, sys, Prog.run_perform_bind]
  rw [faulty_of_not_fails rfl]
  simp only [FsCall.exec, hc, Option.isSome_some, if_true, readOpened, NnFs.getFileSize, sys,
    Prog.run_perform_bind]
  rw [faulty_of_not_fails rfl]
  simp only [FsCall.exec, hc, Option.map_some, Option.getD_some, List.length_eq_zero_iff]
  rw [Prog.run_ite]
  split_ifs with hnil
  · rw [run_closeFile_bind, hnil]
    rfl
  obtain ⟨buffer, hrun⟩ := Buffer.resize_new_spec (fun n => place (.allocate n)) (fun _ => false)
    fs true (List.length_pos_iff.2 hnil)
  rw [Prog.run_bind_value _ hrun]
  simp only [Bool.not_false, Bool.true_and, if_true, NnFs.readFile, sys, Prog.run_perform_bind]
  rw [faulty_of_not_fails rfl, FsCall.exec_readFile_whole hc]
  refine (run_closeFile_bind ..).trans ?_
  rw [Option.filter_some, if_pos (by simpa using hnil)]
  rfl

variable (fs) (api : Api) (devMem : Option ℕ)

/-- Loading aborts where reading does; else it returns false and leaves `out`, or applies the
table that the whole file parses to. -/
theorem loadFromPath_spec (hpath : path ≠ "") (out : PatchConfig) (error : String) :
    (ReadAborts place fails path fs ∧ ∃ msg,
        (loadFromPath place path api devMem out error).run (faulty fails) fs =
          (.aborted msg, fs)) ∨
      ¬ReadAborts place fails path fs ∧ ∃ ok config e,
        (loadFromPath place path api devMem out error).run (faulty fails) fs =
          (.value (ok, config, e), fs) ∧
            (ok = false ∧ config = out ∨
              ok = true ∧ ∃ text root, fs.fileAt path = some text ∧ api.parse text = .ok root ∧
                config = applyTable api devMem out root) := by
  rw [loadFromPath, run_getSystemAllocator_bind]
  rcases readAll_spec place fails path hpath error with
    ⟨habort, msg, hrun⟩ | ⟨habort, text, e, hrun, htext⟩
  · refine Or.inl ⟨habort, msg, ?_⟩
    rw [Prog.run_bind, hrun]
  refine Or.inr ⟨habort, ?_⟩
  rw [Prog.run_bind_value _ hrun]
  rcases text with _ | text
  · exact ⟨false, out, e, rfl, Or.inl ⟨rfl, rfl⟩⟩
  rcases hp : api.parse text with err | root
  · refine ⟨false, out, parseErrorText err, ?_, Or.inl ⟨rfl, rfl⟩⟩
    simp only [hp, Prog.run_pure]
  · refine ⟨true, applyTable api devMem out root, e, ?_, Or.inr ⟨rfl, text, root, ?_, hp, rfl⟩⟩
    · simp only [hp, Prog.run_pure]
    · exact (htext.resolve_left (by simp)).symm

/-- A configuration is the whole file's table over the defaults, or the defaults. -/
def LoadedOrDefaults (fs : Fs) (config : PatchConfig) : Prop :=
  (∃ text root, fs.fileAt kConfigPath = some text ∧ api.parse text = .ok root ∧
      config = applyTable api devMem {} root) ∨
    config = { initialized := true, defaultsOnly := true }

theorem initializeRtScale_config (g : Globals) : g.initializeRtScale.config = g.config := by
  unfold Globals.initializeRtScale
  split_ifs <;> rfl

theorem loadPatchConfig_spec (g : Globals) :
    (ReadAborts place fails kConfigPath fs ∧ ∃ msg,
        (loadPatchConfig place api devMem g).run (faulty fails) fs = (.aborted msg, fs)) ∨
      ¬ReadAborts place fails kConfigPath fs ∧ ∃ g',
        (loadPatchConfig place api devMem g).run (faulty fails) fs = (.value g', fs) ∧
          LoadedOrDefaults api devMem fs g'.config := by
  rw [loadPatchConfig]
  rcases loadFromPath_spec place fails kConfigPath fs api devMem (by decide) {} "" with
    ⟨habort, msg, hrun⟩ | ⟨habort, ok, config, e, hrun, hres⟩
  · refine Or.inl ⟨habort, msg, ?_⟩
    rw [Prog.run_bind, hrun]
  refine Or.inr ⟨habort, ?_⟩
  rw [Prog.run_bind_value _ hrun]
  rcases hres with ⟨rfl, rfl⟩ | ⟨rfl, text, root, hfile, hparse, rfl⟩
  · refine ⟨_, rfl, Or.inr ?_⟩
    rw [initializeRtScale_config]
  · refine ⟨_, rfl, Or.inl ⟨text, root, hfile, hparse, ?_⟩⟩
    rw [initializeRtScale_config]
    rfl

end Spec

end D3Hack
