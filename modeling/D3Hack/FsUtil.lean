import D3Hack.FileSystem

/-!
# Writing a file atomically

`writeAllAtomic` writes a temporary file, moves an existing target aside to a backup, moves
the temporary file into place and drops the backup. `WriteSite` names the places of its
calls, so that a pattern of faults is a set of places.

`allOrNothing_writeAllAtomic_iff` says for which patterns it is all or nothing: for all but
those where the final move fails and the rollback then does not undo the backup, or restores
a backup that was there before.
-/

namespace D3Hack

open Calls

/-- The places of the calls of `WriteAllAtomic`. -/
inductive WriteSite where
  | createRootDir
  | createHackDir
  | statHackDir
  | deleteTemp
  | createTemp
  | openTemp
  | dropUnopened
  | writeTemp
  | closeUnwritten
  | dropUnwritten
  | flushTemp
  | closeTemp
  | statTarget
  | deleteBackup
  | backUp
  | dropUnbacked
  | install
  | statForRestore
  | restore
  | dropUninstalled
  | statBackup
  | dropBackup
  deriving DecidableEq

/-- The directory of configurations. -/
def kRootDir : String := "sd:/config"

/-- The directory of the hack in it. -/
def kHackDir : String := "sd:/config/d3hack-nx"

variable {Site : Type}

/-- `DoesFileExistImpl`. -/
def doesFileExistImpl (site : Site) (path : String) (expected : EntryType) :
    FsProg Site Bool :=
  if path = "" then pure false
  else do
    let type ← NnFs.getEntryType site path
    pure (type == some expected)

/-- `DoesFileExist`. -/
def doesFileExist (site : Site) (path : String) : FsProg Site Bool :=
  doesFileExistImpl site path .file

section Write

variable (place : WriteSite → Site) (path : String) (text : List UInt8) (what error : String)

/-- `EnsureConfigRootDirs`; the string is `error_out`. -/
def ensureConfigRootDirs : FsProg Site (Bool × String) := do
  let _ ← NnFs.createDirectory (place .createRootDir) kRootDir
  let _ ← NnFs.createDirectory (place .createHackDir) kHackDir
  let ready ← doesFileExistImpl (place .statHackDir) kHackDir .directory
  if ready then pure (true, error)
  else pure (false, "Failed to ensure config directory exists")

/-- The first part of `WriteAllAtomic`, up to closing the temporary file. -/
def writeTemp : FsProg Site (Bool × String) := do
  let tmpPath := path ++ ".tmp"
  let _ ← NnFs.deleteFile (place .deleteTemp) tmpPath
  let created ← NnFs.createFile (place .createTemp) tmpPath text.length
  if created then
    let opened ← NnFs.openFile (place .openTemp) tmpPath
    if opened then
      let written ← NnFs.writeFile (place .writeTemp) tmpPath 0 text
      if written then
        let _ ← NnFs.flushFile (place .flushTemp) tmpPath
        NnFs.closeFile (place .closeTemp) tmpPath
        pure (true, error)
      else
        NnFs.closeFile (place .closeUnwritten) tmpPath
        let _ ← NnFs.deleteFile (place .dropUnwritten) tmpPath
        pure (false, "Failed to write temp " ++ what)
    else
      let _ ← NnFs.deleteFile (place .dropUnopened) tmpPath
      pure (false, "Failed to open temp " ++ what)
  else pure (false, "Failed to create temp " ++ what)

/-- The second part: an existing target is renamed to the backup. -/
def backUpTarget : FsProg Site (Bool × String) := do
  let bakPath := path ++ ".bak"
  let existing ← doesFileExist (place .statTarget) path
  if existing then
    let _ ← NnFs.deleteFile (place .deleteBackup) bakPath
    let renamed ← NnFs.renameFile (place .backUp) path bakPath
    if renamed then pure (true, error)
    else
      let _ ← NnFs.deleteFile (place .dropUnbacked) (path ++ ".tmp")
      pure (false, "Failed to backup existing " ++ what)
  else pure (true, error)

/-- The last part: the temporary file is renamed to the target, or the backup restored. -/
def installTemp : FsProg Site (Bool × String) := do
  let tmpPath := path ++ ".tmp"
  let bakPath := path ++ ".bak"
  let renamed ← NnFs.renameFile (place .install) tmpPath path
  if renamed then
    let existing ← doesFileExist (place .statBackup) bakPath
    if existing then
      let _ ← NnFs.deleteFile (place .dropBackup) bakPath
      pure (true, error)
    else pure (true, error)
  else
    let existing ← doesFileExist (place .statForRestore) bakPath
    if existing then
      let _ ← NnFs.renameFile (place .restore) bakPath path
      let _ ← NnFs.deleteFile (place .dropUninstalled) tmpPath
      pure (false, "Failed to move temp " ++ what ++ " into place")
    else
      let _ ← NnFs.deleteFile (place .dropUninstalled) tmpPath
      pure (false, "Failed to move temp " ++ what ++ " into place")

/-- The parts after the temporary file is complete. -/
def replaceTarget : FsProg Site (Bool × String) := do
  let (backed, error) ← backUpTarget place path what error
  if backed then installTemp place path what error
  else pure (false, error)

/-- `WriteAllAtomic`. -/
def writeAllAtomic : FsProg Site (Bool × String) := do
  let (ready, error) ← ensureConfigRootDirs place error
  if ready then
    let (written, error) ← writeTemp place path text what error
    if written then replaceTarget place path what error
    else pure (false, error)
  else pure (false, error)

end Write

/-! ## Paths -/

/-- A path of a file to write: not one of the two directories. -/
structure TargetPath (path : String) : Prop where
  ne_empty : path ≠ ""
  ne_rootDir : path ≠ kRootDir
  ne_hackDir : path ≠ kHackDir

theorem append_ne_self {path suffix : String} (hs : suffix.length ≠ 0) :
    path ++ suffix ≠ path := by
  intro h
  have hlen := congrArg String.length h
  rw [String.length_append] at hlen
  omega

/-- Strings with different last characters differ. -/
theorem append_ne_of_last {path suffix other : String} {x : Char}
    (hs : suffix.toList.getLast? = some x) (ho : other.toList.getLast? ≠ some x) :
    path ++ suffix ≠ other := by
  rintro rfl
  rw [String.toList_append, List.getLast?_append, hs] at ho
  exact ho rfl

theorem tmp_ne_self (path : String) : path ++ ".tmp" ≠ path := append_ne_self (by decide)

theorem bak_ne_self (path : String) : path ++ ".bak" ≠ path := append_ne_self (by decide)

theorem tmp_ne_bak (path : String) : path ++ ".tmp" ≠ path ++ ".bak" :=
  append_ne_of_last (x := 'p') (by decide) (by simp)

theorem targetPath_tmp (path : String) : TargetPath (path ++ ".tmp") where
  ne_empty := append_ne_of_last (x := 'p') (by decide) (by decide)
  ne_rootDir := append_ne_of_last (x := 'p') (by decide) (by decide)
  ne_hackDir := append_ne_of_last (x := 'p') (by decide) (by decide)

theorem targetPath_bak (path : String) : TargetPath (path ++ ".bak") where
  ne_empty := append_ne_of_last (x := 'k') (by decide) (by decide)
  ne_rootDir := append_ne_of_last (x := 'k') (by decide) (by decide)
  ne_hackDir := append_ne_of_last (x := 'k') (by decide) (by decide)

/-! ## What each part does -/

section Parts

variable (place : WriteSite → Site) (fails : Site → Bool) (path : String) (text : List UInt8)
  (what error : String) (fs : Fs)

/-- The directory is there when it is checked. -/
def DirsReady : Prop :=
  fails (place .statHackDir) = false ∧ (fs kHackDir = some .directory ∨
    fs kHackDir = none ∧ fails (place .createHackDir) = false)

/-- Every call that the temporary file needs succeeds. -/
def TempWritten : Prop :=
  FreeAfterDelete fails (place .deleteTemp) (path ++ ".tmp") fs ∧
    fails (place .createTemp) = false ∧ fails (place .openTemp) = false ∧
      fails (place .writeTemp) = false

/-- Every call that the backup needs succeeds. -/
def BackedUp : Prop :=
  FreeAfterDelete fails (place .deleteBackup) (path ++ ".bak") fs ∧
    fails (place .backUp) = false

/-- The target is found when it is checked. -/
def TargetSeen : Prop := fails (place .statTarget) = false ∧ (fs.fileAt path).isSome

/-- The calls that the rollback needs succeed. -/
def RollbackWorks : Prop :=
  fails (place .statForRestore) = false ∧ fails (place .restore) = false

/-- The failed install is followed by a rename of the backup to the target. -/
def Restored : Prop :=
  fs path = none ∧ (fs.fileAt (path ++ ".bak")).isSome ∧ RollbackWorks place fails

/-- The install fails after the target was backed up, and the backup is not restored; or it
fails for a target that was absent, and a backup from before is restored. -/
def RollbackLost : Prop :=
  fails (place .install) = true ∧
    (TargetSeen place fails path fs ∧ BackedUp place fails path fs ∧
        ¬RollbackWorks place fails ∨ Restored place fails path fs)

theorem run_doesFileExistImpl (site : Site) {path : String} (hpath : path ≠ "")
    (expected : EntryType) : (doesFileExistImpl site path expected).run (faulty fails) fs =
      (.value (!fails site && (fs path).map FsEntry.type == some expected), fs) := by
  rw [doesFileExistImpl, if_neg hpath]
  simp only [NnFs.getEntryType, sys, Prog.run_perform_bind, Prog.run_pure]
  cases h : fails site with
  | true => rw [faulty_of_fails h]; rfl
  | false => rw [faulty_of_not_fails h]; rfl

theorem run_doesFileExist (site : Site) {path : String} (hpath : path ≠ "") :
    (doesFileExist site path).run (faulty fails) fs =
      (.value (!fails site && (fs.fileAt path).isSome), fs) := by
  rw [doesFileExist, run_doesFileExistImpl _ _ _ hpath]
  have : ((fs path).map FsEntry.type == some .file) = (fs.fileAt path).isSome := by
    unfold Fs.fileAt
    rcases fs path with _ | ⟨content⟩ | _ <;> rfl
  rw [this]

/-- The first calls touch only the two directories. -/
theorem ensureConfigRootDirs_spec : ∃ ok e fs',
    (ensureConfigRootDirs place error).run (faulty fails) fs = (.value (ok, e), fs') ∧
      (ok = true ↔ DirsReady place fails fs) ∧
        ∀ p, p ≠ kRootDir → p ≠ kHackDir → fs' p = fs p := by
  have hne : kHackDir ≠ kRootDir := by decide
  simp only [ensureConfigRootDirs, NnFs.createDirectory, sys, Prog.run_perform_bind]
  rw [Prog.run_bind_value _ (run_doesFileExistImpl _ _ _ (by decide) _)]
  set fs₁ := (faulty fails (place .createRootDir, .createDirectory kRootDir) fs).2 with hfs₁
  set fs₂ := (faulty fails (place .createHackDir, .createDirectory kHackDir) fs₁).2 with hfs₂
  have hroot : ∀ p, p ≠ kRootDir → fs₁ p = fs p := fun p hp =>
    faulty_of_not_touched fails (by simpa [FsCall.touched] using hp) fs
  have hhack : ∀ p, p ≠ kHackDir → fs₂ p = fs₁ p := fun p hp =>
    faulty_of_not_touched fails (by simpa [FsCall.touched] using hp) fs₁
  have hdir : fs₂ kHackDir = if fs kHackDir = none ∧ fails (place .createHackDir) = false
      then some .directory else fs kHackDir := by
    rw [hfs₂, faulty_createDirectory_self, hroot _ hne]
  have hready : (!fails (place .statHackDir) && (fs₂ kHackDir).map FsEntry.type == some .directory)
      = true ↔ DirsReady place fails fs := by
    rw [hdir]
    unfold DirsReady
    cases fails (place .statHackDir) <;> cases fails (place .createHackDir) <;>
      rcases fs kHackDir with _ | ⟨content⟩ | _ <;> simp [FsEntry.type]
  have hframe : ∀ p, p ≠ kRootDir → p ≠ kHackDir → fs₂ p = fs p := fun p hr hh =>
    (hhack p hh).trans (hroot p hr)
  rw [Prog.run_ite]
  split_ifs with hok
  · exact ⟨true, error, fs₂, rfl, by simpa using hready.1 hok, hframe⟩
  · exact ⟨false, _, fs₂, rfl, by simpa using fun h => hok (hready.2 h), hframe⟩

/-- The calls on the temporary file touch nothing else. -/
theorem only_writeTemp {p : String} (hp : p ≠ path ++ ".tmp") :
    (writeTemp place path text what error).Only fun op => p ∉ op.2.touched := by
  have hmem : p ∉ [path ++ ".tmp"] := by simpa using hp
  simp only [writeTemp, NnFs.deleteFile, NnFs.createFile, NnFs.openFile, NnFs.writeFile,
    NnFs.flushFile, NnFs.closeFile, sys, Prog.only_perform_bind, FsCall.touched]
  refine ⟨hmem, fun _ => ⟨hmem, fun _ => Prog.Only.ite ?_ (Prog.only_pure _ _)⟩⟩
  refine ⟨List.not_mem_nil, fun _ => Prog.Only.ite ?_ ⟨hmem, fun _ => Prog.only_pure _ _⟩⟩
  refine ⟨hmem, fun _ => Prog.Only.ite ?_ ?_⟩
  · exact ⟨List.not_mem_nil, fun _ => ⟨List.not_mem_nil, fun _ => Prog.only_pure _ _⟩⟩
  · exact ⟨List.not_mem_nil, fun _ => ⟨hmem, fun _ => Prog.only_pure _ _⟩⟩

/-- The temporary file is complete if its calls succeed; nothing else changes. -/
theorem writeTemp_spec : ∃ ok e fs',
    (writeTemp place path text what error).run (faulty fails) fs = (.value (ok, e), fs') ∧
      (ok = true ↔ TempWritten place fails path fs) ∧
        (ok = true → fs' (path ++ ".tmp") = some (.file text)) ∧
          ∀ p, p ≠ path ++ ".tmp" → fs' p = fs p := by
  have hframe : ∀ p, p ≠ path ++ ".tmp" →
      ((writeTemp place path text what error).run (faulty fails) fs).2 p = fs p := fun p hp =>
    run_faulty_of_not_touched fails (only_writeTemp place path text what error hp) fs
  suffices h : ∃ ok e fs',
      (writeTemp place path text what error).run (faulty fails) fs = (.value (ok, e), fs') ∧
        (ok = true ↔ TempWritten place fails path fs) ∧
          (ok = true → fs' (path ++ ".tmp") = some (.file text)) by
    obtain ⟨ok, e, fs', hrun, hok, htext⟩ := h
    exact ⟨ok, e, fs', hrun, hok, htext, fun p hp => by rw [← hframe p hp, hrun]⟩
  simp only [writeTemp, NnFs.deleteFile, NnFs.createFile, NnFs.openFile, NnFs.writeFile,
    NnFs.flushFile, NnFs.closeFile, sys, Prog.run_perform_bind]
  have hfree := faulty_deleteFile_self fails (place .deleteTemp) (path ++ ".tmp") fs
  set fs₁ := (faulty fails (place .deleteTemp, .deleteFile (path ++ ".tmp")) fs).2
  rcases hc : fails (place .createTemp) with _ | _
  swap
  · rw [faulty_of_fails hc]
    exact ⟨false, _, _, rfl, by simp [TempWritten, hc], by simp⟩
  rw [faulty_of_not_fails hc]
  by_cases hn : fs₁ (path ++ ".tmp") = none
  swap
  · simp only [FsCall.exec, if_neg hn]
    exact ⟨false, _, _, rfl, by simp [TempWritten, ← hfree, hn], by simp⟩
  simp only [FsCall.exec, if_pos hn, if_true]
  set fs₂ := Function.update fs₁ (path ++ ".tmp") (some (.file (List.replicate text.length 0)))
  have hfs₂ : fs₂ (path ++ ".tmp") = some (.file (List.replicate text.length 0)) :=
    Function.update_self ..
  rw [Prog.run_perform_bind]
  rcases ho : fails (place .openTemp) with _ | _
  swap
  · rw [faulty_of_fails ho]
    exact ⟨false, _, _, rfl, by simp [TempWritten, ho], by simp⟩
  have hopen : FsCall.exec (.openFile (path ++ ".tmp")) fs₂ = (true, fs₂) := by
    simp [FsCall.exec, Fs.fileAt, hfs₂]
  rw [faulty_of_not_fails ho, hopen]
  simp only [if_true]
  rw [Prog.run_perform_bind]
  rcases hw : fails (place .writeTemp) with _ | _
  swap
  · rw [faulty_of_fails hw]
    exact ⟨false, _, _, rfl, by simp [TempWritten, hw], by simp⟩
  rw [faulty_of_not_fails hw, FsCall.exec_writeFile_whole hfs₂ (by simp)]
  refine ⟨true, error, _, rfl, by simp [TempWritten, hc, ho, hw, hfree.1 hn], fun _ => ?_⟩
  rw [faulty_of_not_touched fails List.not_mem_nil, faulty_of_not_touched fails List.not_mem_nil]
  exact Function.update_self ..

/-- A target that is found is moved to the backup, or stays. -/
theorem backUpTarget_spec (hpath : path ≠ "") : ∃ ok e fs',
      (backUpTarget place path what error).run (faulty fails) fs = (.value (ok, e), fs') ∧
        (¬TargetSeen place fails path fs ∧ ok = true ∧ fs' = fs ∨
          TargetSeen place fails path fs ∧ BackedUp place fails path fs ∧ ok = true ∧
            fs' path = none ∧ fs' (path ++ ".bak") = fs path ∧
              (∀ p, p ≠ path → p ≠ path ++ ".bak" → fs' p = fs p) ∨
          TargetSeen place fails path fs ∧ ¬BackedUp place fails path fs ∧ ok = false ∧
            fs' path = fs path) := by
  have hne : path ≠ path ++ ".bak" := (bak_ne_self path).symm
  have htmp : path ∉ [path ++ ".tmp"] := by simpa using (tmp_ne_self path).symm
  simp only [backUpTarget]
  rw [Prog.run_bind_value _ (run_doesFileExist _ _ _ hpath), Prog.run_ite]
  split_ifs with hseen
  swap
  · refine ⟨true, error, fs, rfl, Or.inl ⟨?_, rfl, rfl⟩⟩
    simpa [TargetSeen] using hseen
  obtain ⟨hstat, content, hcontent⟩ : fails (place .statTarget) = false ∧
      ∃ content, fs path = some (.file content) := by
    simpa [Option.isSome_iff_exists, Fs.fileAt_eq_some] using hseen
  have hseen' : TargetSeen place fails path fs :=
    ⟨hstat, by rw [Fs.fileAt_eq_some.2 hcontent]; rfl⟩
  simp only [NnFs.deleteFile, NnFs.renameFile, sys, Prog.run_perform_bind]
  have hfree := faulty_deleteFile_self fails (place .deleteBackup) (path ++ ".bak") fs
  have hoff : ∀ p, p ≠ path ++ ".bak" →
      (faulty fails (place .deleteBackup, .deleteFile (path ++ ".bak")) fs).2 p = fs p :=
    fun p hp => faulty_of_not_touched fails (by simpa [FsCall.touched] using hp) fs
  set fs₁ := (faulty fails (place .deleteBackup, .deleteFile (path ++ ".bak")) fs).2
  have hpath₁ : fs₁ path = some (.file content) := by rw [hoff _ hne, hcontent]
  by_cases hbacked : BackedUp place fails path fs
  · rw [faulty_renameFile _ _ _ hbacked.2 hpath₁ (hfree.2 hbacked.1)]
    dsimp only
    refine ⟨true, error, _, rfl, Or.inr (Or.inl ⟨hseen', hbacked, rfl, ?_, ?_, ?_⟩)⟩
    · rw [Function.update_of_ne hne, Function.update_self]
    · rw [Function.update_self, hcontent]
    · intro p hp hpb
      rw [Function.update_of_ne hpb, Function.update_of_ne hp, hoff p hpb]
  · have hstay : faulty fails (place .backUp, .renameFile path (path ++ ".bak")) fs₁ =
        (false, fs₁) := by
      rcases hf : fails (place .backUp) with _ | _
      · exact faulty_renameFile_of_exists _ _ _ fun hn => hbacked ⟨hfree.1 hn, hf⟩
      · exact faulty_of_fails hf _ _
    rw [hstay]
    dsimp only
    refine ⟨false, _, _, rfl, Or.inr (Or.inr ⟨hseen', hbacked, rfl, ?_⟩)⟩
    rw [faulty_of_not_touched fails htmp, hpath₁, hcontent]

/-- The temporary file is moved to a free target; otherwise a free target takes the backup. -/
theorem installTemp_spec {fs : Fs} (htmp : fs (path ++ ".tmp") = some (.file text)) :
    ∃ ok e fs', (installTemp place path what error).run (faulty fails) fs =
      (.value (ok, e), fs') ∧
        ((fails (place .install) = false ∧ fs path = none) ∧ ok = true ∧
            fs' path = some (.file text) ∨
          ¬(fails (place .install) = false ∧ fs path = none) ∧ ok = false ∧
            (Restored place fails path fs → fs' path = fs (path ++ ".bak")) ∧
              (¬Restored place fails path fs → fs' path = fs path)) := by
  have hbak : path ∉ [path ++ ".bak"] := by simpa using (bak_ne_self path).symm
  have htmp' : path ∉ [path ++ ".tmp"] := by simpa using (tmp_ne_self path).symm
  have hexists := fun s fs => run_doesFileExist fails fs s (targetPath_bak path).ne_empty
  simp only [installTemp, NnFs.renameFile, NnFs.deleteFile, sys, Prog.run_perform_bind]
  by_cases hin : fails (place .install) = false ∧ fs path = none
  · rw [faulty_renameFile _ _ _ hin.1 htmp hin.2]
    simp only [if_true]
    rw [Prog.run_bind_value _ (hexists _ _), Prog.run_ite]
    split_ifs
    · refine ⟨true, error, _, rfl, Or.inl ⟨hin, rfl, ?_⟩⟩
      rw [faulty_of_not_touched fails hbak, Function.update_self]
    · exact ⟨true, error, _, rfl, Or.inl ⟨hin, rfl, Function.update_self ..⟩⟩
  have hstay : faulty fails (place .install, .renameFile (path ++ ".tmp") path) fs =
      (false, fs) := by
    rcases hf : fails (place .install) with _ | _
    · exact faulty_renameFile_of_exists _ _ _ fun hn => hin ⟨hf, hn⟩
    · exact faulty_of_fails hf _ _
  rw [hstay]
  simp only [Bool.false_eq_true, if_false]
  rw [Prog.run_bind_value _ (hexists _ _), Prog.run_ite]
  split_ifs with hfound
  swap
  · refine ⟨false, _, _, rfl, Or.inr ⟨hin, rfl, fun hr => absurd ?_ hfound, fun _ => ?_⟩⟩
    · simp [hr.2.1, hr.2.2.1]
    · rw [faulty_of_not_touched fails htmp']
  obtain ⟨hstat, content, hcontent⟩ : fails (place .statForRestore) = false ∧
      ∃ content, fs (path ++ ".bak") = some (.file content) := by
    simpa [Option.isSome_iff_exists, Fs.fileAt_eq_some] using hfound
  have hsome : (fs.fileAt (path ++ ".bak")).isSome := by rw [Fs.fileAt_eq_some.2 hcontent]; rfl
  simp only [Prog.run_perform_bind]
  refine ⟨false, _, _, rfl, Or.inr ⟨hin, rfl, ?_⟩⟩
  rw [faulty_of_not_touched fails htmp']
  by_cases hr : fs path = none ∧ fails (place .restore) = false
  · rw [faulty_renameFile _ _ _ hr.2 hcontent hr.1]
    dsimp only
    refine ⟨fun _ => ?_, fun hn => absurd ⟨hr.1, hsome, hstat, hr.2⟩ hn⟩
    rw [Function.update_self, hcontent]
  · refine ⟨fun h => absurd ⟨h.1, h.2.2.2⟩ hr, fun _ => ?_⟩
    rcases hf : fails (place .restore) with _ | _
    · rw [faulty_renameFile_of_exists _ _ _ fun hn => hr ⟨hn, hf⟩]
    · rw [faulty_of_fails hf]

/-- From a complete temporary file on: the target holds the text and the rollback did not
fail, or the target is as it was unless the rollback failed. -/
theorem replaceTarget_spec (hpath : path ≠ "") {fs : Fs}
    (htmp : fs (path ++ ".tmp") = some (.file text)) : ∃ ok e fs',
      (replaceTarget place path what error).run (faulty fails) fs = (.value (ok, e), fs') ∧
        (ok = true ∧ fs' path = some (.file text) ∧ ¬RollbackLost place fails path fs ∨
          ok = false ∧ (fs' path = fs path ↔ ¬RollbackLost place fails path fs)) := by
  obtain ⟨ok₁, e₁, fs₁, hrun₁, hcases⟩ :=
    backUpTarget_spec place fails path what error fs hpath
  rw [replaceTarget, Prog.run_bind_value _ hrun₁]
  have hsome : TargetSeen place fails path fs → fs path ≠ none := by
    rintro ⟨-, hsome⟩ hn
    simp [Fs.fileAt, hn] at hsome
  rcases hcases with ⟨hseen, rfl, rfl⟩ | ⟨hseen, hbacked, rfl, hpath₁, hbak₁, hoff⟩ |
      ⟨hseen, hbacked, rfl, hpath₁⟩
  · obtain ⟨ok, e, fs', hrun, hres⟩ := installTemp_spec place fails path text what e₁ htmp
    refine ⟨ok, e, fs', hrun, ?_⟩
    rcases hres with ⟨hin, rfl, htext⟩ | ⟨hin, rfl, hre, hno⟩
    · exact Or.inl ⟨rfl, htext, fun hl => absurd hl.1 (by simp [hin.1])⟩
    refine Or.inr ⟨rfl, ?_⟩
    by_cases hr : Restored place fails path fs₁
    · have hf : fails (place .install) = true := by simpa [hr.1] using hin
      refine iff_of_false (fun he => ?_) (not_not.2 ⟨hf, Or.inr hr⟩)
      have hbn : fs₁ (path ++ ".bak") = none := by rw [← hre hr, he, hr.1]
      have hbs := hr.2.1
      simp [Fs.fileAt, hbn] at hbs
    · refine iff_of_true (hno hr) ?_
      rintro ⟨-, ⟨hs, -⟩ | hr'⟩
      · exact hseen hs
      · exact hr hr'
  · obtain ⟨ok, e, fs', hrun, hres⟩ := installTemp_spec place fails path text what e₁
      ((hoff _ (tmp_ne_self path) (tmp_ne_bak path)).trans htmp)
    refine ⟨ok, e, fs', hrun, ?_⟩
    rcases hres with ⟨hin, rfl, htext⟩ | ⟨hin, rfl, hre, hno⟩
    · exact Or.inl ⟨rfl, htext, fun hl => absurd hl.1 (by simp [hin.1])⟩
    refine Or.inr ⟨rfl, ?_⟩
    have hf : fails (place .install) = true := by simpa [hpath₁] using hin
    have hsb : (fs₁.fileAt (path ++ ".bak")).isSome := by
      have := hseen.2
      rwa [Fs.fileAt, ← hbak₁, ← Fs.fileAt] at this
    by_cases hw : RollbackWorks place fails
    · refine iff_of_true ((hre ⟨hpath₁, hsb, hw⟩).trans hbak₁) ?_
      rintro ⟨-, ⟨-, -, hw'⟩ | hr⟩
      · exact hw' hw
      · exact hsome hseen hr.1
    · refine iff_of_false (fun he => ?_) (not_not.2 ⟨hf, Or.inl ⟨hseen, hbacked, hw⟩⟩)
      exact hsome hseen (he ▸ (hno fun hr => hw hr.2.2).trans hpath₁)
  · refine ⟨false, e₁, fs₁, rfl, Or.inr ⟨rfl, iff_of_true hpath₁ ?_⟩⟩
    rintro ⟨-, ⟨-, hb, -⟩ | hr⟩
    · exact hbacked hb
    · exact hsome hseen hr.1

theorem fileAt_congr {fs fs' : Fs} {p : String} (h : fs' p = fs p) :
    fs'.fileAt p = fs.fileAt p := by
  unfold Fs.fileAt
  rw [h]

/-- The rollback depends only on the target and the backup. -/
theorem rollbackLost_congr {fs fs' : Fs} (hpath : fs' path = fs path)
    (hbak : fs' (path ++ ".bak") = fs (path ++ ".bak")) :
    RollbackLost place fails path fs' ↔ RollbackLost place fails path fs := by
  unfold RollbackLost TargetSeen BackedUp Restored FreeAfterDelete
  rw [fileAt_congr hpath, fileAt_congr hbak, hpath, hbak]

/-- A write that succeeds leaves the text; one that fails leaves the target, unless it gets
to a rollback that fails. -/
theorem writeAllAtomic_spec (hpath : TargetPath path) :
    ∃ ok e fs',
      (writeAllAtomic place path text what error).run (faulty fails) fs = (.value (ok, e), fs') ∧
        (ok = true ∧ fs' path = some (.file text) ∧
            ¬(DirsReady place fails fs ∧ TempWritten place fails path fs ∧
              RollbackLost place fails path fs) ∨
          ok = false ∧ (fs' path = fs path ↔
            ¬(DirsReady place fails fs ∧ TempWritten place fails path fs ∧
              RollbackLost place fails path fs))) := by
  obtain ⟨ok₁, e₁, fs₁, hrun₁, hok₁, hoff₁⟩ := ensureConfigRootDirs_spec place fails error fs
  have hsame₁ : ∀ p, TargetPath p → fs₁ p = fs p := fun p hp =>
    hoff₁ p hp.ne_rootDir hp.ne_hackDir
  have htmp₁ := hsame₁ _ (targetPath_tmp path)
  obtain ⟨ok₂, e₂, fs₂, hrun₂, hok₂, htext, hoff₂⟩ :=
    writeTemp_spec place fails path text what e₁ fs₁
  have hwritten : TempWritten place fails path fs₁ ↔ TempWritten place fails path fs := by
    rw [TempWritten, TempWritten, FreeAfterDelete, FreeAfterDelete, fileAt_congr htmp₁, htmp₁]
  have hpath₂ : fs₂ path = fs path :=
    (hoff₂ _ (tmp_ne_self path).symm).trans (hsame₁ _ hpath)
  have hbak₂ : fs₂ (path ++ ".bak") = fs (path ++ ".bak") :=
    (hoff₂ _ (tmp_ne_bak path).symm).trans (hsame₁ _ (targetPath_bak path))
  rw [writeAllAtomic, Prog.run_bind_value _ hrun₁]
  rcases ok₁ with _ | _
  · refine ⟨false, e₁, fs₁, rfl, Or.inr ⟨rfl, iff_of_true (hsame₁ _ hpath) fun h => ?_⟩⟩
    simpa using hok₁.2 h.1
  simp only [if_true]
  rw [Prog.run_bind_value _ hrun₂]
  rcases ok₂ with _ | _
  · refine ⟨false, e₂, fs₂, rfl, Or.inr ⟨rfl, iff_of_true hpath₂ fun h => ?_⟩⟩
    simpa using hok₂.2 (hwritten.2 h.2.1)
  obtain ⟨ok, e, fs', hrun, hres⟩ := replaceTarget_spec place fails path text what e₂
    hpath.ne_empty (htext rfl)
  refine ⟨ok, e, fs', hrun, ?_⟩
  rw [rollbackLost_congr place fails path hpath₂ hbak₂] at hres
  rcases hres with ⟨rfl, htarget, hl⟩ | ⟨rfl, hiff⟩
  · exact Or.inl ⟨rfl, htarget, fun h => hl h.2.2⟩
  · refine Or.inr ⟨rfl, ?_⟩
    rw [← hpath₂, hiff]
    exact not_congr ⟨fun h => ⟨hok₁.1 rfl, hwritten.1 (hok₂.1 rfl), h⟩, fun h => h.2.2⟩

/-- With no directory in the way and nothing going wrong, a write returns true. -/
theorem writeAllAtomic_given (hgives : ∀ site, fails site = false) (hpath : TargetPath path)
    (hdir : fs kHackDir = some .directory)
    (hfree : ∀ p ∈ [path, path ++ ".tmp", path ++ ".bak"], fs p ≠ some .directory) :
    ∃ e fs', (writeAllAtomic place path text what error).run (faulty fails) fs =
      (.value (true, e), fs') := by
  have hfile : ∀ {fs : Fs} {p : String}, fs p ≠ some .directory →
      fs p = none ∨ (fs.fileAt p).isSome = true := by
    intro fs p hp
    unfold Fs.fileAt
    rcases hfs : fs p with _ | ⟨content⟩ | _
    · exact Or.inl rfl
    · exact Or.inr rfl
    · exact absurd hfs hp
  obtain ⟨ok₁, e₁, fs₁, hrun₁, hok₁, hoff₁⟩ := ensureConfigRootDirs_spec place fails error fs
  have hsame₁ : ∀ p, TargetPath p → fs₁ p = fs p := fun p hp =>
    hoff₁ p hp.ne_rootDir hp.ne_hackDir
  obtain ⟨ok₂, e₂, fs₂, hrun₂, hok₂, htext, hoff₂⟩ :=
    writeTemp_spec place fails path text what e₁ fs₁
  have hpath₂ : fs₂ path = fs path :=
    (hoff₂ _ (tmp_ne_self path).symm).trans (hsame₁ _ hpath)
  have hbak₂ : fs₂ (path ++ ".bak") = fs (path ++ ".bak") :=
    (hoff₂ _ (tmp_ne_bak path).symm).trans (hsame₁ _ (targetPath_bak path))
  obtain rfl : ok₁ = true := hok₁.2 ⟨hgives _, Or.inl hdir⟩
  have hwritten : TempWritten place fails path fs₁ := by
    have htmp := hfile (hsame₁ _ (targetPath_tmp path) ▸ hfree (path ++ ".tmp") (by simp))
    exact ⟨htmp.imp_right fun h => ⟨h, hgives _⟩, hgives _, hgives _, hgives _⟩
  obtain rfl : ok₂ = true := hok₂.2 hwritten
  obtain ⟨ok₃, e₃, fs₃, hrun₃, hcases⟩ :=
    backUpTarget_spec place fails path what e₂ fs₂ hpath.ne_empty
  have hbackedUp : BackedUp place fails path fs₂ := by
    have hbak := hfile (hbak₂ ▸ hfree (path ++ ".bak") (by simp))
    exact ⟨hbak.imp_right fun h => ⟨h, hgives _⟩, hgives _⟩
  -- The target is free for the install: it was absent, or it is the backup now.
  have hready : ok₃ = true ∧ fs₃ path = none ∧ fs₃ (path ++ ".tmp") = some (.file text) := by
    rcases hcases with ⟨hseen, rfl, rfl⟩ | ⟨-, -, rfl, hnone, -, hoff⟩ | ⟨-, hno, -⟩
    · refine ⟨rfl, (hfile (hpath₂ ▸ hfree path (by simp))).resolve_right fun h => ?_, htext rfl⟩
      exact hseen ⟨hgives _, h⟩
    · exact ⟨rfl, hnone, (hoff _ (tmp_ne_self path) (tmp_ne_bak path)).trans (htext rfl)⟩
    · exact absurd hbackedUp hno
  obtain ⟨rfl, hnone, htmp⟩ := hready
  obtain ⟨ok, e, fs', hrun, hres⟩ := installTemp_spec place fails path text what e₃ htmp
  obtain rfl : ok = true := by
    rcases hres with ⟨-, rfl, -⟩ | ⟨hno, -⟩
    · rfl
    · exact absurd ⟨hgives _, hnone⟩ hno
  refine ⟨e, fs', ?_⟩
  rw [writeAllAtomic, Prog.run_bind_value _ hrun₁]
  simp only [if_true]
  rw [Prog.run_bind_value _ hrun₂]
  simp only [if_true]
  rw [replaceTarget, Prog.run_bind_value _ hrun₃]
  simp only [if_true]
  exact hrun

end Parts

/-- What a write promises about the target: the text if it returns true, what was there
before if it returns false. -/
def AllOrNothing (path : String) (text : List UInt8) (before : Fs)
    (result : Outcome (Bool × String) × Fs) : Prop :=
  ∃ ok e, result.1 = .value (ok, e) ∧ (ok = true → result.2.fileAt path = some text) ∧
    (ok = false → result.2 path = before path)

/-- **A write is all or nothing exactly when it does not get to a rollback that fails.** -/
theorem allOrNothing_writeAllAtomic_iff (fails : WriteSite → Bool) (path : String)
    (text : List UInt8) (what error : String) (fs : Fs) (hpath : TargetPath path) :
    AllOrNothing path text fs ((writeAllAtomic id path text what error).run (faulty fails) fs) ↔
      ¬(DirsReady id fails fs ∧ TempWritten id fails path fs ∧ RollbackLost id fails path fs) := by
  obtain ⟨ok, e, fs', hrun, hres⟩ :=
    writeAllAtomic_spec id fails path text what error fs hpath
  rw [hrun]
  rcases hres with ⟨rfl, htext, hl⟩ | ⟨rfl, hiff⟩
  · refine iff_of_true ⟨true, e, rfl, fun _ => Fs.fileAt_eq_some.2 htext, ?_⟩ hl
    exact fun h => absurd h (by simp)
  · rw [← hiff]
    constructor
    · rintro ⟨ok, e', hval, -, hfalse⟩
      obtain ⟨rfl, -⟩ := Prod.mk.inj (Outcome.value.inj hval)
      exact hfalse rfl
    · exact fun h => ⟨false, e, rfl, fun h => absurd h (by simp), fun _ => h⟩

/-- A card with the configuration directory, and in it the files of the list. -/
def cardWith (files : List (String × List UInt8)) : Fs := fun path =>
  if path = kRootDir ∨ path = kHackDir then some .directory
  else (files.lookup path).map .file

/-- The install fails and the backup is restored. -/
theorem allOrNothing_writeAllAtomic_installFails :
    AllOrNothing "sd:/config/d3hack-nx/config.toml" [2]
      (cardWith [("sd:/config/d3hack-nx/config.toml", [1])])
      ((writeAllAtomic id "sd:/config/d3hack-nx/config.toml" [2] "config file" "").run
        (faulty fun site => site == .install)
        (cardWith [("sd:/config/d3hack-nx/config.toml", [1])])) :=
  (allOrNothing_writeAllAtomic_iff _ _ _ _ _ _ ⟨by decide, by decide, by decide⟩).2
    fun h => by
      rcases h.2.2.2 with ⟨-, -, hw⟩ | hr
      · exact hw ⟨rfl, rfl⟩
      · exact absurd hr.1 (by decide)

/-- The install and the restore fail: the write returns false and the target is gone. -/
theorem not_allOrNothing_restoreFails :
    ¬AllOrNothing "sd:/config/d3hack-nx/config.toml" [2]
      (cardWith [("sd:/config/d3hack-nx/config.toml", [1])])
      ((writeAllAtomic id "sd:/config/d3hack-nx/config.toml" [2] "config file" "").run
        (faulty fun site => site == .install || site == .restore)
        (cardWith [("sd:/config/d3hack-nx/config.toml", [1])])) := by
  rintro ⟨ok, e, hval, -, hfalse⟩
  have hrun : ((writeAllAtomic id "sd:/config/d3hack-nx/config.toml" [2] "config file" "").run
      (faulty fun site => site == .install || site == .restore)
      (cardWith [("sd:/config/d3hack-nx/config.toml", [1])])).1 =
        .value (false, "Failed to move temp config file into place") := by decide +kernel
  obtain ⟨rfl, -⟩ := Prod.mk.inj (Outcome.value.inj (hrun.symm.trans hval))
  exact absurd (hfalse rfl) (by decide +kernel)

end D3Hack
