import D3Hack.RiftImport
import D3Hack.Runs

/-!
# What an import of dumps keeps

`importRun` executes the planned actions of `import_challenge_dumps.py` until one fails, where a
file that is in the way of an output is moved to its backup first. An import should not lose what
is in any file, and each output should hold the dump that was selected for it.

Both fail where paths meet. A file is moved to its backup without a look at what is there, so an
earlier backup is lost unless its content is in another file (`BackupKept`); and a selected file
can be an earlier output, or the backup of one (`Clear`). `importKeeps_iff` says that these are
the only ways to go wrong; a first import that copies meets none of them, and finishes
(`importMain_of_plan`).
-/

namespace D3Hack

open Runs

/-! ## The plan -/

/-- The arguments of the tool. -/
structure ImportArgs where
  src : String
  dst : String
  config : Option String := none
  rifts : List String := []
  copy : Bool := false
  dryRun : Bool := false

/-- The file system that the importer plans on, with paths as `pathlib` writes them: the files by
the paths that others lead to, and what it lists. -/
structure ImportWorld where
  resolve : String → String
  files : DumpFiles
  isDir : String → Bool
  globDat : String → List String
  glob : String → List String
  mtime : String → ℕ

namespace ImportWorld

variable (w : ImportWorld)

/-- `Path.is_file`. -/
def isFile (path : String) : Bool := (w.files (w.resolve path)).isSome

/-- The size of a file. -/
def size (path : String) : ℕ :=
  match w.files (w.resolve path) with
  | some dump => dump.blob.bytes.length
  | none => 0

/-- `min` by size: the first of the smallest. -/
def pickSmallestFile : List String → Option String
  | [] => none
  | p :: files =>
    some (files.foldl (fun smallest p => if w.size p < w.size smallest then p else smallest) p)

/-- `sorted` by time, which is stable. -/
def sortedByMtime (files : List String) : List String :=
  files.mergeSort fun p q => w.mtime p ≤ w.mtime q

/-- The paths that a pattern of `--rifts` stands for. -/
def expand (pat : String) : List String :=
  if pat.toList.any ("*?[]".toList.contains ·) then w.glob pat else [pat]

variable (args : ImportArgs)

/-- The candidates. -/
def candidates : List String := (w.globDat (w.resolve args.src)).filter w.isFile

/-- The file that is taken for the weekly data. -/
def selectConfig : Except String String :=
  match args.config.filter (· ≠ "") with
  | some config =>
    if w.isFile config then .ok config else .error ("--config not found: " ++ config)
  | none =>
    match w.pickSmallestFile (w.candidates args) with
    | some config => .ok config
    | none => .error "Could not determine config file (no candidates)"

/-- The files that are taken for challenges, in order. -/
def selectRifts (config : String) : List String :=
  if args.rifts ≠ [] then args.rifts.flatMap fun pat => (w.expand pat).filter w.isFile
  else w.sortedByMtime ((w.candidates args).filter (· ≠ config))

/-- The configuration and the dumps that the arguments select. -/
def selectDumps : Except String (String × List String) :=
  let src := w.resolve args.src
  if !w.isDir src then .error ("--src is not a directory: " ++ src)
  else if w.candidates args = [] then .error ("No *.dat files found in " ++ src)
  else
    match w.selectConfig args with
    | .ok config => .ok (config, w.selectRifts args config)
    | .error e => .error e

/-- The planned actions, by the files that the paths lead to. -/
def plan : Except String (List ImportAction) :=
  match w.selectDumps args with
  | .ok (config, rifts) =>
    .ok (importActions (w.resolve args.dst) (w.resolve config) (rifts.map w.resolve))
  | .error e => .error e

end ImportWorld

/-! ## The execution -/

/-- The files after some rounds, and whether one has failed. -/
structure ImportRun where
  files : DumpFiles
  failed : Bool := false

/-- A round that fails has moved the file in its way. -/
def importRound (copy : Bool) (s : ImportRun) (action : ImportAction) : ImportRun :=
  if s.failed then s
  else
    match importStep copy s.files action with
    | some files => { s with files }
    | none => { files := backup action.dstPath s.files, failed := true }

/-- The tool after a plan, on the files that it found. -/
def importRun (copy : Bool) (actions : List ImportAction) (files : DumpFiles) : ImportRun :=
  run (importRound copy) { files } actions

/-- `main`, for the files it leaves. -/
def importMain (w : ImportWorld) (args : ImportArgs) : Except String ImportRun :=
  match w.plan args with
  | .ok actions =>
    .ok (if args.dryRun then { files := w.files } else importRun args.copy actions w.files)
  | .error e => .error e

/-! ## What an import should keep -/

/-- What is in the file at a path. -/
def contentAt (files : DumpFiles) (path : String) : Option (List UInt8) :=
  (files path).map fun dump => dump.blob.bytes

/-- A content is in some file. -/
def Has (files : DumpFiles) (content : List UInt8) : Prop :=
  ∃ path, contentAt files path = some content

/-- Nothing is lost, and the outputs of an import that finishes hold what was selected. -/
structure ImportKeeps (copy : Bool) (actions : List ImportAction) (files : DumpFiles) : Prop where
  contents : ∀ content, Has files content → Has (importRun copy actions files).files content
  outputs : (importRun copy actions files).failed = false → ∀ action ∈ actions, ∃ content,
    contentAt files action.srcPath = some content ∧
      contentAt (importRun copy actions files).files action.dstPath = some content

/-- What is in the backup that a round replaces is in another file too. -/
def BackupKept (s : ImportRun) (action : ImportAction) : Prop :=
  s.failed = false → (s.files action.dstPath).isSome →
    ∀ content, contentAt s.files (backupPath action.dstPath) = some content →
      ∃ path, path ≠ backupPath action.dstPath ∧ contentAt s.files path = some content

/-- The source of a round is there once the output is out of the way. -/
def SourceThere (s : ImportRun) (action : ImportAction) : Prop :=
  (backup action.dstPath s.files action.srcPath).isSome

/-- No round of these moves the file at a path. -/
def NotMoved (copy : Bool) (before : List ImportAction) (path : String) : Prop :=
  copy = true ∨ ∀ a ∈ before, a.srcPath ≠ path

/-- The output of an action that comes after others is in the way: it was there, and was not
moved away before. -/
def InTheWay (copy : Bool) (files : DumpFiles) (before : List ImportAction)
    (action : ImportAction) : Prop :=
  (files action.dstPath).isSome ∧ NotMoved copy before action.dstPath

/-- The output of one of these actions is moved to its backup. -/
def MovedToBackup (copy : Bool) (files : DumpFiles) (actions : List ImportAction)
    (action : ImportAction) : Prop :=
  ∃ before after, actions = before ++ action :: after ∧ InTheWay copy files before action

/-- The source of an action is neither an output written before, unless it is copied and its
content is the same, nor the backup of one, its own included, unless its content is the same. -/
structure Clear (copy : Bool) (files : DumpFiles) (before : List ImportAction)
    (action : ImportAction) : Prop where
  output : ∀ a ∈ before, action.srcPath = a.dstPath →
    copy = true ∧ contentAt files a.srcPath = contentAt files action.srcPath
  backup : ∀ a, MovedToBackup copy files (before ++ [action]) a →
    action.srcPath = backupPath a.dstPath →
      contentAt files a.dstPath = contentAt files action.srcPath

/-! ## Contents -/

theorem contentAt_isSome {files : DumpFiles} {path : String} :
    (contentAt files path).isSome = (files path).isSome := Option.isSome_map

theorem ne_backupPath (path : String) : path ≠ backupPath path := by
  intro h
  have hlength := congrArg String.length h
  rw [backupPath, String.length_append] at hlength
  have hbak : ".bak".length = 4 := rfl
  omega

theorem contentAt_backup (dstPath path : String) (files : DumpFiles) :
    contentAt (backup dstPath files) path =
      if path = dstPath then none
      else if path = backupPath dstPath ∧ (files dstPath).isSome then contentAt files dstPath
      else contentAt files path := by
  unfold contentAt
  split_ifs with hdst hbak
  · rw [hdst, backup_dst]
    rfl
  · obtain ⟨rfl, hsome⟩ := hbak
    obtain ⟨old, hold⟩ := Option.isSome_iff_exists.1 hsome
    rw [backup, hold]
    dsimp only
    rw [Function.update_self]
  · by_cases hpath : path = backupPath dstPath
    · have hnone : files dstPath = none := by simpa [hpath] using hbak
      rw [backup, hnone]
    · rw [backup_of_ne files hdst hpath]

/-- What the files hold after a round, from what they hold with the output out of the way. -/
theorem contentAt_importStep {copy : Bool} {files files' : DumpFiles} {action : ImportAction}
    (h : importStep copy files action = some files') (path : String) :
    contentAt files' path =
      if path = action.dstPath then contentAt (backup action.dstPath files) action.srcPath
      else if copy = false ∧ path = action.srcPath then none
      else contentAt (backup action.dstPath files) path := by
  obtain ⟨dump, hdump, rfl⟩ := importStep_eq_some h
  unfold contentAt
  by_cases hdst : path = action.dstPath
  · rw [if_pos hdst, hdst, Function.update_self, hdump]
    rfl
  · rw [if_neg hdst, Function.update_of_ne hdst]
    cases copy with
    | true => simp
    | false =>
      by_cases hsrc : path = action.srcPath
      · simp [hsrc]
      · simp [hsrc, Function.update_of_ne]

/-- A move to the backup loses nothing exactly if what it replaces is in another file. -/
theorem has_backup_iff (dstPath : String) (files : DumpFiles) :
    (∀ content, Has files content → Has (backup dstPath files) content) ↔
      ((files dstPath).isSome → ∀ content,
        contentAt files (backupPath dstPath) = some content →
          ∃ path, path ≠ backupPath dstPath ∧ contentAt files path = some content) := by
  refine ⟨fun h hsome content hbak => ?_, fun h content => ?_⟩
  · obtain ⟨path, hpath⟩ := h content ⟨_, hbak⟩
    rw [contentAt_backup] at hpath
    split_ifs at hpath with hdst hback
    · exact ⟨dstPath, ne_backupPath dstPath, hpath⟩
    · exact ⟨path, fun heq => hback ⟨heq, hsome⟩, hpath⟩
  · -- a content that is not in the backup stays, or is moved there
    have hother {path : String} (hne : path ≠ backupPath dstPath)
        (hpath : contentAt files path = some content) : Has (backup dstPath files) content := by
      by_cases hdst : path = dstPath
      · subst hdst
        have hsome : (files path).isSome := by rw [← contentAt_isSome, hpath]; rfl
        refine ⟨backupPath path, ?_⟩
        rw [contentAt_backup, if_neg (ne_backupPath path).symm, if_pos ⟨rfl, hsome⟩, hpath]
      · refine ⟨path, ?_⟩
        rw [contentAt_backup, if_neg hdst, if_neg fun hback => hne hback.1, hpath]
    rintro ⟨path, hpath⟩
    by_cases hback : path = backupPath dstPath
    · subst hback
      by_cases hsome : (files dstPath).isSome
      · obtain ⟨path', hne, hpath'⟩ := h hsome content hpath
        exact hother hne hpath'
      · refine ⟨backupPath dstPath, ?_⟩
        rw [contentAt_backup, if_neg (ne_backupPath dstPath).symm, if_neg fun hb => hsome hb.2,
          hpath]
    · exact hother hback hpath

theorem has_of_has_backup {dstPath : String} {files : DumpFiles} {content : List UInt8}
    (h : Has (backup dstPath files) content) : Has files content := by
  obtain ⟨path, hpath⟩ := h
  rw [contentAt_backup] at hpath
  split_ifs at hpath
  · exact ⟨_, hpath⟩
  · exact ⟨_, hpath⟩

/-- A copy or move to a free place changes no contents. -/
theorem has_importStep {copy : Bool} {files files' : DumpFiles} {action : ImportAction}
    (h : importStep copy files action = some files') (content : List UInt8) :
    Has files' content ↔ Has (backup action.dstPath files) content := by
  have hcontent := contentAt_importStep h
  constructor
  · rintro ⟨path, hpath⟩
    rw [hcontent] at hpath
    split_ifs at hpath
    · exact ⟨_, hpath⟩
    · exact ⟨_, hpath⟩
  · rintro ⟨path, hpath⟩
    by_cases hsrc : path = action.srcPath
    · exact ⟨action.dstPath, by rw [hcontent, if_pos rfl, ← hsrc, hpath]⟩
    · have hdst : path ≠ action.dstPath := by
        rintro rfl
        rw [contentAt_backup, if_pos rfl] at hpath
        contradiction
      exact ⟨path, by rw [hcontent, if_neg hdst, if_neg fun hs => hsrc hs.2, hpath]⟩

/-! ## Nothing is lost -/

section Rounds

variable {copy : Bool}

/-- A round that has not failed before leaves the contents that its backup leaves. -/
theorem has_importRound {s : ImportRun} (hs : s.failed = false) (action : ImportAction)
    (content : List UInt8) : Has (importRound copy s action).files content ↔
      Has (backup action.dstPath s.files) content := by
  unfold importRound
  rw [hs, if_neg Bool.false_ne_true]
  cases hstep : importStep copy s.files action with
  | none => rfl
  | some files => exact has_importStep hstep content

theorem importRound_of_failed {s : ImportRun} (hs : s.failed = true) (action : ImportAction) :
    importRound copy s action = s := by
  unfold importRound
  rw [if_pos hs]

theorem has_of_has_importRound {s : ImportRun} {action : ImportAction} {content : List UInt8}
    (h : Has (importRound copy s action).files content) : Has s.files content := by
  cases hs : s.failed with
  | true => rwa [importRound_of_failed hs] at h
  | false => exact has_of_has_backup ((has_importRound hs action content).1 h)

/-- A round loses nothing exactly if what is in the backup that it replaces is kept. -/
theorem has_importRound_iff (copy : Bool) (s : ImportRun) (action : ImportAction) :
    (∀ content, Has s.files content → Has (importRound copy s action).files content) ↔
      BackupKept s action := by
  cases hs : s.failed with
  | true =>
    rw [importRound_of_failed hs]
    exact iff_of_true (fun _ h => h) fun hfalse => by rw [hs] at hfalse; contradiction
  | false =>
    simp only [has_importRound hs, has_backup_iff, BackupKept, hs, forall_const]

/-- An import loses nothing exactly if each of its rounds keeps what is in the backup that it
replaces. -/
theorem has_importRun_iff (actions : List ImportAction) (files : DumpFiles) :
    (∀ content, Has files content → Has (importRun copy actions files).files content) ↔
      StepsMeet (importRound copy) BackupKept { files } actions := by
  have hcontents (s : ImportRun) (a : ImportAction)
      (hold : ∀ content, Has s.files content → Has files content) (content : List UInt8)
      (h : Has (importRound copy s a).files content) : Has files content :=
    hold content (has_of_has_importRound h)
  have hround (s : ImportRun) (a : ImportAction)
      (hold : ∀ content, Has s.files content → Has files content) :
      (∀ content, Has files content → Has (importRound copy s a).files content) ↔
        (∀ content, Has files content → Has s.files content) ∧ BackupKept s a := by
    rw [← has_importRound_iff copy]
    constructor
    · intro h
      exact ⟨fun content hhas => has_of_has_importRound (h content hhas),
        fun content hhas => h content (hold content hhas)⟩
    · rintro ⟨hbefore, hkept⟩ content hhas
      exact hkept content (hbefore content hhas)
  have hrun := run_iff_stepsMeet (P := fun s => ∀ content, Has files content → Has s.files content)
    hcontents hround (s := { files }) (fun _ h => h) actions
  exact hrun.trans (and_iff_right fun _ h => h)

theorem importStep_isSome_eq (copy : Bool) (files : DumpFiles) (action : ImportAction) :
    (importStep copy files action).isSome =
      (backup action.dstPath files action.srcPath).isSome := by
  unfold importStep
  dsimp only
  cases backup action.dstPath files action.srcPath <;> rfl

/-- An import finishes exactly if each of its rounds finds its source. -/
theorem finishes_iff (actions : List ImportAction) (files : DumpFiles) :
    (importRun copy actions files).failed = false ↔
      StepsMeet (importRound copy) SourceThere { files } actions := by
  have hround (s : ImportRun) (a : ImportAction) (_ : True) :
      (importRound copy s a).failed = false ↔ s.failed = false ∧ SourceThere s a := by
    cases hs : s.failed with
    | true => simp [importRound_of_failed hs, hs]
    | false =>
      have hthere := importStep_isSome_eq copy s.files a
      unfold importRound SourceThere
      rw [hs, if_neg Bool.false_ne_true, ← hthere]
      cases importStep copy s.files a <;> simp
  have hrun := run_iff_stepsMeet (J := fun _ => True) (P := fun s : ImportRun => s.failed = false)
    (fun _ _ _ => trivial) hround (s := { files }) trivial actions
  exact hrun.trans (and_iff_right rfl)

theorem run_of_failed {s : ImportRun} (hs : s.failed = true) (actions : List ImportAction) :
    run (importRound copy) s actions = s := by
  induction actions with
  | nil => rfl
  | cons a actions ih => rw [run_cons, importRound_of_failed hs, ih]

/-- The rounds after one that finishes. -/
theorem importRun_cons {action : ImportAction} {actions : List ImportAction} {files : DumpFiles}
    (h : (importRun copy (action :: actions) files).failed = false) : ∃ files',
      importStep copy files action = some files' ∧
        importRun copy (action :: actions) files = importRun copy actions files' := by
  unfold importRun at h ⊢
  rw [run_cons] at h ⊢
  cases hstep : importStep copy files action with
  | none =>
    have hfails : (importRound copy { files } action).failed = true := by
      simp [importRound, hstep]
    rw [run_of_failed hfails, hfails] at h
    contradiction
  | some files' => exact ⟨files', rfl, by simp [importRound, hstep]⟩

/-- A file that no round writes stays, or is moved away. -/
theorem contentAt_importRun {actions : List ImportAction} {files : DumpFiles} {path : String}
    (hpath : ∀ a ∈ actions, path ≠ a.dstPath ∧ path ≠ backupPath a.dstPath)
    (h : (importRun copy actions files).failed = false) :
    contentAt (importRun copy actions files).files path = none ∨
      contentAt (importRun copy actions files).files path = contentAt files path := by
  induction actions generalizing files with
  | nil => exact .inr rfl
  | cons action actions ih =>
    obtain ⟨files', hstep, hrun⟩ := importRun_cons h
    rw [hrun] at h ⊢
    obtain ⟨hdst, hbak⟩ := hpath action List.mem_cons_self
    have hbackup : contentAt (backup action.dstPath files) path = contentAt files path := by
      rw [contentAt_backup, if_neg hdst, if_neg fun hb => hbak hb.1]
    have hround : contentAt files' path = none ∨ contentAt files' path = contentAt files path := by
      rw [contentAt_importStep hstep, if_neg hdst, hbackup]
      split_ifs
      · exact .inl rfl
      · exact .inr rfl
    rcases ih (fun a ha => hpath a (List.mem_cons_of_mem _ ha)) h with hnone | hkept
    · exact .inl hnone
    · rwa [hkept]

end Rounds

/-! ## The outputs -/

/-- The outputs are apart from each other and from their backups. -/
structure OutputsApart (actions : List ImportAction) : Prop where
  nodup : (actions.map ImportAction.dstPath).Nodup
  apart : ∀ a ∈ actions, ∀ b ∈ actions, a.dstPath ≠ backupPath b.dstPath

/-- What is known of the files after the rounds of `done`, if all went well: what the outputs
hold, what the backups hold if they are there, and which other files are moved away. -/
structure Traced (copy : Bool) (files₀ : DumpFiles) (done : List ImportAction)
    (files : DumpFiles) : Prop where
  outputs : ∀ a ∈ done, ∃ content, contentAt files₀ a.srcPath = some content ∧
    contentAt files a.dstPath = some content
  backups : ∀ a, MovedToBackup copy files₀ done a →
    ∀ content, contentAt files (backupPath a.dstPath) = some content →
      contentAt files₀ a.dstPath = some content
  others : ∀ path, (∀ a ∈ done, path ≠ a.dstPath) →
    (∀ a, MovedToBackup copy files₀ done a → path ≠ backupPath a.dstPath) →
    (NotMoved copy done path → contentAt files path = contentAt files₀ path) ∧
      (¬ NotMoved copy done path → contentAt files path = none)

/-- An output holds the dump that was selected for it. -/
def Mapped (files₀ files : DumpFiles) (action : ImportAction) : Prop :=
  ∃ content, contentAt files₀ action.srcPath = some content ∧
    contentAt files action.dstPath = some content

section Traced

variable {copy : Bool} {files₀ files files' : DumpFiles} {done : List ImportAction}
  {action a : ImportAction}

theorem MovedToBackup.mem (h : MovedToBackup copy files₀ done a) : a ∈ done := by
  obtain ⟨before, after, rfl, -⟩ := h
  exact List.mem_append_right _ List.mem_cons_self

theorem movedToBackup_concat : MovedToBackup copy files₀ (done ++ [action]) a ↔
    MovedToBackup copy files₀ done a ∨ a = action ∧ InTheWay copy files₀ done action := by
  constructor
  · rintro ⟨before, after, hsplit, hway⟩
    rcases List.eq_nil_or_concat after with rfl | ⟨after, last, rfl⟩
    · obtain ⟨rfl, heq⟩ := List.append_inj' hsplit rfl
      obtain rfl := List.singleton_inj.1 heq
      exact .inr ⟨rfl, hway⟩
    · rw [List.concat_eq_append, ← List.cons_append, ← List.append_assoc] at hsplit
      exact .inl ⟨before, after, (List.append_inj' hsplit rfl).1, hway⟩
  · rintro (⟨before, after, rfl, hway⟩ | ⟨rfl, hway⟩)
    · exact ⟨before, after ++ [action], by simp, hway⟩
    · exact ⟨done, [], rfl, hway⟩

theorem notMoved_concat {path : String} : NotMoved copy (done ++ [action]) path ↔
    NotMoved copy done path ∧ (copy = true ∨ action.srcPath ≠ path) := by
  unfold NotMoved
  rw [List.forall_mem_append, List.forall_mem_singleton, ← or_and_left]

theorem backupPath_inj {path path' : String} : backupPath path = backupPath path' ↔ path = path' :=
  String.append_left_inj _

namespace OutputsApart

variable (h : OutputsApart (done ++ [action]))
include h

theorem dst_ne (ha : a ∈ done) : a.dstPath ≠ action.dstPath := by
  have hnodup := h.nodup
  rw [List.map_append, List.nodup_append'] at hnodup
  intro heq
  exact hnodup.2.2 (List.mem_map_of_mem ha) (by simp [heq])

theorem dst_ne_backup (ha : a ∈ done ++ [action]) : a.dstPath ≠ backupPath action.dstPath :=
  h.apart a ha action (by simp)

theorem backup_ne_dst (ha : a ∈ done ++ [action]) : action.dstPath ≠ backupPath a.dstPath :=
  h.apart action (by simp) a ha

end OutputsApart

/-- An output is in the way when its round begins exactly if it was there and was not moved. -/
theorem Traced.inTheWay_iff (h : Traced copy files₀ done files)
    (hapart : OutputsApart (done ++ [action])) :
    (files action.dstPath).isSome ↔ InTheWay copy files₀ done action := by
  obtain ⟨hkept, hmoved⟩ := h.others action.dstPath (fun a ha => (hapart.dst_ne ha).symm)
    fun a ha => hapart.backup_ne_dst (List.mem_append_left _ ha.mem)
  unfold InTheWay
  by_cases hnot : NotMoved copy done action.dstPath
  · rw [← contentAt_isSome, hkept hnot, contentAt_isSome, and_iff_left hnot]
  · rw [← contentAt_isSome, hmoved hnot]
    simp [hnot]

/-- With its output out of the way, a path of a round is as before, if it is not the output or the
backup made of it. -/
theorem contentAt_backup_of_ne {path : String} (hdst : path ≠ action.dstPath)
    (hbak : (files action.dstPath).isSome → path ≠ backupPath action.dstPath) :
    contentAt (backup action.dstPath files) path = contentAt files path := by
  rw [contentAt_backup, if_neg hdst, if_neg fun hb => hbak hb.2 hb.1]

/-- With the output of a round out of the way, an output before it holds what it was written. -/
theorem Traced.output_content (h : Traced copy files₀ done files)
    (hapart : OutputsApart (done ++ [action])) (ha : a ∈ done) {content : List UInt8}
    (hcontent : contentAt (backup action.dstPath files) a.dstPath = some content) :
    contentAt files₀ a.srcPath = some content := by
  obtain ⟨content', hsrc, hdst⟩ := h.outputs a ha
  have hmem : a ∈ done ++ [action] := List.mem_append_left _ ha
  rw [contentAt_backup_of_ne (hapart.dst_ne ha) fun _ => hapart.dst_ne_backup hmem, hdst]
    at hcontent
  rw [hsrc, hcontent]

/-- With the output of a round out of the way, a backup holds what was in the way. -/
theorem Traced.backup_content (h : Traced copy files₀ done files)
    (hapart : OutputsApart (done ++ [action])) (ha : MovedToBackup copy files₀ (done ++ [action]) a)
    {content : List UInt8}
    (hcontent : contentAt (backup action.dstPath files) (backupPath a.dstPath) = some content) :
    contentAt files₀ a.dstPath = some content := by
  have hdst : backupPath a.dstPath ≠ action.dstPath := (hapart.backup_ne_dst ha.mem).symm
  rcases movedToBackup_concat.1 ha with ha | ⟨rfl, hway⟩
  · have hbak : backupPath a.dstPath ≠ backupPath action.dstPath := fun heq =>
      hapart.dst_ne ha.mem (backupPath_inj.1 heq)
    rw [contentAt_backup_of_ne hdst fun _ => hbak] at hcontent
    exact h.backups a ha content hcontent
  · have hsome := (h.inTheWay_iff hapart).2 hway
    have hothers := h.others a.dstPath (fun b hb => (hapart.dst_ne hb).symm)
      fun b hb => hapart.backup_ne_dst (List.mem_append_left _ hb.mem)
    rwa [contentAt_backup, if_neg hdst, if_pos ⟨rfl, hsome⟩, hothers.1 hway.2] at hcontent

/-- With the output of a round out of the way, the other files are as before. -/
theorem Traced.other_content (h : Traced copy files₀ done files)
    (hapart : OutputsApart (done ++ [action])) {path : String} (hdst : path ≠ action.dstPath)
    (hbak : ∀ a, MovedToBackup copy files₀ (done ++ [action]) a → path ≠ backupPath a.dstPath) :
    contentAt (backup action.dstPath files) path = contentAt files path :=
  contentAt_backup_of_ne hdst fun hsome =>
    hbak action (movedToBackup_concat.2 (.inr ⟨rfl, (h.inTheWay_iff hapart).1 hsome⟩))

/-- Where a round finds its source, the source is clear exactly if it is not moved from an output
and holds what it held before the import. -/
theorem Traced.clear_iff (h : Traced copy files₀ done files)
    (hapart : OutputsApart (done ++ [action])) {content : List UInt8}
    (hsrc : contentAt (backup action.dstPath files) action.srcPath = some content) :
    Clear copy files₀ done action ↔
      (∀ a ∈ done, action.srcPath = a.dstPath → copy = true) ∧
        contentAt files₀ action.srcPath = some content := by
  have houtput (a : ImportAction) (ha : a ∈ done) (heq : action.srcPath = a.dstPath) :
      contentAt files₀ a.srcPath = some content :=
    h.output_content hapart ha (heq ▸ hsrc)
  have hbackup (a : ImportAction) (ha : MovedToBackup copy files₀ (done ++ [action]) a)
      (heq : action.srcPath = backupPath a.dstPath) :
      contentAt files₀ a.dstPath = some content :=
    h.backup_content hapart ha (heq ▸ hsrc)
  refine ⟨fun hclear => ⟨fun a ha heq => (hclear.output a ha heq).1, ?_⟩, fun hkept => ?_⟩
  · by_cases hout : ∃ a ∈ done, action.srcPath = a.dstPath
    · obtain ⟨a, ha, heq⟩ := hout
      rw [← (hclear.output a ha heq).2, houtput a ha heq]
    · by_cases hbak : ∃ a, MovedToBackup copy files₀ (done ++ [action]) a ∧
          action.srcPath = backupPath a.dstPath
      · obtain ⟨a, ha, heq⟩ := hbak
        rw [← hclear.backup a ha heq, hbackup a ha heq]
      · have hdst : action.srcPath ≠ action.dstPath := by
          intro heq
          rw [heq, contentAt_backup, if_pos rfl] at hsrc
          contradiction
        have hnone (a : ImportAction) (ha : MovedToBackup copy files₀ (done ++ [action]) a) :
            action.srcPath ≠ backupPath a.dstPath := fun heq => hbak ⟨a, ha, heq⟩
        rw [h.other_content hapart hdst hnone] at hsrc
        obtain ⟨hkept, hmoved⟩ := h.others action.srcPath (fun a ha heq => hout ⟨a, ha, heq⟩)
          fun a ha => hnone a (movedToBackup_concat.2 (.inl ha))
        by_cases hnot : NotMoved copy done action.srcPath
        · rw [← hkept hnot, hsrc]
        · rw [hmoved hnot] at hsrc
          contradiction
  · exact ⟨fun a ha heq => ⟨hkept.1 a ha heq, (houtput a ha heq).trans hkept.2.symm⟩,
      fun a ha heq => (hbackup a ha heq).trans hkept.2.symm⟩

/-- The source of a round that finishes. -/
theorem exists_source (hstep : importStep copy files action = some files') :
    ∃ content, contentAt (backup action.dstPath files) action.srcPath = some content := by
  obtain ⟨dump, hdump, -⟩ := importStep_eq_some hstep
  exact ⟨_, by rw [contentAt, hdump]; rfl⟩

/-- A round with a clear source can be traced on. -/
theorem Traced.step (h : Traced copy files₀ done files)
    (hapart : OutputsApart (done ++ [action])) (hclear : Clear copy files₀ done action)
    (hstep : importStep copy files action = some files') :
    Traced copy files₀ (done ++ [action]) files' := by
  obtain ⟨content, hsrc⟩ := exists_source hstep
  obtain ⟨hcopy, hcontent⟩ := (h.clear_iff hapart hsrc).1 hclear
  have hround := contentAt_importStep hstep
  refine ⟨fun a ha => ?_, fun a ha c hc => ?_, fun path hout hbak => ?_⟩
  · rcases List.mem_append.1 ha with hdone | hlast
    · obtain ⟨c, hc, hdst⟩ := h.outputs a hdone
      have hnot : ¬ (copy = false ∧ a.dstPath = action.srcPath) := fun hmove => by
        simp [hcopy a hdone hmove.2.symm] at hmove
      refine ⟨c, hc, ?_⟩
      rw [hround, if_neg (hapart.dst_ne hdone), if_neg hnot,
        contentAt_backup_of_ne (hapart.dst_ne hdone) fun _ => hapart.dst_ne_backup ha, hdst]
    · obtain rfl := List.mem_singleton.1 hlast
      exact ⟨content, hcontent, by rw [hround, if_pos rfl, hsrc]⟩
  · rw [hround, if_neg (hapart.backup_ne_dst ha.mem).symm] at hc
    split_ifs at hc
    exact h.backup_content hapart ha hc
  · have hdst : path ≠ action.dstPath := hout action (by simp)
    obtain ⟨hkept, hmoved⟩ := h.others path (fun a ha => hout a (List.mem_append_left _ ha))
      fun a ha => hbak a (movedToBackup_concat.2 (.inl ha))
    rw [hround, if_neg hdst, h.other_content hapart hdst hbak, notMoved_concat]
    by_cases hmove : copy = false ∧ path = action.srcPath
    · rw [if_pos hmove]
      refine ⟨fun hnot => ?_, fun _ => rfl⟩
      rcases hnot.2 with hcopy | hne
      · rw [hmove.1] at hcopy
        contradiction
      · exact absurd hmove.2.symm hne
    · rw [if_neg hmove]
      have hstays : copy = true ∨ action.srcPath ≠ path := by
        rcases copy with _ | _
        · exact .inr fun heq => hmove ⟨rfl, heq.symm⟩
        · exact .inl rfl
      exact ⟨fun hnot => hkept hnot.1, fun hnot => hmoved fun hdone => hnot ⟨hdone, hstays⟩⟩

/-- A round with a source that is not clear leaves an output wrong. -/
theorem Traced.not_mapped (h : Traced copy files₀ done files)
    (hapart : OutputsApart (done ++ [action])) (hclear : ¬ Clear copy files₀ done action)
    (hstep : importStep copy files action = some files') :
    ∃ a ∈ done ++ [action], ¬ Mapped files₀ files' a := by
  obtain ⟨content, hsrc⟩ := exists_source hstep
  rw [h.clear_iff hapart hsrc, not_and_or] at hclear
  have hround := contentAt_importStep hstep
  rcases hclear with hmoved | hother
  · obtain ⟨a, ha, heq, hcopy⟩ : ∃ a ∈ done, action.srcPath = a.dstPath ∧ ¬ copy = true := by
      simpa using hmoved
    refine ⟨a, List.mem_append_left _ ha, fun ⟨c, _, hc⟩ => ?_⟩
    rw [hround, if_neg (hapart.dst_ne ha), if_pos ⟨Bool.eq_false_iff.2 hcopy, heq.symm⟩] at hc
    contradiction
  · refine ⟨action, by simp, fun ⟨c, hc, hdst⟩ => hother ?_⟩
    have hself := hround action.dstPath
    rw [if_pos rfl, hsrc, hdst] at hself
    rw [hc, hself]

end Traced

section Outputs

variable {copy : Bool} {files₀ files : DumpFiles} {done rest : List ImportAction}

theorem OutputsApart.left (h : OutputsApart (done ++ rest)) : OutputsApart done := by
  refine ⟨?_, fun a ha b hb => h.apart a (List.mem_append_left _ ha) b (List.mem_append_left _ hb)⟩
  have hnodup := h.nodup
  rw [List.map_append] at hnodup
  exact hnodup.of_append_left

/-- An output that is right in the end was right before. -/
theorem mapped_of_importRun (hapart : OutputsApart (done ++ rest)) {a : ImportAction}
    (ha : a ∈ done) (hfinish : (importRun copy rest files).failed = false)
    (h : Mapped files₀ (importRun copy rest files).files a) : Mapped files₀ files a := by
  obtain ⟨content, hsrc, hdst⟩ := h
  have hnodup := hapart.nodup
  rw [List.map_append, List.nodup_append'] at hnodup
  have hpath (b : ImportAction) (hb : b ∈ rest) :
      a.dstPath ≠ b.dstPath ∧ a.dstPath ≠ backupPath b.dstPath :=
    ⟨fun heq => hnodup.2.2 (List.mem_map_of_mem ha) (heq ▸ List.mem_map_of_mem hb),
      hapart.apart a (List.mem_append_left _ ha) b (List.mem_append_right _ hb)⟩
  rcases contentAt_importRun hpath hfinish with hnone | hkept
  · rw [hnone] at hdst
    contradiction
  · exact ⟨content, hsrc, hkept ▸ hdst⟩

/-- An import that finishes maps its dumps exactly if each of its sources is clear. -/
theorem Traced.mapped_iff (h : Traced copy files₀ done files)
    (hapart : OutputsApart (done ++ rest))
    (hfinish : (importRun copy rest files).failed = false) :
    (∀ a ∈ done ++ rest, Mapped files₀ (importRun copy rest files).files a) ↔
      ∀ before a after, rest = before ++ a :: after → Clear copy files₀ (done ++ before) a := by
  induction rest generalizing done files with
  | nil =>
    rw [List.append_nil]
    exact iff_of_true h.outputs fun before a after hsplit => by simp at hsplit
  | cons action rest ih =>
    obtain ⟨files', hstep, hrun⟩ := importRun_cons hfinish
    rw [hrun] at hfinish ⊢
    rw [List.append_cons] at hapart ⊢
    by_cases hclear : Clear copy files₀ done action
    · rw [ih (h.step hapart.left hclear hstep) hapart hfinish]
      constructor
      · intro hrest before a after hsplit
        cases before with
        | nil =>
          obtain ⟨rfl, -⟩ := List.cons_eq_cons.1 hsplit
          rwa [List.append_nil]
        | cons b before =>
          obtain ⟨rfl, hrestSplit⟩ := List.cons_eq_cons.1 hsplit
          rw [List.append_cons]
          exact hrest before a after hrestSplit
      · intro hall before a after hsplit
        rw [List.append_assoc]
        exact hall (action :: before) a after (by rw [hsplit]; rfl)
    · obtain ⟨a, ha, hnot⟩ := h.not_mapped hapart.left hclear hstep
      refine iff_of_false (fun hmapped => hnot ?_) fun hall => hclear ?_
      · exact mapped_of_importRun hapart ha hfinish
          (hmapped a (List.mem_append_left _ ha))
      · simpa using hall [] action rest rfl

end Outputs

/-! ## The outputs of the importer -/

theorem importName_ne_riftConfigName (idx : ℕ) : importName idx ≠ riftConfigName := by
  have hname : riftConfigName = "challengerift_" ++ "config" ++ ".dat" := by decide +kernel
  intro h
  unfold importName at h
  rw [hname, String.append_left_inj, String.append_right_inj] at h
  have hc : 'c'.isDigit := isDigit_of_mem_toString (n := idx) (by rw [h]; decide)
  exact absurd hc (by decide)

/-- Each output is a `.dat` file. -/
theorem dstPath_of_mem {dst configPath : String} {riftFiles : List String} {action : ImportAction}
    (h : action ∈ importActions dst configPath riftFiles) :
    ∃ stem, action.dstPath = stem ++ ".dat" := by
  rcases List.mem_cons.1 h with rfl | h
  · have hname : riftConfigName = "challengerift_config" ++ ".dat" := by decide +kernel
    refine ⟨dst ++ "/" ++ "challengerift_config", ?_⟩
    rw [hname]
    exact String.append_assoc.symm
  · obtain ⟨⟨rf, idx⟩, -, rfl⟩ := List.mem_map.1 h
    refine ⟨dst ++ "/" ++ ("challengerift_" ++ toString idx), ?_⟩
    unfold importPath importName
    exact String.append_assoc.symm

theorem dat_ne_backupPath (stem path : String) : stem ++ ".dat" ≠ backupPath path := by
  intro h
  have hlast := congrArg (fun path => path.toList.reverse.head?) h
  simp [backupPath, String.toList_append] at hlast

theorem map_dstPath_importActions (dst configPath : String) (riftFiles : List String) :
    (importActions dst configPath riftFiles).map ImportAction.dstPath =
      (dst ++ "/" ++ riftConfigName) ::
        (List.range' 0 riftFiles.length).map (importPath dst) := by
  rw [importActions, List.map_cons, List.map_map, ← List.zipIdx_map_snd, List.map_map]
  rfl

theorem outputsApart_importActions (dst configPath : String) (riftFiles : List String) :
    OutputsApart (importActions dst configPath riftFiles) := by
  refine ⟨?_, fun a ha b _ => ?_⟩
  · rw [map_dstPath_importActions, List.nodup_cons]
    refine ⟨fun hmem => ?_, List.Nodup.map (fun i j => importPath_inj.1) List.nodup_range'⟩
    obtain ⟨idx, -, heq⟩ := List.mem_map.1 hmem
    unfold importPath at heq
    rw [String.append_right_inj] at heq
    exact importName_ne_riftConfigName idx heq
  · obtain ⟨stem, hstem⟩ := dstPath_of_mem ha
    rw [hstem]
    exact dat_ne_backupPath stem _

/-- What an import keeps, by its rounds. -/
theorem OutputsApart.keeps_iff {copy : Bool} {actions : List ImportAction}
    (hapart : OutputsApart actions) (files : DumpFiles) :
    ImportKeeps copy actions files ↔
      StepsMeet (importRound copy) BackupKept { files } actions ∧
        (StepsMeet (importRound copy) SourceThere { files } actions →
          ∀ before action after, actions = before ++ action :: after →
            Clear copy files before action) := by
  have htraced : Traced copy files [] files :=
    ⟨fun _ ha => absurd ha List.not_mem_nil, fun _ ha => absurd ha.mem List.not_mem_nil,
      fun _ _ _ => ⟨fun _ => rfl, fun hnot => absurd (.inr (by simp)) hnot⟩⟩
  have hmapped (hfinish : (importRun copy actions files).failed = false) :=
    htraced.mapped_iff hapart hfinish
  rw [← has_importRun_iff, ← finishes_iff]
  exact ⟨fun h => ⟨h.contents, fun hfinish => (hmapped hfinish).1 (h.outputs hfinish)⟩,
    fun h => ⟨h.1, fun hfinish => (hmapped hfinish).2 (h.2 hfinish)⟩⟩

/-- **An import loses nothing and maps its dumps exactly if each round keeps what is in the backup
that it replaces and, where each round finds its source, no source is an output of the import or
the backup of one, but for the same content.** -/
theorem importKeeps_iff (copy : Bool) (dst configPath : String) (riftFiles : List String)
    (files : DumpFiles) :
    ImportKeeps copy (importActions dst configPath riftFiles) files ↔
      StepsMeet (importRound copy) BackupKept { files }
          (importActions dst configPath riftFiles) ∧
        (StepsMeet (importRound copy) SourceThere { files }
            (importActions dst configPath riftFiles) →
          ∀ before action after,
            importActions dst configPath riftFiles = before ++ action :: after →
              Clear copy files before action) :=
  (outputsApart_importActions dst configPath riftFiles).keeps_iff files

/-- The files of a second import: the configuration, and the one of the first with its backup. -/
def secondImport : DumpFiles := fun path =>
  if path = "in/config" then some { blob := ⟨[1], .riftData⟩ }
  else if path = "out/challengerift_config.dat" then some { blob := ⟨[2], .riftData⟩ }
  else if path = "out/challengerift_config.dat.bak" then some { blob := ⟨[3], .riftData⟩ }
  else none

/-- The backup of the first import is lost. -/
theorem not_importKeeps_secondImport :
    ¬ ImportKeeps false (importActions "out" "in/config" []) secondImport := by
  intro h
  have hkept := ((has_importRun_iff _ _).1 h.contents).1 rfl (by decide +kernel) [3]
    (by decide +kernel)
  obtain ⟨path, hne, hpath⟩ := hkept
  have hcontent : contentAt secondImport path = some [3] := hpath
  unfold contentAt secondImport at hcontent
  split_ifs at hcontent with hin hout hbak
  · simp at hcontent
  · simp at hcontent
  · exact hne (hbak.trans (by decide +kernel))
  · simp at hcontent

/-! ## The selected files -/

namespace ImportWorld

variable {w : ImportWorld} {args : ImportArgs}

theorem mem_of_pickSmallestFile {files : List String} {path : String}
    (h : w.pickSmallestFile files = some path) : path ∈ files := by
  cases files with
  | nil => contradiction
  | cons p files =>
    obtain rfl := Option.some.inj h
    clear h
    induction files generalizing p with
    | nil => exact List.mem_singleton_self p
    | cons q files ih =>
      rw [List.foldl_cons]
      split_ifs
      · exact List.mem_cons_of_mem _ (ih q)
      · rcases List.mem_cons.1 (ih p) with hp | hfiles
        · rw [hp]
          exact List.mem_cons_self
        · exact List.mem_cons_of_mem _ (List.mem_cons_of_mem _ hfiles)

theorem isFile_of_mem_candidates {path : String} (h : path ∈ w.candidates args) :
    w.isFile path = true := (List.mem_filter.1 h).2

theorem isFile_of_selectConfig {config : String} (h : w.selectConfig args = .ok config) :
    w.isFile config = true := by
  unfold selectConfig at h
  split at h
  · split_ifs at h with hfile
    obtain rfl := Except.ok.inj h
    exact hfile
  · split at h
    next hpick =>
      obtain rfl := Except.ok.inj h
      exact isFile_of_mem_candidates (mem_of_pickSmallestFile hpick)
    next => contradiction

theorem isFile_of_mem_selectRifts {config path : String}
    (h : path ∈ w.selectRifts args config) : w.isFile path = true := by
  unfold selectRifts at h
  split_ifs at h
  · obtain ⟨pat, -, hpath⟩ := List.mem_flatMap.1 h
    exact (List.mem_filter.1 hpath).2
  · rw [sortedByMtime, List.mem_mergeSort] at h
    exact isFile_of_mem_candidates (List.mem_filter.1 h).1

/-- Each planned action has a file for its source. -/
theorem isSome_of_plan {actions : List ImportAction} (h : w.plan args = .ok actions)
    {action : ImportAction} (haction : action ∈ actions) : (w.files action.srcPath).isSome := by
  unfold plan selectDumps at h
  dsimp only at h
  split_ifs at h
  cases hconfig : w.selectConfig args with
  | error e => simp [hconfig] at h
  | ok config =>
    simp only [hconfig, Except.ok.injEq] at h
    rw [← h] at haction
    rcases List.mem_cons.1 haction with rfl | haction
    · exact isFile_of_selectConfig hconfig
    · obtain ⟨⟨rf, idx⟩, hmem, rfl⟩ := List.mem_map.1 haction
      obtain ⟨path, hpath, rfl⟩ := List.mem_map.1 (List.fst_mem_of_mem_zipIdx hmem)
      exact isFile_of_mem_selectRifts hpath

end ImportWorld

/-! ## A first import -/

/-- A round leaves a place free that is not its output. -/
theorem importRound_free {copy : Bool} {s : ImportRun} {action : ImportAction} {path : String}
    (hdst : path ≠ action.dstPath) (hbak : path ≠ backupPath action.dstPath)
    (h : s.files path = none) : (importRound copy s action).files path = none := by
  unfold importRound
  split_ifs
  · exact h
  · cases hstep : importStep copy s.files action with
    | none => exact (backup_of_ne s.files hdst hbak).trans h
    | some files => exact importStep_none hstep h hdst hbak

theorem OutputsApart.tail {action : ImportAction} {actions : List ImportAction}
    (h : OutputsApart (action :: actions)) : OutputsApart actions :=
  ⟨(List.nodup_cons.1 h.nodup).2, fun a ha b hb =>
    h.apart a (List.mem_cons_of_mem _ ha) b (List.mem_cons_of_mem _ hb)⟩

/-- The outputs of the later rounds stay free. -/
theorem OutputsApart.free_importRound {copy : Bool} {action : ImportAction}
    {actions : List ImportAction} (h : OutputsApart (action :: actions)) {s : ImportRun}
    (hfree : ∀ a ∈ actions, s.files a.dstPath = none) :
    ∀ a ∈ actions, (importRound copy s action).files a.dstPath = none := by
  intro a ha
  have hne : a.dstPath ≠ action.dstPath := fun heq =>
    (List.nodup_cons.1 h.nodup).1 (heq ▸ List.mem_map_of_mem ha)
  have hbak : a.dstPath ≠ backupPath action.dstPath :=
    h.apart a (List.mem_cons_of_mem _ ha) action List.mem_cons_self
  exact importRound_free hne hbak (hfree a ha)

/-- Where no output is there yet, there is nothing to back up. -/
theorem stepsMeet_backupKept {copy : Bool} {actions : List ImportAction}
    (hapart : OutputsApart actions) {s : ImportRun}
    (hfree : ∀ a ∈ actions, s.files a.dstPath = none) :
    StepsMeet (importRound copy) BackupKept s actions := by
  induction actions generalizing s with
  | nil => exact stepsMeet_nil _ _
  | cons action actions ih =>
    obtain ⟨hfirst, hrest⟩ := List.forall_mem_cons.1 hfree
    refine ⟨fun _ hsome => ?_, ih hapart.tail (hapart.free_importRound hrest)⟩
    rw [hfirst] at hsome
    contradiction

theorem backup_of_none {dstPath : String} {files : DumpFiles} (h : files dstPath = none) :
    backup dstPath files = files := by
  rw [backup, h]

/-- A round that copies to a free place leaves the other files. -/
theorem isSome_importRound {s : ImportRun} {action : ImportAction} {path : String}
    (hfree : s.files action.dstPath = none) (hpath : path ≠ action.dstPath)
    (h : (s.files path).isSome) : ((importRound true s action).files path).isSome := by
  unfold importRound
  split_ifs
  · exact h
  · cases hstep : importStep true s.files action with
    | none => rwa [backup_of_none hfree]
    | some files =>
      have hkept := contentAt_importStep hstep path
      rw [if_neg hpath, if_neg fun hmove => Bool.noConfusion hmove.1, backup_of_none hfree]
        at hkept
      rwa [← contentAt_isSome, hkept, contentAt_isSome]

/-- Copies to free places find their sources. -/
theorem stepsMeet_sourceThere {actions : List ImportAction} (hapart : OutputsApart actions)
    {s : ImportRun} (hfree : ∀ a ∈ actions, s.files a.dstPath = none)
    (hsources : ∀ a ∈ actions, ∀ b ∈ actions, a.srcPath ≠ b.dstPath)
    (hthere : ∀ a ∈ actions, (s.files a.srcPath).isSome) :
    StepsMeet (importRound true) SourceThere s actions := by
  induction actions generalizing s with
  | nil => exact stepsMeet_nil _ _
  | cons action actions ih =>
    obtain ⟨hfirst, hrest⟩ := List.forall_mem_cons.1 hfree
    refine ⟨?_, ih hapart.tail (hapart.free_importRound hrest) (fun a ha b hb => ?_)
      fun a ha => ?_⟩
    · rw [SourceThere, backup_of_none hfirst]
      exact hthere action List.mem_cons_self
    · exact hsources a (List.mem_cons_of_mem _ ha) b (List.mem_cons_of_mem _ hb)
    · have hne := hsources a (List.mem_cons_of_mem _ ha) action List.mem_cons_self
      exact isSome_importRound hfirst hne (hthere a (List.mem_cons_of_mem _ ha))

theorem outputsApart_of_plan {w : ImportWorld} {args : ImportArgs} {actions : List ImportAction}
    (h : w.plan args = .ok actions) : OutputsApart actions := by
  unfold ImportWorld.plan at h
  split at h
  · obtain rfl := Except.ok.inj h
    exact outputsApart_importActions _ _ _
  · contradiction

/-- A planned import keeps everything where no output is there yet and no source is an output. -/
theorem importKeeps_of_plan {w : ImportWorld} {args : ImportArgs} {actions : List ImportAction}
    (h : w.plan args = .ok actions) (hfree : ∀ a ∈ actions, w.files a.dstPath = none)
    (hsources : ∀ a ∈ actions, ∀ b ∈ actions, a.srcPath ≠ b.dstPath) :
    ImportKeeps args.copy actions w.files := by
  have hapart := outputsApart_of_plan h
  refine (hapart.keeps_iff w.files).2 ⟨stepsMeet_backupKept hapart hfree, ?_⟩
  rintro - before action after rfl
  refine ⟨fun a ha heq => ?_, fun a ha _ => ?_⟩
  · exact absurd heq (hsources action (by simp) a (by simp [ha]))
  · obtain ⟨before', after', hsplit, hway, -⟩ := ha
    have hmem : a ∈ before ++ [action] := by simp [hsplit]
    have hnone := hfree a (by
      rcases List.mem_append.1 hmem with hbefore | hlast
      · exact List.mem_append_left _ hbefore
      · rw [List.mem_singleton.1 hlast]
        simp)
    rw [hnone] at hway
    contradiction

/-- A first import that copies finishes, loses nothing and maps its dumps exactly. -/
theorem importMain_of_plan {w : ImportWorld} {args : ImportArgs} {actions : List ImportAction}
    (h : w.plan args = .ok actions) (hcopy : args.copy = true) (hdry : args.dryRun = false)
    (hfree : ∀ a ∈ actions, w.files a.dstPath = none)
    (hsources : ∀ a ∈ actions, ∀ b ∈ actions, a.srcPath ≠ b.dstPath) :
    ∃ s, importMain w args = .ok s ∧ s.failed = false ∧
      (∀ content, Has w.files content → Has s.files content) ∧
      ∀ action ∈ actions, ∃ content, contentAt w.files action.srcPath = some content ∧
        contentAt s.files action.dstPath = some content := by
  have hkeeps := importKeeps_of_plan h hfree hsources
  have hfinish : (importRun args.copy actions w.files).failed = false := by
    rw [hcopy]
    have hthere : ∀ a ∈ actions, (w.files a.srcPath).isSome := fun _ =>
      ImportWorld.isSome_of_plan h
    exact (finishes_iff actions w.files).2
      (stepsMeet_sourceThere (outputsApart_of_plan h) hfree hsources hthere)
  refine ⟨importRun args.copy actions w.files, ?_, hfinish, hkeeps.contents, hkeeps.outputs hfinish⟩
  simp [importMain, h, hdry]

end D3Hack
