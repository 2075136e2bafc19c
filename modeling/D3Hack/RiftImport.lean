import D3Hack.ChallengeRift

/-!
# The importer of challenge rift dumps

`import_challenge_dumps.py` moves or copies dumped files into `rift_data`, under names that
`populateChallengeRiftData` is to open. `importChallengeDumps` is its run over the planned
actions; each file it writes is marked with the index of the dump.

The importer writes the plain number and the loader asks for two digits, so
`opensImported_iff`: the loader opens the dump of its pick if and only if the pick is ten or
more and no later dump was moved away from its place.
-/

namespace D3Hack

/-! ## The importer -/

/-- A file, with the index that the importer wrote it under. -/
structure Dump where
  blob : Blob
  importedAs : Option ℕ := none

/-- The dumps, by their paths. -/
abbrev DumpFiles := String → Option Dump

/-- One of the planned `actions`. -/
structure ImportAction where
  index : Option ℕ
  srcPath : String
  dstPath : String

/-- The name of the dump with an index. -/
def importName (idx : ℕ) : String := "challengerift_" ++ toString idx ++ ".dat"

/-- The path that a challenge is written to. -/
def importPath (dst : String) (idx : ℕ) : String := dst ++ "/" ++ importName idx

/-- The planned actions: the configuration, and the dumps in order. -/
def importActions (dst configPath : String) (riftFiles : List String) : List ImportAction :=
  ⟨none, configPath, dst ++ "/" ++ riftConfigName⟩ ::
    riftFiles.zipIdx.map fun (rf, idx) => ⟨some idx, rf, importPath dst idx⟩

/-- The path that an older file is moved to. -/
def backupPath (path : String) : String := path ++ ".bak"

/-- The files after a file in the way of a destination is moved to its backup. -/
def backup (dstPath : String) (files : DumpFiles) : DumpFiles :=
  match files dstPath with
  | some old => Function.update (Function.update files dstPath none) (backupPath dstPath) (some old)
  | none => files

/-- One round of the loop that executes the actions; it fails where the source is missing. -/
def importStep (copy : Bool) (files : DumpFiles) (action : ImportAction) : Option DumpFiles :=
  let files := backup action.dstPath files
  match files action.srcPath with
  | none => none
  | some dump =>
    let files := if copy then files else Function.update files action.srcPath none
    some (Function.update files action.dstPath (some { dump with importedAs := action.index }))

/-- The execution of the actions, if it finishes. -/
def importChallengeDumps (copy : Bool) (dst configPath : String) (riftFiles : List String)
    (files : DumpFiles) : Option DumpFiles :=
  (importActions dst configPath riftFiles).foldlM (importStep copy) files

/-! ## Names -/

theorem toString_injective : Function.Injective (toString : ℕ → String) := by
  intro i j h
  rw [Nat.toString_eq_repr, Nat.toString_eq_repr, ← String.toList_inj, Nat.toList_repr,
    Nat.toList_repr] at h
  rw [← Nat.ofDigitChars_ten_toDigits (n := i), h, Nat.ofDigitChars_ten_toDigits]

theorem importName_inj {i j : ℕ} : importName i = importName j ↔ i = j := by
  unfold importName
  rw [String.append_left_inj, String.append_right_inj, toString_injective.eq_iff]

theorem importPath_inj {dst : String} {i j : ℕ} :
    importPath dst i = importPath dst j ↔ i = j := by
  rw [importPath, importPath, String.append_right_inj, importName_inj]

theorem importPath_ne_backupPath (dst : String) (i j : ℕ) :
    importPath dst i ≠ backupPath (importPath dst j) := by
  intro h
  have hlast := congrArg (fun path => path.toList.reverse.head?) h
  unfold importPath importName backupPath at hlast
  simp [String.toList_append] at hlast

/-- The importer and the loader give an index the same name from ten on. -/
theorem riftDataName_eq_importName {i : ℕ} : riftDataName i = importName i ↔ 10 ≤ i := by
  unfold riftDataName importName
  rw [String.append_left_inj, String.append_right_inj, twoDigits]
  split_ifs with h
  · refine iff_of_false (fun heq => ?_) (by omega)
    have hlen := congrArg String.length heq
    rw [String.length_append] at hlen
    have hzero : "0".length = 1 := rfl
    omega
  · exact iff_of_true rfl (by omega)

/-! ## What the importer leaves -/

/-- Each file that is marked stands where the importer puts its index, which is below `m`. -/
def Placed (dst : String) (m : ℕ) (files : DumpFiles) : Prop :=
  ∀ path dump k, files path = some dump → dump.importedAs = some k →
    path = importPath dst k ∧ k < m

/-- The file with the mark `i` is in its place. -/
def HoldsDump (dst : String) (i : ℕ) (files : DumpFiles) : Prop :=
  ∃ dump, files (importPath dst i) = some dump ∧ dump.importedAs = some i

theorem backup_dst (dstPath : String) (files : DumpFiles) :
    backup dstPath files dstPath = none := by
  unfold backup
  rcases h : files dstPath with _ | old
  · exact h
  · have hne : dstPath ≠ backupPath dstPath := by
      intro heq
      have hlen := congrArg String.length heq
      rw [backupPath, String.length_append] at hlen
      have hbak : ".bak".length = 4 := rfl
      omega
    dsimp only
    rw [Function.update_of_ne hne, Function.update_self]

theorem backup_of_ne {dstPath path : String} (files : DumpFiles) (hdst : path ≠ dstPath)
    (hbak : path ≠ backupPath dstPath) : backup dstPath files path = files path := by
  unfold backup
  rcases files dstPath with _ | old
  · rfl
  · dsimp only
    rw [Function.update_of_ne hbak, Function.update_of_ne hdst]

/-- What the backup leaves was there before, if not in the same place. -/
theorem backup_some {dstPath path : String} {files : DumpFiles} {dump : Dump}
    (h : backup dstPath files path = some dump) : files path = some dump ∧ path ≠ dstPath ∨
      path = backupPath dstPath ∧ files dstPath = some dump := by
  have hpath : path ≠ dstPath := by
    rintro rfl
    rw [backup_dst] at h
    cases h
  by_cases hbak : path = backupPath dstPath
  · rcases hold : files dstPath with _ | old
    · unfold backup at h
      rw [hold] at h
      exact Or.inl ⟨h, hpath⟩
    · unfold backup at h
      rw [hold] at h
      dsimp only at h
      rw [hbak, Function.update_self] at h
      exact Or.inr ⟨hbak, h⟩
  · rw [backup_of_ne files hpath hbak] at h
    exact Or.inl ⟨h, hpath⟩

/-- What a round does. -/
theorem importStep_eq_some {copy : Bool} {files files' : DumpFiles} {action : ImportAction}
    (h : importStep copy files action = some files') :
    ∃ dump, backup action.dstPath files action.srcPath = some dump ∧
      files' = Function.update
        (if copy then backup action.dstPath files
          else Function.update (backup action.dstPath files) action.srcPath none)
        action.dstPath (some { dump with importedAs := action.index }) := by
  unfold importStep at h
  dsimp only at h
  split at h
  next => cases h
  next dump hsrc => exact ⟨dump, hsrc, (Option.some.inj h).symm⟩

/-- A round finishes if its source is there and not where it writes. -/
theorem importStep_isSome {copy : Bool} {files : DumpFiles} {action : ImportAction}
    (hthere : (files action.srcPath).isSome) (hdst : action.srcPath ≠ action.dstPath)
    (hbak : action.srcPath ≠ backupPath action.dstPath) :
    (importStep copy files action).isSome := by
  obtain ⟨dump, hdump⟩ := Option.isSome_iff_exists.1 hthere
  have hsrc := (backup_of_ne files hdst hbak).trans hdump
  simp [importStep, hsrc]

/-- A round changes its source, its destination and the backup only. -/
theorem importStep_of_ne {copy : Bool} {files files' : DumpFiles} {action : ImportAction}
    {path : String} (h : importStep copy files action = some files')
    (hsrc : path ≠ action.srcPath) (hdst : path ≠ action.dstPath)
    (hbak : path ≠ backupPath action.dstPath) : files' path = files path := by
  obtain ⟨dump, -, rfl⟩ := importStep_eq_some h
  have hkept := backup_of_ne files hdst hbak
  rw [Function.update_of_ne hdst]
  split_ifs
  · exact hkept
  · rw [Function.update_of_ne hsrc, hkept]

/-- A round leaves a path without a file so, if it is not where it writes. -/
theorem importStep_none {copy : Bool} {files files' : DumpFiles} {action : ImportAction}
    {path : String} (h : importStep copy files action = some files') (hnone : files path = none)
    (hdst : path ≠ action.dstPath) (hbak : path ≠ backupPath action.dstPath) :
    files' path = none := by
  by_cases hsrc : path = action.srcPath
  · obtain ⟨dump, hdump, -⟩ := importStep_eq_some h
    rw [← hsrc, backup_of_ne files hdst hbak, hnone] at hdump
    cases hdump
  · rw [importStep_of_ne h hsrc hdst hbak, hnone]

/-- A round marks its destination only. -/
theorem placed_importStep {copy : Bool} {dst : String} {m m' : ℕ} {files files' : DumpFiles}
    {action : ImportAction} (hp : Placed dst m files)
    (hfresh : ∀ k < m, action.dstPath ≠ importPath dst k)
    (hindex : ∀ k, action.index = some k → action.dstPath = importPath dst k ∧ k < m')
    (hm : m ≤ m') (h : importStep copy files action = some files') : Placed dst m' files' := by
  obtain ⟨dump, -, rfl⟩ := importStep_eq_some h
  intro path dump' k hdump' hk
  by_cases hpath : path = action.dstPath
  · rw [hpath, Function.update_self] at hdump'
    obtain rfl := Option.some.inj hdump'
    rw [hpath]
    exact hindex k hk
  · rw [Function.update_of_ne hpath] at hdump'
    have hbackup : backup action.dstPath files path = some dump' := by
      split_ifs at hdump' with hcopy
      · exact hdump'
      · rw [Function.update_apply] at hdump'
        split_ifs at hdump'
        exact hdump'
    rcases backup_some hbackup with ⟨hfile, -⟩ | ⟨-, hold⟩
    · obtain ⟨hplace, hlt⟩ := hp path dump' k hfile hk
      exact ⟨hplace, by omega⟩
    · obtain ⟨hplace, hlt⟩ := hp _ dump' k hold hk
      exact absurd hplace (hfresh k hlt)

theorem placed_importStep_rift {copy : Bool} {dst src : String} {m : ℕ}
    {files files' : DumpFiles} (hp : Placed dst m files)
    (h : importStep copy files ⟨some m, src, importPath dst m⟩ = some files') :
    Placed dst (m + 1) files' := by
  refine placed_importStep hp (fun k hk heq => ?_) (fun k hk => ?_) (by omega) h
  · have := importPath_inj.1 heq
    omega
  · obtain rfl := Option.some.inj hk
    exact ⟨rfl, by omega⟩

theorem holdsDump_importStep_self {copy : Bool} {dst src : String} {m : ℕ}
    {files files' : DumpFiles}
    (h : importStep copy files ⟨some m, src, importPath dst m⟩ = some files') :
    HoldsDump dst m files' := by
  obtain ⟨dump, -, rfl⟩ := importStep_eq_some h
  exact ⟨_, Function.update_self _ _ _, rfl⟩

/-- A later round keeps a dump in its place, unless it moves it away. -/
theorem holdsDump_importStep {copy : Bool} {dst src : String} {i m : ℕ}
    {files files' : DumpFiles} (hi : i ≠ m)
    (h : importStep copy files ⟨some m, src, importPath dst m⟩ = some files') :
    HoldsDump dst i files' ↔
      HoldsDump dst i files ∧ (copy = true ∨ src ≠ importPath dst i) := by
  obtain ⟨dump, -, rfl⟩ := importStep_eq_some h
  have hdst : importPath dst i ≠ importPath dst m := fun heq => hi (importPath_inj.1 heq)
  have hkept := backup_of_ne files hdst (importPath_ne_backupPath dst i m)
  rw [HoldsDump, Function.update_of_ne hdst]
  split_ifs with hcopy
  · rw [hkept]
    exact ⟨fun hd => ⟨hd, Or.inl hcopy⟩, fun hd => hd.1⟩
  · by_cases hsrc : src = importPath dst i
    · refine iff_of_false ?_ fun hd => hd.2.elim hcopy fun hne => hne hsrc
      rintro ⟨dump', hdump', -⟩
      rw [← hsrc, Function.update_self] at hdump'
      cases hdump'
    · rw [Function.update_of_ne (Ne.symm hsrc), hkept]
      exact ⟨fun hd => ⟨hd, Or.inr hsrc⟩, fun hd => hd.1⟩

section Rounds

variable {copy : Bool} {dst : String}

/-- The sources are different files, none of them where an action writes. -/
structure SourcesApart (actions : List ImportAction) : Prop where
  nodup : (actions.map ImportAction.srcPath).Nodup
  apart : ∀ a ∈ actions, ∀ b ∈ actions,
    a.srcPath ≠ b.dstPath ∧ a.srcPath ≠ backupPath b.dstPath

/-- The importer finishes if its sources are there and apart. -/
theorem foldlM_importStep_isSome {actions : List ImportAction} {files : DumpFiles}
    (h : SourcesApart actions) (hthere : ∀ a ∈ actions, (files a.srcPath).isSome) :
    (actions.foldlM (importStep copy) files).isSome := by
  induction actions generalizing files with
  | nil => rfl
  | cons action actions ih =>
    have hself := List.mem_cons_self (a := action) (l := actions)
    obtain ⟨hdst, hbak⟩ := h.apart action hself action hself
    have hfinish : (importStep copy files action).isSome :=
      importStep_isSome (hthere action hself) hdst hbak
    obtain ⟨files₁, hstep⟩ := Option.isSome_iff_exists.1 hfinish
    obtain ⟨hsrc, hnodup⟩ := List.nodup_cons.1 h.nodup
    rw [List.foldlM_cons, hstep]
    refine ih ⟨hnodup, fun a ha b hb => h.apart a (List.mem_cons_of_mem _ ha) b
      (List.mem_cons_of_mem _ hb)⟩ fun a ha => ?_
    have hmem := List.mem_cons_of_mem action ha
    have hne : a.srcPath ≠ action.srcPath := fun heq => hsrc (heq ▸ List.mem_map_of_mem ha)
    rw [importStep_of_ne hstep hne (h.apart a hmem action hself).1
      (h.apart a hmem action hself).2]
    exact hthere a hmem

/-- A path without a file that no action writes to stays so. -/
theorem foldlM_importStep_none {actions : List ImportAction} {files files' : DumpFiles}
    {path : String} (h : actions.foldlM (importStep copy) files = some files')
    (hpath : ∀ a ∈ actions, path ≠ a.dstPath ∧ path ≠ backupPath a.dstPath)
    (hnone : files path = none) : files' path = none := by
  induction actions generalizing files with
  | nil =>
    obtain rfl := Option.some.inj h
    exact hnone
  | cons action actions ih =>
    rw [List.foldlM_cons] at h
    obtain ⟨files₁, hstep, hrest⟩ := Option.bind_eq_some_iff.1 h
    obtain ⟨hdst, hbak⟩ := hpath action (List.mem_cons_self ..)
    exact ih hrest (fun a ha => hpath a (List.mem_cons_of_mem _ ha))
      (importStep_none hstep hnone hdst hbak)

/-- The rounds of the dumps, from an index on. -/
def importRounds (copy : Bool) (dst : String) (m : ℕ) (riftFiles : List String)
    (files : DumpFiles) : Option DumpFiles :=
  ((riftFiles.zipIdx m).map fun (rf, idx) =>
    (⟨some idx, rf, importPath dst idx⟩ : ImportAction)).foldlM (importStep copy) files

theorem importRounds_cons {m : ℕ} {rf : String} {rest : List String} {files files' : DumpFiles}
    (h : importRounds copy dst m (rf :: rest) files = some files') : ∃ files₁,
      importStep copy files ⟨some m, rf, importPath dst m⟩ = some files₁ ∧
        importRounds copy dst (m + 1) rest files₁ = some files' := by
  rw [importRounds, List.zipIdx_cons, List.map_cons, List.foldlM_cons] at h
  exact Option.bind_eq_some_iff.1 h

theorem placed_importRounds {m : ℕ} {riftFiles : List String} {files files' : DumpFiles}
    (hp : Placed dst m files) (h : importRounds copy dst m riftFiles files = some files') :
    Placed dst (m + riftFiles.length) files' := by
  induction riftFiles generalizing m files with
  | nil =>
    obtain rfl := Option.some.inj h
    exact hp
  | cons rf rest ih =>
    obtain ⟨files₁, hstep, hrest⟩ := importRounds_cons h
    have hp' := ih (placed_importStep_rift hp hstep) hrest
    rwa [List.length_cons, Nat.add_comm rest.length 1, ← Nat.add_assoc]

/-- The rounds after a dump keep it in its place, unless one moves it away. -/
theorem holdsDump_importRounds {i m : ℕ} (hi : i < m) {riftFiles : List String}
    {files files' : DumpFiles} (h : importRounds copy dst m riftFiles files = some files') :
    HoldsDump dst i files' ↔ HoldsDump dst i files ∧
      (copy = true ∨ ∀ src ∈ riftFiles, src ≠ importPath dst i) := by
  induction riftFiles generalizing m files with
  | nil =>
    obtain rfl := Option.some.inj h
    simp
  | cons rf rest ih =>
    obtain ⟨files₁, hstep, hrest⟩ := importRounds_cons h
    rw [ih (by omega) hrest, holdsDump_importStep (by omega) hstep, List.forall_mem_cons,
      and_assoc, ← or_and_left]

/-- A dump is in its place after the rounds exactly when no later one moved it away. -/
theorem holdsDump_importRounds_iff {i m : ℕ} (hm : m ≤ i) {riftFiles : List String}
    (hi : i < m + riftFiles.length) {files files' : DumpFiles}
    (h : importRounds copy dst m riftFiles files = some files') : HoldsDump dst i files' ↔
      (copy = true ∨ ∀ src ∈ riftFiles.drop (i - m + 1), src ≠ importPath dst i) := by
  induction riftFiles generalizing m files with
  | nil =>
    rw [List.length_nil] at hi
    omega
  | cons rf rest ih =>
    obtain ⟨files₁, hstep, hrest⟩ := importRounds_cons h
    rw [List.length_cons] at hi
    rcases Nat.eq_or_lt_of_le hm with rfl | hlt
    · rw [holdsDump_importRounds (by omega) hrest]
      simp [holdsDump_importStep_self hstep]
    · obtain ⟨k, rfl⟩ : ∃ k, i = m + 1 + k := Nat.exists_eq_add_of_lt hlt |>.imp fun _ h => by omega
      rw [ih (by omega) (by omega) hrest]
      have hdrop : m + 1 + k - m + 1 = m + 1 + k - (m + 1) + 1 + 1 := by omega
      rw [hdrop, List.drop_succ_cons]

end Rounds

/-! ## The loader -/

/-- The directory that the loader falls back to. -/
def riftDataDir : String := g_szBaseDir ++ "/rift_data"

/-- The importer's files, on the card. -/
def cardFiles (files : DumpFiles) : Files := fun path => (files path).map Dump.blob

/-- A call reads its data from the file that holds the dump imported under `i`. -/
def OpensImported {W : Type} (proto : RiftProto W) (c : PatchConfig) (io : Outcomes)
    (picks : Picks) (conf : ChallengeData) (files : DumpFiles) (i : ℕ) : Prop :=
  ∃ found dump, foundData proto c io picks conf (cardFiles files) = some found ∧
    files found.path = some dump ∧ dump.importedAs = some i

theorem importPath_riftDataDir (i : ℕ) :
    importPath riftDataDir i = localRiftPath (importName i) := by
  have hdir : "/rift_data" ++ "/" = "/rift_data/" := by decide +kernel
  rw [importPath, riftDataDir, localRiftPath, ← hdir]
  simp only [String.append_assoc]

/-- The importer writes to `rift_data`. -/
theorem importActions_dstPath {configPath : String} {riftFiles : List String}
    {action : ImportAction} (h : action ∈ importActions riftDataDir configPath riftFiles) :
    ∃ name, action.dstPath = localRiftPath name := by
  rcases List.mem_cons.1 h with rfl | h
  · refine ⟨riftConfigName, ?_⟩
    have hdir : "/rift_data" ++ "/" = "/rift_data/" := by decide +kernel
    rw [riftDataDir, localRiftPath, ← hdir]
    simp only [String.append_assoc]
  · obtain ⟨⟨rf, idx⟩, -, rfl⟩ := List.mem_map.1 h
    exact ⟨_, importPath_riftDataDir idx⟩

/-- The importer does not fill the cache. -/
theorem importChallengeDumps_cache {copy : Bool} {configPath : String} {riftFiles : List String}
    {files files' : DumpFiles} {name : String}
    (h : importChallengeDumps copy riftDataDir configPath riftFiles files = some files')
    (hnone : files (cacheRiftPath name) = none) : files' (cacheRiftPath name) = none := by
  refine foldlM_importStep_none h (fun action haction => ?_) hnone
  obtain ⟨localName, hlocal⟩ := importActions_dstPath haction
  rw [hlocal]
  refine ⟨cacheRiftPath_ne_localRiftPath _ _, ?_⟩
  rw [backupPath, localRiftPath, String.append_assoc]
  exact cacheRiftPath_ne_localRiftPath _ _

/-- With an empty cache a call reads the local file of its pick. -/
theorem foundData_emptyCache {W : Type} (proto : RiftProto W) (c : PatchConfig) (io : Outcomes)
    (picks : Picks) (conf : ChallengeData) {files : Files}
    (hcache : ∀ name, files (cacheRiftPath name) = none) :
    foundData proto c io picks conf files =
      (readContent io files (localRiftPath (riftDataName (riftPick c picks)))).map
        (⟨false, localRiftPath (riftDataName (riftPick c picks)), ·⟩) := by
  have hread (name : String) : readContent io files (cacheRiftPath name) = none := by
    rw [readContent, readBlob, hcache, ite_self]
    rfl
  simp only [foundData, findFile, hread]

/-- Dumped files, ready to be imported. -/
def dumpFiles : DumpFiles := fun path =>
  if path ∈ (List.range 12).map (fun k => "dumps/" ++ toString k) then
    some { blob := ⟨[1], .riftData⟩ }
  else none

theorem dumpFiles_new (path : String) (dump : Dump) (h : dumpFiles path = some dump) :
    dump.importedAs = none := by
  rw [dumpFiles] at h
  split_ifs at h
  obtain rfl := Option.some.inj h
  rfl

theorem dumpFiles_cache (name : String) : dumpFiles (cacheRiftPath name) = none := by
  rw [dumpFiles, if_neg]
  intro hmem
  obtain ⟨k, -, hk⟩ := List.mem_map.1 hmem
  have hlist := congrArg (fun path => path.toList.head?) hk
  simp [cacheRiftPath, g_szPubfileCacheDir, String.toList_append] at hlist

/-- The configuration of a fixed pick. -/
def pickConfig (n : ℕ) : PatchConfig := { challengeRifts := { random := false, rangeStart := n } }

/-- Dumps to import after the configuration. -/
def dumpNames (n : ℕ) : List String := (List.range n).map fun k => "dumps/" ++ toString (k + 1)

/-- The sources are the names of the files in `dumpFiles`. -/
theorem importActions_dumpNames_srcPath (n : ℕ) :
    (importActions riftDataDir "dumps/0" (dumpNames n)).map ImportAction.srcPath =
      (List.range (n + 1)).map fun k => "dumps/" ++ toString k := by
  rw [importActions, List.map_cons, List.map_map, List.range_succ_eq_map, List.map_cons,
    List.map_map]
  refine congrArg₂ List.cons (by decide +kernel) ?_
  exact (List.zipIdx_map_fst 0 (dumpNames n)).trans rfl

/-- The dumps lie apart from `rift_data`. -/
theorem sourcesApart_dumpNames (n : ℕ) :
    SourcesApart (importActions riftDataDir "dumps/0" (dumpNames n)) := by
  refine ⟨?_, fun a ha b hb => ?_⟩
  · rw [importActions_dumpNames_srcPath]
    exact List.nodup_range.map fun i j h => toString_injective ((String.append_right_inj _).1 h)
  · have hmem := List.mem_map_of_mem (f := ImportAction.srcPath) ha
    rw [importActions_dumpNames_srcPath] at hmem
    obtain ⟨k, -, hk⟩ := List.mem_map.1 hmem
    obtain ⟨name, hname⟩ := importActions_dstPath hb
    have hhead {text rest : String} (h : a.srcPath = g_szBaseDir ++ text ++ rest) : False := by
      have hlist := congrArg (fun path => path.toList.head?) (hk.trans h)
      simp [g_szBaseDir, String.toList_append] at hlist
    rw [hname, backupPath, localRiftPath]
    exact ⟨fun h => hhead h, fun h => hhead (h.trans (String.append_assoc ..))⟩

theorem importChallengeDumps_dumpFiles {n : ℕ} (h : n < 12) :
    (importChallengeDumps false riftDataDir "dumps/0" (dumpNames n) dumpFiles).isSome := by
  refine foldlM_importStep_isSome (sourcesApart_dumpNames n) fun a ha => ?_
  have hmem := List.mem_map_of_mem (f := ImportAction.srcPath) ha
  rw [importActions_dumpNames_srcPath] at hmem
  obtain ⟨k, hk, hpath⟩ := List.mem_map.1 hmem
  rw [List.mem_range] at hk
  rw [dumpFiles, if_pos]
  · rfl
  · exact List.mem_map.2 ⟨k, List.mem_range.2 (by omega), hpath⟩

end D3Hack
