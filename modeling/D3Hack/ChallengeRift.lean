import D3Hack.GameMemory

/-!
# Challenge rift data

`populateChallengeRiftData` fills the two messages of a challenge rift from files: each from
the cache of publisher files, or from the directory `rift_data`. It parses through the entry
point that `parsePartialFromStringHook` instruments, which remembers the challenge number and
may write what was parsed to the cache.

`populateChallengeRiftData_spec` says which files are parsed and what becomes of the
messages, and `allOrNothing_populate_iff` when a call is all or nothing.
-/

namespace D3Hack

/-! ## The messages -/

/-- `ChallengeData`, with the bytes of the fields that the message does not know. -/
structure ChallengeData where
  unknownFields : List UInt8 := []
  hasBits : UInt32 := 0
  cachedSize : Int32 := 0
  startUnixTime : ℤ := 0
  lastBroadcastUnixTime : ℤ := 0
  number : UInt32 := 0
  nephalemOrbMultiplier : Ieee := .fin 1
  endUnixTimeConsole : ℤ := 0
  hash : ℕ := 0

/-- The parser of the game, `ParsePartialFromString`, on the two kinds of messages: whether it
succeeds, and the message it leaves. `W` is the weekly challenge data. -/
structure RiftProto (W : Type) where
  parseChallenge : ChallengeData → Option (List UInt8) → Bool × ChallengeData
  parseWeekly : W → Option (List UInt8) → Bool × W

/-- The files and the heap, with the variables of the challenge rift hooks; `hooked` says
whether the parser's hook is installed. -/
structure RiftState where
  files : Files
  heap : Heap := {}
  sLastChallengeNum : UInt32 := 0
  lastChallengeNumber : UInt32 := 0
  hooked : Bool := true

/-! ## The parser's hook -/

/-- `%02u`. -/
def twoDigits (n : ℕ) : String := if n < 10 then "0" ++ toString n else toString n

/-- The name of the dumped weekly data. -/
def riftConfigName : String := "challengerift_config.dat"

/-- `challengerift_%02u.dat`. -/
def riftDataName (n : ℕ) : String := "challengerift_" ++ twoDigits n ++ ".dat"

/-- `WriteTestFile`. `FileCreate` is taken to leave an empty file, so that the file holds what is
written and nothing else. -/
def writeTestFile (io : Outcomes) (path : String) (data : Blob) (files : Files) : Bool × Files :=
  if io.writes path then (true, Function.update files path (some data)) else (false, files)

/-- `CacheChallengeRiftRaw`. -/
def cacheChallengeRiftRaw (c : PatchConfig) (io : Outcomes) (filename : String)
    (data : Option Blob) (files : Files) : Bool × Files :=
  match data with
  | none => (false, files)
  | some data =>
    if c.debug.enablePubfileDump = false then (false, files)
    else if data.bytes = [] then (false, files)
    else
      match buildPubfileCachePath 512 (some filename) with
      | none => (false, files)
      | some path => writeTestFile io path data files

/-- `SetLastChallengeNumber`. -/
def setLastChallengeNumber (num : UInt32) (s : RiftState) : RiftState :=
  if num ≠ 0 then { s with lastChallengeNumber := num } else s

section Hook

variable {W : Type} (proto : RiftProto W) (c : PatchConfig) (io : Outcomes)

/-- `ParsePartialFromStringHook` on challenge data. -/
def parseChallengeHook (msg : ChallengeData) (data : Option Blob) (s : RiftState) :
    Bool × ChallengeData × RiftState :=
  let (ok, msg) := proto.parseChallenge msg (data.map Blob.bytes)
  if s.hooked && ok && data.isSome then
    let s := setLastChallengeNumber msg.number { s with sLastChallengeNum := msg.number }
    (ok, msg, { s with files := (cacheChallengeRiftRaw c io riftConfigName data s.files).2 })
  else (ok, msg, s)

/-- `ParsePartialFromStringHook` on weekly challenge data. -/
def parseWeeklyHook (msg : W) (data : Option Blob) (s : RiftState) : Bool × W × RiftState :=
  let (ok, msg) := proto.parseWeekly msg (data.map Blob.bytes)
  if s.hooked && ok && data.isSome then
    let name := riftDataName s.sLastChallengeNum.toNat
    (ok, msg, { s with files := (cacheChallengeRiftRaw c io name data s.files).2 })
  else (ok, msg, s)

/-! ## Populating -/

variable {M : Type} (parse : M → Option Blob → RiftState → Bool × M × RiftState)

/-- `PopulateData`; what the parser returns is ignored. -/
def populateData (dest : M) (path : String) (s : RiftState) : Bool × M × RiftState :=
  match readFileToBuffer io s.files path s.heap with
  | (some (_, blob), heap) =>
    let (fileData, heap) := replaceBlzString (io.grants path) {} blob heap
    let (_, dest, s) := parse dest (some fileData.content) { s with heap }
    (true, dest, { s with heap := freeElements fileData (s.heap.sigmaMemoryFree .variable) })
  | (none, heap) => (false, dest, { s with heap })

/-- `PopulateDataWithFallback`, for its result and whether it used the cache. -/
def populateDataWithFallback (dest : M) (cachePath localPath : String) (s : RiftState) :
    Bool × Bool × M × RiftState :=
  match populateData io parse dest cachePath s with
  | (true, dest, s) => (true, true, dest, s)
  | (false, dest, s) =>
    let (found, dest, s) := populateData io parse dest localPath s
    (found, false, dest, s)

/-- The values of `GameRandRangeInt` in a call. -/
structure Picks where
  pick : ℤ := 0
  number : ℤ := 0

/-- `nPick`. -/
def riftPick (picks : Picks) : ℕ :=
  if c.challengeRifts.random then (picks.pick % 2 ^ 32).toNat else c.challengeRifts.rangeStart

/-- A dump that was put onto the card. -/
def localRiftPath (name : String) : String := g_szBaseDir ++ "/rift_data/" ++ name

/-- A dump of the hooks. -/
def cacheRiftPath (name : String) : String := g_szPubfileCacheDir ++ "/" ++ name

/-- What a populated configuration becomes. -/
def fixUpChallenge (picks : Picks) (fromCache : Bool) (conf : ChallengeData) : ChallengeData :=
  let conf := if fromCache then conf else { conf with number := .ofInt picks.number }
  { conf with
    startUnixTime := 0, lastBroadcastUnixTime := 0, endUnixTimeConsole := 0x7FFFFFFF }

/-- `PopulateChallengeRiftData`. -/
def populateChallengeRiftData (picks : Picks) (conf : ChallengeData) (data : W)
    (s : RiftState) : Bool × ChallengeData × W × RiftState :=
  let pick := riftPick c picks
  let (configOk, configFromCache, conf, s) := populateDataWithFallback io
    (parseChallengeHook proto c io) conf (cacheRiftPath riftConfigName)
      (localRiftPath riftConfigName) s
  let conf := if configOk then fixUpChallenge picks configFromCache conf else conf
  let cachePick := if configFromCache then conf.number.toNat else pick
  let (dataOk, _, data, s) := populateDataWithFallback io (parseWeeklyHook proto c io) data
    (cacheRiftPath (riftDataName cachePick)) (localRiftPath (riftDataName pick)) s
  (configOk && dataOk, conf, data, s)

/-- What the stock callback of `ChallengeRiftCallback` is called with. -/
structure RiftDelivery (W : Type) where
  result : Option ℤ
  conf : Option ChallengeData
  data : Option W

/-- The result of a retrieval that succeeded. -/
def storageSuccess : ℤ := 0

/-- `ChallengeRiftCallback`, for what it calls the stock callback with. -/
def challengeRiftCallback (picks : Picks) (args : RiftDelivery W) (s : RiftState) :
    RiftDelivery W × RiftState :=
  match c.challengeRifts.active, args.conf, args.data, args.result with
  | true, some conf, some data, some result =>
    let (populated, conf, data, s) := populateChallengeRiftData proto c io picks conf data s
    ({ result := some (if populated then storageSuccess else result)
       conf := some conf, data := some data }, s)
  | _, _, _, _ => (args, s)

end Hook

/-! ## Names and paths -/

theorem isDigit_of_mem_toString {n : ℕ} {c : Char} (hc : c ∈ (toString n).toList) :
    c.isDigit := by
  rw [Nat.toString_eq_repr, Nat.toList_repr] at hc
  exact Nat.isDigit_of_mem_toDigits (by omega) le_rfl hc

/-- The number in a file name is made of digits. -/
theorem isDigit_of_mem_twoDigits {n : ℕ} {c : Char} (hc : c ∈ (twoDigits n).toList) :
    c.isDigit := by
  unfold twoDigits at hc
  split_ifs at hc
  · rw [String.toList_append, List.mem_append] at hc
    rcases hc with hc | hc
    · obtain rfl : c = '0' := by simpa using hc
      rfl
    · exact isDigit_of_mem_toString hc
  · exact isDigit_of_mem_toString hc

theorem length_twoDigits_le {n : ℕ} (h : n < 2 ^ 32) : (twoDigits n).length ≤ 10 := by
  have hn : (toString n).length ≤ 10 := by
    rw [Nat.toString_eq_repr, Nat.length_repr_le_iff (by omega)]
    omega
  unfold twoDigits
  split_ifs with hlt
  · rw [String.length_append, Nat.toString_eq_repr, Nat.repr_of_lt hlt]
    have hzero : "0".length = 1 := rfl
    rw [String.length_singleton]
    omega
  · exact hn

theorem riftDataName_toList (n : ℕ) :
    (riftDataName n).toList =
      "challengerift_".toList ++ (twoDigits n).toList ++ ".dat".toList := by
  unfold riftDataName
  rw [String.toList_append, String.toList_append]

/-- No rift is stored under the name of the configuration. -/
theorem riftDataName_ne_riftConfigName (n : ℕ) : riftDataName n ≠ riftConfigName := by
  intro h
  have hlist : "challengerift_".toList ++ (twoDigits n).toList ++ ".dat".toList =
      "challengerift_".toList ++ "config".toList ++ ".dat".toList := by
    rw [← riftDataName_toList, h]
    rfl
  have hdigits := List.append_cancel_left (List.append_cancel_right hlist)
  have hc : 'c'.isDigit := isDigit_of_mem_twoDigits (n := n) (by rw [hdigits]; decide)
  exact absurd hc (by decide)

theorem cacheRiftPath_inj {a b : String} : cacheRiftPath a = cacheRiftPath b ↔ a = b := by
  rw [cacheRiftPath, cacheRiftPath, String.append_right_inj]

theorem cacheRiftPath_ne_localRiftPath (a b : String) : cacheRiftPath a ≠ localRiftPath b := by
  intro h
  have hlist := congrArg (fun s => s.toList.take 22) h
  simp [cacheRiftPath, localRiftPath, String.toList_append, g_szPubfileCacheDir, g_szBaseDir]
    at hlist

theorem separatorFree_riftDataName {n : ℕ} :
    ∀ c ∈ (riftDataName n).toList, c ≠ '/' ∧ c ≠ '\\' := by
  intro c hc
  rw [riftDataName_toList] at hc
  simp only [List.mem_append] at hc
  rcases hc with (hc | hc) | hc
  · exact separatorFree_of_all (by decide +kernel) c hc
  · have hdigit := isDigit_of_mem_twoDigits hc
    constructor <;> rintro rfl <;> exact absurd hdigit (by decide)
  · exact separatorFree_of_all (by decide +kernel) c hc

/-- The cache writes to the path that populating reads. -/
theorem buildPubfileCachePath_riftDataName {n : ℕ} (h : n < 2 ^ 32) :
    buildPubfileCachePath 512 (some (riftDataName n)) = some (cacheRiftPath (riftDataName n)) := by
  refine buildPubfileCachePath_name ?_ separatorFree_riftDataName ?_
  · intro hempty
    have hlist := riftDataName_toList n
    rw [hempty] at hlist
    simp at hlist
  · have hlen := length_twoDigits_le h
    have hname : (riftDataName n).length = 14 + (twoDigits n).length + 4 := by
      unfold riftDataName
      rw [String.length_append, String.length_append]
      rfl
    omega

theorem buildPubfileCachePath_riftConfigName :
    buildPubfileCachePath 512 (some riftConfigName) = some (cacheRiftPath riftConfigName) := by
  exact buildPubfileCachePath_name (by decide +kernel)
    (separatorFree_of_all (by decide +kernel)) (by decide +kernel)

/-! ## What is parsed -/

/-- The content that a file is parsed as: empty where its string is not granted. -/
def readContent (io : Outcomes) (files : Files) (path : String) : Option Blob :=
  (readBlob io files path).map fun blob => if io.grants path then blob else .empty

/-- A file that was found, in the cache or in `rift_data`. -/
structure FoundFile where
  fromCache : Bool
  path : String
  content : Blob

/-- The first of two files that is read. -/
def findFile (io : Outcomes) (files : Files) (cachePath localPath : String) : Option FoundFile :=
  match readContent io files cachePath with
  | some content => some ⟨true, cachePath, content⟩
  | none => (readContent io files localPath).map (⟨false, localPath, ·⟩)

section Found

variable {M : Type} (io : Outcomes) (parse : M → Option Blob → RiftState → Bool × M × RiftState)

theorem populateData_none {dest : M} {path : String} {s : RiftState}
    (h : readContent io s.files path = none) :
    populateData io parse dest path s = (false, dest, s) := by
  rw [readContent, Option.map_eq_none_iff] at h
  rw [populateData, readFileToBuffer_none _ h]

theorem populateData_some (dest : M) {path : String} {s : RiftState} {content : Blob}
    (h : readContent io s.files path = some content) : ∃ heap heap',
      populateData io parse dest path s =
        (true, (parse dest (some content) { s with heap }).2.1,
          { (parse dest (some content) { s with heap }).2.2 with heap := heap' }) := by
  obtain ⟨blob, hblob, rfl⟩ := Option.map_eq_some_iff.1 h
  rw [populateData, readFileToBuffer_some _ hblob]
  dsimp only
  rw [replaceBlzString_content]
  exact ⟨_, _, rfl⟩

/-- The file that is found is parsed, or nothing happens. -/
theorem populateDataWithFallback_spec (dest : M) (cachePath localPath : String) (s : RiftState) :
    match findFile io s.files cachePath localPath with
    | none => populateDataWithFallback io parse dest cachePath localPath s =
        (false, false, dest, s)
    | some found => ∃ heap heap',
        populateDataWithFallback io parse dest cachePath localPath s =
          (true, found.fromCache, (parse dest (some found.content) { s with heap }).2.1,
            { (parse dest (some found.content) { s with heap }).2.2 with heap := heap' }) := by
  rw [findFile]
  rcases hc : readContent io s.files cachePath with _ | content
  · rcases hl : readContent io s.files localPath with _ | content
    · simp only [Option.map_none]
      rw [populateDataWithFallback, populateData_none io parse hc]
      dsimp only
      rw [populateData_none io parse hl]
    · simp only [Option.map_some]
      obtain ⟨heap, heap', hrun⟩ := populateData_some io parse dest hl
      refine ⟨heap, heap', ?_⟩
      rw [populateDataWithFallback, populateData_none io parse hc]
      dsimp only
      rw [hrun]
  · obtain ⟨heap, heap', hrun⟩ := populateData_some io parse dest hc
    refine ⟨heap, heap', ?_⟩
    rw [populateDataWithFallback, hrun]

end Found

/-! ## What the hook does -/

section HookSpec

variable {W : Type} (proto : RiftProto W) (c : PatchConfig) (io : Outcomes)

theorem parseChallengeHook_msg (msg : ChallengeData) (data : Option Blob) (s : RiftState) :
    (parseChallengeHook proto c io msg data s).2.1 =
      (proto.parseChallenge msg (data.map Blob.bytes)).2 := by
  rw [parseChallengeHook]
  dsimp only
  split_ifs <;> rfl

theorem parseWeeklyHook_msg (msg : W) (data : Option Blob) (s : RiftState) :
    (parseWeeklyHook proto c io msg data s).2.1 =
      (proto.parseWeekly msg (data.map Blob.bytes)).2 := by
  rw [parseWeeklyHook]
  dsimp only
  split_ifs <;> rfl

/-- The hook does not look at the heap. -/
theorem parseChallengeHook_heap (msg : ChallengeData) (data : Option Blob) (s : RiftState)
    (heap : Heap) : (parseChallengeHook proto c io msg data { s with heap }).2.2 =
      { (parseChallengeHook proto c io msg data s).2.2 with heap } := by
  simp only [parseChallengeHook, setLastChallengeNumber]
  split_ifs <;> rfl

theorem parseWeeklyHook_heap (msg : W) (data : Option Blob) (s : RiftState) (heap : Heap) :
    (parseWeeklyHook proto c io msg data { s with heap }).2.2 =
      { (parseWeeklyHook proto c io msg data s).2.2 with heap } := by
  simp only [parseWeeklyHook]
  split_ifs <;> rfl

end HookSpec

/-! ## What a call does -/

/-- A write to the cache keeps the content, where it is enabled and succeeds. -/
theorem cacheChallengeRiftRaw_files (c : PatchConfig) (io : Outcomes) {name : String}
    (hname : buildPubfileCachePath 512 (some name) = some (cacheRiftPath name)) (data : Blob)
    (files : Files) : (cacheChallengeRiftRaw c io name (some data) files).2 =
      if c.debug.enablePubfileDump = true ∧ data.bytes ≠ [] ∧
          io.writes (cacheRiftPath name) = true then
        Function.update files (cacheRiftPath name) (some data)
      else files := by
  simp only [cacheChallengeRiftRaw, hname, writeTestFile]
  split_ifs <;> simp_all

section Populate

variable {W : Type} (proto : RiftProto W) (c : PatchConfig) (io : Outcomes)

/-- The file that the configuration is read from. -/
def foundConf (files : Files) : Option FoundFile :=
  findFile io files (cacheRiftPath riftConfigName) (localRiftPath riftConfigName)

/-- The configuration that a call leaves. -/
def populatedConf (picks : Picks) (conf : ChallengeData) : Option FoundFile → ChallengeData
  | none => conf
  | some found => fixUpChallenge picks found.fromCache
      (proto.parseChallenge conf (some found.content.bytes)).2

/-- The number in the name of the cache file that a call looks for. -/
def cachePick (picks : Picks) (conf : ChallengeData) (found : Option FoundFile) : ℕ :=
  if found.any FoundFile.fromCache then (populatedConf proto picks conf found).number.toNat
  else riftPick c picks

/-- The file that the data is read from. -/
def foundData (picks : Picks) (conf : ChallengeData) (files : Files) : Option FoundFile :=
  findFile io files
    (cacheRiftPath (riftDataName (cachePick proto c picks conf (foundConf io files))))
    (localRiftPath (riftDataName (riftPick c picks)))

/-- The data that a call leaves. -/
def populatedData (data : W) : Option FoundFile → W
  | none => data
  | some found => (proto.parseWeekly data (some found.content.bytes)).2

/-- The state after the configuration is read. -/
def confState (conf : ChallengeData) (s : RiftState) : Option FoundFile → RiftState
  | none => s
  | some found => (parseChallengeHook proto c io conf (some found.content) s).2.2

/-- The state after the data is read. -/
def dataState (data : W) (s : RiftState) : Option FoundFile → RiftState
  | none => s
  | some found => (parseWeeklyHook proto c io data (some found.content) s).2.2

/-- Reading the configuration writes one file. -/
theorem confState_files (conf : ChallengeData) (s : RiftState) (found : Option FoundFile)
    {path : String} (h : path ≠ cacheRiftPath riftConfigName) :
    (confState proto c io conf s found).files path = s.files path := by
  rcases found with _ | found
  · rfl
  · simp only [confState, parseChallengeHook, setLastChallengeNumber,
      cacheChallengeRiftRaw_files c io buildPubfileCachePath_riftConfigName]
    split_ifs <;> first | rfl | exact Function.update_of_ne h _ _

theorem dataState_heap (data : W) (s : RiftState) (found : Option FoundFile) (heap : Heap) :
    dataState proto c io data { s with heap } found =
      { dataState proto c io data s found with heap } := by
  rcases found with _ | found
  · rfl
  · exact parseWeeklyHook_heap proto c io data _ s heap

theorem findFile_congr {files files' : Files} {cachePath localPath : String}
    (hcache : files cachePath = files' cachePath) (hlocal : files localPath = files' localPath) :
    findFile io files cachePath localPath = findFile io files' cachePath localPath := by
  simp only [findFile, readContent, readBlob, hcache, hlocal]

/-- The first phase of a call. -/
theorem readConf_spec (conf : ChallengeData) (s : RiftState) : ∃ heap,
    populateDataWithFallback io (parseChallengeHook proto c io) conf
        (cacheRiftPath riftConfigName) (localRiftPath riftConfigName) s =
      ((foundConf io s.files).isSome, (foundConf io s.files).any FoundFile.fromCache,
        ((foundConf io s.files).map fun found =>
          (proto.parseChallenge conf (some found.content.bytes)).2).getD conf,
        { confState proto c io conf s (foundConf io s.files) with heap }) := by
  have hspec := populateDataWithFallback_spec io (parseChallengeHook proto c io) conf
    (cacheRiftPath riftConfigName) (localRiftPath riftConfigName) s
  rcases hfound : foundConf io s.files with _ | found <;> rw [foundConf] at hfound <;>
    rw [hfound] at hspec
  · exact ⟨s.heap, hspec⟩
  · obtain ⟨heap, heap', hrun⟩ := hspec
    refine ⟨heap', hrun.trans ?_⟩
    rw [parseChallengeHook_msg, parseChallengeHook_heap]
    rfl

/-- The second phase of a call. -/
theorem readData_spec (data : W) (cachePath localPath : String) (s : RiftState) : ∃ heap,
    populateDataWithFallback io (parseWeeklyHook proto c io) data cachePath localPath s =
      ((findFile io s.files cachePath localPath).isSome,
        (findFile io s.files cachePath localPath).any FoundFile.fromCache,
        populatedData proto data (findFile io s.files cachePath localPath),
        { dataState proto c io data s (findFile io s.files cachePath localPath) with heap }) := by
  have hspec := populateDataWithFallback_spec io (parseWeeklyHook proto c io) data
    cachePath localPath s
  rcases hfound : findFile io s.files cachePath localPath with _ | found <;> rw [hfound] at hspec
  · exact ⟨s.heap, hspec⟩
  · obtain ⟨heap, heap', hrun⟩ := hspec
    refine ⟨heap', hrun.trans ?_⟩
    rw [parseWeeklyHook_msg, parseWeeklyHook_heap]
    rfl

/-- The path of the cached data that a call looks for. -/
def cachedDataPath (picks : Picks) (conf : ChallengeData) (files : Files) : String :=
  cacheRiftPath (riftDataName (cachePick proto c picks conf (foundConf io files)))

/-- The configuration is read, and then the data in the state that this leaves. -/
theorem populateChallengeRiftData_phases (picks : Picks) (conf : ChallengeData) (data : W)
    (s : RiftState) : ∃ heap,
      (populateDataWithFallback io (parseChallengeHook proto c io) conf
          (cacheRiftPath riftConfigName) (localRiftPath riftConfigName) s).2.2.2 =
        { confState proto c io conf s (foundConf io s.files) with heap } ∧
      populateChallengeRiftData proto c io picks conf data s =
        let (dataOk, _, data', s') := populateDataWithFallback io (parseWeeklyHook proto c io) data
          (cachedDataPath proto c io picks conf s.files)
          (localRiftPath (riftDataName (riftPick c picks)))
          { confState proto c io conf s (foundConf io s.files) with heap }
        ((foundConf io s.files).isSome && dataOk,
          populatedConf proto picks conf (foundConf io s.files), data', s') := by
  obtain ⟨heap, hconf⟩ := readConf_spec proto c io conf s
  have hfixed : (if (foundConf io s.files).isSome then
      fixUpChallenge picks ((foundConf io s.files).any FoundFile.fromCache)
        (((foundConf io s.files).map fun found =>
          (proto.parseChallenge conf (some found.content.bytes)).2).getD conf)
      else ((foundConf io s.files).map fun found =>
          (proto.parseChallenge conf (some found.content.bytes)).2).getD conf) =
        populatedConf proto picks conf (foundConf io s.files) := by
    cases foundConf io s.files <;> rfl
  refine ⟨heap, by rw [hconf], ?_⟩
  rw [populateChallengeRiftData, hconf]
  dsimp only
  rw [hfixed, ← cachePick, ← cachedDataPath]

/-- What the first phase writes is not what the second reads. -/
theorem findFile_confState (picks : Picks) (conf : ChallengeData) (s : RiftState) :
    findFile io (confState proto c io conf s (foundConf io s.files)).files
        (cachedDataPath proto c io picks conf s.files)
        (localRiftPath (riftDataName (riftPick c picks))) =
      foundData proto c io picks conf s.files := by
  refine findFile_congr io (confState_files proto c io conf s _ ?_)
    (confState_files proto c io conf s _ (cacheRiftPath_ne_localRiftPath _ _).symm)
  exact fun h => riftDataName_ne_riftConfigName _ (cacheRiftPath_inj.1 h)

/-- A call reads the files as they are on entry: what it writes is not what it reads next. -/
theorem populateChallengeRiftData_spec (picks : Picks) (conf : ChallengeData) (data : W)
    (s : RiftState) : ∃ heap, populateChallengeRiftData proto c io picks conf data s =
      ((foundConf io s.files).isSome && (foundData proto c io picks conf s.files).isSome,
        populatedConf proto picks conf (foundConf io s.files),
        populatedData proto data (foundData proto c io picks conf s.files),
        { dataState proto c io data (confState proto c io conf s (foundConf io s.files))
            (foundData proto c io picks conf s.files) with heap }) := by
  obtain ⟨heap, -, hphases⟩ := populateChallengeRiftData_phases proto c io picks conf data s
  obtain ⟨heap', hdata⟩ := readData_spec proto c io data
    (cachedDataPath proto c io picks conf s.files) (localRiftPath (riftDataName (riftPick c picks)))
    { confState proto c io conf s (foundConf io s.files) with heap }
  rw [findFile_confState, dataState_heap] at hdata
  exact ⟨heap', by rw [hphases, hdata]⟩

end Populate

/-! ## All or nothing -/

section AllOrNothing

variable {W : Type} (proto : RiftProto W) (c : PatchConfig) (io : Outcomes)

/-- A call returns true only after both files parsed, and leaves the messages, and with them
what the stock callback gets, as they were when it returns false. -/
structure PopulatesAllOrNothing (picks : Picks) (conf : ChallengeData) (data : W) (s : RiftState) :
    Prop where
  parsed : (populateChallengeRiftData proto c io picks conf data s).1 = true →
    (∃ found, foundConf io s.files = some found ∧
      (proto.parseChallenge conf (some found.content.bytes)).1 = true) ∧
    ∃ found, foundData proto c io picks conf s.files = some found ∧
      (proto.parseWeekly data (some found.content.bytes)).1 = true
  untouched : (populateChallengeRiftData proto c io picks conf data s).1 = false →
    (populateChallengeRiftData proto c io picks conf data s).2.1 = conf ∧
    (populateChallengeRiftData proto c io picks conf data s).2.2.1 = data ∧
    ∀ result, (challengeRiftCallback proto c io picks ⟨some result, some conf, some data⟩ s).1 =
      ⟨some result, some conf, some data⟩

/-- Both files are found and parse; or only the configuration is, and the parsed one, with the
times and the number that the code sets, is the message itself; or only the data is, and
parsing leaves the message as it was; or neither is found. -/
def PopulateSafe (picks : Picks) (conf : ChallengeData) (data : W) (s : RiftState) : Prop :=
  match foundConf io s.files, foundData proto c io picks conf s.files with
  | some fc, some fd => (proto.parseChallenge conf (some fc.content.bytes)).1 = true ∧
      (proto.parseWeekly data (some fd.content.bytes)).1 = true
  | some fc, none =>
      let parsed := (proto.parseChallenge conf (some fc.content.bytes)).2
      conf = { parsed with
        number := if fc.fromCache then parsed.number else .ofInt picks.number
        startUnixTime := 0, lastBroadcastUnixTime := 0, endUnixTimeConsole := 0x7FFFFFFF }
  | none, some fd => (proto.parseWeekly data (some fd.content.bytes)).2 = data
  | none, none => True

theorem challengeRiftCallback_untouched (picks : Picks) (conf : ChallengeData) (data : W)
    (s : RiftState) (hret : (populateChallengeRiftData proto c io picks conf data s).1 = false)
    (hconf : (populateChallengeRiftData proto c io picks conf data s).2.1 = conf)
    (hdata : (populateChallengeRiftData proto c io picks conf data s).2.2.1 = data)
    (result : ℤ) : (challengeRiftCallback proto c io picks
      ⟨some result, some conf, some data⟩ s).1 = ⟨some result, some conf, some data⟩ := by
  rcases hactive : c.challengeRifts.active with _ | _
  · simp only [challengeRiftCallback, hactive]
  · simp only [challengeRiftCallback, hactive, hret, hconf, hdata]
    rfl

/-- A call is all or nothing exactly when it is safe. -/
theorem allOrNothing_populate_iff (picks : Picks) (conf : ChallengeData) (data : W)
    (s : RiftState) : PopulatesAllOrNothing proto c io picks conf data s ↔
      PopulateSafe proto c io picks conf data s := by
  obtain ⟨heap, hspec⟩ := populateChallengeRiftData_spec proto c io picks conf data s
  have hret := congrArg Prod.fst hspec
  have hconf := congrArg (fun r => r.2.1) hspec
  have hdata := congrArg (fun r => r.2.2.1) hspec
  dsimp only at hret hconf hdata
  have huntouched := challengeRiftCallback_untouched proto c io picks conf data s
  rw [PopulateSafe]
  rcases hfc : foundConf io s.files with _ | fc <;>
    rcases hfd : foundData proto c io picks conf s.files with _ | fd <;>
    rw [hfc, hfd] at hret <;> rw [hfc] at hconf <;> rw [hfd] at hdata
  · refine iff_of_true ⟨fun h => ?_, fun h => ⟨hconf, hdata, huntouched h hconf hdata⟩⟩ trivial
    exact absurd (hret.symm.trans h) (by simp)
  · refine ⟨fun h => ?_, fun h => ⟨fun ht => ?_, fun hf => ?_⟩⟩
    · exact hdata.symm.trans (h.untouched hret).2.1
    · exact absurd (hret.symm.trans ht) (by simp)
    · have hdata' := hdata.trans h
      exact ⟨hconf, hdata', huntouched hf hconf hdata'⟩
  · have hfix : populatedConf proto picks conf (some fc) =
        let parsed := (proto.parseChallenge conf (some fc.content.bytes)).2
        { parsed with
          number := if fc.fromCache then parsed.number else .ofInt picks.number
          startUnixTime := 0, lastBroadcastUnixTime := 0, endUnixTimeConsole := 0x7FFFFFFF } := by
      rw [populatedConf, fixUpChallenge]
      split_ifs <;> rfl
    rw [hfix] at hconf
    refine ⟨fun h => ?_, fun h => ⟨fun ht => ?_, fun hf => ?_⟩⟩
    · exact (h.untouched hret).1.symm.trans hconf
    · exact absurd (hret.symm.trans ht) (by simp)
    · have hconf' := hconf.trans h.symm
      exact ⟨hconf', hdata, huntouched hf hconf' hdata⟩
  · refine ⟨fun h => ?_, fun h => ⟨fun _ => ?_, fun hf => ?_⟩⟩
    · obtain ⟨⟨found, hfound, hparse⟩, found', hfound', hparse'⟩ := h.parsed hret
      obtain rfl := Option.some.inj (hfc.symm.trans hfound)
      obtain rfl := Option.some.inj (hfd.symm.trans hfound')
      exact ⟨hparse, hparse'⟩
    · exact ⟨⟨fc, hfc, h.1⟩, fd, hfd, h.2⟩
    · exact absurd (hret.symm.trans hf) (by simp)

end AllOrNothing

/-- A parser that keeps the bytes, takes the challenge number from the first of them, and fails
on empty content. -/
def byteProto : RiftProto (List UInt8) where
  parseChallenge msg bytes :=
    match bytes with
    | some (n :: _) => (true, { msg with number := n.toUInt32 })
    | _ => (false, msg)
  parseWeekly msg bytes :=
    match bytes with
    | some (n :: rest) => (true, n :: rest)
    | _ => (false, msg)

/-- With the configuration in `rift_data` and no data, the call returns false and has
overwritten the number of its first message. -/
theorem not_allOrNothing_dataMissing : ¬ PopulatesAllOrNothing byteProto {} {} { number := 7 } {} []
    { files := fun path => if path = localRiftPath riftConfigName then some ⟨[5], .riftData⟩
        else none } := by
  intro h
  have hnumber := congrArg ChallengeData.number (h.untouched (by decide +kernel)).1
  revert hnumber
  decide +kernel

end D3Hack
