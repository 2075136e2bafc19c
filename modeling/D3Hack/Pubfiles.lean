import D3Hack.GameMemory
import D3Hack.Runs

/-!
# Publisher files

The game retrieves three publisher files, and the hooks on their callbacks keep a copy of each,
deliver that copy when a retrieval fails, and override what is delivered. `PubState` is what
outlives a callback: the files, the heap, and the strings the hooks own.

`configFileRetrieved`, `seasonsFileRetrieved` and `blacklistFileRetrieved` are the hooks;
`stepsMeet_faithful_iff` says in which runs a replacement is always delivered as a success and
the cache only follows successful retrievals.
-/

namespace D3Hack

open Runs

/-! ## Texts -/

/-- `AppendConfigLine`. -/
def appendConfigLine (out key value : String) : String := out ++ key ++ " \"" ++ value ++ "\"\n"

/-- `BoolToConfig`. -/
def boolToConfig (value : Bool) : String := if value then "1" else "0"

/-- The lines of `BuildConfigSwapString`, as key and value. -/
def configSwapLines (c : PatchConfig) : List (String × String) :=
  let flag (f : SeasonEventFlag) := boolToConfig (c.events.flags f)
  [("HeroPublishFrequencyMinutes", "30"), ("EnableCrossPlatformSaveMigration", "1"),
    ("SeasonalGlobalLeaderboardsEnabled", "1"), ("EnableDiablo4Advertisement", "1"),
    ("CommunityBuffStart", "???, 16 Sep 2023 00:00:00 GMT"),
    ("CommunityBuffEnd", "???, 01 Dec 2027 01:00:00 GMT"),
    ("CommunityBuffDoubleGoblins", flag .doubleTreasureGoblins),
    ("CommunityBuffDoubleBountyBags", flag .doubleBountyBags),
    ("CommunityBuffRoyalGrandeur", flag .royalGrandeur),
    ("CommunityBuffLegacyOfNightmares", flag .legacyOfNightmares),
    ("CommunityBuffTriunesWill", flag .triunesWill),
    ("CommunityBuffPandemonium", flag .pandemonium),
    ("CommunityBuffKanaiPowers", flag .kanaiPowers),
    ("CommunityBuffTrialsOfTempests", flag .trialsOfTempests),
    ("CommunityBuffSeasonOnly", boolToConfig false),
    ("CommunityBuffShadowClones", flag .shadowClones),
    ("CommunityBuffFourthKanaisCubeSlot", flag .fourthKanaisCubeSlot),
    ("CommunityBuffEtherealItems", flag .etherealItems),
    ("CommunityBuffSoulShards", flag .soulShards),
    ("CommunityBuffSwarmRifts", flag .swarmRifts),
    ("CommunityBuffSanctifiedItems", flag .sanctifiedItems),
    ("CommunityBuffDarkAlchemy", flag .darkAlchemy),
    ("CommunityBuffParagonCap", boolToConfig false),
    ("CommunityBuffNestingPortals", flag .nestingPortals),
    ("CommunityBuffLegendaryFind", "1337420666999.9"),
    ("CommunityBuffGoldFind", "1337420666999.8"), ("CommunityBuffXP", "1337420666999.7"),
    ("CommunityBuffEasterEggWorld", flag .easterEggWorldEnabled),
    ("CommunityBuffDoubleRiftKeystones", flag .doubleRiftKeystones),
    ("CommunityBuffDoubleBloodShards", flag .doubleBloodShards), ("UpdateVersion", "1")]

/-- `BuildConfigSwapString`. -/
def buildConfigSwapString (c : PatchConfig) : String :=
  (configSwapLines c).foldl (fun out line => appendConfigLine out line.1 line.2) ""

/-- `BuildSeasonSwapString`. -/
def buildSeasonSwapString (seasonNumber : ℕ) : String :=
  "# Format for dates MUST be: \" ? ? ? , DD MMM YYYY hh : mm:ss UTC\"\n" ++
    "# The Day of Month(DD) MUST be 2 - digit; use either preceding zero or trailing space\n" ++
    "[Season " ++ toString seasonNumber ++ "]\n" ++
    "Start \"Sat, 09 Feb 2025 00:00:00 GMT\"\n" ++
    "End \"Tue, 09 Feb 2036 01:00:00 GMT\"\n\n"

/-- `kEmptyBlacklist`, a list without entries. -/
def kEmptyBlacklist : String := "# Blacklist overridden by d3hack\n[GBID]\n\n[SNO]\n"

/-- A text as content. -/
def Blob.ofString (text : String) : Blob := ⟨text.toUTF8.data.toList, .online⟩

/-! ## Files and strings -/

/-- The three publisher files. -/
inductive PubHook where
  | config
  | seasons
  | blacklist
  deriving DecidableEq

/-- The strings that a delivered pointer may lead to: the game's, and the two that each hook
owns. -/
inductive StringId where
  | game
  | cached (hook : PubHook)
  | fallback (hook : PubHook)
  deriving DecidableEq

/-- A `blz::shared_ptr<blz::string> *`: null, or a pointer whose `m_pointer` may be null. -/
abbrev FileData := Option (Option StringId)

/-- The files, the heap and the strings. -/
structure PubState where
  files : Files
  heap : Heap := {}
  strings : StringId → BlzString := fun _ => {}

/-- The file names in `CmdLineGetParams`. -/
structure CmdLineParams where
  szSeasonsConfigFilename : String := ""
  szBlacklistConfigFilename : String := ""

/-- The cached configuration. -/
def k_config_cache_name : String := "config.txt"

/-- The cached seasons, where the parameters give no name. -/
def k_seasons_cache_fallback : String := "seasons_config.txt"

/-- The cached blacklist, where the parameters give no name. -/
def k_blacklist_cache_fallback : String := "blacklist_config.txt"

/-- The size of the buffer for a path. -/
def k_cache_path_max : ℕ := 512

/-- `GetSeasonsConfigFilename`. -/
def getSeasonsConfigFilename : Option CmdLineParams → String
  | some params =>
    if params.szSeasonsConfigFilename = "" then k_seasons_cache_fallback
    else params.szSeasonsConfigFilename
  | none => k_seasons_cache_fallback

/-- `GetBlacklistConfigFilename`. -/
def getBlacklistConfigFilename : Option CmdLineParams → String
  | some params =>
    if params.szBlacklistConfigFilename = "" then k_blacklist_cache_fallback
    else params.szBlacklistConfigFilename
  | none => k_blacklist_cache_fallback

namespace PubState

/-- `GetBlzStringData`. -/
def getBlzStringData (s : PubState) (pszFileData : FileData) : Option Blob :=
  match pszFileData with
  | some (some id) =>
    if (s.strings id).content.bytes = [] then none else some (s.strings id).content
  | _ => none

/-- `HasPubfileData`. -/
def hasPubfileData (s : PubState) (pszFileData : FileData) : Bool :=
  (s.getBlzStringData pszFileData).isSome

/-- `EnsureSharedPtrData`, for the string that a pointer then leads to. -/
def ensureSharedPtrData (ptr : Option StringId) (fallback : StringId) : StringId :=
  ptr.getD fallback

/-- `ReplaceBlzString` on one of the strings. -/
def replaceString (granted : Bool) (id : StringId) (data : Blob) (s : PubState) : PubState :=
  let (str, heap) := replaceBlzString granted (s.strings id) data s.heap
  { s with heap, strings := Function.update s.strings id str }

/-- `CachePubfile`, with the write of `WriteTestFile`. -/
def cachePubfile (io : Outcomes) (cachePath : String) (pszFileData : FileData) (s : PubState) :
    Bool × PubState :=
  match s.getBlzStringData pszFileData with
  | none => (false, s)
  | some data =>
    if io.writes cachePath then
      (true, { s with files := Function.update s.files cachePath (some data) })
    else (false, s)

/-- `LoadCachedPubfile`. -/
def loadCachedPubfile (io : Outcomes) (cachePath : String) (pszFileData : FileData)
    (fallback : StringId) (s : PubState) : Bool × FileData × PubState :=
  match pszFileData with
  | none => (false, pszFileData, s)
  | some ptr =>
    match readFileToBuffer io s.files cachePath s.heap with
    | (some (_, blob), heap) =>
      let id := ensureSharedPtrData ptr fallback
      let s := replaceString (io.grants cachePath) id blob { s with heap }
      -- As in `blizzStringFromFile`, the pointer's own address is freed.
      (true, some (some id), { s with heap := s.heap.sigmaMemoryFree .variable })
    | (none, heap) => (false, pszFileData, { s with heap })

/-- The common part of `OverrideConfigIfNeeded`, `OverrideSeasonsIfNeeded` and
`OverrideBlacklistIfNeeded`. -/
def overrideIfNeeded (granted active : Bool) (text : String) (fallback : StringId)
    (pszFileData : FileData) (s : PubState) : FileData × PubState :=
  match pszFileData, active with
  | some ptr, true =>
    let id := ensureSharedPtrData ptr fallback
    (some (some id), replaceString granted id (.ofString text) s)
  | _, _ => (pszFileData, s)

/-- `OverrideConfigIfNeeded`. -/
def overrideConfigIfNeeded (granted : Bool) (c : PatchConfig) (pszFileData : FileData)
    (s : PubState) : FileData × PubState :=
  overrideIfNeeded granted c.events.active (buildConfigSwapString c) (.fallback .config)
    pszFileData s

/-- `OverrideSeasonsIfNeeded`. -/
def overrideSeasonsIfNeeded (granted : Bool) (c : PatchConfig) (pszFileData : FileData)
    (s : PubState) : FileData × PubState :=
  overrideIfNeeded granted c.seasons.active (buildSeasonSwapString c.seasons.currentSeason)
    (.fallback .seasons) pszFileData s

/-- `OverrideBlacklistIfNeeded`; there is no setting for it. -/
def overrideBlacklistIfNeeded (granted : Bool) (pszFileData : FileData) (s : PubState) :
    FileData × PubState :=
  overrideIfNeeded granted true kEmptyBlacklist (.fallback .blacklist) pszFileData s

/-! ## The hooks -/

/-- The part that the three hooks share, for the result, the data, and whether the cached copy
was used: the data is cached, or the copy takes its place. -/
def cacheOrLoad (io : Outcomes) (cachePath : Option String) (cached : StringId) (result : ℤ)
    (pszFileData : FileData) (s : PubState) : ℤ × FileData × Bool × PubState :=
  match cachePath with
  | none => (result, pszFileData, false, s)
  | some cachePath =>
    let hasData := s.hasPubfileData pszFileData
    let s := if result = 0 ∨ hasData = true then (cachePubfile io cachePath pszFileData s).2 else s
    if result ≠ 0 ∨ hasData = false then
      let (loaded, pszFileData, s) := loadCachedPubfile io cachePath pszFileData cached s
      (if loaded then 0 else result, pszFileData, loaded, s)
    else (result, pszFileData, false, s)

end PubState

/-- A callback: the retrieval's result and data, the configuration and the command line
parameters at the time, and which calls of the game succeed; allocations do. -/
structure PubEvent where
  hook : PubHook
  c : PatchConfig := {}
  params : Option CmdLineParams := none
  reads : String → Bool := fun _ => true
  writes : String → Bool := fun _ => true
  eResult : ℤ
  /-- Null, a null `m_pointer`, or the delivered string. -/
  fileData : Option (Option BlzString)

/-- The outcomes of the calls of the game. -/
def PubEvent.io (e : PubEvent) : Outcomes := { reads := e.reads, writes := e.writes }

/-- What the stock callback gets; `replaced` says that the data is an override or the cached
copy. -/
structure PubDelivery where
  result : ℤ
  data : Option Blob
  replaced : Bool
  deriving DecidableEq

namespace PubState

/-- The state with the delivered string in place, and the pointer that leads to it. -/
def deliver (fileData : Option (Option BlzString)) (s : PubState) : FileData × PubState :=
  match fileData with
  | some (some str) =>
      (some (some .game), { s with strings := Function.update s.strings .game str })
  | some none => (some none, s)
  | none => (none, s)

/-- `ConfigFileRetrieved` and `SeasonsFileRetrieved`, for the override and its setting. -/
def overridingRetrieved (cacheName : String) (active : Bool)
    (override : FileData → PubState → FileData × PubState) (e : PubEvent) (s : PubState) :
    Option PubDelivery × PubState :=
  if e.c.initialized = false then (none, s)
  else
    let (pszFileData, s) := s.deliver e.fileData
    let cachePath := buildPubfileCachePath k_cache_path_max (some cacheName)
    let (result, pszFileData, loaded, s) :=
      cacheOrLoad e.io cachePath (.cached e.hook) e.eResult pszFileData s
    let result := if active then 0 else result
    let (pszFileData, s) := if active then override pszFileData s else (pszFileData, s)
    (some ⟨result, s.getBlzStringData pszFileData, loaded || active && pszFileData.isSome⟩, s)

/-- `ConfigFileRetrieved`. -/
def configFileRetrieved (e : PubEvent) : PubState → Option PubDelivery × PubState :=
  overridingRetrieved k_config_cache_name e.c.events.active (overrideConfigIfNeeded true e.c) e

/-- `SeasonsFileRetrieved`. -/
def seasonsFileRetrieved (e : PubEvent) : PubState → Option PubDelivery × PubState :=
  overridingRetrieved (getSeasonsConfigFilename e.params) e.c.seasons.active
    (overrideSeasonsIfNeeded true e.c) e

/-- `BlacklistFileRetrieved`; the override leaves the result. -/
def blacklistFileRetrieved (e : PubEvent) (s : PubState) : Option PubDelivery × PubState :=
  if e.c.initialized = false then (none, s)
  else
    let (pszFileData, s) := s.deliver e.fileData
    let cachePath :=
      buildPubfileCachePath k_cache_path_max (some (getBlacklistConfigFilename e.params))
    let (result, pszFileData, loaded, s) :=
      cacheOrLoad e.io cachePath (.cached e.hook) e.eResult pszFileData s
    let (pszFileData, s) := overrideBlacklistIfNeeded true pszFileData s
    (some ⟨result, s.getBlzStringData pszFileData, loaded || pszFileData.isSome⟩, s)

end PubState

/-- One callback. -/
def pubRetrieved (e : PubEvent) (s : PubState) : Option PubDelivery × PubState :=
  match e.hook with
  | .config => s.configFileRetrieved e
  | .seasons => s.seasonsFileRetrieved e
  | .blacklist => s.blacklistFileRetrieved e

/-- The state after a callback. -/
def pubStep (s : PubState) (e : PubEvent) : PubState := (pubRetrieved e s).2

/-! ## What the hooks have in common -/

namespace PubEvent

variable (e : PubEvent)

/-- The setting that asks for an override. -/
def active : Bool :=
  match e.hook with
  | .config => e.c.events.active
  | .seasons => e.c.seasons.active
  | .blacklist => true

/-- The text of the override. -/
def text : String :=
  match e.hook with
  | .config => buildConfigSwapString e.c
  | .seasons => buildSeasonSwapString e.c.seasons.currentSeason
  | .blacklist => kEmptyBlacklist

/-- The path of the cached copy, if the name has one. -/
def cachePath : Option String :=
  buildPubfileCachePath k_cache_path_max (some (match e.hook with
    | .config => k_config_cache_name
    | .seasons => getSeasonsConfigFilename e.params
    | .blacklist => getBlacklistConfigFilename e.params))

/-- The delivered data, if it is not empty. -/
def delivered : Option Blob :=
  match e.fileData with
  | some (some str) => if str.content.bytes = [] then none else some str.content
  | _ => none

end PubEvent

namespace PubState

/-- The files after the data of a callback is cached. -/
def cachedFiles (e : PubEvent) (files : Files) : Files :=
  match e.cachePath, e.delivered with
  | some path, some data =>
    if e.writes path then Function.update files path (some data) else files
  | _, _ => files

/-- The copy that takes the place of the delivered data. -/
def loadedCopy (e : PubEvent) (files : Files) : Option Blob :=
  match e.fileData, e.cachePath with
  | some _, some path =>
    if e.eResult ≠ 0 ∨ e.delivered = none then readBlob e.io (cachedFiles e files) path else none
  | _, _ => none

theorem getBlzStringData_deliver (e : PubEvent) (s : PubState) :
    (s.deliver e.fileData).2.getBlzStringData (s.deliver e.fileData).1 = e.delivered := by
  rcases h : e.fileData with _ | _ | str
  · simp [deliver, getBlzStringData, PubEvent.delivered, h]
  · simp [deliver, getBlzStringData, PubEvent.delivered, h]
  · simp [deliver, getBlzStringData, PubEvent.delivered, h, Function.update_self]

theorem deliver_files (fileData : Option (Option BlzString)) (s : PubState) :
    (s.deliver fileData).2.files = s.files := by
  rcases fileData with _ | _ | str <;> rfl

theorem deliver_isSome (fileData : Option (Option BlzString)) (s : PubState) :
    (s.deliver fileData).1.isSome = fileData.isSome := by
  rcases fileData with _ | _ | str <;> rfl

/-- Caching keeps the strings. -/
theorem cachePubfile_snd (e : PubEvent) (path : String) (pszFileData : FileData) (s : PubState) :
    (cachePubfile e.io path pszFileData s).2 =
      { s with files := match s.getBlzStringData pszFileData with
          | some data => if e.writes path then Function.update s.files path (some data) else s.files
          | none => s.files } := by
  unfold cachePubfile
  rcases s.getBlzStringData pszFileData with _ | data
  · rfl
  · rcases hw : e.writes path with _ | _ <;> simp [PubEvent.io, hw]

/-- After caching, the files are the cached ones and nothing else has changed. -/
theorem cachePubfile_deliver {e : PubEvent} {path : String} (hpath : e.cachePath = some path)
    (s : PubState) :
    (if e.eResult = 0 ∨ (s.deliver e.fileData).2.hasPubfileData (s.deliver e.fileData).1 = true then
        (cachePubfile e.io path (s.deliver e.fileData).1 (s.deliver e.fileData).2).2
      else (s.deliver e.fileData).2) =
      { (s.deliver e.fileData).2 with files := cachedFiles e s.files } := by
  rw [cachePubfile_snd, hasPubfileData, getBlzStringData_deliver, deliver_files, cachedFiles, hpath]
  rcases e.delivered with _ | data
  · dsimp only
    rw [← deliver_files e.fileData s, ite_self]
  · dsimp only
    rw [if_pos (Or.inr Option.isSome_some)]

theorem loadCachedPubfile_none {io : Outcomes} {path : String} {pszFileData : FileData}
    (fallback : StringId) {s : PubState}
    (h : pszFileData = none ∨ readBlob io s.files path = none) :
    loadCachedPubfile io path pszFileData fallback s = (false, pszFileData, s) := by
  rcases pszFileData with _ | ptr
  · rfl
  · have hread := h.resolve_left (by simp)
    rw [loadCachedPubfile, readFileToBuffer_none _ hread]

/-- The copy is loaded into the string that the pointer then leads to. -/
theorem loadCachedPubfile_some (io : Outcomes) {path : String} (ptr : Option StringId)
    (fallback : StringId) (s : PubState) {blob : Blob} (hg : io.grants path = true)
    (h : readBlob io s.files path = some blob) : ∃ s',
      loadCachedPubfile io path (some ptr) fallback s =
          (true, some (some (ensureSharedPtrData ptr fallback)), s') ∧
        s'.files = s.files ∧ (s'.strings (ensureSharedPtrData ptr fallback)).content = blob := by
  rw [loadCachedPubfile, readFileToBuffer_some _ h]
  refine ⟨_, rfl, rfl, ?_⟩
  dsimp only [replaceString]
  rw [Function.update_self, replaceBlzString_content, hg, if_pos rfl]

theorem loadedCopy_eq {e : PubEvent} {path : String} (hpath : e.cachePath = some path)
    (files : Files) : loadedCopy e files =
      if e.fileData.isSome = true ∧ (e.eResult ≠ 0 ∨ e.delivered = none) then
        readBlob e.io (cachedFiles e files) path
      else none := by
  rw [loadedCopy, hpath]
  rcases e.fileData with _ | ptr
  · exact (if_neg fun h => Bool.false_ne_true h.1).symm
  · simp only [Option.isSome_some, true_and]

/-- What the shared part of the hooks does: the data is cached, and the copy that is loaded
takes its place as a success. -/
theorem cacheOrLoad_spec (e : PubEvent) (s : PubState) :
    ∃ result pszFileData loaded s', cacheOrLoad e.io e.cachePath (.cached e.hook) e.eResult
        (s.deliver e.fileData).1 (s.deliver e.fileData).2 = (result, pszFileData, loaded, s') ∧
      s'.files = cachedFiles e s.files ∧ pszFileData.isSome = e.fileData.isSome ∧
      match loadedCopy e s.files with
      | some blob => result = 0 ∧ loaded = true ∧ s'.getBlzStringData pszFileData =
          if blob.bytes = [] then none else some blob
      | none => result = e.eResult ∧ loaded = false := by
  rcases hpath : e.cachePath with _ | path
  · refine ⟨_, _, _, _, rfl, ?_, deliver_isSome _ _, ?_⟩
    · rw [deliver_files, cachedFiles, hpath]
    · rw [loadedCopy, hpath]
      rcases e.fileData with _ | _ <;> exact ⟨rfl, rfl⟩
  · have hdata : e.delivered.isSome = false ↔ e.delivered = none := by simp
    have hfd := deliver_isSome e.fileData s
    have hcopy := loadedCopy_eq hpath s.files
    rw [← hfd] at hcopy
    rw [cacheOrLoad]
    dsimp only
    rw [cachePubfile_deliver hpath, hasPubfileData, getBlzStringData_deliver]
    simp only [hdata]
    by_cases hload : e.eResult ≠ 0 ∨ e.delivered = none
    · rw [if_pos hload]
      rcases hptr : (s.deliver e.fileData).1 with _ | ptr <;> rw [hptr] at hcopy hfd
      · rw [if_neg fun h => Bool.false_ne_true h.1] at hcopy
        rw [hcopy, loadCachedPubfile_none _ (Or.inl rfl)]
        exact ⟨_, _, _, _, rfl, rfl, hfd, rfl, rfl⟩
      · rw [if_pos ⟨Option.isSome_some, hload⟩] at hcopy
        rcases hread : readBlob e.io (cachedFiles e s.files) path with _ | blob <;>
          rw [hcopy, hread]
        · rw [loadCachedPubfile_none _ (Or.inr hread)]
          exact ⟨_, _, _, _, rfl, rfl, hfd, rfl, rfl⟩
        · obtain ⟨s', hrun, hfiles, hcontent⟩ := loadCachedPubfile_some e.io ptr
            (.cached e.hook) { (s.deliver e.fileData).2 with files := cachedFiles e s.files }
            rfl hread
          rw [hrun]
          refine ⟨_, _, _, _, rfl, hfiles, hfd, rfl, rfl, ?_⟩
          simp only [getBlzStringData, hcontent]
    · rw [if_neg fun h => hload h.2] at hcopy
      rw [if_neg hload, hcopy]
      exact ⟨_, _, _, _, rfl, rfl, hfd, rfl, rfl⟩

/-! ## Overrides -/

theorem ofString_bytes_ne_nil {text : String} (h : 0 < text.utf8ByteSize) :
    (Blob.ofString text).bytes ≠ [] := by
  intro hnil
  have hlen := congrArg List.length hnil
  have hsize : (Blob.ofString text).bytes.length = text.utf8ByteSize := by
    rw [Blob.ofString, Array.length_toList]
    rfl
  rw [hsize, List.length_nil] at hlen
  omega

theorem utf8ByteSize_appendConfigLine (out key value : String) :
    out.utf8ByteSize < (appendConfigLine out key value).utf8ByteSize := by
  have hend : "\"\n".utf8ByteSize = 2 := by decide +kernel
  simp only [appendConfigLine, String.utf8ByteSize_append]
  omega

theorem utf8ByteSize_foldl_appendConfigLine (lines : List (String × String)) (out : String) :
    out.utf8ByteSize ≤
      (lines.foldl (fun out line => appendConfigLine out line.1 line.2) out).utf8ByteSize := by
  induction lines generalizing out with
  | nil => exact le_rfl
  | cons line lines ih =>
    exact (utf8ByteSize_appendConfigLine out line.1 line.2).le.trans (ih _)

theorem utf8ByteSize_buildConfigSwapString (c : PatchConfig) :
    0 < (buildConfigSwapString c).utf8ByteSize := by
  obtain ⟨line, rest, hlines⟩ : ∃ line rest, configSwapLines c = line :: rest := ⟨_, _, rfl⟩
  have hfirst := utf8ByteSize_appendConfigLine "" line.1 line.2
  rw [buildConfigSwapString, hlines, List.foldl_cons]
  exact (Nat.zero_le _).trans_lt
    (hfirst.trans_le (utf8ByteSize_foldl_appendConfigLine rest _))

theorem utf8ByteSize_append_pos {s t : String} (h : 0 < t.utf8ByteSize) :
    0 < (s ++ t).utf8ByteSize := by
  rw [String.utf8ByteSize_append]
  omega

theorem utf8ByteSize_buildSeasonSwapString (n : ℕ) :
    0 < (buildSeasonSwapString n).utf8ByteSize := by
  have hend : 0 < "End \"Tue, 09 Feb 2036 01:00:00 GMT\"\n\n".utf8ByteSize := by decide +kernel
  exact utf8ByteSize_append_pos hend

/-- No override is empty. -/
theorem text_bytes_ne_nil (e : PubEvent) : (Blob.ofString e.text).bytes ≠ [] := by
  refine ofString_bytes_ne_nil ?_
  unfold PubEvent.text
  rcases e.hook with _ | _ | _
  · exact utf8ByteSize_buildConfigSwapString e.c
  · exact utf8ByteSize_buildSeasonSwapString _
  · exact (by decide +kernel : 0 < kEmptyBlacklist.utf8ByteSize)

theorem overrideIfNeeded_inactive (granted : Bool) (text : String) (fallback : StringId)
    (pszFileData : FileData) (s : PubState) :
    overrideIfNeeded granted false text fallback pszFileData s = (pszFileData, s) := by
  rcases pszFileData with _ | ptr <;> rfl

/-- An override leaves the files, and its text as the data. -/
theorem overrideIfNeeded_spec {text : String} (htext : (Blob.ofString text).bytes ≠ [])
    (active : Bool) (fallback : StringId) (pszFileData : FileData) (s : PubState) :
    ∃ pszFileData' s', overrideIfNeeded true active text fallback pszFileData s =
        (pszFileData', s') ∧ s'.files = s.files ∧ pszFileData'.isSome = pszFileData.isSome ∧
      s'.getBlzStringData pszFileData' =
        if active && pszFileData.isSome then some (.ofString text)
        else s.getBlzStringData pszFileData := by
  rcases active with _ | _
  · exact ⟨_, _, overrideIfNeeded_inactive .., rfl, rfl, rfl⟩
  · rcases pszFileData with _ | ptr
    · exact ⟨_, _, rfl, rfl, rfl, rfl⟩
    · refine ⟨_, _, rfl, rfl, rfl, ?_⟩
      have hcontent : (replaceBlzString true (s.strings (ensureSharedPtrData ptr fallback))
          (.ofString text) s.heap).1.content = .ofString text := by
        rw [replaceBlzString_content, if_pos rfl]
      simp only [getBlzStringData, replaceString, Function.update_self, hcontent, if_neg htext,
        Option.isSome_some, Bool.and_self, if_true]

end PubState

open PubState

/-- A callback that finds the configuration ready. -/
theorem pubRetrieved_eq {e : PubEvent} (hi : e.c.initialized = true) (s : PubState) :
    pubRetrieved e s =
      let (pszFileData, s) := s.deliver e.fileData
      let (result, pszFileData, loaded, s) :=
        cacheOrLoad e.io e.cachePath (.cached e.hook) e.eResult pszFileData s
      let (pszFileData, s) :=
        overrideIfNeeded true e.active e.text (.fallback e.hook) pszFileData s
      (some ⟨if e.active = true ∧ e.hook ≠ .blacklist then 0 else result,
        s.getBlzStringData pszFileData, loaded || e.active && pszFileData.isSome⟩, s) := by
  rcases hhook : e.hook with _ | _ | _
  · simp only [pubRetrieved, configFileRetrieved, overridingRetrieved, hhook, hi,
      Bool.true_eq_false, if_false, PubEvent.cachePath, PubEvent.active, PubEvent.text,
      overrideConfigIfNeeded]
    rcases hactive : e.c.events.active with _ | _
    · simp [overrideIfNeeded_inactive]
    · simp
  · simp only [pubRetrieved, seasonsFileRetrieved, overridingRetrieved, hhook, hi,
      Bool.true_eq_false, if_false, PubEvent.cachePath, PubEvent.active, PubEvent.text,
      overrideSeasonsIfNeeded]
    rcases hactive : e.c.seasons.active with _ | _
    · simp [overrideIfNeeded_inactive]
    · simp
  · simp [pubRetrieved, blacklistFileRetrieved, hhook, hi, PubEvent.cachePath, PubEvent.active,
      PubEvent.text, overrideBlacklistIfNeeded]

/-- What a callback delivers and leaves. -/
theorem pubRetrieved_spec {e : PubEvent} (hi : e.c.initialized = true) (s : PubState) :
    ∃ delivery s', pubRetrieved e s = (some delivery, s') ∧ s'.files = cachedFiles e s.files ∧
      delivery.result = (if (e.active = true ∧ e.hook ≠ .blacklist) ∨
        (loadedCopy e s.files).isSome = true then 0 else e.eResult) ∧
      delivery.replaced = ((loadedCopy e s.files).isSome || e.active && e.fileData.isSome) ∧
      (e.active && e.fileData.isSome → delivery.data = some (.ofString e.text)) ∧
      ((e.active && e.fileData.isSome) = false → ∀ blob, loadedCopy e s.files = some blob →
        delivery.data = if blob.bytes = [] then none else some blob) := by
  obtain ⟨result, pszFileData, loaded, s₁, hload, hfiles, hsome, hcopy⟩ := cacheOrLoad_spec e s
  obtain ⟨pszFileData', s₂, hover, hfiles', hsome', hdata⟩ := overrideIfNeeded_spec
    (text_bytes_ne_nil e) e.active (.fallback e.hook) pszFileData s₁
  rw [hsome] at hdata hsome'
  have hrun : pubRetrieved e s =
      (some ⟨if e.active = true ∧ e.hook ≠ .blacklist then 0 else result,
        s₂.getBlzStringData pszFileData', loaded || e.active && pszFileData'.isSome⟩, s₂) := by
    rw [pubRetrieved_eq hi]
    dsimp only
    rw [hload]
    dsimp only
    rw [hover]
  refine ⟨_, s₂, hrun, ?_, ?_, ?_, ?_, ?_⟩
  · rw [hfiles', hfiles]
  · rcases hc : loadedCopy e s.files with _ | blob <;> rw [hc] at hcopy
    · simp [hcopy.1]
    · simp [hcopy.1]
  · rcases hc : loadedCopy e s.files with _ | blob <;> rw [hc] at hcopy
    · simp [hcopy.2, hsome']
    · simp [hcopy.2.1]
  · intro hover'
    dsimp only
    rw [hdata, if_pos hover']
  · intro hover' blob hblob
    rw [hblob] at hcopy
    dsimp only
    rw [hdata, if_neg (by simp [hover']), hcopy.2.2]

theorem pubRetrieved_uninitialized {e : PubEvent} (hi : e.c.initialized = false) (s : PubState) :
    pubRetrieved e s = (none, s) := by
  rcases hhook : e.hook with _ | _ | _
  · simp [pubRetrieved, configFileRetrieved, overridingRetrieved, hhook, hi]
  · simp [pubRetrieved, seasonsFileRetrieved, overridingRetrieved, hhook, hi]
  · simp [pubRetrieved, blacklistFileRetrieved, hhook, hi]

/-! ## Faithful callbacks -/

/-- What replaces the delivered data is a success and not empty, and the cache changes only to
the data of a success. -/
structure Faithful (s : PubState) (e : PubEvent) : Prop where
  replaced : ∀ delivery, (pubRetrieved e s).1 = some delivery → delivery.replaced = true →
    delivery.result = 0 ∧ ∃ blob, delivery.data = some blob ∧ blob.bytes ≠ []
  cached : ∀ path,
    ((pubStep s e).files path).map Blob.bytes ≠ (s.files path).map Blob.bytes →
      e.eResult = 0 ∧ ∃ str, e.fileData = some (some str) ∧
        (pubStep s e).files path = some str.content

/-- There is a cached copy to read, or the delivered data becomes one. -/
def Loadable (s : PubState) (e : PubEvent) : Prop :=
  ∃ path, e.cachePath = some path ∧ e.reads path = true ∧
    ((s.files path).isSome = true ∨ e.delivered.isSome = true ∧ e.writes path = true)

/-- No blacklist is overridden on a failed retrieval without a copy to load, and no data of a
failed retrieval is written over a different copy. -/
def PubSafe (s : PubState) (e : PubEvent) : Prop :=
  e.c.initialized = true →
    (e.hook = .blacklist → e.fileData ≠ none → e.eResult = 0 ∨ Loadable s e) ∧
    (e.eResult ≠ 0 → ∀ path data, e.cachePath = some path → e.delivered = some data →
      e.writes path = true → (s.files path).map Blob.bytes = some data.bytes)

/-- No file is empty. -/
def FilesFull (files : Files) : Prop := ∀ path blob, files path = some blob → blob.bytes ≠ []

theorem delivered_eq_some {e : PubEvent} {data : Blob} (h : e.delivered = some data) :
    ∃ str, e.fileData = some (some str) ∧ str.content = data ∧ data.bytes ≠ [] := by
  unfold PubEvent.delivered at h
  rcases hfd : e.fileData with _ | _ | str <;> rw [hfd] at h
  · cases h
  · cases h
  · dsimp only at h
    split_ifs at h with hempty
    obtain rfl := Option.some.inj h
    exact ⟨str, rfl, rfl, hempty⟩

/-- Caching changes one file, to the delivered data. -/
theorem cachedFiles_cases (e : PubEvent) (files : Files) :
    cachedFiles e files = files ∨ ∃ path data, e.cachePath = some path ∧
      e.delivered = some data ∧ e.writes path = true ∧
        cachedFiles e files = Function.update files path (some data) := by
  unfold cachedFiles
  rcases e.cachePath with _ | path
  · exact Or.inl rfl
  · rcases e.delivered with _ | data
    · exact Or.inl rfl
    · dsimp only
      split_ifs with hw
      · exact Or.inr ⟨path, data, rfl, rfl, hw, rfl⟩
      · exact Or.inl rfl

theorem cachedFiles_some {e : PubEvent} {path : String} {data : Blob}
    (hpath : e.cachePath = some path) (hdata : e.delivered = some data)
    (hw : e.writes path = true) (files : Files) :
    cachedFiles e files = Function.update files path (some data) := by
  rw [cachedFiles, hpath, hdata]
  exact if_pos hw

theorem filesFull_cachedFiles {e : PubEvent} {files : Files} (h : FilesFull files) :
    FilesFull (cachedFiles e files) := by
  rcases cachedFiles_cases e files with heq | ⟨path, data, -, hdata, -, heq⟩
  · rwa [heq]
  · rw [heq]
    intro path' blob hblob
    rw [Function.update_apply] at hblob
    split_ifs at hblob
    · obtain rfl := Option.some.inj hblob
      obtain ⟨-, -, -, hne⟩ := delivered_eq_some hdata
      exact hne
    · exact h path' blob hblob

/-- After a failed retrieval a copy is loaded exactly when there is one to load. -/
theorem loadedCopy_isSome_iff {e : PubEvent} (hfail : e.eResult ≠ 0) (hfd : e.fileData ≠ none)
    (s : PubState) : (loadedCopy e s.files).isSome = true ↔ Loadable s e := by
  rw [Loadable]
  rcases hpath : e.cachePath with _ | path
  · rw [loadedCopy, hpath]
    rcases e.fileData with _ | _ <;> simp
  · have hone : (∃ p, some path = some p ∧ e.reads p = true ∧
        ((s.files p).isSome = true ∨ e.delivered.isSome = true ∧ e.writes p = true)) ↔
        e.reads path = true ∧
          ((s.files path).isSome = true ∨ e.delivered.isSome = true ∧ e.writes path = true) := by
      simp
    rw [hone, loadedCopy_eq hpath,
      if_pos ⟨Option.isSome_iff_ne_none.2 hfd, Or.inl hfail⟩, readBlob, PubEvent.io]
    dsimp only
    by_cases hr : e.reads path = true
    swap
    · simp [hr]
    · rcases hd : e.delivered with _ | data
      · simp [cachedFiles, hpath, hd, hr]
      · rcases hw : e.writes path with _ | _
        · simp [cachedFiles, hpath, hd, hw, hr]
        · simp [cachedFiles, hpath, hd, hw, hr]

theorem pubStep_files {e : PubEvent} (hi : e.c.initialized = true) (s : PubState) :
    (pubStep s e).files = cachedFiles e s.files := by
  obtain ⟨delivery, s', hrun, hfiles, -⟩ := pubRetrieved_spec hi s
  rw [pubStep, hrun, hfiles]

theorem filesFull_pubStep {s : PubState} (h : FilesFull s.files) (e : PubEvent) :
    FilesFull (pubStep s e).files := by
  rcases hi : e.c.initialized with _ | _
  · rwa [pubStep, pubRetrieved_uninitialized hi]
  · rw [pubStep_files hi]
    exact filesFull_cachedFiles h

/-- The copy that is loaded is not empty. -/
theorem loadedCopy_ne_nil {e : PubEvent} {files : Files} (h : FilesFull files) {blob : Blob}
    (hcopy : loadedCopy e files = some blob) : blob.bytes ≠ [] := by
  rcases hpath : e.cachePath with _ | path
  · rw [loadedCopy, hpath] at hcopy
    rcases hfd : e.fileData with _ | _ <;> rw [hfd] at hcopy <;> cases hcopy
  · rw [loadedCopy_eq hpath, readBlob] at hcopy
    split_ifs at hcopy
    exact filesFull_cachedFiles h path blob hcopy

/-- What replaces the delivered data is not empty. -/
theorem replaced_ne_nil {e : PubEvent} {s : PubState} (h : FilesFull s.files)
    (hi : e.c.initialized = true) {delivery : PubDelivery}
    (hd : (pubRetrieved e s).1 = some delivery) (hr : delivery.replaced = true) :
    ∃ blob, delivery.data = some blob ∧ blob.bytes ≠ [] := by
  obtain ⟨d, s', hrun, -, -, hreplaced, hover, hcopy⟩ := pubRetrieved_spec hi s
  rw [hrun] at hd
  obtain rfl := Option.some.inj hd
  rcases hactive : e.active && e.fileData.isSome with _ | _
  · rw [hreplaced, hactive, Bool.or_false] at hr
    obtain ⟨blob, hblob⟩ := Option.isSome_iff_exists.1 hr
    have hne := loadedCopy_ne_nil h hblob
    exact ⟨blob, by rw [hcopy hactive blob hblob, if_neg hne], hne⟩
  · exact ⟨_, hover hactive, text_bytes_ne_nil e⟩

/-- A replacement is a success, unless a blacklist is overridden on a failed retrieval without a
copy to load. -/
theorem replaced_result_iff {e : PubEvent} {s : PubState} (hi : e.c.initialized = true) :
    (∀ delivery, (pubRetrieved e s).1 = some delivery → delivery.replaced = true →
      delivery.result = 0) ↔
        (e.hook = .blacklist → e.fileData ≠ none → e.eResult = 0 ∨ Loadable s e) := by
  obtain ⟨delivery, s', hrun, -, hresult, hreplaced, -⟩ := pubRetrieved_spec hi s
  refine ⟨fun h hhook hfd => ?_, fun h d hd hr => ?_⟩
  · have hsome : e.fileData.isSome = true := Option.isSome_iff_ne_none.2 hfd
    have hactive : e.active = true := by rw [PubEvent.active, hhook]
    have hzero := h delivery (by rw [hrun]) (by
      rw [hreplaced, hactive, hsome, Bool.true_and, Bool.or_true])
    by_contra hno
    rw [not_or] at hno
    rw [hresult, if_neg] at hzero
    · exact hno.1 hzero
    · rintro (⟨-, hne⟩ | hloaded)
      · exact hne hhook
      · exact hno.2 ((loadedCopy_isSome_iff hno.1 hfd s).1 hloaded)
  · rw [hrun] at hd
    obtain rfl := Option.some.inj hd
    rw [hresult, ite_eq_left_iff]
    intro hno
    rw [not_or] at hno
    rw [hreplaced, Bool.eq_false_iff.2 hno.2, Bool.false_or, Bool.and_eq_true] at hr
    have hhook : e.hook = .blacklist := by
      by_contra hne
      exact hno.1 ⟨hr.1, hne⟩
    have hfd := Option.isSome_iff_ne_none.1 hr.2
    by_contra hfail
    rcases h hhook hfd with hzero | hload
    · exact hfail hzero
    · exact hno.2 ((loadedCopy_isSome_iff hfail hfd s).2 hload)

/-- The cache changes to the data of successes only, unless data of a failed retrieval is written
over a different copy. -/
theorem cachedFiles_changes_iff (e : PubEvent) (files : Files) :
    (∀ path, (cachedFiles e files path).map Blob.bytes ≠ (files path).map Blob.bytes →
      e.eResult = 0 ∧ ∃ str, e.fileData = some (some str) ∧
        cachedFiles e files path = some str.content) ↔
      (e.eResult ≠ 0 → ∀ path data, e.cachePath = some path → e.delivered = some data →
        e.writes path = true → (files path).map Blob.bytes = some data.bytes) := by
  refine ⟨fun h hfail path data hpath hdeliv hw => ?_, fun h path hpath => ?_⟩
  · by_contra hne
    refine hfail (h path ?_).1
    rw [cachedFiles_some hpath hdeliv hw, Function.update_self]
    exact fun heq => hne heq.symm
  · rcases cachedFiles_cases e files with heq | ⟨path', data, hp, hd, hw, heq⟩
    · exact absurd (by rw [heq]) hpath
    · rw [heq] at hpath ⊢
      have hsame : path = path' := by
        by_contra hne
        exact hpath (by rw [Function.update_of_ne hne])
      rw [hsame, Function.update_self] at hpath ⊢
      obtain ⟨str, hstr, hcontent, -⟩ := delivered_eq_some hd
      refine ⟨?_, str, hstr, by rw [hcontent]⟩
      by_contra hfail
      exact hpath (h hfail path' data hp hd hw).symm

/-- A callback is faithful exactly when it is safe. -/
theorem faithful_iff {s : PubState} (h : FilesFull s.files) (e : PubEvent) :
    Faithful s e ↔ PubSafe s e := by
  rcases hi : e.c.initialized with _ | _
  · refine iff_of_true ⟨fun delivery hd => ?_, fun path hpath => ?_⟩ fun hready => ?_
    · rw [pubRetrieved_uninitialized hi] at hd
      cases hd
    · rw [pubStep, pubRetrieved_uninitialized hi] at hpath
      exact absurd rfl hpath
    · rw [hi] at hready
      cases hready
  · have hchanges := cachedFiles_changes_iff e s.files
    rw [← pubStep_files hi s] at hchanges
    refine ⟨fun hf _ => ⟨?_, hchanges.1 hf.cached⟩, fun hs => ⟨?_, hchanges.2 (hs hi).2⟩⟩
    · exact (replaced_result_iff hi).1 fun d hd hr => (hf.replaced d hd hr).1
    · exact fun d hd hr =>
        ⟨(replaced_result_iff hi).2 (hs hi).1 d hd hr, replaced_ne_nil h hi hd hr⟩

/-- **In a run of callbacks each replacement is a success with data and the cache follows
successes only, if and only if each callback is safe.** -/
theorem stepsMeet_faithful_iff {s : PubState} (h : FilesFull s.files) (events : List PubEvent) :
    StepsMeet pubStep Faithful s events ↔ StepsMeet pubStep PubSafe s events :=
  stepsMeet_congr (J := fun s : PubState => FilesFull s.files)
    (fun _ e h => filesFull_pubStep h e) (fun _ e h => faithful_iff h e) h events

/-- A failed retrieval of the blacklist without a cached copy: the data is replaced and the
result stays a failure. -/
theorem not_faithful_blacklist :
    ¬StepsMeet pubStep Faithful { files := fun _ => none }
      [{ hook := .blacklist, c := { initialized := true }, eResult := 1,
         fileData := some none }] := by
  intro h
  have hresult :=
    (h.1.replaced ⟨1, some (.ofString kEmptyBlacklist), true⟩ (by decide +kernel) rfl).1
  revert hresult
  decide

/-- The path of the copy of the seasons file. -/
def seasonsPath : String := "sd:/config/d3hack-nx/pubfiles/seasons_config.txt"

/-- A card that holds one. -/
def sampleCard : PubState where
  files path := if path = seasonsPath then some (.ofString "[Season 29]\n") else none

/-- The configuration is retrieved with the overrides off, and after that it fails; then the seasons
fail with the data that the copy holds. -/
def sampleEvents : List PubEvent :=
  let c : PatchConfig := { initialized := true, events.active := false, seasons.active := false }
  [{ hook := .config, c, eResult := 0,
      fileData := some (some { content := .ofString "UpdateVersion \"1\"\n" }) },
    { hook := .config, c, eResult := 1, fileData := some none },
    { hook := .seasons, c, eResult := 1,
      fileData := some (some { content := .ofString "[Season 29]\n" }) }]

/-- The seasons fail with other data than that of the copy. -/
def otherSeasons : PubEvent where
  hook := .seasons
  c := { initialized := true }
  eResult := 1
  fileData := some (some { content := .ofString "[Season 30]\n" })

theorem filesFull_sampleCard : FilesFull sampleCard.files := by
  intro path blob hblob
  simp only [sampleCard] at hblob
  split_ifs at hblob
  obtain rfl := Option.some.inj hblob
  exact ofString_bytes_ne_nil (by decide +kernel)

/-- A configuration or the seasons, retrieved or without data. -/
theorem pubSafe_of_quiet {e : PubEvent} (hhook : e.hook ≠ .blacklist)
    (h : e.eResult = 0 ∨ e.delivered = none) (s : PubState) : PubSafe s e := by
  refine fun _ => ⟨fun hblacklist => absurd hblacklist hhook, ?_⟩
  intro hfail path data _ hdata _
  rw [h.resolve_left hfail] at hdata
  cases hdata

theorem stepsMeet_faithful_iff_seasons :
    StepsMeet pubStep Faithful sampleCard sampleEvents ∧
      ¬StepsMeet pubStep Faithful sampleCard (sampleEvents ++ [otherSeasons]) := by
  refine ⟨(stepsMeet_faithful_iff filesFull_sampleCard _).2 ?_, fun h => ?_⟩
  · refine ⟨pubSafe_of_quiet (by decide) (Or.inl rfl) _,
      pubSafe_of_quiet (by decide) (Or.inr rfl) _, fun _ => ⟨fun h => ?_, ?_⟩, trivial⟩
    · cases h
    · intro _ path data hpath hdata _
      obtain rfl : path = seasonsPath := by
        exact Option.some.inj (hpath.symm.trans (by decide +kernel))
      obtain rfl : data = .ofString "[Season 29]\n" := by
        exact Option.some.inj (hdata.symm.trans (by decide +kernel))
      decide +kernel
  · have hlast := ((stepsMeet_faithful_iff filesFull_sampleCard _).1 h).2.2.2.1
    have hsame := (hlast rfl).2 (by decide) seasonsPath (.ofString "[Season 30]\n")
      (by decide +kernel) (by decide +kernel) rfl
    revert hsame
    decide +kernel

end D3Hack
