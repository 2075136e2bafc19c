import D3Hack.ChallengeRift
import D3Hack.Runs

/-!
# The cache of challenge rifts

The parser's hook writes what it parses to the cache of publisher files, whether the game
retrieved it online or `populateChallengeRiftData` read it from `rift_data`. `CacheOnline`
says that the cache holds only what came from an online retrieval.

`along_cacheOnline_iff`: a run keeps the cache so if and only if no call of it dumps a local
file (`KeepsCache`).
-/

namespace D3Hack

open Runs

/-! ## Events -/

/-- The game parses data that it retrieved online, or a rift is populated. -/
inductive RiftEvent (W : Type) where
  | parseChallenge (c : PatchConfig) (io : Outcomes) (msg : ChallengeData)
      (data : Option (List UInt8))
  | parseWeekly (c : PatchConfig) (io : Outcomes) (msg : W) (data : Option (List UInt8))
  | populate (c : PatchConfig) (io : Outcomes) (picks : Picks) (conf : ChallengeData) (data : W)

variable {W : Type} (proto : RiftProto W)

/-- What a call does to the state. -/
def riftStep (s : RiftState) : RiftEvent W → RiftState
  | .parseChallenge c io msg data =>
    (parseChallengeHook proto c io msg (data.map (⟨·, .online⟩)) s).2.2
  | .parseWeekly c io msg data =>
    (parseWeeklyHook proto c io msg (data.map (⟨·, .online⟩)) s).2.2
  | .populate c io picks conf data =>
    (populateChallengeRiftData proto c io picks conf data s).2.2.2

/-- The names of the cache files. -/
def IsRiftName (name : String) : Prop := name = riftConfigName ∨ ∃ n, name = riftDataName n

/-- The cache holds only what came from an online retrieval. -/
def CacheOnline (files : Files) : Prop :=
  ∀ name, IsRiftName name → ∀ blob, files (cacheRiftPath name) = some blob →
    blob.origin = .online

/-- What `rift_data` holds is marked so. -/
def LocalMarked (files : Files) : Prop :=
  ∀ name blob, files (localRiftPath name) = some blob → blob.origin = .riftData

/-- Content that parsed is dumped. -/
def Dumped (c : PatchConfig) (io : Outcomes) (hooked ok : Bool) (name : String)
    (bytes : List UInt8) : Prop :=
  hooked = true ∧ ok = true ∧ c.debug.enablePubfileDump = true ∧ bytes ≠ [] ∧
    io.writes (cacheRiftPath name) = true

instance (c : PatchConfig) (io : Outcomes) (hooked ok : Bool) (name : String)
    (bytes : List UInt8) : Decidable (Dumped c io hooked ok name bytes) :=
  inferInstanceAs (Decidable (_ ∧ _))

/-- The number that the hook names the data by, after the configuration was read. -/
def dumpNumber (conf : ChallengeData) (s : RiftState) : Option FoundFile → ℕ
  | none => s.sLastChallengeNum.toNat
  | some found =>
    let parsed := proto.parseChallenge conf (some found.content.bytes)
    if s.hooked && parsed.1 then parsed.2.number.toNat else s.sLastChallengeNum.toNat

/-- No file that a call reads from `rift_data` is dumped. -/
def KeepsCache (s : RiftState) : RiftEvent W → Prop
  | .populate c io picks conf data =>
    (∀ found, foundConf io s.files = some found → found.fromCache = false →
      ¬Dumped c io s.hooked (proto.parseChallenge conf (some found.content.bytes)).1
        riftConfigName found.content.bytes) ∧
    ∀ found, foundData proto c io picks conf s.files = some found → found.fromCache = false →
      ¬Dumped c io s.hooked (proto.parseWeekly data (some found.content.bytes)).1
        (riftDataName (dumpNumber proto conf s (foundConf io s.files))) found.content.bytes
  | _ => True

/-! ## What an event writes -/

/-- The files with content dumped under a name. -/
def dump (c : PatchConfig) (io : Outcomes) (hooked ok : Bool) (name : String) (blob : Blob)
    (files : Files) : Files :=
  if Dumped c io hooked ok name blob.bytes then
    Function.update files (cacheRiftPath name) (some blob)
  else files

@[simp] theorem dump_unhooked (c : PatchConfig) (io : Outcomes) (ok : Bool) (name : String)
    (blob : Blob) (files : Files) : dump c io false ok name blob files = files :=
  if_neg fun h => by cases h.1

@[simp] theorem dump_failed (c : PatchConfig) (io : Outcomes) (hooked : Bool) (name : String)
    (blob : Blob) (files : Files) : dump c io hooked false name blob files = files :=
  if_neg fun h => by cases h.2.1

theorem cacheChallengeRiftRaw_dump (c : PatchConfig) (io : Outcomes) {name : String}
    (hname : buildPubfileCachePath 512 (some name) = some (cacheRiftPath name)) (blob : Blob)
    (files : Files) : (cacheChallengeRiftRaw c io name (some blob) files).2 =
      dump c io true true name blob files := by
  rw [cacheChallengeRiftRaw_files c io hname, dump]
  simp only [Dumped, true_and]

theorem parseChallengeHook_files (c : PatchConfig) (io : Outcomes) (msg : ChallengeData)
    (blob : Blob) (s : RiftState) : (parseChallengeHook proto c io msg (some blob) s).2.2.files =
      dump c io s.hooked (proto.parseChallenge msg (some blob.bytes)).1 riftConfigName blob
        s.files := by
  rcases hparse : proto.parseChallenge msg (some blob.bytes) with ⟨ok, msg'⟩
  rcases hhooked : s.hooked with _ | _
  · simp [parseChallengeHook, hparse, hhooked]
  · rcases ok with _ | _
    · simp [parseChallengeHook, hparse]
    · simp only [parseChallengeHook, setLastChallengeNumber, hparse, hhooked, Option.map_some,
        Option.isSome_some, Bool.and_self, if_true]
      rw [cacheChallengeRiftRaw_dump c io buildPubfileCachePath_riftConfigName]
      split_ifs <;> rfl

theorem parseWeeklyHook_files (c : PatchConfig) (io : Outcomes) (msg : W) (blob : Blob)
    (s : RiftState) : (parseWeeklyHook proto c io msg (some blob) s).2.2.files =
      dump c io s.hooked (proto.parseWeekly msg (some blob.bytes)).1
        (riftDataName s.sLastChallengeNum.toNat) blob s.files := by
  rcases hparse : proto.parseWeekly msg (some blob.bytes) with ⟨ok, msg'⟩
  rcases hhooked : s.hooked with _ | _
  · simp [parseWeeklyHook, hparse, hhooked]
  · rcases ok with _ | _
    · simp [parseWeeklyHook, hparse]
    · simp only [parseWeeklyHook, hparse, hhooked, Option.map_some, Option.isSome_some,
        Bool.and_self, if_true]
      exact cacheChallengeRiftRaw_dump c io
        (buildPubfileCachePath_riftDataName s.sLastChallengeNum.toNat_lt) blob s.files

theorem parseChallengeHook_hooked (c : PatchConfig) (io : Outcomes) (msg : ChallengeData)
    (data : Option Blob) (s : RiftState) :
    (parseChallengeHook proto c io msg data s).2.2.hooked = s.hooked := by
  simp only [parseChallengeHook, setLastChallengeNumber]
  split_ifs <;> rfl

theorem confState_hooked (c : PatchConfig) (io : Outcomes) (conf : ChallengeData)
    (s : RiftState) (found : Option FoundFile) :
    (confState proto c io conf s found).hooked = s.hooked := by
  rcases found with _ | found
  · rfl
  · exact parseChallengeHook_hooked proto c io conf _ s

/-- The hook remembers the number of the configuration that it parsed last. -/
theorem confState_sLastChallengeNum (c : PatchConfig) (io : Outcomes) (conf : ChallengeData)
    (s : RiftState) (found : Option FoundFile) :
    (confState proto c io conf s found).sLastChallengeNum.toNat =
      dumpNumber proto conf s found := by
  rcases found with _ | found
  · rfl
  · simp only [confState, parseChallengeHook, setLastChallengeNumber, dumpNumber, Option.map_some,
      Option.isSome_some, Bool.and_true]
    split_ifs <;> rfl

/-! ## What is kept -/

theorem cacheOnline_dump {c : PatchConfig} {io : Outcomes} {hooked ok : Bool} {name : String}
    {blob : Blob} {files : Files} (h : CacheOnline files) (hname : IsRiftName name) :
    CacheOnline (dump c io hooked ok name blob files) ↔
      (Dumped c io hooked ok name blob.bytes → blob.origin = .online) := by
  unfold dump
  split_ifs with hd
  · refine ⟨fun hc _ => hc name hname blob (Function.update_self _ _ _), fun hb => ?_⟩
    intro name' hname' blob' hblob'
    by_cases hn : cacheRiftPath name' = cacheRiftPath name
    · rw [hn, Function.update_self] at hblob'
      obtain rfl := Option.some.inj hblob'
      exact hb hd
    · rw [Function.update_of_ne hn] at hblob'
      exact h name' hname' blob' hblob'
  · exact iff_of_true h fun hd' => absurd hd' hd

theorem dump_of_ne {c : PatchConfig} {io : Outcomes} {hooked ok : Bool} {name : String}
    {blob : Blob} {files : Files} {path : String} (h : path ≠ cacheRiftPath name) :
    dump c io hooked ok name blob files path = files path := by
  unfold dump
  split_ifs
  · exact Function.update_of_ne h _ _
  · rfl

theorem isRiftName_config : IsRiftName riftConfigName := Or.inl rfl

theorem isRiftName_data (n : ℕ) : IsRiftName (riftDataName n) := Or.inr ⟨n, rfl⟩

theorem localMarked_dump {c : PatchConfig} {io : Outcomes} {hooked ok : Bool} {name : String}
    {blob : Blob} {files : Files} (h : LocalMarked files) :
    LocalMarked (dump c io hooked ok name blob files) := by
  intro name' blob' hblob'
  rw [dump_of_ne (cacheRiftPath_ne_localRiftPath _ _).symm] at hblob'
  exact h name' blob' hblob'

/-- Content that is dumped came from online exactly when its file is in the cache. -/
theorem origin_found {io : Outcomes} {files : Files} {cacheName localName : String}
    {found : FoundFile} (hc : CacheOnline files) (hl : LocalMarked files)
    (hname : IsRiftName cacheName)
    (h : findFile io files (cacheRiftPath cacheName) (localRiftPath localName) = some found)
    (hbytes : found.content.bytes ≠ []) :
    found.content.origin = .online ↔ found.fromCache = true := by
  have hread {path : String} {content : Blob} (hr : readContent io files path = some content)
      (hne : content.bytes ≠ []) : files path = some content := by
    obtain ⟨blob, hblob, rfl⟩ := Option.map_eq_some_iff.1 hr
    split_ifs at hne with hgrant
    · rw [if_pos hgrant]
      unfold readBlob at hblob
      split_ifs at hblob
      exact hblob
    · exact absurd rfl hne
  unfold findFile at h
  split at h
  next content hcache =>
    obtain rfl := Option.some.inj h
    exact iff_of_true (hc cacheName hname content (hread hcache hbytes)) rfl
  next hnone =>
    obtain ⟨content, hlocal, rfl⟩ := Option.map_eq_some_iff.1 h
    have horigin := hl localName content (hread hlocal hbytes)
    exact iff_of_false (by simp [horigin]) (by simp)

/-- What is found is dumped with the origin of its file. -/
theorem dumped_found {c : PatchConfig} {io : Outcomes} {hooked ok : Bool} {name : String}
    {files : Files} {cacheName localName : String} {found : FoundFile} (hc : CacheOnline files)
    (hl : LocalMarked files) (hname : IsRiftName cacheName)
    (h : findFile io files (cacheRiftPath cacheName) (localRiftPath localName) = some found) :
    (Dumped c io hooked ok name found.content.bytes → found.content.origin = .online) ↔
      (found.fromCache = false → ¬Dumped c io hooked ok name found.content.bytes) := by
  refine ⟨fun honline hlocal hd => ?_, fun hkeep hd => ?_⟩
  · have hcache := (origin_found hc hl hname h hd.2.2.2.1).1 (honline hd)
    rw [hlocal] at hcache
    cases hcache
  · rw [origin_found hc hl hname h hd.2.2.2.1]
    by_contra hlocal
    exact hkeep (Bool.eq_false_iff.2 hlocal) hd

/-- The files after the configuration is read. -/
theorem confState_files_dump (c : PatchConfig) (io : Outcomes) (conf : ChallengeData)
    (s : RiftState) (found : FoundFile) : (confState proto c io conf s (some found)).files =
      dump c io s.hooked (proto.parseChallenge conf (some found.content.bytes)).1
        riftConfigName found.content s.files :=
  parseChallengeHook_files proto c io conf found.content s

theorem dataState_files_dump (c : PatchConfig) (io : Outcomes) (data : W)
    (s : RiftState) (found : FoundFile) : (dataState proto c io data s (some found)).files =
      dump c io s.hooked (proto.parseWeekly data (some found.content.bytes)).1
        (riftDataName s.sLastChallengeNum.toNat) found.content s.files :=
  parseWeeklyHook_files proto c io data found.content s

/-- Reading the configuration keeps the cache unless it dumps a local file. -/
theorem cacheOnline_confState {c : PatchConfig} {io : Outcomes} (conf : ChallengeData)
    {s : RiftState} (hc : CacheOnline s.files) (hl : LocalMarked s.files) :
    CacheOnline (confState proto c io conf s (foundConf io s.files)).files ↔
      ∀ found, foundConf io s.files = some found → found.fromCache = false →
        ¬Dumped c io s.hooked (proto.parseChallenge conf (some found.content.bytes)).1
          riftConfigName found.content.bytes := by
  rcases hfound : foundConf io s.files with _ | found
  · exact iff_of_true hc fun _ h => by cases h
  · rw [confState_files_dump, cacheOnline_dump hc isRiftName_config,
      dumped_found hc hl isRiftName_config hfound]
    exact ⟨fun h found' hf => by cases hf; exact h, fun h => h found rfl⟩

theorem localMarked_confState {c : PatchConfig} {io : Outcomes} (conf : ChallengeData)
    {s : RiftState} (hl : LocalMarked s.files) (found : Option FoundFile) :
    LocalMarked (confState proto c io conf s found).files := by
  rcases found with _ | found
  · exact hl
  · rw [confState_files_dump]
    exact localMarked_dump hl

theorem localMarked_dataState {c : PatchConfig} {io : Outcomes} (data : W)
    {s : RiftState} (hl : LocalMarked s.files) (found : Option FoundFile) :
    LocalMarked (dataState proto c io data s found).files := by
  rcases found with _ | found
  · exact hl
  · rw [dataState_files_dump]
    exact localMarked_dump hl

theorem localMarked_riftStep {s : RiftState} (hl : LocalMarked s.files) (e : RiftEvent W) :
    LocalMarked (riftStep proto s e).files := by
  cases e with
  | parseChallenge c io msg data =>
    rcases data with _ | bytes
    · simpa [riftStep, parseChallengeHook] using hl
    · rw [riftStep, Option.map_some, parseChallengeHook_files]
      exact localMarked_dump hl
  | parseWeekly c io msg data =>
    rcases data with _ | bytes
    · simpa [riftStep, parseWeeklyHook] using hl
    · rw [riftStep, Option.map_some, parseWeeklyHook_files]
      exact localMarked_dump hl
  | populate c io picks conf data =>
    obtain ⟨heap, hspec⟩ := populateChallengeRiftData_spec proto c io picks conf data s
    rw [riftStep, hspec]
    exact localMarked_dataState proto data (localMarked_confState proto conf hl _) _

/-- The data's dump and the configuration's go to different files. -/
theorem cacheOnline_of_dataState {c : PatchConfig} {io : Outcomes} {conf : ChallengeData}
    {data : W} {s : RiftState} {found found' : Option FoundFile} (hc : CacheOnline s.files)
    (h : CacheOnline (dataState proto c io data (confState proto c io conf s found) found').files) :
    CacheOnline (confState proto c io conf s found).files := by
  intro name hname blob hblob
  rcases found' with _ | found'
  · exact h name hname blob hblob
  · by_cases hn : name = riftConfigName
    · refine h name hname blob ?_
      rw [dataState_files_dump, dump_of_ne, hblob]
      rw [hn, Ne, cacheRiftPath_inj]
      exact (riftDataName_ne_riftConfigName _).symm
    · refine hc name hname blob ?_
      rw [← hblob, confState_files]
      rwa [Ne, cacheRiftPath_inj]

/-- A step keeps the cache exactly when it dumps no local file. -/
theorem cacheOnline_riftStep {s : RiftState} (hl : LocalMarked s.files)
    (hc : CacheOnline s.files) (e : RiftEvent W) :
    CacheOnline (riftStep proto s e).files ↔ KeepsCache proto s e := by
  cases e with
  | parseChallenge c io msg data =>
    refine iff_of_true ?_ trivial
    rcases data with _ | bytes
    · simpa [riftStep, parseChallengeHook] using hc
    · rw [riftStep, Option.map_some, parseChallengeHook_files, cacheOnline_dump hc
        isRiftName_config]
      exact fun _ => rfl
  | parseWeekly c io msg data =>
    refine iff_of_true ?_ trivial
    rcases data with _ | bytes
    · simpa [riftStep, parseWeeklyHook] using hc
    · rw [riftStep, Option.map_some, parseWeeklyHook_files, cacheOnline_dump hc
        (isRiftName_data _)]
      exact fun _ => rfl
  | populate c io picks conf data =>
    obtain ⟨heap, hspec⟩ := populateChallengeRiftData_spec proto c io picks conf data s
    rw [riftStep, hspec, KeepsCache, ← cacheOnline_confState proto conf hc hl]
    dsimp only
    rcases hfound : foundData proto c io picks conf s.files with _ | found
    · exact ⟨fun h => ⟨h, fun _ hf => by cases hf⟩, fun h => h.1⟩
    · have hdumped {hooked ok : Bool} {name : String} :
          (Dumped c io hooked ok name found.content.bytes → found.content.origin = .online) ↔
            (found.fromCache = false → ¬Dumped c io hooked ok name found.content.bytes) :=
        dumped_found hc hl (isRiftName_data _) hfound
      refine ⟨fun h => ?_, fun h => ?_⟩
      · have hconf := cacheOnline_of_dataState proto hc h
        refine ⟨hconf, fun found' hf => ?_⟩
        obtain rfl := Option.some.inj hf
        rw [dataState_files_dump, cacheOnline_dump hconf (isRiftName_data _), confState_hooked,
          confState_sLastChallengeNum] at h
        exact hdumped.1 h
      · rw [dataState_files_dump, cacheOnline_dump h.1 (isRiftName_data _), confState_hooked,
          confState_sLastChallengeNum]
        exact hdumped.2 (h.2 found rfl)

/-- **The cache holds only online data along a run if and only if no call of the run dumps a
file of `rift_data`.** -/
theorem along_cacheOnline_iff {s : RiftState} (hl : LocalMarked s.files)
    (hc : CacheOnline s.files) (events : List (RiftEvent W)) :
    Along (riftStep proto) (fun s : RiftState => CacheOnline s.files) s events ↔
      StepsMeet (riftStep proto) (KeepsCache proto) s events :=
  along_iff_stepsMeet (J := fun s : RiftState => LocalMarked s.files)
    (fun _ e h => localMarked_riftStep proto h e)
    (fun _ e h hs => cacheOnline_riftStep proto h hs e) hl hc events

/-- A state with the configuration of a rift in `rift_data` and an empty cache. -/
def localRiftState : RiftState where
  files path := if path = localRiftPath riftConfigName then some ⟨[5], .riftData⟩ else none

theorem cacheOnline_localRiftState : CacheOnline localRiftState.files := by
  intro name _ blob hblob
  dsimp only [localRiftState] at hblob
  rw [if_neg (cacheRiftPath_ne_localRiftPath _ _)] at hblob
  cases hblob

theorem localMarked_localRiftState : LocalMarked localRiftState.files := by
  intro name blob hblob
  dsimp only [localRiftState] at hblob
  split_ifs at hblob
  obtain rfl := Option.some.inj hblob
  rfl

/-- A call with dumps enabled copies the local configuration to the cache. -/
theorem not_along_cacheOnline_localRift :
    ¬Along (riftStep byteProto) (fun s : RiftState => CacheOnline s.files) localRiftState
      [.populate { debug := { enablePubfileDump := true } } {} {} {} []] := by
  intro h
  have hcache := h.2.head riftConfigName isRiftName_config
  have hblob := hcache ⟨[5], .riftData⟩ (by decide +kernel)
  cases hblob

/-- An online retrieval and a call without dumps. -/
theorem along_cacheOnline_iff_localRift :
    Along (riftStep byteProto) (fun s : RiftState => CacheOnline s.files) localRiftState
        [.parseChallenge { debug := { enablePubfileDump := true } } {} {} (some [3]),
          .populate {} {} {} {} []] ↔
      StepsMeet (riftStep byteProto) (KeepsCache byteProto) localRiftState
        [.parseChallenge { debug := { enablePubfileDump := true } } {} {} (some [3]),
          .populate {} {} {} {} []] :=
  along_cacheOnline_iff byteProto localMarked_localRiftState cacheOnline_localRiftState _

end D3Hack
