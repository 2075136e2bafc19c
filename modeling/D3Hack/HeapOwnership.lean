import D3Hack.ChallengeRift
import D3Hack.Pubfiles

/-!
# Ownership of file buffers

A function that reads a file gets a block from the game's heap and has to free it.
`blizzStringFromFile`, `populateChallengeRiftData` and `loadCachedPubfile` all free the address
of the variable that holds the pointer instead. `HeapOk` says that each free met a live block
and that no block of a file read is still live.

`along_heapOk_iff`: a run keeps the heap so if and only if none of its calls reads a file.
-/

namespace D3Hack

open Runs

/-! ## Calls -/

/-- The files and the heap with the strings of the hooks. -/
structure MemState where
  rift : RiftState
  strings : StringId → BlzString := fun _ => {}

/-- A call of one of the functions that own blocks of the heap. -/
inductive MemCall (W : Type) where
  | blizzStringFromFile (io : Outcomes) (path : String)
  | populate (c : PatchConfig) (io : Outcomes) (picks : Picks) (conf : ChallengeData) (data : W)
  | loadCachedPubfile (io : Outcomes) (cachePath : String) (pszFileData : FileData)
      (fallback : StringId)

variable {W : Type} (proto : RiftProto W)

/-- What a call does to the memory. -/
def memStep (s : MemState) : MemCall W → MemState
  | .blizzStringFromFile io path =>
    let heap := (blizzStringFromFile io s.rift.files path s.rift.heap).2
    { s with rift := { s.rift with heap } }
  | .populate c io picks conf data =>
    { s with rift := (populateChallengeRiftData proto c io picks conf data s.rift).2.2.2 }
  | .loadCachedPubfile io cachePath pszFileData fallback =>
    let pub := (PubState.loadCachedPubfile io cachePath pszFileData fallback
      ⟨s.rift.files, s.rift.heap, s.strings⟩).2.2
    { rift := { s.rift with heap := pub.heap }, strings := pub.strings }

/-- Each free met a live block, and no block of a file read is left live. -/
structure HeapOk (h : Heap) : Prop where
  frees : h.badFrees = 0
  blocks : ∀ n ∈ h.readBlocks, n ∉ h.live

/-- No file read of the call returns a block. -/
def ReadsNothing (s : MemState) : MemCall W → Prop
  | .blizzStringFromFile io path => readBlob io s.rift.files path = none
  | .populate c io picks conf _ => foundConf io s.rift.files = none ∧
      foundData proto c io picks conf s.rift.files = none
  | .loadCachedPubfile io cachePath pszFileData _ =>
    pszFileData = none ∨ readBlob io s.rift.files cachePath = none

/-! ## Frees that meet no block -/

theorem badFrees_le_sigmaMemoryFree (p : Address) (h : Heap) :
    h.badFrees ≤ (h.sigmaMemoryFree p).badFrees := by
  rcases p with n | _
  · simp only [Heap.sigmaMemoryFree]
    split_ifs
    · exact le_rfl
    · exact Nat.le_succ _
  · exact Nat.le_succ _

@[simp] theorem badFrees_sigmaMemoryFree_variable (h : Heap) :
    (h.sigmaMemoryFree .variable).badFrees = h.badFrees + 1 := rfl

@[simp] theorem badFrees_fileReadIntoMemory (h : Heap) :
    h.fileReadIntoMemory.2.badFrees = h.badFrees := rfl

theorem badFrees_le_freeElements (s : BlzString) (h : Heap) :
    h.badFrees ≤ (freeElements s h).badFrees := by
  unfold freeElements
  split
  · exact badFrees_le_sigmaMemoryFree _ h
  · exact le_rfl

theorem badFrees_le_replaceBlzString (granted : Bool) (dst : BlzString) (data : Blob) (h : Heap) :
    h.badFrees ≤ (replaceBlzString granted dst data h).2.badFrees := by
  rcases granted with _ | _ <;> exact badFrees_le_freeElements dst h

/-! ## What each call does to the heap -/

theorem blizzStringFromFile_none {io : Outcomes} {files : Files} {path : String}
    (hr : readBlob io files path = none) (h : Heap) :
    (blizzStringFromFile io files path h).2 = h := by
  rw [blizzStringFromFile, readFileToBuffer_none h hr]

theorem badFrees_lt_blizzStringFromFile {io : Outcomes} {files : Files} {path : String}
    (hr : readBlob io files path ≠ none) (h : Heap) :
    h.badFrees < (blizzStringFromFile io files path h).2.badFrees := by
  obtain ⟨blob, hblob⟩ := Option.ne_none_iff_exists'.1 hr
  rw [blizzStringFromFile, readFileToBuffer_some h hblob]
  dsimp only
  rw [badFrees_sigmaMemoryFree_variable]
  have hle := badFrees_le_replaceBlzString (io.grants path) {} blob h.fileReadIntoMemory.2
  rw [badFrees_fileReadIntoMemory] at hle
  omega

theorem badFrees_lt_loadCachedPubfile {io : Outcomes} {cachePath : String} {s : PubState}
    {pszFileData : FileData} (hpsz : pszFileData ≠ none)
    (hr : readBlob io s.files cachePath ≠ none) (fallback : StringId) :
    s.heap.badFrees <
      (PubState.loadCachedPubfile io cachePath pszFileData fallback s).2.2.heap.badFrees := by
  obtain ⟨ptr, rfl⟩ := Option.ne_none_iff_exists'.1 hpsz
  obtain ⟨blob, hblob⟩ := Option.ne_none_iff_exists'.1 hr
  rw [PubState.loadCachedPubfile, readFileToBuffer_some _ hblob]
  dsimp only
  rw [badFrees_sigmaMemoryFree_variable]
  have hle := badFrees_le_replaceBlzString (io.grants cachePath)
    (s.strings (PubState.ensureSharedPtrData ptr fallback)) blob s.heap.fileReadIntoMemory.2
  rw [badFrees_fileReadIntoMemory] at hle
  exact Nat.lt_succ_of_le hle

section Populate

variable {M : Type} (io : Outcomes) {parse : M → Option Blob → RiftState → Bool × M × RiftState}

/-- Reading a file leaves one more free without a block. -/
theorem badFrees_lt_populateData
    (hparse : ∀ dest data s, (parse dest data s).2.2.heap = s.heap) {path : String}
    {s : RiftState} (hr : readContent io s.files path ≠ none) (dest : M) :
    s.heap.badFrees < (populateData io parse dest path s).2.2.heap.badFrees := by
  obtain ⟨content, hcontent⟩ := Option.ne_none_iff_exists'.1 hr
  obtain ⟨blob, hblob, -⟩ := Option.map_eq_some_iff.1 hcontent
  rw [populateData, readFileToBuffer_some _ hblob]
  dsimp only
  refine Nat.lt_of_lt_of_le ?_ (badFrees_le_freeElements _ _)
  rw [badFrees_sigmaMemoryFree_variable, hparse]
  have hle := badFrees_le_replaceBlzString (io.grants path) {} blob s.heap.fileReadIntoMemory.2
  rw [badFrees_fileReadIntoMemory] at hle
  exact Nat.lt_succ_of_le hle

theorem badFrees_lt_populateDataWithFallback
    (hparse : ∀ dest data s, (parse dest data s).2.2.heap = s.heap) {cachePath localPath : String}
    {s : RiftState} (hf : findFile io s.files cachePath localPath ≠ none) (dest : M) :
    s.heap.badFrees <
      (populateDataWithFallback io parse dest cachePath localPath s).2.2.2.heap.badFrees := by
  unfold populateDataWithFallback
  rcases hc : readContent io s.files cachePath with _ | content
  · rw [populateData_none io parse hc]
    refine badFrees_lt_populateData io hparse (fun hl => hf ?_) dest
    rw [findFile, hc, hl]
    rfl
  · have hlt := badFrees_lt_populateData io hparse (by rw [hc]; simp : readContent io s.files
      cachePath ≠ none) dest
    obtain ⟨heap, heap', hrun⟩ := populateData_some io parse dest hc
    rw [hrun] at hlt ⊢
    exact hlt

end Populate

theorem parseChallengeHook_keeps_heap (c : PatchConfig) (io : Outcomes) (msg : ChallengeData)
    (data : Option Blob) (s : RiftState) :
    (parseChallengeHook proto c io msg data s).2.2.heap = s.heap := by
  have hheap := congrArg RiftState.heap (parseChallengeHook_heap proto c io msg data s s.heap)
  exact hheap

theorem parseWeeklyHook_keeps_heap (c : PatchConfig) (io : Outcomes) (msg : W)
    (data : Option Blob) (s : RiftState) :
    (parseWeeklyHook proto c io msg data s).2.2.heap = s.heap := by
  have hheap := congrArg RiftState.heap (parseWeeklyHook_heap proto c io msg data s s.heap)
  exact hheap

theorem badFrees_le_populateDataWithFallback {M : Type} (io : Outcomes)
    {parse : M → Option Blob → RiftState → Bool × M × RiftState}
    (hparse : ∀ dest data s, (parse dest data s).2.2.heap = s.heap) (dest : M)
    (cachePath localPath : String) (s : RiftState) : s.heap.badFrees ≤
      (populateDataWithFallback io parse dest cachePath localPath s).2.2.2.heap.badFrees := by
  by_cases hf : findFile io s.files cachePath localPath = none
  · have hspec := populateDataWithFallback_spec io parse dest cachePath localPath s
    rw [hf] at hspec
    rw [hspec]
  · exact (badFrees_lt_populateDataWithFallback io hparse hf dest).le

/-- A call that reads a file leaves a free without a block. -/
theorem badFrees_lt_populateChallengeRiftData {c : PatchConfig} {io : Outcomes} {picks : Picks}
    {conf : ChallengeData} {data : W} {s : RiftState}
    (h : ¬(foundConf io s.files = none ∧ foundData proto c io picks conf s.files = none)) :
    s.heap.badFrees <
      (populateChallengeRiftData proto c io picks conf data s).2.2.2.heap.badFrees := by
  obtain ⟨heap, hconf, hphases⟩ := populateChallengeRiftData_phases proto c io picks conf data s
  rw [hphases]
  dsimp only
  have hfirst := badFrees_le_populateDataWithFallback io
    (parseChallengeHook_keeps_heap proto c io) conf (cacheRiftPath riftConfigName)
    (localRiftPath riftConfigName) s
  have hsecond := badFrees_le_populateDataWithFallback io
    (parseWeeklyHook_keeps_heap proto c io) data (cachedDataPath proto c io picks conf s.files)
    (localRiftPath (riftDataName (riftPick c picks)))
    { confState proto c io conf s (foundConf io s.files) with heap }
  rw [hconf] at hfirst
  by_cases hc : foundConf io s.files = none
  · have hd : findFile io
        ({ confState proto c io conf s (foundConf io s.files) with heap } : RiftState).files
        (cachedDataPath proto c io picks conf s.files)
        (localRiftPath (riftDataName (riftPick c picks))) ≠ none := by
      rw [findFile_confState]
      exact fun hd => h ⟨hc, hd⟩
    exact hfirst.trans_lt (badFrees_lt_populateDataWithFallback io
      (parseWeeklyHook_keeps_heap proto c io) hd data)
  · have hlt := badFrees_lt_populateDataWithFallback io
      (parseChallengeHook_keeps_heap proto c io) hc conf
    rw [hconf] at hlt
    exact hlt.trans_le hsecond

/-- A call that reads no file does nothing. -/
theorem populateChallengeRiftData_none {c : PatchConfig} {io : Outcomes} {picks : Picks}
    {conf : ChallengeData} {data : W} {s : RiftState} (hc : foundConf io s.files = none)
    (hd : foundData proto c io picks conf s.files = none) :
    (populateChallengeRiftData proto c io picks conf data s).2.2.2.heap = s.heap := by
  obtain ⟨heap, hconf, hphases⟩ := populateChallengeRiftData_phases proto c io picks conf data s
  have hfirst := populateDataWithFallback_spec io (parseChallengeHook proto c io) conf
    (cacheRiftPath riftConfigName) (localRiftPath riftConfigName) s
  rw [← foundConf, hc] at hfirst
  have hsecond := populateDataWithFallback_spec io (parseWeeklyHook proto c io) data
    (cachedDataPath proto c io picks conf s.files) (localRiftPath (riftDataName (riftPick c picks)))
    { confState proto c io conf s (foundConf io s.files) with heap }
  rw [findFile_confState, hd] at hsecond
  have hheap : s.heap = heap := by
    rw [hfirst] at hconf
    exact congrArg (fun s' : RiftState => s'.heap) hconf
  rw [hphases, hsecond, hheap]

/-! ## Runs -/

theorem heapOk_memStep {s : MemState} (h : HeapOk s.rift.heap) (call : MemCall W) :
    HeapOk (memStep proto s call).rift.heap ↔ ReadsNothing proto s call := by
  have hbad {h' : Heap} (hlt : s.rift.heap.badFrees < h'.badFrees) : ¬HeapOk h' := by
    intro hok
    have hzero := hok.frees
    omega
  cases call with
  | blizzStringFromFile io path =>
    by_cases hr : readBlob io s.rift.files path = none
    · refine iff_of_true ?_ hr
      rw [memStep, blizzStringFromFile_none hr]
      exact h
    · exact iff_of_false (hbad (badFrees_lt_blizzStringFromFile hr _)) hr
  | populate c io picks conf data =>
    by_cases hr : foundConf io s.rift.files = none ∧
        foundData proto c io picks conf s.rift.files = none
    · refine iff_of_true ?_ hr
      rw [memStep, populateChallengeRiftData_none proto hr.1 hr.2]
      exact h
    · exact iff_of_false (hbad (badFrees_lt_populateChallengeRiftData proto hr)) hr
  | loadCachedPubfile io cachePath pszFileData fallback =>
    by_cases hr : pszFileData = none ∨ readBlob io s.rift.files cachePath = none
    · refine iff_of_true ?_ hr
      rw [memStep, PubState.loadCachedPubfile_none _ hr]
      exact h
    · refine iff_of_false (hbad ?_) hr
      rw [not_or] at hr
      exact badFrees_lt_loadCachedPubfile (s := ⟨s.rift.files, s.rift.heap, s.strings⟩) hr.1 hr.2
        fallback

/-- **The heap is kept along a run if and only if no call of it reads a file.** -/
theorem along_heapOk_iff {s : MemState} (h : HeapOk s.rift.heap) (calls : List (MemCall W)) :
    Along (memStep proto) (fun s : MemState => HeapOk s.rift.heap) s calls ↔
      StepsMeet (memStep proto) (ReadsNothing proto) s calls :=
  along_iff_stepsMeet (J := fun _ => True) (P := fun s : MemState => HeapOk s.rift.heap)
    (fun _ _ _ => trivial) (fun _ call _ hs => heapOk_memStep proto hs call) trivial h calls

/-- Reading one file frees an address that is not a block, and keeps the block. -/
theorem not_along_heapOk_read :
    ¬Along (memStep byteProto) (fun s : MemState => HeapOk s.rift.heap)
      { rift := { files := fun _ => some ⟨[1], .online⟩ } }
      [.blizzStringFromFile {} "config.txt"] := by
  intro h
  exact absurd h.2.head.frees (by decide +kernel)

/-- A card with a cached configuration, strings in three blocks, and a block of a file that was read
and freed. -/
def stringsState : MemState where
  rift :=
    { files := fun path => if path = "sd:/config/d3hack-nx/pubfiles/config.txt" then
        some ⟨[0x41, 0x42], .online⟩ else none
      heap := { next := 6, live := [5, 4, 2], readBlocks := [3] } }
  strings
    | .game => ⟨.block 2, ⟨[0x43], .online⟩⟩
    | .cached .config => ⟨.block 4, ⟨[0x44], .online⟩⟩
    | .fallback .config => ⟨.block 5, ⟨[0x45], .online⟩⟩
    | _ => {}

/-- The file is not there, there is no place for its text, it cannot be read, there are no rifts. -/
def quietCalls : List (MemCall (List UInt8)) :=
  [.blizzStringFromFile {} "missing.txt",
    .loadCachedPubfile {} "sd:/config/d3hack-nx/pubfiles/config.txt" none (.cached .config),
    .loadCachedPubfile { reads := fun _ => false } "sd:/config/d3hack-nx/pubfiles/config.txt"
      (some (some .game)) (.cached .config),
    .populate {} {} {} {} []]

/-- The cached configuration is read over the string of the hook. -/
def readingCall : MemCall (List UInt8) :=
  .loadCachedPubfile {} "sd:/config/d3hack-nx/pubfiles/config.txt" (some (some (.cached .config)))
    (.cached .config)

theorem heapOk_stringsState : HeapOk stringsState.rift.heap := ⟨rfl, by decide⟩

theorem along_heapOk_iff_live :
    Along (memStep byteProto) (fun s : MemState => HeapOk s.rift.heap) stringsState quietCalls ∧
      ¬Along (memStep byteProto) (fun s : MemState => HeapOk s.rift.heap) stringsState
        (quietCalls ++ [readingCall]) := by
  refine ⟨(along_heapOk_iff byteProto heapOk_stringsState _).2 ?_, fun h => ?_⟩
  · exact ⟨rfl, Or.inl rfl, Or.inr rfl, ⟨by decide +kernel, by decide +kernel⟩, trivial⟩
  · have hlast := ((along_heapOk_iff byteProto heapOk_stringsState _).1 h).2.2.2.2.1
    rcases hlast with hnull | hread
    · cases hnull
    · revert hread
      decide +kernel

end D3Hack
