import D3Hack.GameMemory

/-!
# Cache paths as bytes

The program names the cache file of a publisher file after the last component of its name, which
can come from a parameter of the game's command line. Here the names are C strings and the path
is written into a buffer; `buildPubfileCachePath` of the publisher files is the same function of
texts.

`Snprintf` is what a C library documents of `snprintf`: it gives the length of the whole text, or
a negative number where that is no `int`, and in some libraries where the buffer is too large.
`CachePath.buildPubfileCachePath_spec` says when a path is written, and which.
-/

namespace D3Hack.CachePath

/-! ## Strings and buffers -/

/-- A C string, without its terminator. -/
structure CString where
  bytes : List UInt8
  noTerminator : 0 ∉ bytes

/-- The buffer holds the text with its terminator. -/
def Holds (out : Option (List UInt8)) (text : List UInt8) : Prop :=
  ∃ rest, out = some (text ++ 0 :: rest)

/-- The largest `int`. -/
def intMax : ℕ := 2 ^ 31 - 1

/-- `snprintf`, for the text that its format gives: its result, and the buffer after it. Whether
it takes buffers that are longer than an `int` can say depends on the library. -/
structure Snprintf where
  call : List UInt8 → List UInt8 → ℤ × List UInt8
  takesLarge : Bool
  length_call : ∀ out text, (call out text).2.length = out.length
  le_intMax : ∀ out text, (call out text).1 ≤ intMax
  result : ∀ out text, 0 ≤ (call out text).1 → (call out text).1 = text.length
  written : ∀ out text, 0 ≤ (call out text).1 → text.length < out.length →
    Holds (some (call out text).2) text
  succeeds : ∀ out text, out.length ≤ intMax ∨ takesLarge = true → text.length ≤ intMax →
    0 ≤ (call out text).1

/-- The bytes of a text. -/
def utf8 (s : String) : List UInt8 := s.toList.flatMap String.utf8EncodeChar

/-! ## The functions -/

/-- `'/'` or `'\\'`. -/
def IsSeparator (c : UInt8) : Prop := c = 0x2F ∨ c = 0x5C

instance (c : UInt8) : Decidable (IsSeparator c) := inferInstanceAs (Decidable (_ ∨ _))

/-- The loop of `GetFilenameTail`, over the bytes at `it`. -/
def tailFrom : List UInt8 → List UInt8 → List UInt8
  | [], tail => tail
  | c :: it, tail => tailFrom it (if IsSeparator c then it else tail)

/-- `GetFilenameTail`, which gives a pointer into the name. -/
def getFilenameTail (path : List UInt8) : List UInt8 := tailFrom path path

/-- `g_szPubfileCacheDir`. -/
def cacheDir : List UInt8 := utf8 g_szPubfileCacheDir

/-- `"%s/%s"` of the cache directory and the tail. -/
def cachePath (tail : List UInt8) : List UInt8 := cacheDir ++ 0x2F :: tail

/-- `BuildPubfileCachePath`, for a buffer of `out_size` bytes: its result, and the buffer. -/
def buildPubfileCachePath (snprintf : Snprintf) (out : Option (List UInt8))
    (filename : Option CString) : Bool × Option (List UInt8) :=
  match out with
  | none => (false, none)
  | some out =>
    if out.length = 0 then (false, some out)
    else
      let out := out.set 0 0
      match filename with
      | none => (false, some out)
      | some filename =>
        if filename.bytes = [] then (false, some out)
        else
          let tail := getFilenameTail filename.bytes
          if tail = [] then (false, some out)
          else
            let (written, out) := snprintf.call out (cachePath tail)
            if written ≤ 0 ∨ out.length ≤ written.toNat then (false, some (out.set 0 0))
            else (true, some out)

/-! ## The tail of a name -/

/-- The text after the last separator of the name, or the whole name. -/
def AfterLast (name tail : List UInt8) : Prop :=
  (∀ c ∈ tail, ¬IsSeparator c) ∧
    (name = tail ∨ ∃ before c, IsSeparator c ∧ name = before ++ c :: tail)

/-- With the text from the last separator before `it` as the tail so far, the loop ends with
the text after the last one. -/
theorem tailFrom_afterLast {name it tail : List UInt8}
    (htail : ∃ mid, tail = mid ++ it ∧ ∀ c ∈ mid, ¬IsSeparator c)
    (hname : name = tail ∨ ∃ before c, IsSeparator c ∧ name = before ++ c :: tail) :
    AfterLast name (tailFrom it tail) := by
  induction it generalizing tail with
  | nil =>
    obtain ⟨mid, rfl, hmid⟩ := htail
    rw [List.append_nil] at hname ⊢
    exact ⟨hmid, hname⟩
  | cons c it ih =>
    obtain ⟨mid, rfl, hmid⟩ := htail
    rw [tailFrom]
    split_ifs with hc
    · refine ih ⟨[], rfl, fun c hc => by cases hc⟩ (Or.inr ?_)
      rcases hname with rfl | ⟨before, d, hd, rfl⟩
      · exact ⟨mid, c, hc, rfl⟩
      · exact ⟨before ++ d :: mid, c, hc, by simp⟩
    · refine ih ⟨mid ++ [c], by simp, fun d hd => ?_⟩ hname
      rcases List.mem_append.1 hd with hd | hd
      · exact hmid d hd
      · rwa [List.mem_singleton.1 hd]

theorem getFilenameTail_afterLast (name : List UInt8) : AfterLast name (getFilenameTail name) :=
  tailFrom_afterLast ⟨[], rfl, fun c hc => by cases hc⟩ (Or.inl rfl)

/-- What follows a separator holds what follows a later one. -/
theorem tail_eq_of_append {a tail tail' : List UInt8} {c d : UInt8} (hd : IsSeparator d)
    (htail : ∀ c ∈ tail, ¬IsSeparator c) (h : c :: tail = a ++ d :: tail') : tail = tail' := by
  cases a with
  | nil => exact (List.cons_eq_cons.1 h).2
  | cons b a =>
    obtain ⟨-, rfl⟩ := List.cons_eq_cons.1 h
    exact absurd hd (htail d (List.mem_append_right a List.mem_cons_self))

/-- A name has one text after its last separator. -/
theorem AfterLast.unique {name tail tail' : List UInt8} (h : AfterLast name tail)
    (h' : AfterLast name tail') : tail = tail' := by
  obtain ⟨htail, rfl | ⟨before, c, hc, rfl⟩⟩ := h
  · obtain ⟨-, heq | ⟨before, c, hc, rfl⟩⟩ := h'
    · exact heq
    · exact absurd hc (htail c (List.mem_append_right before List.mem_cons_self))
  · obtain ⟨htail', heq | ⟨before', c', hc', heq⟩⟩ := h'
    · rw [← heq] at htail'
      exact absurd hc (htail' c (List.mem_append_right before List.mem_cons_self))
    · rcases List.append_eq_append_iff.1 heq with ⟨a, -, h⟩ | ⟨a, -, h⟩
      · exact tail_eq_of_append hc' htail h
      · exact (tail_eq_of_append hc htail' h).symm

/-! ## The path that is written -/

variable (snprintf : Snprintf)

theorem holds_set {out : List UInt8} (h : out ≠ []) : Holds (some (out.set 0 0)) [] := by
  cases out with
  | nil => exact absurd rfl h
  | cons b out => exact ⟨out, rfl⟩

theorem cachePath_ne_nil (tail : List UInt8) : cachePath tail ≠ [] :=
  List.append_ne_nil_of_right_ne_nil _ (List.cons_ne_nil _ _)

/-- Where there is a tail, a path is written exactly when it fits and `snprintf` does not
fail. -/
theorem buildPubfileCachePath_of_tail {out : List UInt8} {name : CString} (hout : out ≠ [])
    (htail : getFilenameTail name.bytes ≠ []) :
    let text := cachePath (getFilenameTail name.bytes)
    let printed := snprintf.call (out.set 0 0) text
    buildPubfileCachePath snprintf (some out) (some name) =
      if 0 ≤ printed.1 ∧ text.length < out.length then (true, some printed.2)
      else (false, some (printed.2.set 0 0)) := by
  intro text printed
  have hname : name.bytes ≠ [] := by
    rintro hname
    rw [hname] at htail
    exact htail rfl
  have hlength : printed.2.length = out.length := by
    rw [snprintf.length_call, List.length_set]
  have hpos : text.length ≠ 0 := fun h => cachePath_ne_nil _ (List.length_eq_zero_iff.1 h)
  have hsize : out.length ≠ 0 := fun h => hout (List.length_eq_zero_iff.1 h)
  rw [buildPubfileCachePath]
  dsimp only
  rw [if_neg hsize, if_neg hname, if_neg htail]
  change (if printed.1 ≤ 0 ∨ printed.2.length ≤ printed.1.toNat then
    (false, some (printed.2.set 0 0)) else (true, some printed.2)) = _
  rw [hlength]
  by_cases hresult : 0 ≤ printed.1
  · have htext : printed.1 = text.length := snprintf.result _ _ hresult
    rw [htext]
    split_ifs <;> first | rfl | omega
  · rw [if_pos (Or.inl (by omega)), if_neg fun h => hresult h.1]

/-- What is returned with false. -/
theorem buildPubfileCachePath_false {out : List UInt8} (hout : out ≠ []) {filename : Option CString}
    (h : (buildPubfileCachePath snprintf (some out) filename).1 = false) :
    Holds (buildPubfileCachePath snprintf (some out) filename).2 [] := by
  have hsize : ¬out.length = 0 := fun h => hout (List.length_eq_zero_iff.1 h)
  cases filename with
  | none =>
    rw [buildPubfileCachePath, if_neg hsize]
    exact holds_set hout
  | some name =>
    by_cases htail : getFilenameTail name.bytes = []
    · have hanswer : buildPubfileCachePath snprintf (some out) (some name) =
          (false, some (out.set 0 0)) := by
        rw [buildPubfileCachePath, if_neg hsize]
        dsimp only
        split_ifs <;> rfl
      rw [hanswer]
      exact holds_set hout
    · rw [buildPubfileCachePath_of_tail snprintf hout htail] at h ⊢
      split_ifs at h ⊢ with hprinted
      refine holds_set fun hnil => hout (List.length_eq_zero_iff.1 ?_)
      rw [← List.length_set, ← snprintf.length_call, hnil, List.length_nil]

/-- A path holds no terminator. -/
theorem cachePath_noTerminator {name : CString} {tail : List UInt8}
    (h : AfterLast name.bytes tail) : 0 ∉ cachePath tail := by
  have htail : 0 ∉ tail := by
    intro hmem
    obtain ⟨-, heq | ⟨before, c, -, heq⟩⟩ := h
    · exact name.noTerminator (heq ▸ hmem)
    · exact name.noTerminator (heq ▸ List.mem_append_right _ (List.mem_cons_of_mem c hmem))
  have hdir : 0 ∉ cacheDir := by decide +kernel
  simp [cachePath, hdir, htail]

/-- What is returned with true. -/
theorem buildPubfileCachePath_true {out : Option (List UInt8)} {filename : Option CString}
    (h : (buildPubfileCachePath snprintf out filename).1 = true) :
    ∃ buf name tail, out = some buf ∧ filename = some name ∧ AfterLast name.bytes tail ∧
      tail ≠ [] ∧ (cachePath tail).length < buf.length ∧ 0 ∉ cachePath tail ∧
        Holds (buildPubfileCachePath snprintf out filename).2 (cachePath tail) := by
  cases out with
  | none => cases h
  | some out =>
    have hout : out ≠ [] := by
      rintro rfl
      cases h
    have hsize : ¬out.length = 0 := fun h => hout (List.length_eq_zero_iff.1 h)
    cases filename with
    | none =>
      rw [buildPubfileCachePath, if_neg hsize] at h
      cases h
    | some name =>
      have htail : getFilenameTail name.bytes ≠ [] := by
        intro htail
        rw [buildPubfileCachePath, if_neg hsize] at h
        dsimp only at h
        rw [if_pos htail] at h
        split_ifs at h
      have hlast := getFilenameTail_afterLast name.bytes
      refine ⟨out, name, _, rfl, rfl, hlast, htail, ?_⟩
      rw [buildPubfileCachePath_of_tail snprintf hout htail] at h ⊢
      split_ifs at h ⊢ with hprinted
      refine ⟨hprinted.2, cachePath_noTerminator hlast, ?_⟩
      exact snprintf.written _ _ hprinted.1 (by rw [List.length_set]; exact hprinted.2)

/-- A path that fits is written. -/
theorem buildPubfileCachePath_fits {buf tail : List UInt8} {name : CString}
    (hlast : AfterLast name.bytes tail) (htail : tail ≠ [])
    (hfits : (cachePath tail).length < buf.length)
    (hsize : buf.length ≤ intMax ∨ snprintf.takesLarge = true)
    (hpath : (cachePath tail).length ≤ intMax) :
    (buildPubfileCachePath snprintf (some buf) (some name)).1 = true := by
  have hbuf : buf ≠ [] := List.ne_nil_of_length_pos (Nat.zero_lt_of_lt hfits)
  obtain rfl := hlast.unique (getFilenameTail_afterLast name.bytes)
  have hresult := snprintf.succeeds (buf.set 0 0) (cachePath (getFilenameTail name.bytes))
    (by rwa [List.length_set]) (by omega)
  rw [buildPubfileCachePath_of_tail snprintf hbuf htail, if_pos ⟨hresult, hfits⟩]

/-- **A path is written only if it fits, and is then that of the text after the last separator;
else the buffer is left with the empty string; and a path that fits is written, if its length is
an `int` and `snprintf` takes the buffer.** -/
theorem buildPubfileCachePath_spec (out : Option (List UInt8)) (filename : Option CString) :
    ((buildPubfileCachePath snprintf out filename).1 = true →
      ∃ buf name tail, out = some buf ∧ filename = some name ∧ AfterLast name.bytes tail ∧
        tail ≠ [] ∧ (cachePath tail).length < buf.length ∧ 0 ∉ cachePath tail ∧
          Holds (buildPubfileCachePath snprintf out filename).2 (cachePath tail)) ∧
    ((buildPubfileCachePath snprintf out filename).1 = false → ∀ buf, out = some buf → buf ≠ [] →
      Holds (buildPubfileCachePath snprintf out filename).2 []) ∧
    (∀ buf name tail, out = some buf → filename = some name → AfterLast name.bytes tail →
      tail ≠ [] → (cachePath tail).length < buf.length → (cachePath tail).length ≤ intMax →
        (buf.length ≤ intMax ∨ snprintf.takesLarge = true) →
          (buildPubfileCachePath snprintf out filename).1 = true) := by
  refine ⟨buildPubfileCachePath_true snprintf, ?_, ?_⟩
  · rintro h buf rfl hbuf
    exact buildPubfileCachePath_false snprintf hbuf h
  · rintro buf name tail rfl rfl hlast htail hfits hpath hsize
    exact buildPubfileCachePath_fits snprintf hlast htail hfits hsize hpath

/-! ## A path that is too long for an `int` -/

/-- What is left of the buffer after the text is printed into it. -/
def printInto (out text : List UInt8) : List UInt8 :=
  if out.length = 0 then out
  else text.take (out.length - 1) ++ 0 :: out.drop (min (out.length - 1) text.length + 1)

theorem length_printInto (out text : List UInt8) : (printInto out text).length = out.length := by
  unfold printInto
  split_ifs with h
  · rfl
  · rw [List.length_append, List.length_cons, List.length_take, List.length_drop]
    omega

/-- A `snprintf` that fails only where it has to, or also for every large buffer. -/
def plainSnprintf (takesLarge : Bool) : Snprintf where
  call out text :=
    if (out.length ≤ intMax ∨ takesLarge = true) ∧ text.length ≤ intMax then
      (text.length, printInto out text)
    else (-1, out)
  takesLarge := takesLarge
  length_call out text := by
    split_ifs
    · exact length_printInto out text
    · rfl
  le_intMax out text := by split_ifs <;> omega
  result out text h := by
    split_ifs at h ⊢
    · rfl
    · exact absurd h (Int.not_le.2 (by decide : (-1 : ℤ) < 0))
  written out text h hlt := by
    split_ifs at h ⊢
    · refine ⟨out.drop (text.length + 1), ?_⟩
      rw [printInto, if_neg (by omega), List.take_of_length_le (by omega),
        Nat.min_eq_right (by omega)]
    · exact absurd h (Int.not_le.2 (by decide : (-1 : ℤ) < 0))
  succeeds out text hout htext := by
    rw [if_pos ⟨hout, htext⟩]
    exact Int.natCast_nonneg text.length

/-- Where it fails, no path is written. -/
theorem buildPubfileCachePath_refused {takesLarge : Bool} {buf : List UInt8} {name : CString}
    (hbuf : buf ≠ []) (htail : getFilenameTail name.bytes ≠ [])
    (h : ¬((buf.length ≤ intMax ∨ takesLarge = true) ∧
      (cachePath (getFilenameTail name.bytes)).length ≤ intMax)) :
    (buildPubfileCachePath (plainSnprintf takesLarge) (some buf) (some name)).1 = false := by
  have hfails : ((plainSnprintf takesLarge).call (buf.set 0 0)
      (cachePath (getFilenameTail name.bytes))).1 = -1 := by
    rw [← List.length_set] at h
    exact congrArg Prod.fst (if_neg h)
  rw [buildPubfileCachePath_of_tail _ hbuf htail, hfails, if_neg]
  exact fun h => absurd h.1 (Int.not_le.2 (by decide : (-1 : ℤ) < 0))

/-- A name of 2³¹ characters. -/
def longName : CString where
  bytes := List.replicate (2 ^ 31) 0x61
  noTerminator h := absurd (List.eq_of_mem_replicate h) (by decide)

theorem longName_afterLast : AfterLast longName.bytes longName.bytes := by
  refine ⟨fun c hc => ?_, Or.inl rfl⟩
  rw [List.eq_of_mem_replicate hc]
  decide

theorem length_longName : longName.bytes.length = 2 ^ 31 := List.length_replicate

theorem length_cachePath (tail : List UInt8) : (cachePath tail).length = 30 + tail.length := by
  have hdir : cacheDir.length = 29 := by decide +kernel
  rw [cachePath, List.length_append, List.length_cons, hdir]
  omega

/-- The name `a`. -/
def shortName : CString where
  bytes := [0x61]
  noTerminator := by decide

/-- A buffer of 2³² bytes. -/
def largeBuffer : List UInt8 := List.replicate (2 ^ 32) 0

/-- **A path that fits is not written if its length is no `int`, or if `snprintf` does not take the
buffer.** -/
theorem not_buildPubfileCachePath_fits :
    (AfterLast longName.bytes longName.bytes ∧ longName.bytes ≠ [] ∧
      (cachePath longName.bytes).length < largeBuffer.length ∧
        (buildPubfileCachePath (plainSnprintf true) (some largeBuffer) (some longName)).1 =
          false) ∧
    AfterLast shortName.bytes shortName.bytes ∧ shortName.bytes ≠ [] ∧
      (cachePath shortName.bytes).length < largeBuffer.length ∧
        (buildPubfileCachePath (plainSnprintf false) (some largeBuffer) (some shortName)).1 =
          false := by
  have hlength := length_longName
  have hpath := length_cachePath longName.bytes
  have hshort := length_cachePath shortName.bytes
  have hbuf : largeBuffer.length = 2 ^ 32 := List.length_replicate
  have hbufne : largeBuffer ≠ [] := List.ne_nil_of_length_pos (by omega)
  have hne : longName.bytes ≠ [] := List.ne_nil_of_length_pos (by omega)
  have hshortLast : AfterLast shortName.bytes shortName.bytes := by
    refine ⟨fun c hc => ?_, Or.inl rfl⟩
    rw [List.mem_singleton.1 hc]
    decide
  have hshortLength : shortName.bytes.length = 1 := rfl
  refine ⟨⟨longName_afterLast, hne, by omega, ?_⟩, hshortLast, by decide, by omega, ?_⟩
  · have htail := (getFilenameTail_afterLast longName.bytes).unique longName_afterLast
    refine buildPubfileCachePath_refused hbufne (by rwa [htail]) fun h => ?_
    rw [htail, hpath, hlength] at h
    exact absurd h.2 (by decide)
  · refine buildPubfileCachePath_refused hbufne (by decide) fun h => ?_
    rw [hbuf] at h
    exact absurd h.1 (by decide)

/-! ## The paths of texts -/

/-- A byte below 128 is a character of its own. -/
theorem toNat_of_mem_utf8EncodeChar {b : UInt8} {c : Char} (hb : b.toNat < 128)
    (h : b ∈ String.utf8EncodeChar c) : c.toNat = b.toNat := by
  change c.val.toNat = b.toNat
  unfold String.utf8EncodeChar at h
  dsimp only at h
  split_ifs at h with h1 h2 h3
  all_goals
    simp only [List.mem_cons, List.not_mem_nil, or_false] at h
  · rw [h, UInt8.toNat_ofNat']
    omega
  · rcases h with rfl | rfl <;> rw [UInt8.toNat_ofNat'] at hb <;> omega
  · rcases h with rfl | rfl | rfl <;> rw [UInt8.toNat_ofNat'] at hb <;> omega
  · rcases h with rfl | rfl | rfl | rfl <;> rw [UInt8.toNat_ofNat'] at hb <;> omega

theorem utf8_append (s t : String) : utf8 (s ++ t) = utf8 s ++ utf8 t := by
  rw [utf8, String.toList_append, List.flatMap_append, utf8, utf8]

theorem utf8_length (s : String) : (utf8 s).length = s.utf8ByteSize := by
  rw [← String.size_toByteArray, ← String.utf8Encode_toList, List.utf8Encode,
    List.size_toByteArray, utf8]

theorem utf8_eq_nil_iff {s : String} : utf8 s = [] ↔ s = "" := by
  rw [utf8, List.flatMap_eq_nil_iff, ← String.toList_eq_nil_iff, List.eq_nil_iff_forall_not_mem]
  simp

theorem utf8_ofList (cs : List Char) :
    utf8 (String.ofList cs) = cs.flatMap String.utf8EncodeChar := by
  rw [utf8, String.toList_ofList]

/-- A separator among the bytes is one among the characters. -/
theorem separator_of_mem {c : Char} {b : UInt8} (hb : IsSeparator b)
    (h : b ∈ String.utf8EncodeChar c) : c = '/' ∨ c = '\\' := by
  rcases hb with rfl | rfl
  · exact Or.inl (Char.toNat_inj.1 (toNat_of_mem_utf8EncodeChar (by decide) h))
  · exact Or.inr (Char.toNat_inj.1 (toNat_of_mem_utf8EncodeChar (by decide) h))

/-- A separator is one byte. -/
theorem encode_separator {c : Char} (h : c = '/' ∨ c = '\\') :
    ∃ b, IsSeparator b ∧ String.utf8EncodeChar c = [b] := by
  rcases h with rfl | rfl
  · exact ⟨0x2F, Or.inl rfl, rfl⟩
  · exact ⟨0x5C, Or.inr rfl, rfl⟩

/-- The tail of a text is that of its bytes. -/
theorem getFilenameTail_utf8 (name : String) :
    getFilenameTail (utf8 name) = utf8 (D3Hack.getFilenameTail name) := by
  refine (getFilenameTail_afterLast _).unique ⟨fun b hb hsep => ?_, ?_⟩
  · rw [D3Hack.getFilenameTail, utf8_ofList] at hb
    obtain ⟨c, hc, hb⟩ := List.mem_flatMap.1 hb
    have hnot := List.mem_rtakeWhile_imp hc
    rcases separator_of_mem hsep hb with rfl | rfl <;> simp at hnot
  · set p : Char → Bool := fun c => !(c == '/' || c == '\\') with hp
    have hsplit := List.rdropWhile_append_rtakeWhile (p := p) (l := name.toList)
    have hbytes : utf8 name = (name.toList.rdropWhile p).flatMap String.utf8EncodeChar ++
        utf8 (D3Hack.getFilenameTail name) := by
      rw [D3Hack.getFilenameTail, utf8_ofList, ← List.flatMap_append, hsplit, utf8]
    rcases List.eq_nil_or_concat (name.toList.rdropWhile p) with hnil | ⟨before, c, hconcat⟩
    · left
      rw [hbytes, hnil, List.flatMap_nil, List.nil_append]
    · right
      rw [List.concat_eq_append] at hconcat
      have hlast := List.rdropWhile_last_not p name.toList (by rw [hconcat]; simp)
      simp only [hconcat, List.getLast_append_singleton] at hlast
      have hc : c = '/' ∨ c = '\\' := by
        simpa [hp, or_iff_not_imp_left] using hlast
      obtain ⟨b, hsep, hencode⟩ := encode_separator hc
      refine ⟨before.flatMap String.utf8EncodeChar, b, hsep, ?_⟩
      rw [hbytes, hconcat, List.flatMap_append, List.flatMap_singleton, hencode,
        List.append_assoc, List.singleton_append]

/-- The C string of a text. -/
def CString.ofText (name : String) (h : '\x00' ∉ name.toList) : CString where
  bytes := utf8 name
  noTerminator hmem := by
    obtain ⟨c, hc, hb⟩ := List.mem_flatMap.1 hmem
    have hzero : c.toNat = '\x00'.toNat := toNat_of_mem_utf8EncodeChar (by decide) hb
    rw [Char.toNat_inj.1 hzero] at hc
    exact h hc

theorem bytes_ofText (name : String) (h : '\x00' ∉ name.toList) :
    (CString.ofText name h).bytes = utf8 name := rfl

theorem cachePath_utf8 (tail : String) :
    cachePath (utf8 tail) = utf8 (g_szPubfileCacheDir ++ "/" ++ tail) := by
  have hslash : utf8 "/" = [0x2F] := by decide +kernel
  rw [utf8_append, utf8_append, hslash, List.append_assoc, List.singleton_append, cachePath,
    cacheDir]

/-- The path that is written for a text is that of the publisher files. -/
theorem buildPubfileCachePath_ofText {buf : List UInt8} (hsize : buf.length ≤ intMax)
    (name : String) (h : '\x00' ∉ name.toList) :
    match D3Hack.buildPubfileCachePath buf.length (some name) with
    | some path => (buildPubfileCachePath snprintf (some buf) (some (.ofText name h))).1 = true ∧
        Holds (buildPubfileCachePath snprintf (some buf) (some (.ofText name h))).2 (utf8 path)
    | none => (buildPubfileCachePath snprintf (some buf) (some (.ofText name h))).1 = false := by
  have hlast := getFilenameTail_afterLast (utf8 name)
  rw [getFilenameTail_utf8] at hlast
  -- What is written, if anything is, is the path of this tail.
  have htrue (hok : (buildPubfileCachePath snprintf (some buf) (some (.ofText name h))).1 =
      true) : D3Hack.getFilenameTail name ≠ "" ∧
        (g_szPubfileCacheDir ++ "/" ++ D3Hack.getFilenameTail name).utf8ByteSize < buf.length ∧
          Holds (buildPubfileCachePath snprintf (some buf) (some (.ofText name h))).2
            (utf8 (g_szPubfileCacheDir ++ "/" ++ D3Hack.getFilenameTail name)) := by
    obtain ⟨buf', name', tail, hbuf, hname, hlast', htail, hfits, -, hholds⟩ :=
      buildPubfileCachePath_true snprintf hok
    rw [← Option.some.inj hname, bytes_ofText] at hlast'
    rw [← Option.some.inj hbuf] at hfits
    have htailEq := hlast'.unique hlast
    rw [htailEq] at htail hfits hholds
    rw [← utf8_length, ← cachePath_utf8]
    exact ⟨fun hempty => htail (utf8_eq_nil_iff.2 hempty), hfits, hholds⟩
  rw [D3Hack.buildPubfileCachePath]
  dsimp only
  split_ifs with hname htail hlong
  · refine Bool.eq_false_of_not_eq_true fun hok => (htrue hok).1 ?_
    rw [hname]
    rfl
  · exact Bool.eq_false_of_not_eq_true fun hok => (htrue hok).1 htail
  · exact Bool.eq_false_of_not_eq_true fun hok => Nat.not_lt.2 hlong (htrue hok).2.1
  · have hok : (buildPubfileCachePath snprintf (some buf) (some (.ofText name h))).1 = true := by
      have hfits : (cachePath (utf8 (D3Hack.getFilenameTail name))).length < buf.length := by
        rw [cachePath_utf8, utf8_length]
        exact Nat.lt_of_not_le hlong
      exact buildPubfileCachePath_fits snprintf hlast (mt utf8_eq_nil_iff.1 htail) hfits
        (Or.inl hsize) (by omega)
    exact ⟨hok, (htrue hok).2.2⟩

end D3Hack.CachePath
