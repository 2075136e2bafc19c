import D3Hack.Runs
import D3Hack.Toml
import D3Hack.Writes

/-!
# Translations

A language file is a tree of tables, and a text is found in it by its dotted path.
`flattenTomlStrings` goes through the tree with the path of the node in one shared buffer, which
it extends on the way down and cuts back on the way up.

`flattenTomlStrings_spec` says that the map holds each string of the tree under its own dotted
path and nothing else, and that the buffer is given back as it was. `tr_spec` carries this over to
the texts that `tr` finds, after any calls and changes of the language.
-/

namespace D3Hack

open Runs Toml

/-! ## Flattening a tree -/

/-- The buffer with the path, and the map from paths to texts. -/
structure Flattening where
  path : String
  out : String → Option String

/-- `std::string::resize`. -/
def resize (s : String) (n : ℕ) : String :=
  String.ofList (s.toList.take n ++ List.replicate (n - s.length) '\x00')

/-- `push_back` and `+=`, for the key of a node. -/
def enter (path key : String) : String := (if path ≠ "" then path.push '.' else path) ++ key

section Flatten

variable (api : Api)

mutual

/-- `FlattenTomlStrings`. -/
def flattenTomlStrings : Node → Flattening → Flattening
  | .table tbl, st => flattenEntries tbl st
  | node, st =>
    match api.valueString node with
    | some s => if st.path ≠ "" then { st with out := Function.update st.out st.path s } else st
    | none => st

/-- The visitor of `for_each`, for each entry of a table. -/
def flattenEntries : Table → Flattening → Flattening
  | [], st => st
  | (key, node) :: tbl, st =>
    let oldLen := st.path.length
    let st := flattenTomlStrings node { st with path := enter st.path key }
    flattenEntries tbl { st with path := resize st.path oldLen }

end

end Flatten

/-! ## The texts of a tree -/

/-- The string at the end of a path through tables. -/
def leafAt : Node → List String → Option String
  | .string s, [] => some s
  | .table tbl, key :: path =>
    match Table.get tbl key with
    | some node => leafAt node path
    | none => none
  | _, _ => none

/-- The dotted path from a node that has a path itself, or from the root. -/
def dotted (path : String) (keys : List String) : String :=
  ".".intercalate (if path = "" then keys else path :: keys)

/-- A key that is not empty and has no dots. -/
def Named (key : String) : Prop := key ≠ "" ∧ '.' ∉ key.toList

/-- A tree whose keys are not empty and have no dots; a table has a key once. -/
inductive Keyed : Node → Prop
  | leaf {node : Node} (h : ∀ tbl, node ≠ .table tbl) : Keyed node
  | table {tbl : Table} (nodup : (Writes.keys tbl).Nodup) (named : ∀ e ∈ tbl, Named e.1)
      (keyed : ∀ e ∈ tbl, Keyed e.2) : Keyed (.table tbl)

mutual

/-- The writes of a tree, in their order. -/
def textsOf : Node → String → List (String × String)
  | .string s, path => if path ≠ "" then [(path, s)] else []
  | .table tbl, path => textsIn tbl path
  | _, _ => []

/-- The texts of a table and of those in it, with their keys. -/
def textsIn : Table → String → List (String × String)
  | [], _ => []
  | (key, node) :: tbl, path => textsOf node (enter path key) ++ textsIn tbl path

end

/-! ## The buffer -/

theorem length_le_length_enter (path key : String) : path.length ≤ (enter path key).length := by
  unfold enter
  split_ifs
  · rw [String.length_append, String.length_push]
    omega
  · rw [String.length_append]
    omega

/-- Cutting the buffer back gives the path before the key. -/
theorem resize_enter (path key : String) : resize (enter path key) path.length = path := by
  have hshort : path.length - (enter path key).length = 0 :=
    Nat.sub_eq_zero_of_le (length_le_length_enter path key)
  have htake : (enter path key).toList.take path.length = path.toList := by
    unfold enter
    rw [← String.length_toList]
    split_ifs <;> simp
  rw [resize, hshort, htake, List.replicate_zero, List.append_nil, String.ofList_toList]

/-- The accessor gives the strings of string nodes, and of no others. -/
def StringsOnly (api : Api) : Prop := ∀ node s, api.valueString node = some s ↔ node = .string s

section Eq

variable {api : Api}

theorem flattenTomlStrings_leaf (hapi : StringsOnly api) {node : Node}
    (h : ∀ tbl, node ≠ .table tbl) (st : Flattening) :
    flattenTomlStrings api node st =
      { st with out := Writes.apply st.out (textsOf node st.path) } := by
  rw [flattenTomlStrings]
  · cases hs : api.valueString node with
    | some s =>
      rw [(hapi node s).1 hs, textsOf]
      dsimp only
      split_ifs <;> rfl
    | none =>
      cases node with
      | string s => simp [(hapi _ s).2 rfl] at hs
      | table tbl => exact absurd rfl (h tbl)
      | _ => rfl
  · exact h

mutual

/-- A run through a tree leaves the buffer as it was, and writes the texts of the tree. -/
theorem flattenTomlStrings_eq (hapi : StringsOnly api) (node : Node) (st : Flattening) :
    flattenTomlStrings api node st =
      { st with out := Writes.apply st.out (textsOf node st.path) } := by
  match node with
  | .table tbl => exact flattenEntries_eq hapi tbl st
  | .string _ | .integer _ | .float _ | .boolean _ | .other =>
    exact flattenTomlStrings_leaf hapi (by simp) st

theorem flattenEntries_eq (hapi : StringsOnly api) (tbl : Table) (st : Flattening) :
    flattenEntries api tbl st = { st with out := Writes.apply st.out (textsIn tbl st.path) } := by
  match tbl with
  | [] => rfl
  | (key, node) :: tbl =>
    rw [flattenEntries, flattenTomlStrings_eq hapi node, flattenEntries_eq hapi tbl]
    simp only [resize_enter, textsIn, Writes.apply_append]

end

end Eq

/-! ## Dotted paths -/

theorem intercalate_ne_empty {key : String} (hkey : key ≠ "") (keys : List String) :
    ".".intercalate (key :: keys) ≠ "" := by
  intro h
  rw [← String.append_empty (s := key), String.intercalate_cons_append] at h
  exact hkey (String.append_eq_empty_iff.1 h).1

/-- Keys without dots are told from the text with dots between them. -/
theorem intercalate_inj {keys keys' : List String} (hkeys : ∀ key ∈ keys, Named key)
    (hkeys' : ∀ key ∈ keys', Named key) (h : ".".intercalate keys = ".".intercalate keys') :
    keys = keys' := by
  have hsplit (keys : List String) (hkeys : ∀ key ∈ keys, Named key) (hne : keys ≠ []) :
      (".".intercalate keys).toList.splitOn '.' = keys.map String.toList := by
    rw [String.toList_intercalate]
    refine List.splitOn_intercalate '.' ?_ (by simpa using hne)
    simpa using fun key hkey => (hkeys key hkey).2
  cases keys with
  | nil =>
    cases keys' with
    | nil => rfl
    | cons key keys' =>
      exact absurd h.symm (intercalate_ne_empty (hkeys' key List.mem_cons_self).1 keys')
  | cons key keys =>
    cases keys' with
    | nil => exact absurd h (intercalate_ne_empty (hkeys key List.mem_cons_self).1 keys)
    | cons key' keys' =>
      have hmap := hsplit _ hkeys (List.cons_ne_nil _ _)
      rw [h, hsplit _ hkeys' (List.cons_ne_nil _ _)] at hmap
      exact (List.map_injective_iff.2 (fun _ _ => String.toList_inj.1) hmap).symm

theorem dotted_nil (path : String) : dotted path [] = path := by
  unfold dotted
  split_ifs with hpath
  · rw [hpath, String.intercalate_nil]
  · exact String.intercalate_singleton

theorem dotted_enter {path key : String} (hkey : key ≠ "") (keys : List String) :
    dotted (enter path key) keys = dotted path (key :: keys) := by
  unfold dotted enter
  by_cases hpath : path = ""
  · simp [hpath, hkey]
  · have hne : path.push '.' ++ key ≠ "" := by simp [hkey]
    rw [if_pos hpath, if_neg hne, if_neg hpath, String.intercalate_cons_append,
      String.intercalate_cons_cons]
    rfl

/-- Dotted paths from the same node are equal only for the same keys. -/
theorem dotted_inj (path : String) {keys keys' : List String}
    (hkeys : ∀ key ∈ keys, Named key) (hkeys' : ∀ key ∈ keys', Named key)
    (h : dotted path keys = dotted path keys') : keys = keys' := by
  unfold dotted at h
  by_cases hpath : path = ""
  · rw [if_pos hpath, if_pos hpath] at h
    exact intercalate_inj hkeys hkeys' h
  · rw [if_neg hpath, if_neg hpath] at h
    have hlonger (key : String) (keys : List String) :
        ".".intercalate [path] ≠ ".".intercalate (path :: key :: keys) := by
      intro h
      have hlength := congrArg String.length h
      rw [String.intercalate_singleton, String.intercalate_cons_cons, String.length_append,
        String.length_append, show ".".length = 1 from rfl] at hlength
      omega
    cases keys with
    | nil =>
      cases keys' with
      | nil => rfl
      | cons key' keys' => exact absurd h (hlonger key' keys')
    | cons key keys =>
      cases keys' with
      | nil => exact absurd h.symm (hlonger key keys)
      | cons key' keys' =>
        rw [String.intercalate_cons_cons, String.intercalate_cons_cons,
          String.append_right_inj] at h
        exact intercalate_inj hkeys hkeys' h

/-! ## The texts of a tree by their paths -/

theorem get_eq_some_iff {tbl : Table} (hn : (Writes.keys tbl).Nodup) {key : String} {node : Node} :
    Table.get tbl key = some node ↔ (key, node) ∈ tbl := by
  induction tbl with
  | nil => simp
  | cons e tbl ih =>
    obtain ⟨k, n⟩ := e
    obtain ⟨hk, hn⟩ : k ∉ Writes.keys tbl ∧ (Writes.keys tbl).Nodup := by
      simpa [Writes.keys] using hn
    rw [Table.get_cons, List.mem_cons, Prod.mk.injEq]
    by_cases hkey : key = k
    · subst hkey
      have hmem : (key, node) ∉ tbl := fun h => hk (List.mem_map_of_mem (f := Prod.fst) h)
      simp [hmem, eq_comm]
    · simp [hkey, ih hn]

/-- A string in a table is one of a node of it. -/
theorem leafAt_table {tbl : Table} (hn : (Writes.keys tbl).Nodup) {keys : List String}
    {s : String} : leafAt (.table tbl) keys = some s ↔
      ∃ e ∈ tbl, ∃ path, keys = e.1 :: path ∧ leafAt e.2 path = some s := by
  cases keys with
  | nil => simp [leafAt]
  | cons key path =>
    rw [leafAt]
    constructor
    · intro h
      cases hget : Table.get tbl key with
      | none => simp [hget] at h
      | some node =>
        rw [hget] at h
        exact ⟨(key, node), (get_eq_some_iff hn).1 hget, path, rfl, h⟩
    · rintro ⟨⟨k, node⟩, hmem, path', hkeys, h⟩
      obtain ⟨rfl, rfl⟩ := List.cons_eq_cons.1 hkeys
      rw [(get_eq_some_iff hn).2 hmem]
      exact h

theorem leafAt_of_not_table {node : Node} (h : ∀ tbl, node ≠ .table tbl) {keys : List String}
    {s : String} : leafAt node keys = some s ↔ node = .string s ∧ keys = [] := by
  cases node with
  | table tbl => exact absurd rfl (h tbl)
  | _ => cases keys <;> simp [leafAt]

/-- The keys on the way to a string are those of the tables. -/
theorem named_of_leafAt {node : Node} (h : Keyed node) {keys : List String} {s : String}
    (hs : leafAt node keys = some s) : ∀ key ∈ keys, Named key := by
  induction h generalizing keys with
  | leaf h =>
    obtain ⟨-, rfl⟩ := (leafAt_of_not_table h).1 hs
    simp
  | table hnodup hnamed _ ih =>
    obtain ⟨e, he, path, rfl, hs'⟩ := (leafAt_table hnodup).1 hs
    exact List.forall_mem_cons.2 ⟨hnamed e he, ih e he hs'⟩

theorem mem_textsIn {tbl : Table} {path : String} {w : String × String} :
    w ∈ textsIn tbl path ↔ ∃ e ∈ tbl, w ∈ textsOf e.2 (enter path e.1) := by
  induction tbl with
  | nil => simp [textsIn]
  | cons e tbl ih => rw [textsIn, List.mem_append, ih, List.exists_mem_cons_iff]

/-- The texts of a tree are its strings, under their dotted paths. -/
theorem mem_textsOf {node : Node} (h : Keyed node) {path name s : String} :
    (name, s) ∈ textsOf node path ↔
      name ≠ "" ∧ ∃ keys, leafAt node keys = some s ∧ dotted path keys = name := by
  induction h generalizing path with
  | @leaf node h =>
    cases node with
    | table tbl => exact absurd rfl (h tbl)
    | string s' =>
      have hleaf : (∃ keys, leafAt (.string s') keys = some s ∧ dotted path keys = name) ↔
          s' = s ∧ path = name := by
        simp [leafAt_of_not_table h, dotted_nil, and_assoc]
      rw [textsOf, hleaf]
      split_ifs with hpath
      · rw [List.mem_singleton, Prod.mk.injEq]
        constructor
        · rintro ⟨rfl, rfl⟩
          exact ⟨hpath, rfl, rfl⟩
        · rintro ⟨-, rfl, rfl⟩
          exact ⟨rfl, rfl⟩
      · refine ⟨fun h => absurd h List.not_mem_nil, ?_⟩
        rintro ⟨hname, -, rfl⟩
        exact absurd hname hpath
    | _ => simp [textsOf, leafAt_of_not_table h]
  | table hnodup hnamed _ ih =>
    rw [textsOf, mem_textsIn]
    constructor
    · rintro ⟨e, he, hw⟩
      obtain ⟨hname, keys, hs, rfl⟩ := (ih e he).1 hw
      exact ⟨hname, e.1 :: keys, (leafAt_table hnodup).2 ⟨e, he, keys, rfl, hs⟩,
        (dotted_enter (hnamed e he).1 keys).symm⟩
    · rintro ⟨hname, keys, hs, rfl⟩
      obtain ⟨e, he, keys, rfl, hs'⟩ := (leafAt_table hnodup).1 hs
      exact ⟨e, he, (ih e he).2 ⟨hname, keys, hs', dotted_enter (hnamed e he).1 keys⟩⟩

theorem nodup_textsIn {tbl : Table} (hnodup : (Writes.keys tbl).Nodup)
    (hnamed : ∀ e ∈ tbl, Named e.1) (hkeyed : ∀ e ∈ tbl, Keyed e.2) (path : String)
    (h : ∀ e ∈ tbl, (Writes.keys (textsOf e.2 (enter path e.1))).Nodup) :
    (Writes.keys (textsIn tbl path)).Nodup := by
  induction tbl with
  | nil => exact List.nodup_nil
  | cons e tbl ih =>
    obtain ⟨he, hnodup⟩ : e.1 ∉ Writes.keys tbl ∧ (Writes.keys tbl).Nodup := by
      simpa [Writes.keys] using hnodup
    rw [List.forall_mem_cons] at hnamed hkeyed h
    rw [textsIn, Writes.keys, List.map_append, List.nodup_append']
    refine ⟨h.1, ih hnodup hnamed.2 hkeyed.2 h.2, ?_⟩
    intro name hname hname'
    obtain ⟨w, hw, rfl⟩ := List.mem_map.1 hname
    obtain ⟨w', hw', heq⟩ := List.mem_map.1 hname'
    obtain ⟨e', he', hw'⟩ := mem_textsIn.1 hw'
    obtain ⟨-, keys, hs, hkeys⟩ := (mem_textsOf hkeyed.1).1 hw
    obtain ⟨-, keys', hs', hkeys'⟩ := (mem_textsOf (hkeyed.2 e' he')).1 hw'
    have hsame : e.1 :: keys = e'.1 :: keys' := by
      refine dotted_inj path
        (List.forall_mem_cons.2 ⟨hnamed.1, named_of_leafAt hkeyed.1 hs⟩)
        (List.forall_mem_cons.2
          ⟨hnamed.2 e' he', named_of_leafAt (hkeyed.2 e' he') hs'⟩) ?_
      rw [← dotted_enter hnamed.1.1, ← dotted_enter (hnamed.2 e' he').1, hkeys, hkeys', heq]
    rw [(List.cons_eq_cons.1 hsame).1] at he
    exact he (List.mem_map_of_mem (f := Prod.fst) he')

theorem nodup_textsOf {node : Node} (h : Keyed node) (path : String) :
    (Writes.keys (textsOf node path)).Nodup := by
  induction h generalizing path with
  | @leaf node h =>
    cases node with
    | table tbl => exact absurd rfl (h tbl)
    | string s =>
      rw [textsOf]
      split_ifs <;> simp
    | _ => exact List.nodup_nil
  | table hnodup hnamed hkeyed ih =>
    exact nodup_textsIn hnodup hnamed hkeyed path fun e he => ih e he _

theorem out_flattenTomlStrings {api : Api} (hapi : StringsOnly api) {node : Node} (h : Keyed node)
    {path name s : String} :
    (flattenTomlStrings api node { path, out := fun _ => none }).out name = some s ↔
      name ≠ "" ∧ ∃ keys, leafAt node keys = some s ∧ dotted path keys = name := by
  rw [flattenTomlStrings_eq hapi, Writes.holds_apply (nodup_textsOf h path), mem_textsOf h]

/-- From the root, each string of a table has a name. -/
theorem out_flattenTable {api : Api} (hapi : StringsOnly api) {root : Table}
    (h : Keyed (.table root)) {name s : String} :
    (flattenTomlStrings api (.table root) { path := "", out := fun _ => none }).out name = some s ↔
      ∃ keys, leafAt (.table root) keys = some s ∧ ".".intercalate keys = name := by
  rw [out_flattenTomlStrings hapi h]
  refine ⟨fun ⟨_, hleaf⟩ => hleaf, fun ⟨keys, hs, hname⟩ => ⟨?_, keys, hs, hname⟩⟩
  cases keys with
  | nil => simp [leafAt] at hs
  | cons key keys =>
    rw [← hname]
    exact intercalate_ne_empty (named_of_leafAt h hs key List.mem_cons_self).1 keys

/-- **Flattening gives the buffer back, and a map that holds each string of the tree under its
own dotted path and nothing else.** A string that is the whole tree has a name only if the buffer
has one. -/
theorem flattenTomlStrings_spec {api : Api} (hapi : StringsOnly api) {node : Node}
    (h : Keyed node) (path : String) :
    (∀ out, (flattenTomlStrings api node { path, out }).path = path) ∧
      (∀ name s, (flattenTomlStrings api node { path, out := fun _ => none }).out name = some s ↔
        name ≠ "" ∧ ∃ keys, leafAt node keys = some s ∧ dotted path keys = name) ∧
        ∀ keys keys', (leafAt node keys).isSome → (leafAt node keys').isSome →
          dotted path keys = dotted path keys' → keys = keys' := by
  refine ⟨fun out => ?_, fun name s => out_flattenTomlStrings hapi h,
    fun keys keys' hs hs' hdotted => ?_⟩
  · rw [flattenTomlStrings_eq hapi]
  · obtain ⟨s, hs⟩ := Option.isSome_iff_exists.1 hs
    obtain ⟨s', hs'⟩ := Option.isSome_iff_exists.1 hs'
    exact dotted_inj path (named_of_leafAt h hs) (named_of_leafAt h hs') hdotted

/-- A text of the table `gui`, beside a number. -/
theorem flattenTomlStrings_spec_gui :
    (flattenTomlStrings .accessors
        (.table [("gui", .table [("auto", .string "Auto"), ("fps", .integer 60)])])
        { path := "", out := fun _ => none }).out "gui.auto" = some "Auto" := by
  have hapi : StringsOnly .accessors := fun node s => by
    cases node <;> simp [Api.accessors, Api.ofText]
  have hkeyed : Keyed (.table [("gui", .table [("auto", .string "Auto"), ("fps", .integer 60)])]) :=
    .table (by decide) (by simp [Named]) (by
      simp only [List.mem_singleton, forall_eq]
      refine .table (by decide) (by simp [Named]) ?_
      simp only [List.forall_mem_cons]
      exact ⟨.leaf (by simp), .leaf (by simp), by simp⟩)
  exact ((flattenTomlStrings_spec hapi hkeyed "").2.1 _ _).2 ⟨by decide, ["gui", "auto"], rfl, rfl⟩

/-! ## Loading a language -/

/-- `NormalizeLang`: the first two letters. -/
def normalizeLang (lang : String) : String :=
  let out := String.ofList (((lang.toList.filter Char.isAlpha).take 2).map Char.toLower)
  if out = "jp" then "ja" else if out = "zt" then "zh" else out

/-- `NormalizeLocale`. -/
def normalizeLocale (locale : String) : String :=
  if locale = "Invalid" ∨ locale = "Global" then ""
  else if locale = "jpJP" then "ja"
  else if locale = "ztCN" then "zh"
  else normalizeLang locale

/-- What `tr` reads: the configuration of the overlay, and the locale of the game, if it has
one. -/
structure LanguageInputs where
  uiConfigInitialized : Bool
  languageOverride : String
  locale : Option String

namespace LanguageInputs

variable (i : LanguageInputs)

/-- `ResolveGameLang`. -/
def resolveGameLang : String :=
  match i.locale with
  | some locale => if locale = "" then "" else normalizeLocale locale
  | none => ""

/-- The language that is asked for. -/
def desiredLang : String :=
  let lang :=
    if i.languageOverride ≠ "" then normalizeLang i.languageOverride else i.resolveGameLang
  if lang = "" then "en" else lang

end LanguageInputs

/-- The translations of an `Overlay`. -/
structure Translations where
  loaded : Bool := false
  lang : String := ""
  texts : String → Option String := fun _ => none

section Load

variable (api : Api) (readFileToString : String → Option (List UInt8))

/-- The table of a language, if its file can be read and parsed; English has none. -/
def languageTable (lang : String) : Option Table :=
  if lang = "en" then none
  else
    match readFileToString ("romfs:/d3gui/strings_" ++ lang ++ ".toml") with
    | some text => (api.parse text).toOption
    | none => none

/-- `EnsureTranslationsLoaded`. -/
def ensureTranslationsLoaded (i : LanguageInputs) (st : Translations) : Translations :=
  if !i.uiConfigInitialized then st
  else if st.loaded && st.lang = i.desiredLang then st
  else
    let st : Translations := { loaded := true, lang := i.desiredLang }
    match languageTable api readFileToString st.lang with
    | some root =>
      { st with texts := (flattenTomlStrings api (.table root) ⟨"", st.texts⟩).out }
    | none => st

/-- `tr`. -/
def tr (i : LanguageInputs) (key fallback : Option String) (st : Translations) :
    String × Translations :=
  match key, fallback with
  | some key, some fallback =>
    let st := ensureTranslationsLoaded api readFileToString i st
    (if st.loaded then (st.texts key).getD fallback else fallback, st)
  | _, _ => (fallback.getD "", st)

/-- The texts of a language. -/
def languageTexts (lang : String) : String → Option String :=
  match languageTable api readFileToString lang with
  | some root => (flattenTomlStrings api (.table root) { path := "", out := fun _ => none }).out
  | none => fun _ => none

/-- The calls of `tr`, by their inputs, key and fallback. -/
def trStep (st : Translations) (c : LanguageInputs × Option String × Option String) :
    Translations :=
  (tr api readFileToString c.1 c.2.1 c.2.2 st).2

/-- What is loaded is the texts of its language. -/
def Translations.Right (st : Translations) : Prop :=
  st.loaded = true → st.texts = languageTexts api readFileToString st.lang

end Load

section Load

variable {api : Api} {readFileToString : String → Option (List UInt8)} {i : LanguageInputs}
  {st : Translations}

/-- A language that is not loaded is loaded anew. -/
theorem ensureTranslationsLoaded_eq : ensureTranslationsLoaded api readFileToString i st =
    if !i.uiConfigInitialized then st
    else if st.loaded && st.lang = i.desiredLang then st
    else
      { loaded := true
        lang := i.desiredLang
        texts := languageTexts api readFileToString i.desiredLang } := by
  unfold ensureTranslationsLoaded languageTexts
  dsimp only
  cases languageTable api readFileToString i.desiredLang <;> rfl

theorem right_ensureTranslationsLoaded (h : st.Right api readFileToString) :
    (ensureTranslationsLoaded api readFileToString i st).Right api readFileToString := by
  rw [ensureTranslationsLoaded_eq]
  split_ifs
  · exact h
  · exact h
  · exact fun _ => rfl

theorem right_trStep (st : Translations) (c : LanguageInputs × Option String × Option String)
    (h : st.Right api readFileToString) :
    (trStep api readFileToString st c).Right api readFileToString := by
  obtain ⟨i, key, fallback⟩ := c
  cases key with
  | none => exact h
  | some key =>
    cases fallback with
    | none => exact h
    | some fallback => exact right_ensureTranslationsLoaded h

/-- With a configuration, what is loaded is the language asked for. -/
theorem ensureTranslationsLoaded_lang (api : Api) (readFileToString : String → Option (List UInt8))
    (st : Translations) (hi : i.uiConfigInitialized = true) :
    (ensureTranslationsLoaded api readFileToString i st).loaded = true ∧
      (ensureTranslationsLoaded api readFileToString i st).lang = i.desiredLang := by
  rw [ensureTranslationsLoaded_eq, hi, Bool.not_true, if_neg Bool.false_ne_true]
  split_ifs with hsame
  · simpa using hsame
  · exact ⟨rfl, rfl⟩

/-- After any calls, a key gives the text of the language asked for that has it as its dotted
path, and the fallback if there is none. -/
theorem tr_spec (hapi : StringsOnly api)
    (calls : List (LanguageInputs × Option String × Option String))
    (hi : i.uiConfigInitialized = true) {root : Table}
    (hroot : languageTable api readFileToString i.desiredLang = some root)
    (h : Keyed (.table root)) (key fallback : String) :
    let text := (tr api readFileToString i (some key) (some fallback)
      (run (trStep api readFileToString) {} calls)).1
    (∀ keys s, leafAt (.table root) keys = some s → ".".intercalate keys = key → text = s) ∧
      ((∀ keys, (leafAt (.table root) keys).isSome → ".".intercalate keys ≠ key) →
        text = fallback) := by
  have hright : (run (trStep api readFileToString) {} calls).Right api readFileToString :=
    run_invariant (I := fun st : Translations => st.Right api readFileToString) right_trStep
      (fun h => absurd h Bool.false_ne_true) calls
  generalize run (trStep api readFileToString) {} calls = st at hright
  obtain ⟨hloaded, hlang⟩ := ensureTranslationsLoaded_lang api readFileToString st hi
  have htexts := right_ensureTranslationsLoaded (i := i) hright hloaded
  rw [hlang, languageTexts, hroot] at htexts
  simp only [tr, hloaded, if_true, htexts]
  refine ⟨fun keys s hs hkey => ?_, fun hnone => ?_⟩
  · rw [(out_flattenTable hapi h).2 ⟨keys, hs, hkey⟩]
    rfl
  · refine Option.getD_eq_iff.2 (.inr ⟨Option.eq_none_iff_forall_ne_some.2 fun s hs => ?_, rfl⟩)
    obtain ⟨keys, hs, hkey⟩ := (out_flattenTable hapi h).1 hs
    exact hnone keys (by rw [hs]; rfl) hkey

end Load

end D3Hack
