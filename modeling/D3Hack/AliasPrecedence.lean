import D3Hack.ConfigRange
import D3Hack.Lookup

/-!
# Which alias a setting is taken from

A setting is read under its aliases in the order of its keys, but each kind of value in a pass of
its own: a numeric entry looks for a number first and for a string after that, the season map
mode for a string first and for a boolean after that. So the alias that comes first need not be
the one that is taken: a string loses to a number behind it, and a pass that stops at a value of
no use (a `nan`, a string no parser knows) does not look further.

`aliasPrecedence_iff`: for each numeric entry, and for the season map mode, the setting is taken
from the first usable alias if and only if no pass stops at another one (`Lookup.PassesAgree`).
-/

namespace D3Hack

open Toml Lookup

variable (api : Api) (table : Table)

/-! ## What an alias holds -/

/-- The number of an alias, as `ReadNumber` reads it. -/
def aliasNumber (key : String) : Option Ieee :=
  (table.get key).bind fun node =>
    (api.valueDouble node).or ((api.valueInt node).map fun i => .fin i)

/-- The string of an alias. -/
def aliasString (key : String) : Option String := (table.get key).bind api.valueString

/-- The boolean of an alias. -/
def aliasBool (key : String) : Option Bool := (table.get key).bind api.valueBool

/-- The table that holds that alias alone. -/
def aliasAlone (key : String) : Table :=
  match table.get key with
  | some node => [(key, node)]
  | none => []

theorem get_aliasAlone (key k : String) :
    (aliasAlone table key).get k = if k = key then table.get key else none := by
  unfold aliasAlone
  rcases h : table.get key with _ | node
  · simp
  · rw [Table.get_cons, Table.get_nil]

/-- A search among the aliases of a table with one of them ends there. -/
theorem findSome?_aliasAlone {T : Type} (read : Node → Option T) {keys : List String}
    {key : String} (hkey : key ∈ keys) :
    (keys.findSome? fun k => ((aliasAlone table key).get k).bind read) =
      (table.get key).bind read := by
  rw [findSome?_of_unique hkey fun k _ hne => by rw [get_aliasAlone, if_neg hne]; rfl,
    get_aliasAlone, if_pos rfl]

/-! ## Numeric entries -/

/-- The entry is a `U32` or a `Float` one. -/
def Entry.IsNumeric (e : Entry) : Prop :=
  match e.accessor with
  | .u32 .. => True
  | .float .. => True
  | _ => False

/-- The setting of a numeric entry. -/
def Entry.number (e : Entry) (c : PatchConfig) : Ieee :=
  match e.accessor with
  | .u32 _ _ get _ _ => .fin (get c)
  | .float _ _ get _ _ => get c
  | _ => .nan

/-- What a number makes of the setting, if it is one. -/
def Entry.ofNumber (e : Entry) (v : Ieee) : Option Ieee :=
  match e.accessor with
  | .u32 minU maxU get set _ =>
    if v = .nan then none
    else some (.fin (get (set {} ((v.clamp (.fin minU) (.fin maxU)).toNat 32))))
  | .float minF maxF get set _ =>
    if v = .nan then none else some (get (set {} (v.clamp (.fin minF) (.fin maxF))))
  | _ => none

/-- What a string makes of the setting, if the entry has a parser and it knows the string: what
it does not know it gives its fallback for. -/
def Entry.ofString (e : Entry) (s : String) : Option Ieee :=
  match e.accessor with
  | .u32 _ _ get set (some parse) =>
    if parse s 0 = parse s 1 then some (.fin (get (set {} (parse s 0)))) else none
  | _ => none

/-- Reading the table sets the field to `v`, whatever it was. -/
def Entry.Sets (e : Entry) (table : Table) (v : Ieee) : Prop :=
  ∀ c, e.number (applyEntry api table c e) = v

/-- The setting is taken from the first usable alias: the first whose value sets it when the
table holds that alias alone. -/
def EntryPrecedence (e : Entry) : Prop :=
  TakesFirst (fun key => e.Sets api (aliasAlone table key)) (e.Sets api table) e.keys

/-- The pass over the numbers and the one over the strings stop at no alias but that. -/
def EntryPassesAgree (e : Entry) : Prop :=
  PassesAgree (aliasNumber api table) (aliasString api table) e.ofNumber e.ofString e.keys

/-! ## The season map mode -/

/-- The aliases of `SeasonMapMode`. -/
def kKeysSeasonMapMode : List String :=
  ["SeasonMapMode", "SeasonEventMapMode", "SeasonEventMap", "SeasonMap"]

/-- The mode a string names, if `ParseSeasonEventMapMode` knows it. -/
def modeOfString (s : String) : Option SeasonEventMapMode :=
  if parseSeasonEventMapMode s .mapOnly = parseSeasonEventMapMode s .disabled then
    some (parseSeasonEventMapMode s .mapOnly)
  else none

/-- The mode that a boolean stands for. -/
def modeOfBool (b : Bool) : Option SeasonEventMapMode := some (if b then .mapOnly else .disabled)

/-- Reading the table sets the mode, whatever it was. -/
def ModeSets (table : Table) (mode : SeasonEventMapMode) : Prop :=
  ∀ s, (readEvents api table s).seasonMapMode = mode

/-- The mode is taken from the first usable alias. -/
def ModePrecedence : Prop :=
  TakesFirst (fun key => ModeSets api (aliasAlone table key)) (ModeSets api table)
    kKeysSeasonMapMode

/-- The pass over the strings and the one over the booleans stop at no alias but that. -/
def ModePassesAgree : Prop :=
  PassesAgree (aliasString api table) (aliasBool api table) modeOfString modeOfBool
    kKeysSeasonMapMode

/-! ## What a numeric entry reads -/

/-- The accessors of a numeric entry store what they are given, its bounds are in order, and its
parser keeps the fallback for a string that it does not know. -/
def Entry.NumericLaws (e : Entry) : Prop :=
  match e.accessor with
  | .u32 minU maxU get set parseStr =>
    minU < maxU ∧ maxU < 2 ^ 32 ∧ (∀ c v, get (set c v) = get (set {} v)) ∧
      ∀ parse, parseStr = some parse → ∀ s, (∀ n, parse s n = parse s 0) ∨ ∀ n, parse s n = n
  | .float minF maxF get set parseStr =>
    minF < maxF ∧ (∀ c q, get (set c (.fin q)) = get (set {} (.fin q))) ∧ parseStr = none
  | _ => True

/-- Storing the setting of `c` in it changes nothing. -/
def Entry.Kept (e : Entry) (c : PatchConfig) : Prop :=
  match e.accessor with
  | .u32 _ _ get set _ => get (set c (get c)) = get c
  | _ => True

/-- A choice between two answers to a fallback answers it in one of their ways: with one value,
or with the fallback. -/
theorem answers_ite {T : Type} {a : T} {P : Prop} [Decidable P] {f g : T → T}
    (hf : (∀ x, f x = f a) ∨ ∀ x, f x = x) (hg : (∀ x, g x = g a) ∨ ∀ x, g x = x) :
    (∀ x, (if P then f x else g x) = if P then f a else g a) ∨
      ∀ x, (if P then f x else g x) = x := by
  by_cases h : P
  · simp only [if_pos h]
    exact hf
  · simp only [if_neg h]
    exact hg

/-- A string that is known gives its value, and any other the fallback. -/
theorem parseResolutionHackOutputTarget_cases (s : String) :
    (∀ n, parseResolutionHackOutputTarget s n = parseResolutionHackOutputTarget s 0) ∨
      ∀ n, parseResolutionHackOutputTarget s n = n := by
  unfold parseResolutionHackOutputTarget
  generalize normalizeKey s = key
  dsimp only
  refine answers_ite (.inr fun _ => rfl) ?_
  iterate 6
    refine answers_ite (.inl fun _ => rfl) ?_
  rcases fromCharsU32 key with _ | value
  · exact .inr fun _ => rfl
  · exact answers_ite (.inl fun _ => rfl) (.inr fun _ => rfl)

/-- The numeric entries are among those of `resolution_hack`. -/
theorem mem_resolutionHackEntries {devMem : Option ℕ} {e : Entry} (he : e ∈ kEntries devMem)
    (hnum : e.IsNumeric) : e ∈ resolutionHackEntries devMem := by
  rcases List.mem_append.1 he with he | he
  · have hother : ∀ e ∈ overlaysEntries ++ guiEntries ++ debugEntries, ¬e.IsNumeric := by
      simp only [overlaysEntries, guiEntries, debugEntries, List.cons_append, List.nil_append,
        List.forall_mem_cons, List.not_mem_nil, IsEmpty.forall_iff, implies_true, and_true]
      repeat' apply And.intro
      all_goals exact id
    exact absurd hnum (hother e he)
  · exact he

theorem numericLaws_kEntries {devMem : Option ℕ} {e : Entry} (he : e ∈ kEntries devMem)
    (hnum : e.IsNumeric) : e.NumericLaws := by
  have hmem := mem_resolutionHackEntries he hnum
  simp only [resolutionHackEntries, List.mem_cons, List.not_mem_nil, or_false] at hmem
  rcases hmem with rfl | rfl | rfl | rfl | rfl | rfl | rfl | rfl
  · trivial
  · refine ⟨by decide, by decide, fun _ _ => rfl, ?_⟩
    rintro parse h
    obtain rfl := Option.some.inj h
    exact parseResolutionHackOutputTarget_cases
  · exact ⟨by norm_num [ResolutionHackConfig.kHandheldScaleMax], fun _ _ => rfl, rfl⟩
  · exact ⟨by norm_num, fun _ _ => rfl, rfl⟩
  · exact ⟨by norm_num, fun _ _ => rfl, rfl⟩
  · exact ⟨by decide, by decide, fun _ _ => rfl, fun parse h => by cases h⟩
  · trivial
  · trivial

/-- No numeric setting is the same in every configuration. -/
theorem exists_kept_kEntries {devMem : Option ℕ} {e : Entry} (he : e ∈ kEntries devMem)
    (hnum : e.IsNumeric) : ∃ c₁ c₂, e.number c₁ ≠ e.number c₂ ∧ e.Kept c₁ ∧ e.Kept c₂ := by
  have hmax : 1440 ≤ maxResolutionHackOutputTarget devMem := by
    unfold maxResolutionHackOutputTarget
    split
    · split_ifs <;> omega
    · exact le_rfl
  have hmem := mem_resolutionHackEntries he hnum
  simp only [resolutionHackEntries, List.mem_cons, List.not_mem_nil, or_false] at hmem
  rcases hmem with rfl | rfl | rfl | rfl | rfl | rfl | rfl | rfl
  · exact absurd hnum id
  · exact ⟨{ resolutionHack.targetResolution := 720 },
      { resolutionHack.targetResolution := 900 }, by simp [Entry.number],
      min_eq_left (by omega : 720 ≤ maxResolutionHackOutputTarget devMem),
      min_eq_left (by omega : 900 ≤ maxResolutionHackOutputTarget devMem)⟩
  · exact ⟨{ resolutionHack.outputHandheldScale := .fin 1 },
      { resolutionHack.outputHandheldScale := .fin 2 }, by decide, trivial, trivial⟩
  · exact ⟨{ resolutionHack.minResScale := .fin 1 }, { resolutionHack.minResScale := .fin 2 },
      by decide, trivial, trivial⟩
  · exact ⟨{ resolutionHack.maxResScale := .fin 1 }, { resolutionHack.maxResScale := .fin 2 },
      by decide, trivial, trivial⟩
  · exact ⟨{ resolutionHack.clampTextureResolution := 0 },
      { resolutionHack.clampTextureResolution := 100 }, by decide, by rfl, by rfl⟩
  · exact absurd hnum id
  · exact absurd hnum id

/-- Bounds in order leave out nothing but `nan`. -/
theorem clampNumber_eq {lo hi : ℚ} (h : lo < hi) (v : Ieee) :
    clampNumber v (.fin lo) (.fin hi) = v.clamp (.fin lo) (.fin hi) := by
  rw [clampNumber, if_pos (by simpa using h)]

theorem clampedU32_iff {minU maxU : ℕ} (hlt : minU < maxU) (hmax : maxU < 2 ^ 32) (v : Ieee) :
    (Ieee.le (.fin 0) (v.clamp (.fin minU) (.fin maxU)) &&
      (v.clamp (.fin minU) (.fin maxU)).isFinite &&
        (v.clamp (.fin minU) (.fin maxU)).le (.fin (2 ^ 32 - 1))) = true ↔ v ≠ .nan := by
  have hle : (minU : ℚ) ≤ maxU := by exact_mod_cast hlt.le
  rcases Ieee.clamp_cases hle v with ⟨rfl, hc⟩ | ⟨hv, q, hc, h₁, h₂⟩
  · simp [hc]
  · have h₃ : (0 : ℚ) ≤ q := (Nat.cast_nonneg minU).trans h₁
    have h₄ : q ≤ 2 ^ 32 - 1 := by
      have hcast : (maxU : ℚ) ≤ 4294967295 := by exact_mod_cast (by omega : maxU ≤ 4294967295)
      norm_num
      linarith
    simp only [hc, Ieee.le_fin, Ieee.isFinite_fin, decide_eq_true h₃, decide_eq_true h₄,
      Bool.and_self, true_iff]
    exact hv

theorem clampedFloat_iff {minF maxF : ℚ} (hlt : minF < maxF) (v : Ieee) :
    (v.clamp (.fin minF) (.fin maxF)).isFinite = true ↔ v ≠ .nan := by
  rcases Ieee.clamp_cases hlt.le v with ⟨rfl, hc⟩ | ⟨hv, q, hc, -, -⟩
  · simp [hc]
  · simpa [hc] using hv

/-- A number is stored, unless it is none. -/
theorem applyEntry_of_number {e : Entry} (hlaws : e.NumericLaws) (hnum : e.IsNumeric) {v : Ieee}
    (h : readNumber api table e.keys = some v) (c : PatchConfig) :
    match e.ofNumber v with
    | some x => e.number (applyEntry api table c e) = x
    | none => applyEntry api table c e = c := by
  unfold Entry.NumericLaws at hlaws
  unfold Entry.IsNumeric at hnum
  unfold Entry.ofNumber Entry.number applyEntry
  cases ha : e.accessor with
  | bool get set => simp only [ha] at hnum
  | string omitIfEmpty get set => simp only [ha] at hnum
  | u32 minU maxU get set parseStr =>
    simp only [ha, h] at hlaws ⊢
    obtain ⟨hlt, hmax, hset, -⟩ := hlaws
    rw [clampNumber_eq (by exact_mod_cast hlt)]
    have hclamped := clampedU32_iff hlt hmax v
    by_cases hv : v = .nan
    · rw [if_pos hv, if_neg (mt hclamped.1 (not_not.2 hv))]
    · rw [if_neg hv, if_pos (hclamped.2 hv)]
      dsimp only
      rw [hset]
  | float minF maxF get set parseStr =>
    simp only [ha, h] at hlaws ⊢
    obtain ⟨hlt, hset, -⟩ := hlaws
    rw [clampNumber_eq hlt]
    have hclamped := clampedFloat_iff hlt v
    by_cases hv : v = .nan
    · rw [if_pos hv, if_neg (mt hclamped.1 (not_not.2 hv))]
    · obtain ⟨q, hq⟩ := Ieee.isFinite_iff.1 (hclamped.2 hv)
      rw [if_neg hv, if_pos (hclamped.2 hv), hq]
      exact hset c q

/-- Without a number, a string is stored if the parser knows it, and else changes nothing. -/
theorem applyEntry_of_string {e : Entry} (hlaws : e.NumericLaws) (hnum : e.IsNumeric) {s : String}
    (h : readNumber api table e.keys = none)
    (hs : readValue api.valueString table e.keys = some s) (c : PatchConfig) :
    match e.ofString s with
    | some x => e.number (applyEntry api table c e) = x
    | none => e.Kept c → e.number (applyEntry api table c e) = e.number c := by
  unfold Entry.NumericLaws at hlaws
  unfold Entry.IsNumeric at hnum
  unfold Entry.ofString Entry.Kept Entry.number applyEntry
  cases ha : e.accessor with
  | bool get set => simp only [ha] at hnum
  | string omitIfEmpty get set => simp only [ha] at hnum
  | u32 minU maxU get set parseStr =>
    simp only [ha, h, hs] at hlaws ⊢
    obtain ⟨-, -, hset, hparse⟩ := hlaws
    rcases parseStr with _ | parse
    · exact fun _ => rfl
    · rcases hparse parse rfl s with hknown | hunknown
      · simp only [hknown]
        exact congrArg _ (congrArg _ (hset c _))
      · simp only [hunknown]
        exact fun hkept => congrArg _ (congrArg _ hkept)
  | float minF maxF get set parseStr =>
    simp only [ha, h, hs] at hlaws ⊢
    obtain ⟨-, -, rfl⟩ := hlaws
    exact fun _ => rfl

/-- Without either, nothing changes. -/
theorem applyEntry_of_none {e : Entry} (hnum : e.IsNumeric)
    (h : readNumber api table e.keys = none)
    (hs : readValue api.valueString table e.keys = none) (c : PatchConfig) :
    applyEntry api table c e = c := by
  unfold Entry.IsNumeric at hnum
  unfold applyEntry
  cases ha : e.accessor with
  | bool get set => simp only [ha] at hnum
  | string omitIfEmpty get set => simp only [ha] at hnum
  | u32 minU maxU get set parseStr =>
    simp only [h, hs]
  | float minF maxF get set parseStr =>
    simp only [h, hs]

/-- The value that the two passes find for an entry. -/
def Entry.found (e : Entry) : Option Ieee :=
  twoPass (aliasNumber api table) (aliasString api table) e.ofNumber e.ofString e.keys

/-- A pass that comes to strings finds what the string makes of the setting. -/
theorem found_of_string {e : Entry} (h : readNumber api table e.keys = none) :
    e.found api table = (readValue api.valueString table e.keys).bind e.ofString :=
  twoPass_of_none h

/-- What the two passes find is stored, and where they find nothing the setting is kept. -/
theorem number_applyEntry {e : Entry} (hlaws : e.NumericLaws) (hnum : e.IsNumeric)
    (c : PatchConfig) :
    match e.found api table with
    | some v => e.number (applyEntry api table c e) = v
    | none => e.Kept c → e.number (applyEntry api table c e) = e.number c := by
  rcases hn : readNumber api table e.keys with _ | p
  · rw [found_of_string api table hn]
    rcases hs : readValue api.valueString table e.keys with _ | s
    · exact fun _ => congrArg _ (applyEntry_of_none api table hnum hn hs c)
    · exact applyEntry_of_string api table hlaws hnum hn hs c
  · have hfound : e.found api table = e.ofNumber p := twoPass_of_primary hn
    have hread := applyEntry_of_number api table hlaws hnum hn c
    rw [hfound]
    rcases hvalue : e.ofNumber p with _ | x <;> rw [hvalue] at hread
    · exact fun _ => congrArg _ hread
    · exact hread

/-- What the two passes find is what the entry sets: where they find nothing, the setting is the
one it was. -/
theorem sets_iff {devMem : Option ℕ} {e : Entry} (he : e ∈ kEntries devMem) (hnum : e.IsNumeric)
    (v : Ieee) : e.Sets api table v ↔ e.found api table = some v := by
  have hread := number_applyEntry api table (numericLaws_kEntries he hnum) hnum
  rcases hfound : e.found api table with _ | w <;> rw [hfound] at hread
  · obtain ⟨c₁, c₂, hne, hc₁, hc₂⟩ := exists_kept_kEntries he hnum
    refine iff_of_false (fun h => hne ?_) (by simp)
    calc e.number c₁ = e.number (applyEntry api table c₁ e) := (hread c₁ hc₁).symm
      _ = e.number (applyEntry api table c₂ e) := (h c₁).trans (h c₂).symm
      _ = e.number c₂ := hread c₂ hc₂
  · refine ⟨fun h => ?_, fun h c => ?_⟩
    · rw [← hread {}, h {}]
    · rw [hread c]
      exact Option.some.inj h

/-- The table with one alias sets what the passes find for it. -/
theorem sets_aliasAlone_iff {devMem : Option ℕ} {e : Entry} (he : e ∈ kEntries devMem)
    (hnum : e.IsNumeric) {key : String} (hkey : key ∈ e.keys) (v : Ieee) :
    e.Sets api (aliasAlone table key) v ↔
      twoPass (aliasNumber api table) (aliasString api table) e.ofNumber e.ofString [key] =
        some v := by
  have hnumber : e.keys.findSome? (aliasNumber api (aliasAlone table key)) =
      [key].findSome? (aliasNumber api table) :=
    (findSome?_aliasAlone table _ hkey).trans (findSome?_single (aliasNumber api table) key).symm
  have hstring : e.keys.findSome? (aliasString api (aliasAlone table key)) =
      [key].findSome? (aliasString api table) :=
    (findSome?_aliasAlone table _ hkey).trans (findSome?_single (aliasString api table) key).symm
  rw [sets_iff api _ he hnum, Entry.found, twoPass_congr hnumber hstring]

/-- An entry is taken from its first usable alias exactly when its passes agree. -/
theorem entryPrecedence_iff {devMem : Option ℕ} {e : Entry} (he : e ∈ kEntries devMem)
    (hnum : e.IsNumeric) : EntryPrecedence api table e ↔ EntryPassesAgree api table e :=
  takesFirst_iff (fun _ hkey v => sets_aliasAlone_iff api table he hnum hkey v)
    fun v => sets_iff api table he hnum v

/-! ## What the season map mode reads -/

/-- A string that is known gives its mode, and any other the fallback. -/
theorem parseSeasonEventMapMode_cases (s : String) :
    (∀ mode, parseSeasonEventMapMode s mode = parseSeasonEventMapMode s .mapOnly) ∨
      ∀ mode, parseSeasonEventMapMode s mode = mode := by
  unfold parseSeasonEventMapMode
  dsimp only
  refine answers_ite (.inr fun _ => rfl) ?_
  iterate 3
    refine answers_ite (.inl fun _ => rfl) ?_
  exact .inr fun _ => rfl

/-- The mode that the two passes find. -/
def modeFound : Option SeasonEventMapMode :=
  twoPass (aliasString api table) (aliasBool api table) modeOfString modeOfBool
    kKeysSeasonMapMode

/-- What the two passes find is the mode, and where they find nothing it is the fallback. -/
theorem seasonMapMode_readEvents (s : EventsConfig) :
    (readEvents api table s).seasonMapMode = (modeFound api table).getD s.seasonMapMode := by
  change readSeasonEventMapMode api table kKeysSeasonMapMode s.seasonMapMode = _
  rw [readSeasonEventMapMode]
  rcases hs : readValue api.valueString table kKeysSeasonMapMode with _ | string
  · have hfound : modeFound api table =
        (readValue api.valueBool table kKeysSeasonMapMode).bind modeOfBool := twoPass_of_none hs
    rw [hfound]
    cases readValue api.valueBool table kKeysSeasonMapMode <;> rfl
  · have hfound : modeFound api table = modeOfString string := twoPass_of_primary hs
    rw [hfound, modeOfString]
    rcases parseSeasonEventMapMode_cases string with hknown | hunknown
    · rw [if_pos (hknown .disabled).symm]
      exact hknown _
    · simp [hunknown]

theorem modeSets_iff (mode : SeasonEventMapMode) :
    ModeSets api table mode ↔ modeFound api table = some mode := by
  simp only [ModeSets, seasonMapMode_readEvents]
  rcases modeFound api table with _ | found
  · refine iff_of_false (fun h => ?_) (by simp)
    have hmapOnly := h { seasonMapMode := .mapOnly }
    have hdisabled := h { seasonMapMode := .disabled }
    exact absurd (hmapOnly.trans hdisabled.symm) (by decide)
  · exact ⟨fun h => congrArg some (h {}), fun h _ => Option.some.inj h⟩

theorem modeSets_aliasAlone_iff {key : String} (hkey : key ∈ kKeysSeasonMapMode)
    (mode : SeasonEventMapMode) : ModeSets api (aliasAlone table key) mode ↔
      twoPass (aliasString api table) (aliasBool api table) modeOfString modeOfBool [key] =
        some mode := by
  have hstring : kKeysSeasonMapMode.findSome? (aliasString api (aliasAlone table key)) =
      [key].findSome? (aliasString api table) :=
    (findSome?_aliasAlone table _ hkey).trans (findSome?_single (aliasString api table) key).symm
  have hbool : kKeysSeasonMapMode.findSome? (aliasBool api (aliasAlone table key)) =
      [key].findSome? (aliasBool api table) :=
    (findSome?_aliasAlone table _ hkey).trans (findSome?_single (aliasBool api table) key).symm
  rw [modeSets_iff, modeFound, twoPass_congr hstring hbool]

/-- **Each numeric entry, and the season map mode, is taken from its first usable alias if and
only if no pass over its aliases stops at another one.** -/
theorem aliasPrecedence_iff (devMem : Option ℕ) :
    (∀ e ∈ kEntries devMem, e.IsNumeric →
      (EntryPrecedence api table e ↔ EntryPassesAgree api table e)) ∧
    (ModePrecedence api table ↔ ModePassesAgree api table) :=
  ⟨fun _ he hnum => entryPrecedence_iff api table he hnum,
    takesFirst_iff (fun _ hkey mode => modeSets_aliasAlone_iff api table hkey mode)
      fun mode => modeSets_iff api table mode⟩

/-- The canonical key holds a string, and an alias behind it a number. -/
theorem not_aliasPrecedence_outputTarget : ¬∀ e ∈ kEntries none, e.IsNumeric →
    EntryPrecedence Api.accessors
      [("OutputHeight", .integer 720), ("OutputTarget", .string "1080p")] e := by
  intro h
  have he : outputTargetEntry none ∈ kEntries none :=
    List.mem_append_right _ (List.mem_cons_of_mem _ List.mem_cons_self)
  have hkey : "OutputTarget" ∈ (outputTargetEntry none).keys := List.mem_cons_self
  have halone := (sets_aliasAlone_iff Api.accessors
    [("OutputHeight", .integer 720), ("OutputTarget", .string "1080p")] he trivial hkey
    (.fin 1080)).2 (by decide +kernel)
  have hsets := h _ he trivial [] _ _ _ rfl (fun k hk => by cases hk) halone
  exact absurd (hsets {}) (by decide +kernel)

end D3Hack
