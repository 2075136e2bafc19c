import D3Hack.ConfigRange
import D3Hack.Lookup

/-!
# Normalising a configuration

`normalizePatchConfig` writes a configuration to a TOML root and reads it back over the
defaults. `normalizePatchConfig_eq` gives its closed form: `normalForm` clamps every bounded
setting, brings the coupled ones in order and applies the season map, and changes nothing
else. So every key that is written is a key that is read, for each of the nine sections.

`normalForm` takes its values among the `Canonical` configurations, and changes only the
event flags and the load flags of those (`normalForm_of_canonical`); that it is idempotent
follows.
-/

namespace D3Hack

open Toml

/-! ## Tables of known entries -/

/-- The table holds the entries, the first of each key. -/
def Holds (t : Table) (entries : List (String × Node)) : Prop :=
  ∀ key, t.get key = entries.lookup key

theorem holds_ofInserts (entries : List (String × Node)) :
    Holds (Table.ofInserts entries) entries :=
  Table.get_ofInserts entries

section Holds

variable {api : Api} (laws : api.Laws) {t : Table} {entries : List (String × Node)}
  (h : Holds t entries)

include laws h

theorem readBool_holds {key : String} {keys : List String} {b fallback : Bool}
    (hl : entries.lookup key = some (.boolean b)) :
    readBool api t (key :: keys) fallback = b := by
  simp [readBool, readValue, h key, hl, laws.valueBool_boolean]

theorem readString_holds {key : String} {keys : List String} {s : String}
    (hl : entries.lookup key = some (.string s)) :
    readValue api.valueString t (key :: keys) = some s := by
  simp [readValue, h key, hl, laws.valueString_string]

theorem readNumber_holds_float {key : String} {keys : List String} {x : Ieee}
    (hl : entries.lookup key = some (.float x)) :
    readNumber api t (key :: keys) = some x := by
  simp [readNumber, h key, hl, laws.valueDouble_float]

theorem readNumber_holds_integer {key : String} {keys : List String} {i : ℤ}
    (hl : entries.lookup key = some (.integer i)) :
    readNumber api t (key :: keys) = some (.fin i) := by
  rcases laws.valueDouble_integer i with hd | hd <;>
    simp [readNumber, h key, hl, hd, laws.valueInt_integer]

theorem readU32_holds {key : String} {keys : List String} {n fallback lo hi : ℕ}
    (hle : lo ≤ hi) (hhi : hi < 2 ^ 32) (hl : entries.lookup key = some (.integer n)) :
    readU32 api t (key :: keys) fallback lo hi = max lo (min n hi) := by
  rw [readU32, readNumber_holds_integer laws h hl]
  dsimp only
  rw [Ieee.clamp_fin (by exact_mod_cast hle)]
  have hcast : (max (lo : ℚ) (min (((n : ℕ) : ℤ) : ℚ) hi)) = ((max lo (min n hi) : ℕ) : ℚ) := by
    push_cast
    rfl
  rw [hcast, Ieee.toNat_natCast (by omega)]

theorem readI32_holds {key : String} {keys : List String} {i fallback lo hi : ℤ}
    (hle : lo ≤ hi) (hlo : -2 ^ 31 ≤ lo) (hhi : hi < 2 ^ 31)
    (hl : entries.lookup key = some (.integer i)) :
    readI32 api t (key :: keys) fallback lo hi = max lo (min i hi) := by
  rw [readI32, readNumber_holds_integer laws h hl]
  dsimp only
  rw [Ieee.clamp_fin (by exact_mod_cast hle)]
  have hcast : (max (lo : ℚ) (min (i : ℚ) hi)) = ((max lo (min i hi) : ℤ) : ℚ) := by
    push_cast
    rfl
  rw [hcast, Ieee.toInt_intCast (w := 32) (by omega) (by omega)]

theorem readDouble_holds {key : String} {keys : List String} {x fallback : Ieee} {lo hi : ℚ}
    (hl : entries.lookup key = some (.float x)) :
    readDouble api t (key :: keys) fallback lo hi = x.clamp (.fin lo) (.fin hi) := by
  rw [readDouble, readNumber_holds_float laws h hl]

end Holds

/-! ## The normal form of each section -/

/-- A speed with one decimal, from 0.1 to 10. -/
def normalSpeed (v : Ieee) : Ieee := (round1Decimal v).clamp (.fin (1 / 10)) (.fin 10)

/-- The sections read by hand, with their bounds. -/
def normalSeasons (s : SeasonsConfig) : SeasonsConfig :=
  { s with currentSeason := max 1 (min s.currentSeason 200) }

/-- The range is clamped and put the right way round. -/
def normalChallengeRifts (s : ChallengeRiftsConfig) : ChallengeRiftsConfig :=
  { s with
    rangeStart := min (min s.rangeStart 999) (min s.rangeEnd 999)
    rangeEnd := max (min s.rangeStart 999) (min s.rangeEnd 999) }

/-- The speeds are clamped, and rounded to one decimal. -/
def normalRareCheats (s : RareCheatsConfig) : RareCheatsConfig :=
  { s with moveSpeed := normalSpeed s.moveSpeed, attackSpeed := normalSpeed s.attackSpeed }

/-- The number of the rank. -/
def normalAncientRank (s : LootModifiersConfig) : ℤ :=
  ancientRankToValue (ancientRankCanonical s.ancientRankValue s.ancientRank) 2

/-- The levels are clamped, and the rank and its number agree. -/
def normalLootModifiers (s : LootModifiersConfig) : LootModifiersConfig :=
  { s with
    forcedILevel := max 0 (min s.forcedILevel 70)
    tieredLootRunLevel := max 0 (min s.tieredLootRunLevel 150)
    ancientRank := ancientRankCanonical (normalAncientRank s) ""
    ancientRankValue := normalAncientRank s }

open ExtraConfig in
/-- The fields are clamped. -/
def normalExtra (s : ExtraConfig) : ExtraConfig where
  windowLeft := max kUnset (min s.windowLeft kMaxDimension)
  windowTop := max kUnset (min s.windowTop kMaxDimension)
  windowWidth := max kUnset (min s.windowWidth kMaxDimension)
  windowHeight := max kUnset (min s.windowHeight kMaxDimension)
  uiOptWidth := max kUnset (min s.uiOptWidth kMaxDimension)
  uiOptHeight := max kUnset (min s.uiOptHeight kMaxDimension)
  renderWidth := max kUnset (min s.renderWidth kMaxDimension)
  renderHeight := max kUnset (min s.renderHeight kMaxDimension)
  refreshRate := max kUnset (min s.refreshRate kMaxRefreshRate)
  bitDepth := max kUnset (min s.bitDepth kMaxBitDepth)
  msaaLevel := max kUnset (min s.msaaLevel kMaxMsaaLevel)

/-! ## Reading back what was written -/

/-- Each flag is written once, under its own key. -/
theorem lookup_eventsNodes (s : EventsConfig) (f : SeasonEventFlag) :
    (eventsNodes s).lookup f.name = some (.boolean (s.flags f)) := by
  cases f <;> rfl

theorem parseSeasonEventMapMode_toString (mode fallback : SeasonEventMapMode) :
    parseSeasonEventMapMode (seasonMapModeToString mode) fallback = mode := by
  cases mode <;> cases fallback <;> decide +kernel

/-- The canonical name of a known rank does not depend on the fallback. -/
theorem ancientRankCanonical_congr {value : ℤ} (h : value ∈ ({0, 1, 2} : Set ℤ))
    (a b : String) : ancientRankCanonical value a = ancientRankCanonical value b := by
  rcases h with rfl | rfl | rfl <;> rfl

theorem normalAncientRank_mem (s : LootModifiersConfig) :
    normalAncientRank s ∈ ({0, 1, 2} : Set ℤ) :=
  ancientRankToValue_mem _ (by simp)

section Read

variable {api : Api} (laws : api.Laws) {t : Table}

include laws

theorem readSeasons_holds {s : SeasonsConfig} (h : Holds t (seasonsNodes s))
    (fallback : SeasonsConfig) : readSeasons api t fallback = normalSeasons s := by
  unfold readSeasons normalSeasons
  congr 1
  case e_currentSeason => exact readU32_holds laws h (by omega) (by norm_num) rfl
  all_goals exact readBool_holds laws h rfl

theorem readChallengeRifts_holds {s : ChallengeRiftsConfig}
    (h : Holds t (challengeRiftsNodes s)) (fallback : ChallengeRiftsConfig) :
    readChallengeRifts api t fallback = normalChallengeRifts s := by
  unfold readChallengeRifts normalChallengeRifts
  rw [readU32_holds laws h (by omega) (by norm_num) (n := s.rangeStart) rfl,
    readU32_holds laws h (by omega) (by norm_num) (n := s.rangeEnd) rfl]
  dsimp only
  congr 1
  case e_active => exact readBool_holds laws h rfl
  case e_random => exact readBool_holds laws h rfl
  case e_rangeStart => split_ifs <;> omega
  case e_rangeEnd => split_ifs <;> omega

theorem readEvents_holds {s : EventsConfig} (h : Holds t (eventsNodes s))
    (fallback : EventsConfig) : readEvents api t fallback = s := by
  unfold readEvents
  congr 1
  case e_active => exact readBool_holds laws h rfl
  case e_seasonMapMode =>
    rw [readSeasonEventMapMode, readString_holds laws h rfl]
    exact parseSeasonEventMapMode_toString _ _
  case e_flags =>
    funext f
    unfold readSeasonEventFlagBool
    split_ifs
    · exact readBool_holds laws h (lookup_eventsNodes s f)
    · exact readBool_holds laws h (lookup_eventsNodes s f)

theorem readRareCheats_holds {s : RareCheatsConfig} (h : Holds t (rareCheatsNodes s))
    (fallback : RareCheatsConfig) : readRareCheats api t fallback = normalRareCheats s := by
  unfold readRareCheats normalRareCheats
  congr 1
  case e_moveSpeed => exact readDouble_holds laws h rfl
  case e_attackSpeed => exact readDouble_holds laws h rfl
  all_goals exact readBool_holds laws h rfl

theorem readExtra_holds {s : ExtraConfig} (h : Holds t (extraNodes s))
    (fallback : ExtraConfig) : readExtra api t fallback = normalExtra s := by
  unfold readExtra normalExtra
  congr 1
  all_goals exact readI32_holds laws h (by decide) (by decide) (by decide) rfl

theorem readLootModifiers_holds {s fallback : LootModifiersConfig}
    (h : Holds t (lootModifiersNodes s)) (hfb : fallback.ancientRankValue = 2) :
    readLootModifiers api t fallback = normalLootModifiers s := by
  have hrank : readString api t ["AncientRank"] fallback.ancientRank =
      ancientRankCanonical s.ancientRankValue s.ancientRank := by
    rw [readString, readString_holds laws h rfl, Option.getD_some]
  have hvalue : ancientRankToValue (ancientRankCanonical s.ancientRankValue s.ancientRank) 2 =
      normalAncientRank s := rfl
  unfold readLootModifiers normalLootModifiers
  rw [hrank, hfb]
  dsimp only
  rw [hvalue, ancientRankCanonical_congr (normalAncientRank_mem s) _ "",
    LootModifiersConfig.mk.injEq]
  exact ⟨readBool_holds laws h rfl, readBool_holds laws h rfl, readBool_holds laws h rfl,
    readBool_holds laws h rfl, readBool_holds laws h rfl, readBool_holds laws h rfl,
    readI32_holds laws h (by decide) (by decide) (by decide) rfl,
    readI32_holds laws h (by decide) (by decide) (by decide) rfl, rfl, rfl⟩

end Read

/-! ## Reading back what the schema wrote -/

/-- The items that the schema writes for a configuration. -/
def schemaItems (devMem : Option ℕ) (c : PatchConfig) : List (String × String × Option Node) :=
  (kEntries devMem).map fun e => (e.sec, e.key, entryNode c e)

/-- The section, key and aliases of each entry. -/
def schemaKeys : List (String × String × List String) :=
  (kEntries none).map fun e => (e.sec, e.key, e.keys)

theorem map_kEntries (devMem : Option ℕ) :
    (kEntries devMem).map (fun e => (e.sec, e.key, e.keys)) = schemaKeys := rfl

/-- No two entries share a section and a key. -/
theorem schemaKeys_nodup : (schemaKeys.map fun e => (e.1, e.2.1)).Nodup := by decide +kernel

/-- An entry is read under its own key, and under no other entry's key of its section. -/
theorem schemaKeys_aliases : ∀ e ∈ schemaKeys, e.2.1 ∈ e.2.2 ∧ "extra" ∉ e.2.2 ∧
    ∀ e' ∈ schemaKeys, e'.1 = e.1 → e'.2.1 ∈ e.2.2 → e'.2.1 = e.2.1 := by decide +kernel

theorem mem_schemaKeys {devMem : Option ℕ} {e : Entry} (he : e ∈ kEntries devMem) :
    (e.sec, e.key, e.keys) ∈ schemaKeys := by
  rw [← map_kEntries devMem]
  exact List.mem_map_of_mem he

/-- The entries of a section hold no key that no item of the section has. -/
theorem lookup_entriesFor_none {sec key : String} {items : List (String × String × Option Node)}
    (h : (sec, key) ∉ items.map fun i => (i.1, i.2.1)) :
    (entriesFor sec items).lookup key = none := by
  rw [List.lookup_eq_none_iff]
  rintro ⟨k, n⟩ hk
  obtain ⟨i, hi, hin⟩ := List.mem_filterMap.1 hk
  split_ifs at hin with hs
  obtain ⟨n', -, hn'⟩ := Option.map_eq_some_iff.1 hin
  obtain ⟨rfl, -⟩ := Prod.mk.inj hn'
  have hne : key ≠ i.2.1 := fun hkey => h (List.mem_map.2 ⟨i, hi, by rw [hs, hkey]⟩)
  exact bne_iff_ne.2 hne

/-- Where no two items share a section and a key, each item's entry is found. -/
theorem lookup_entriesFor {sec key : String} {o : Option Node} :
    ∀ {items : List (String × String × Option Node)},
      (items.map fun i => (i.1, i.2.1)).Nodup → (sec, key, o) ∈ items →
      (entriesFor sec items).lookup key = o
  | i :: items, hnd, hmem => by
    rw [List.map_cons, List.nodup_cons] at hnd
    rcases List.mem_cons.1 hmem with rfl | hmem
    · have hrest := lookup_entriesFor_none hnd.1
      cases o with
      | none => simpa [entriesFor] using hrest
      | some node => simp [entriesFor]
    · have hne : (i.1, i.2.1) ≠ (sec, key) := fun h =>
        hnd.1 (h ▸ List.mem_map.2 ⟨(sec, key, o), hmem, rfl⟩)
      have ih := lookup_entriesFor hnd.2 hmem
      rw [entriesFor, List.filterMap_cons]
      split
      · exact ih
      · rename_i e heq
        split_ifs at heq with hs
        obtain ⟨n, -, rfl⟩ := Option.map_eq_some_iff.1 heq
        have hk : (key == i.2.1) = false := beq_false_of_ne fun hk => hne (by rw [hs, hk])
        rw [List.lookup_cons, hk]
        exact ih

/-- The effect of reading back an entry written from `src`: the setter on the written value,
through the entry's bounds. -/
def Entry.readBack (src c : PatchConfig) (e : Entry) : PatchConfig :=
  match e.accessor with
  | .bool get set => set c (get src)
  | .u32 minU maxU get set _ =>
    let clamped := clampNumber (.fin (get src)) (.fin minU) (.fin maxU)
    if Ieee.le (.fin 0) clamped && clamped.isFinite && clamped.le (.fin (2 ^ 32 - 1)) then
      set c (clamped.toNat 32)
    else c
  | .float minF maxF get set _ =>
    let clamped := clampNumber (get src) (.fin minF) (.fin maxF)
    if clamped.isFinite then set c clamped else c
  | .string omitIfEmpty get set =>
    if omitIfEmpty && (get src).isEmpty then c else set c (get src)

/-- A table whose only alias of the entry is what the entry wrote is read back from it. -/
theorem applyEntry_eq_readBack {api : Api} (laws : api.Laws) {t : Table} {src : PatchConfig}
    {e : Entry} (hkey : e.key ∈ e.keys) (hget : t.get e.key = entryNode src e)
    (hother : ∀ k ∈ e.keys, k ≠ e.key → t.get k = none) (c : PatchConfig) :
    applyEntry api t c e = e.readBack src c := by
  have hvalue {α : Type} (value : Node → Option α) :
      readValue value t e.keys = (entryNode src e).bind value := by
    rw [readValue, Lookup.findSome?_of_unique hkey fun k hk hne => by
      rw [hother k hk hne]; rfl, hget]
  have hnumber : readNumber api t e.keys = (entryNode src e).bind fun node =>
      (api.valueDouble node).or ((api.valueInt node).map fun i => .fin i) := by
    rw [readNumber, Lookup.findSome?_of_unique hkey fun k hk hne => by
      rw [hother k hk hne]; rfl, hget]
  unfold applyEntry Entry.readBack
  unfold entryNode at hvalue hnumber
  cases ha : e.accessor with
  | bool get set =>
    simp only [ha] at hvalue ⊢
    rw [hvalue, Option.bind_some, laws.valueBool_boolean]
  | u32 minU maxU get set parseStr =>
    have hn : readNumber api t e.keys = some (.fin (get src)) := by
      rw [hnumber]
      rcases laws.valueDouble_integer (get src) with hd | hd <;>
        simp [ha, hd, laws.valueInt_integer]
    simp only [hn]
  | float minF maxF get set parseStr =>
    have hn : readNumber api t e.keys = some (get src) := by
      rw [hnumber]
      simp [ha, laws.valueDouble_float]
    simp only [hn]
  | string omitIfEmpty get set =>
    simp only [ha] at hvalue ⊢
    rw [hvalue]
    split_ifs
    · rfl
    · rw [Option.bind_some, laws.valueString_string]

/-! ## The tables of the sections -/

/-- Each section of a written root holds the entries written by hand, then the schema's. -/
theorem exists_subtable_build (devMem : Option ℕ) (c : PatchConfig) (sec : String)
    (hsec : ((sectionNodes c).lookup sec).isSome ∨ ∃ e ∈ kEntries devMem, e.sec = sec) :
    ∃ t, subtable (buildPatchConfigTable devMem c) sec = some t ∧ ∀ key, t.get key =
      ((((sectionNodes c).lookup sec).getD []).get key).or
        ((entriesFor sec (schemaItems devMem c)).lookup key) := by
  have hitems : (∃ i ∈ schemaItems devMem c, i.1 = sec) ↔ ∃ e ∈ kEntries devMem, e.sec = sec := by
    simp [schemaItems]
  have := exists_subtable_insertAll sec (schemaItems devMem c)
    (sections_ofInserts (sectionNodes c))
    (by rw [subtable_ofInserts, hitems]; exact hsec)
  rwa [subtable_ofInserts] at this

/-- A section that the schema does not write holds the entries written by hand. -/
theorem exists_holds_build (devMem : Option ℕ) (c : PatchConfig) {sec : String}
    {entries : List (String × Node)}
    (hsec : (sectionNodes c).lookup sec = some (Table.ofInserts entries))
    (hschema : entriesFor sec (schemaItems devMem c) = []) :
    ∃ t, subtable (buildPatchConfigTable devMem c) sec = some t ∧ Holds t entries := by
  obtain ⟨t, ht, hget⟩ := exists_subtable_build devMem c sec (Or.inl (by simp [hsec]))
  refine ⟨t, ht, fun key => ?_⟩
  rw [hget, hsec, hschema, Option.getD_some, holds_ofInserts, List.lookup_nil, Option.or_none]

/-- The sections of the schema hold no entry written by hand but `extra`. -/
theorem get_sectionNodes {c : PatchConfig} {devMem : Option ℕ} {e : Entry}
    (he : e ∈ kEntries devMem) {k : String} (hk : k ∈ e.keys) :
    (((sectionNodes c).lookup e.sec).getD []).get k = none := by
  have hsec : ∀ e ∈ schemaKeys, e.1 ∈ ["overlays", "gui", "debug", "resolution_hack"] := by
    decide +kernel
  have hextra : k ≠ "extra" := fun h =>
    (schemaKeys_aliases _ (mem_schemaKeys he)).2.1 (h ▸ hk)
  have hmem := hsec _ (mem_schemaKeys he)
  dsimp only at hmem
  generalize e.sec = sec at hmem
  simp only [List.mem_cons, List.not_mem_nil, or_false] at hmem
  rcases hmem with rfl | rfl | rfl | rfl
  · rfl
  · rfl
  · rfl
  · change (Table.ofInserts [("extra", _)]).get k = none
    rw [Table.get_ofInserts, List.lookup_cons, beq_false_of_ne hextra]
    rfl

/-- Reading a written root through the schema reads back each entry. -/
theorem applyEntryOf_build {api : Api} (laws : api.Laws) (devMem : Option ℕ)
    (src : PatchConfig) {e : Entry} (he : e ∈ kEntries devMem) (c : PatchConfig) :
    applyEntryOf api (buildPatchConfigTable devMem src) c e = e.readBack src c := by
  obtain ⟨t, ht, hget⟩ := exists_subtable_build devMem src e.sec (Or.inr ⟨e, he, rfl⟩)
  obtain ⟨hkey, -, halias⟩ := schemaKeys_aliases _ (mem_schemaKeys he)
  have hitems : (schemaItems devMem src).map (fun i => (i.1, i.2.1)) =
      schemaKeys.map fun e => (e.1, e.2.1) := rfl
  have hnd : ((schemaItems devMem src).map fun i => (i.1, i.2.1)).Nodup := by
    rw [hitems]
    exact schemaKeys_nodup
  unfold applyEntryOf
  rw [ht]
  refine applyEntry_eq_readBack laws hkey ?_ (fun k hk hne => ?_) c
  · rw [hget, get_sectionNodes he hkey, Option.none_or]
    exact lookup_entriesFor hnd (List.mem_map_of_mem he)
  · rw [hget, get_sectionNodes he hk, Option.none_or]
    refine lookup_entriesFor_none ?_
    rw [hitems, List.mem_map]
    rintro ⟨e', he', heq⟩
    obtain ⟨hs, hk'⟩ := Prod.mk.inj heq
    exact hne (hk' ▸ halias e' he' hs (hk' ▸ hk))

theorem applyTomlTable_build {api : Api} (laws : api.Laws) (devMem : Option ℕ)
    (src c : PatchConfig) :
    applyTomlTable api devMem c (buildPatchConfigTable devMem src) =
      (kEntries devMem).foldl (fun c e => e.readBack src c) c := by
  unfold applyTomlTable
  refine List.foldl_ext _ _ c fun c e he => ?_
  exact applyEntryOf_build laws devMem src he c

/-! ## The closed form -/

/-- A handheld scale as the loader stores it. -/
def normalHandheldScale (v : Ieee) : Ieee :=
  let clamped := v.clamp (.fin 0) (.fin 100)
  ResolutionHackConfig.normalizeHandheldScale
    (if Ieee.lt (.fin 0) clamped && clamped.le (.fin 1) then clamped.scale 100 else clamped)

/-- The scales and the sizes are clamped. -/
def normalResolutionHack (devMem : Option ℕ) (r : ResolutionHackConfig) :
    ResolutionHackConfig :=
  let lo := r.minResScale.clamp (.fin 10) (.fin 100)
  let hi := r.maxResScale.clamp (.fin 10) (.fin 100)
  { r with
    targetResolution :=
      min (max 720 (min r.targetResolution 2160)) (maxResolutionHackOutputTarget devMem)
    minResScale := if hi.lt lo then hi else lo
    maxResScale := hi
    outputHandheldScale := normalHandheldScale r.outputHandheldScale
    clampTextureResolution :=
      if r.clampTextureResolution = 0 then 0 else max 100 (min r.clampTextureResolution 9999)
    extra := normalExtra r.extra }

/-- The configuration with every bounded setting in its bounds and the season map applied. -/
def normalForm (devMem : Option ℕ) (c : PatchConfig) : PatchConfig :=
  let seasons := normalSeasons c.seasons
  { c with
    initialized := true
    defaultsOnly := false
    seasons := seasons
    challengeRifts := normalChallengeRifts c.challengeRifts
    events.flags :=
      if seasons.active then
        effectiveFlags seasons.currentSeason c.events.seasonMapMode c.events.flags
      else c.events.flags
    rareCheats := normalRareCheats c.rareCheats
    resolutionHack := normalResolutionHack devMem c.resolutionHack
    lootModifiers := normalLootModifiers c.lootModifiers }

/-- The floating-point settings are finite. -/
structure FiniteNumbers (c : PatchConfig) : Prop where
  moveSpeed : c.rareCheats.moveSpeed.isFinite
  attackSpeed : c.rareCheats.attackSpeed.isFinite
  minResScale : c.resolutionHack.minResScale.isFinite
  maxResScale : c.resolutionHack.maxResScale.isFinite
  outputHandheldScale : c.resolutionHack.outputHandheldScale.isFinite

theorem clampNumber_natCast {lo hi n : ℕ} (h : lo < hi) :
    clampNumber (.fin n) (.fin lo) (.fin hi) = .fin ((max lo (min n hi) : ℕ) : ℚ) := by
  have hlt : Ieee.lt (.fin lo) (.fin hi) = true := by
    rw [Ieee.lt_fin, decide_eq_true_eq]
    exact_mod_cast h
  rw [clampNumber, if_pos hlt, Ieee.clamp_fin (by exact_mod_cast h.le)]
  push_cast
  rfl

theorem readBack_u32 {src c : PatchConfig} {sec key : String} {keys : List String}
    {restart : RestartPolicy} {lo hi : ℕ} {get : PatchConfig → ℕ}
    {set : PatchConfig → ℕ → PatchConfig} {parse : Option (String → ℕ → ℕ)} (h : lo < hi)
    (hhi : hi < 2 ^ 32) :
    Entry.readBack src c ⟨sec, key, keys, restart, .u32 lo hi get set parse⟩ =
      set c (max lo (min (get src) hi)) := by
  have hm : ((max lo (min (get src) hi) : ℕ) : ℚ) ≤ 2 ^ 32 - 1 := by
    have hn : max lo (min (get src) hi) ≤ 4294967295 := by omega
    have hq : ((max lo (min (get src) hi) : ℕ) : ℚ) ≤ (4294967295 : ℕ) := by exact_mod_cast hn
    exact hq.trans (by norm_num)
  simp only [Entry.readBack, clampNumber_natCast h]
  rw [if_pos (by simp only [Ieee.le_fin, Ieee.isFinite_fin, decide_eq_true hm, Bool.and_true,
    decide_eq_true (Nat.cast_nonneg (max lo (min (get src) hi)))]),
    Ieee.toNat_natCast (by omega)]

theorem readBack_float {src c : PatchConfig} {sec key : String} {keys : List String}
    {restart : RestartPolicy} {lo hi : ℚ} {get : PatchConfig → Ieee}
    {set : PatchConfig → Ieee → PatchConfig} {parse : Option (String → Ieee → Ieee)} (h : lo < hi)
    (hfin : (get src).isFinite) :
    Entry.readBack src c ⟨sec, key, keys, restart, .float lo hi get set parse⟩ =
      set c ((get src).clamp (.fin lo) (.fin hi)) := by
  have hlt : Ieee.lt (.fin lo) (.fin hi) = true := by simpa using h
  have hclamp : ((get src).clamp (.fin lo) (.fin hi)).isFinite = true := by
    rcases Ieee.clamp_cases h.le (get src) with ⟨hnan, -⟩ | ⟨-, q, hq, -⟩
    · rw [hnan] at hfin
      cases hfin
    · rw [hq]
      rfl
  simp only [Entry.readBack, clampNumber, if_pos hlt, if_pos hclamp]

theorem foldl_readBack_overlays (src c : PatchConfig) :
    overlaysEntries.foldl (fun c e => e.readBack src c) c =
      { c with overlays := src.overlays } := by
  simp only [overlaysEntries, List.foldl_cons, List.foldl_nil, Entry.readBack]

/-- An empty language is not written, and is then read as the one that was there. -/
theorem foldl_readBack_gui (src : PatchConfig) {c : PatchConfig}
    (hc : c.gui.languageOverride = "") :
    guiEntries.foldl (fun c e => e.readBack src c) c = { c with gui := src.gui } := by
  simp only [guiEntries, List.foldl_cons, List.foldl_nil, Entry.readBack, Bool.true_and]
  split_ifs with hl
  · rw [String.isEmpty_iff] at hl
    rw [hc, ← hl]
  · rfl

theorem foldl_readBack_debug (src c : PatchConfig) :
    debugEntries.foldl (fun c e => e.readBack src c) c = { c with debug := src.debug } := by
  simp only [debugEntries, List.foldl_cons, List.foldl_nil, Entry.readBack]

/-- The bounds of the texture clamp entry are those of its setter. -/
theorem setReshackClampTextureResolution_clamp (c : PatchConfig) (v : ℕ) :
    setReshackClampTextureResolution c (max 0 (min v 9999)) =
      setReshackClampTextureResolution c v := by
  have hv : max 0 (min v 9999) = 0 ↔ v = 0 := by omega
  have hv' : max 100 (min (max 0 (min v 9999)) 9999) = max 100 (min v 9999) := by omega
  unfold setReshackClampTextureResolution
  by_cases h : v = 0
  · rw [if_pos (hv.2 h), if_pos h]
  · rw [if_neg (mt hv.1 h), if_neg h]
    exact congrArg (fun n => { c with resolutionHack.clampTextureResolution := n }) hv'

/-- Over the default scales the two scale setters give the clamped pair in order. -/
theorem foldl_readBack_resolutionHack (devMem : Option ℕ) {src : PatchConfig}
    (hfin : FiniteNumbers src) {c : PatchConfig} (hc : c.resolutionHack = {}) :
    (resolutionHackEntries devMem).foldl (fun c e => e.readBack src c) c =
      { c with resolutionHack :=
          { normalResolutionHack devMem src.resolutionHack with extra := {} } } := by
  have hmin : Ieee.lt (.fin 100) (src.resolutionHack.minResScale.clamp (.fin 10) (.fin 100)) =
      false := by
    rcases Ieee.clamp_cases (by norm_num : (10 : ℚ) ≤ 100) src.resolutionHack.minResScale with
      ⟨-, hq⟩ | ⟨-, q, hq, -, h₂⟩
    · rw [hq, Ieee.lt_nan_right]
    · simpa [hq] using h₂
  simp only [resolutionHackEntries, List.foldl_cons, List.foldl_nil]
  rw [readBack_u32 (by decide) (by decide), readBack_float (by norm_num) hfin.maxResScale,
    readBack_float (by norm_num) hfin.minResScale,
    readBack_float (by norm_num [ResolutionHackConfig.kHandheldScaleMax])
      hfin.outputHandheldScale,
    readBack_u32 (by norm_num) (by norm_num), ResolutionHackConfig.kClampTextureResolutionMax,
    setReshackClampTextureResolution_clamp]
  simp only [Entry.readBack, setReshackOutputTarget, setReshackOutputHandheldScale,
    setReshackMinResScale, setReshackMaxResScale, setReshackClampTextureResolution, hc,
    ResolutionHackConfig.kHandheldScaleMax, ResolutionHackConfig.kClampTextureResolutionMax,
    ResolutionHackConfig.kClampTextureResolutionMin, normalResolutionHack, normalHandheldScale,
    Ieee.clamp_clamp (by norm_num : (10 : ℚ) ≤ 100), hmin, Bool.false_eq_true, if_false]
  rfl

/-- Reading the schema of a written root over the defaults. -/
theorem foldl_readBack (devMem : Option ℕ) {src : PatchConfig} (hfin : FiniteNumbers src) :
    (kEntries devMem).foldl (fun c e => e.readBack src c) {} =
      { overlays := src.overlays
        gui := src.gui
        debug := src.debug
        resolutionHack :=
          { normalResolutionHack devMem src.resolutionHack with extra := {} } } := by
  rw [kEntries, List.foldl_append, List.foldl_append, List.foldl_append,
    foldl_readBack_overlays, foldl_readBack_gui src rfl, foldl_readBack_debug,
    foldl_readBack_resolutionHack devMem hfin rfl]

/-- The hand-written sections of a written root, read over any defaults. -/
theorem readSections_build {api : Api} (laws : api.Laws) (devMem : Option ℕ)
    (src : PatchConfig) {c : PatchConfig} (hc : c.lootModifiers.ancientRankValue = 2) :
    readSections api (buildPatchConfigTable devMem src) c =
      { c with
        seasons := normalSeasons src.seasons
        challengeRifts := normalChallengeRifts src.challengeRifts
        events := src.events
        resolutionHack.extra := normalExtra src.resolutionHack.extra
        rareCheats := normalRareCheats src.rareCheats
        lootModifiers := normalLootModifiers src.lootModifiers } := by
  obtain ⟨t₁, ht₁, h₁⟩ := exists_holds_build devMem src
    (rfl : (sectionNodes src).lookup "seasons" = some (Table.ofInserts _)) rfl
  obtain ⟨t₂, ht₂, h₂⟩ := exists_holds_build devMem src
    (rfl : (sectionNodes src).lookup "challenge_rifts" = some (Table.ofInserts _)) rfl
  obtain ⟨t₃, ht₃, h₃⟩ := exists_holds_build devMem src
    (rfl : (sectionNodes src).lookup "events" = some (Table.ofInserts _)) rfl
  obtain ⟨t₄, ht₄, h₄⟩ := exists_holds_build devMem src
    (rfl : (sectionNodes src).lookup "rare_cheats" = some (Table.ofInserts _)) rfl
  obtain ⟨t₅, ht₅, h₅⟩ := exists_holds_build devMem src
    (rfl : (sectionNodes src).lookup "loot_modifiers" = some (Table.ofInserts _)) rfl
  obtain ⟨t₆, ht₆, h₆⟩ := exists_subtable_build devMem src "resolution_hack" (Or.inl rfl)
  have hextra : subtable t₆ "extra" =
      some (Table.ofInserts (extraNodes src.resolutionHack.extra)) := by
    rw [subtable, h₆]
    rfl
  simp only [readSections, readSection, readResolutionHack, ht₁, ht₂, ht₃, ht₄, ht₅, ht₆, hextra,
    readSeasons_holds laws h₁, readChallengeRifts_holds laws h₂, readEvents_holds laws h₃,
    readRareCheats_holds laws h₄, readLootModifiers_holds laws h₅ hc,
    readExtra_holds laws (holds_ofInserts _)]

/-- Writing a configuration and reading it back over the defaults gives its normal form. -/
theorem normalizePatchConfig_eq {api : Api} (laws : api.Laws) (devMem : Option ℕ)
    {c : PatchConfig} (hfin : FiniteNumbers c) :
    normalizePatchConfig api devMem c = normalForm devMem c := by
  unfold normalizePatchConfig applyTable normalForm
  rw [applyTomlTable_build laws, foldl_readBack devMem hfin, readSections_build laws devMem c rfl]
  dsimp only
  rw [applySeasonEventMapIfNeeded_eq]
  rfl

/-! ## Canonical configurations -/

/-- A configuration in the ranges of the loader, with speeds of one decimal and the ancient
rank under its canonical name. -/
structure Canonical (devMem : Option ℕ) (c : PatchConfig) : Prop where
  inRange : InRange devMem c
  moveSpeed : ∃ k : ℤ, c.rareCheats.moveSpeed = .fin (k / 10)
  attackSpeed : ∃ k : ℤ, c.rareCheats.attackSpeed = .fin (k / 10)
  ancientRank : c.lootModifiers.ancientRank =
    ancientRankCanonical c.lootModifiers.ancientRankValue ""

/-- A finite speed becomes one of one decimal in range. -/
theorem normalSpeed_fin (q : ℚ) : ∃ k : ℤ, normalSpeed (.fin q) = .fin (k / 10) ∧
    SpeedInRange (normalSpeed (.fin q)) := by
  have hle : (1 / 10 : ℚ) ≤ 10 := by norm_num
  have hk : normalSpeed (.fin q) = .fin ((max 1 (min (Ieee.roundQ (q * 10)) 100) : ℤ) / 10) := by
    simp only [normalSpeed, round1Decimal, Ieee.scale, Ieee.round, Ieee.clamp_fin hle]
    push_cast
    rw [max_div_div_right (by norm_num : (0 : ℚ) ≤ 10) 1 _ |>.symm,
      min_div_div_right (by norm_num : (0 : ℚ) ≤ 10) _ 100 |>.symm]
    norm_num [div_eq_mul_inv]
  refine ⟨_, hk, ?_⟩
  rcases Ieee.clamp_cases hle (round1Decimal (.fin q)) with ⟨h, -⟩ | ⟨-, p, hp, h₁, h₂⟩
  · cases h
  · exact ⟨p, hp, h₁, h₂⟩

/-- A speed of one decimal in range is kept. -/
theorem normalSpeed_of_canonical {v : Ieee} {k : ℤ} (hv : v = .fin (k / 10))
    (h : SpeedInRange v) : normalSpeed v = v := by
  obtain ⟨q, rfl, h₁, h₂⟩ := h
  obtain rfl : q = k / 10 := Ieee.fin.inj hv
  have hround : round1Decimal (.fin ((k : ℚ) / 10)) = .fin (k / 10) := by
    simp only [round1Decimal, Ieee.scale, Ieee.round]
    rw [div_mul_cancel₀ _ (by norm_num : (10 : ℚ) ≠ 0), Ieee.roundQ_intCast]
    norm_num [div_eq_mul_inv]
  rw [normalSpeed, hround, Ieee.clamp_of_mem h₁ h₂]

/-- A handheld scale in range is kept. -/
theorem normalHandheldScale_of_mem {v : Ieee} (h : HandheldInRange v) :
    normalHandheldScale v = v := by
  rcases h with rfl | ⟨k, rfl, h₁, h₂⟩
  · simp [normalHandheldScale, ResolutionHackConfig.normalizeHandheldScale,
      Ieee.clamp_of_mem le_rfl (by norm_num : (0 : ℚ) ≤ 100)]
  · have hq₁ : (40 : ℚ) ≤ k * 5 := by exact_mod_cast h₁
    have hq₂ : (k * 5 : ℚ) ≤ 100 := by exact_mod_cast h₂
    have hone : ¬(k * 5 : ℚ) ≤ 1 := by linarith
    have hzero : ¬(k * 5 : ℚ) ≤ 0 := by linarith
    have hfive : (k * 5 : ℚ) * (1 / 5) = k := by ring
    simp [normalHandheldScale, ResolutionHackConfig.normalizeHandheldScale,
      ResolutionHackConfig.kHandheldScaleMin, ResolutionHackConfig.kHandheldScaleMax,
      ResolutionHackConfig.kHandheldScaleStep,
      Ieee.clamp_of_mem (by linarith : (0 : ℚ) ≤ k * 5) hq₂, hone, hzero,
      Ieee.clamp_of_mem hq₁ hq₂, Ieee.scale, Ieee.round]

theorem handheldInRange_normalHandheldScale {v : Ieee} (h : v.isFinite) :
    HandheldInRange (normalHandheldScale v) := by
  obtain ⟨q, rfl⟩ := Ieee.isFinite_iff.1 h
  unfold normalHandheldScale
  rw [Ieee.clamp_fin (by norm_num : (0 : ℚ) ≤ 100)]
  dsimp only
  split_ifs
  · exact handheldInRange_normalize _
  · exact handheldInRange_normalize _

theorem finite_of_canonical {devMem : Option ℕ} {c : PatchConfig} (h : Canonical devMem c) :
    FiniteNumbers c where
  moveSpeed := by
    obtain ⟨k, hk⟩ := h.moveSpeed
    rw [hk]
    rfl
  attackSpeed := by
    obtain ⟨k, hk⟩ := h.attackSpeed
    rw [hk]
    rfl
  minResScale := by
    obtain ⟨h₁, h₂, h₃⟩ := h.inRange.scales
    obtain ⟨q, hq, -⟩ := Ieee.exists_fin_of_le h₁ (Ieee.le_trans h₂ h₃)
    rw [hq]
    rfl
  maxResScale := by
    obtain ⟨h₁, h₂, h₃⟩ := h.inRange.scales
    obtain ⟨q, hq, -⟩ := Ieee.exists_fin_of_le (Ieee.le_trans h₁ h₂) h₃
    rw [hq]
    rfl
  outputHandheldScale := by
    rcases h.inRange.outputHandheldScale with hq | ⟨k, hq, -⟩ <;>
    · rw [hq]
      rfl

/-- The scales of a normal form are in order. -/
theorem scalesInRange_normal (devMem : Option ℕ) {r : ResolutionHackConfig}
    (hmin : r.minResScale.isFinite) (hmax : r.maxResScale.isFinite) :
    ScalesInRange (normalResolutionHack devMem r) := by
  obtain ⟨p, hp⟩ := Ieee.isFinite_iff.1 hmin
  obtain ⟨q, hq⟩ := Ieee.isFinite_iff.1 hmax
  have hle : (10 : ℚ) ≤ 100 := by norm_num
  simp only [ScalesInRange, normalResolutionHack, hp, hq, Ieee.clamp_fin hle]
  set lo : ℚ := max 10 (min p 100)
  set hi : ℚ := max 10 (min q 100)
  have hlo : (10 : ℚ) ≤ lo := le_max_left _ _
  have hhi : (10 : ℚ) ≤ hi := le_max_left _ _
  have hhi' : hi ≤ 100 := max_le hle (min_le_right _ _)
  by_cases hlt : hi < lo
  · simp [hlt, hhi, hhi']
  · simp [hlt, hlo, hhi', not_lt.1 hlt]

/-- Scales in range are kept. -/
theorem normalScales_of_mem {r : ResolutionHackConfig} (h : ScalesInRange r) :
    r.maxResScale.clamp (.fin 10) (.fin 100) = r.maxResScale ∧
      r.minResScale.clamp (.fin 10) (.fin 100) = r.minResScale ∧
      r.maxResScale.lt r.minResScale = false := by
  obtain ⟨h₁, h₂, h₃⟩ := h
  obtain ⟨lo, hlo, lo₁, lo₂⟩ := Ieee.exists_fin_of_le h₁ (Ieee.le_trans h₂ h₃)
  obtain ⟨hi, hhi, hi₁, hi₂⟩ := Ieee.exists_fin_of_le (Ieee.le_trans h₁ h₂) h₃
  rw [hlo, hhi] at h₂ ⊢
  exact ⟨Ieee.clamp_of_mem hi₁ hi₂, Ieee.clamp_of_mem lo₁ lo₂, by simpa using h₂⟩

/-- The normal form of a finite configuration is canonical. -/
theorem canonical_normalForm (devMem : Option ℕ) {c : PatchConfig} (hfin : FiniteNumbers c) :
    Canonical devMem (normalForm devMem c) := by
  obtain ⟨p, hp⟩ := Ieee.isFinite_iff.1 hfin.moveSpeed
  obtain ⟨q, hq⟩ := Ieee.isFinite_iff.1 hfin.attackSpeed
  obtain ⟨k, hk, hmove⟩ := normalSpeed_fin p
  obtain ⟨l, hl, hattack⟩ := normalSpeed_fin q
  have hmax := le_maxResolutionHackOutputTarget devMem
  refine ⟨?_, ⟨k, ?_⟩, ⟨l, ?_⟩, ?_⟩
  · constructor
    · simp only [normalForm, normalResolutionHack]
      omega
    · exact handheldInRange_normalHandheldScale hfin.outputHandheldScale
    · exact scalesInRange_normal devMem hfin.minResScale hfin.maxResScale
    · simp only [normalForm, normalResolutionHack, ClampTextureInRange]
      split_ifs <;> omega
    · simp only [normalForm, normalSeasons]
      omega
    · simp only [normalForm, normalChallengeRifts]
      omega
    · constructor <;>
        simp only [normalForm, normalResolutionHack, normalExtra, ExtraConfig.kUnset,
          ExtraConfig.kMaxDimension, ExtraConfig.kMaxRefreshRate, ExtraConfig.kMaxBitDepth,
          ExtraConfig.kMaxMsaaLevel] <;> omega
    · simpa only [normalForm, normalRareCheats, hp] using hmove
    · simpa only [normalForm, normalRareCheats, hq] using hattack
    · simp only [normalForm, normalLootModifiers]
      omega
    · simp only [normalForm, normalLootModifiers]
      omega
    · exact normalAncientRank_mem c.lootModifiers
  · simpa only [normalForm, normalRareCheats, hp] using hk
  · simpa only [normalForm, normalRareCheats, hq] using hl
  · rfl

theorem normalSeasons_of_mem {s : SeasonsConfig}
    (h : 1 ≤ s.currentSeason ∧ s.currentSeason ≤ 200) : normalSeasons s = s := by
  have hs : max 1 (min s.currentSeason 200) = s.currentSeason := by omega
  rw [normalSeasons, hs]

theorem normalChallengeRifts_of_mem {s : ChallengeRiftsConfig}
    (h : s.rangeStart ≤ s.rangeEnd ∧ s.rangeEnd ≤ 999) : normalChallengeRifts s = s := by
  have h₁ : min (min s.rangeStart 999) (min s.rangeEnd 999) = s.rangeStart := by omega
  have h₂ : max (min s.rangeStart 999) (min s.rangeEnd 999) = s.rangeEnd := by omega
  rw [normalChallengeRifts, h₁, h₂]

theorem normalExtra_of_mem {s : ExtraConfig} (h : s.InRange) : normalExtra s = s := by
  have hid {lo hi i : ℤ} (hi' : lo ≤ i ∧ i ≤ hi) : max lo (min i hi) = i := by omega
  rw [normalExtra, hid h.windowLeft, hid h.windowTop, hid h.windowWidth, hid h.windowHeight,
    hid h.uiOptWidth, hid h.uiOptHeight, hid h.renderWidth, hid h.renderHeight,
    hid h.refreshRate, hid h.bitDepth, hid h.msaaLevel]

theorem maxResolutionHackOutputTarget_le (devMem : Option ℕ) :
    maxResolutionHackOutputTarget devMem ≤ 2160 := by
  unfold maxResolutionHackOutputTarget
  split
  · split_ifs <;> omega
  · omega

theorem normalResolutionHack_of_mem {devMem : Option ℕ} {c : PatchConfig}
    (h : InRange devMem c) : normalResolutionHack devMem c.resolutionHack = c.resolutionHack := by
  obtain ⟨hmax, hmin, hlt⟩ := normalScales_of_mem h.scales
  have hle := maxResolutionHackOutputTarget_le devMem
  have htarget : min (max 720 (min c.resolutionHack.targetResolution 2160))
      (maxResolutionHackOutputTarget devMem) = c.resolutionHack.targetResolution := by
    have := h.targetResolution
    omega
  have htex : (if c.resolutionHack.clampTextureResolution = 0 then 0
      else max 100 (min c.resolutionHack.clampTextureResolution 9999)) =
        c.resolutionHack.clampTextureResolution := by
    rcases h.clampTextureResolution with h | h
    · rw [if_pos h, h]
    · rw [if_neg (by omega)]
      omega
  simp only [normalResolutionHack, hmax, hmin, hlt, htarget, htex,
    normalHandheldScale_of_mem h.outputHandheldScale, normalExtra_of_mem h.extra,
    Bool.false_eq_true, if_false]

theorem ancientRankToValue_canonical {value : ℤ} (h : value ∈ ({0, 1, 2} : Set ℤ))
    (fallback : String) : ancientRankToValue (ancientRankCanonical value fallback) 2 = value := by
  rcases h with rfl | rfl | rfl
  · exact (by decide +kernel : ancientRankToValue "Normal" 2 = 0)
  · exact (by decide +kernel : ancientRankToValue "Ancient" 2 = 1)
  · exact (by decide +kernel : ancientRankToValue "Primal" 2 = 2)

theorem normalLootModifiers_of_mem {devMem : Option ℕ} {c : PatchConfig}
    (h : Canonical devMem c) : normalLootModifiers c.lootModifiers = c.lootModifiers := by
  have hvalue : normalAncientRank c.lootModifiers = c.lootModifiers.ancientRankValue :=
    ancientRankToValue_canonical h.inRange.ancientRankValue _
  have hilevel : max 0 (min c.lootModifiers.forcedILevel 70) = c.lootModifiers.forcedILevel := by
    have := h.inRange.forcedILevel
    omega
  have htiered : max 0 (min c.lootModifiers.tieredLootRunLevel 150) =
      c.lootModifiers.tieredLootRunLevel := by
    have := h.inRange.tieredLootRunLevel
    omega
  rw [normalLootModifiers, hvalue, hilevel, htiered, ← h.ancientRank]

theorem normalRareCheats_of_mem {devMem : Option ℕ} {c : PatchConfig}
    (h : Canonical devMem c) : normalRareCheats c.rareCheats = c.rareCheats := by
  obtain ⟨k, hk⟩ := h.moveSpeed
  obtain ⟨l, hl⟩ := h.attackSpeed
  rw [normalRareCheats, normalSpeed_of_canonical hk h.inRange.moveSpeed,
    normalSpeed_of_canonical hl h.inRange.attackSpeed]

/-- A canonical configuration is its own normal form, up to the load flags and the season
map. -/
theorem normalForm_of_canonical {devMem : Option ℕ} {c : PatchConfig}
    (h : Canonical devMem c) :
    normalForm devMem c =
      { c with
        initialized := true
        defaultsOnly := false
        events.flags :=
          if c.seasons.active then
            effectiveFlags c.seasons.currentSeason c.events.seasonMapMode c.events.flags
          else c.events.flags } := by
  rw [normalForm, normalSeasons_of_mem h.inRange.currentSeason,
    normalChallengeRifts_of_mem h.inRange.riftRange, normalRareCheats_of_mem h,
    normalResolutionHack_of_mem h.inRange, normalLootModifiers_of_mem h]

/-- Taking the normal form twice is taking it once. -/
theorem normalForm_idem (devMem : Option ℕ) {c : PatchConfig} (hfin : FiniteNumbers c) :
    normalForm devMem (normalForm devMem c) = normalForm devMem c := by
  rw [normalForm_of_canonical (canonical_normalForm devMem hfin)]
  simp only [normalForm]
  split_ifs
  · rw [effectiveFlags_idem]
  · rfl

/-- With the season map off, a canonical configuration changes in its load flags only. -/
theorem normalForm_of_disabled {devMem : Option ℕ} {c : PatchConfig} (h : Canonical devMem c)
    (hmode : c.events.seasonMapMode = .disabled) :
    normalForm devMem c = { c with initialized := true, defaultsOnly := false } := by
  rw [normalForm_of_canonical h, hmode]
  simp only [effectiveFlags, ite_self]

theorem finite_default : FiniteNumbers {} := ⟨rfl, rfl, rfl, rfl, rfl⟩

end D3Hack
