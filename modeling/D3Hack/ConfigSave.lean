import D3Hack.ConfigLoad
import D3Hack.ConfigNormalize
import D3Hack.TomlText

/-!
# Saving the configuration

`savePatchConfigToPath` normalises a configuration, prints its table to a buffer and writes
the buffer to a file. `SaveSite` names the places of its calls.

`savePatchConfigToPath_spec` says what a save that returns true leaves behind, for every
pattern of faults, and `normalizePatchConfig_saveLoad` is the correctness of the file format:
normalising is a projection, loading after a save gives the normalised configuration, and a
configuration of the loader's own form loses nothing.
-/

namespace D3Hack

open Calls Toml

/-- The places of the calls of `SavePatchConfigToPath`. -/
inductive SaveSite where
  | allocator
  | allocate (size : ℕ)
  | write (site : WriteSite)
  deriving DecidableEq

variable {Site : Type} (place : SaveSite → Site) (path : String) (api : Api)
  (devMem : Option ℕ)

/-- `SavePatchConfigToPath`, for its result and `error_out`. -/
def savePatchConfigToPath (config : PatchConfig) (error : String) :
    FsProg Site (Bool × String) := do
  let normalized := normalizePatchConfig api devMem config
  let root := buildPatchConfigTable devMem normalized
  let hasAllocator ← getSystemAllocator (place .allocator)
  if hasAllocator then
    let buffer ← ({ hasAllocator } : Buffer).writeAll (fun n => place (.allocate n))
      (api.print root)
    if buffer.ok then
      writeAllAtomic (fun site => place (.write site)) path buffer.data "config file" error
    else pure (false, "Failed to allocate config buffer")
  else pure (false, "System allocator unavailable")

/-- A save that returns true leaves the printed table at the path. -/
theorem savePatchConfigToPath_spec (fails : Site → Bool) (hpath : TargetPath path)
    (config : PatchConfig) (error : String) {fs fs' : Fs} {e : String}
    (hrun : (savePatchConfigToPath place path api devMem config error).run (faulty fails) fs =
      (.value (true, e), fs')) :
    fs' path = some (.file (api.print
      (buildPatchConfigTable devMem (normalizePatchConfig api devMem config))).flatten) := by
  rw [savePatchConfigToPath, run_getSystemAllocator_bind] at hrun
  rcases hf : fails (place .allocator) with _ | _
  swap
  · simp [hf] at hrun
  simp only [hf, Bool.not_false, if_true] at hrun
  obtain ⟨buffer, hbuf, hok⟩ := Buffer.writeAll_spec (fun n => place (.allocate n)) fails fs
    (api.print (buildPatchConfigTable devMem (normalizePatchConfig api devMem config)))
    { hasAllocator := true }
  rw [Prog.run_bind_value _ hbuf, Prog.run_ite] at hrun
  split_ifs at hrun with hbok
  swap
  · simp at hrun
  have hdata := (hok hbok).2
  rw [List.nil_append] at hdata
  rw [hdata] at hrun
  obtain ⟨ok, e', fs'', hwrite, hres⟩ := writeAllAtomic_spec (fun site => place (.write site)) fails
    path _ "config file" error fs hpath
  rw [hwrite] at hrun
  obtain ⟨hval, rfl⟩ := Prod.mk.inj hrun
  obtain ⟨rfl, -⟩ := Prod.mk.inj (Outcome.value.inj hval)
  rcases hres with ⟨-, htext, -⟩ | ⟨hfalse, -⟩
  · exact htext
  · cases hfalse

/-- With no directory in the way and nothing going wrong, a save returns true. -/
theorem savePatchConfigToPath_given (fails : Site → Bool) (hgives : ∀ site, fails site = false)
    (hpath : TargetPath path) (config : PatchConfig) (error : String) {fs : Fs}
    (hdir : fs kHackDir = some .directory)
    (hfree : ∀ p ∈ [path, path ++ ".tmp", path ++ ".bak"], fs p ≠ some .directory)
    (hsize : (api.print (buildPatchConfigTable devMem
      (normalizePatchConfig api devMem config))).flatten.length ≤ Buffer.sizeMax) :
    ∃ e fs', (savePatchConfigToPath place path api devMem config error).run (faulty fails) fs =
      (.value (true, e), fs') := by
  obtain ⟨capacity, hbuf⟩ := Buffer.writeAll_given (fun n => place (.allocate n)) fails fs
    (fun _ => hgives _) (api.print (buildPatchConfigTable devMem
      (normalizePatchConfig api devMem config))) { hasAllocator := true } rfl rfl
    (by simpa using hsize)
  rw [savePatchConfigToPath, run_getSystemAllocator_bind]
  simp only [hgives, Bool.not_false, if_true]
  rw [Prog.run_bind_value _ hbuf]
  exact writeAllAtomic_given (fun site => place (.write site)) fails path _ "config file" error fs
    (fun _ => hgives _) hpath hdir hfree

/-- A table that prints to the content of a file is what a load applies. -/
theorem run_loadFromPath_reliable (place' : ReadSite → Site) {path : String} {fs : Fs}
    {root : Table} (hpath : path ≠ "")
    (hfile : fs path = some (.file (api.print root).flatten)) (hroot : root ≠ [])
    (hrt : api.RoundTrips root) (out : PatchConfig) (error : String) :
    (loadFromPath place' path api devMem out error).run reliable fs =
      (.value (true, applyTable api devMem out root, error), fs) := by
  have htext : (fs.fileAt path).filter (· ≠ []) = some (api.print root).flatten := by
    rw [Fs.fileAt_eq_some.2 hfile, Option.filter_some, if_pos]
    simpa using hrt.flatten_ne_nil hroot
  rw [loadFromPath, run_getSystemAllocator_bind]
  rw [Bool.not_false, Prog.run_bind_value _ (readAll_reliable place' path hpath error), htext]
  simp only [hrt.parse_print, Prog.run_pure]

/-- What is loaded after saving: the save writes the normalised configuration, and the load
reads it over the defaults. -/
def saveReload (c : PatchConfig) : PatchConfig :=
  applyTable api devMem {} (buildPatchConfigTable devMem (normalizePatchConfig api devMem c))

theorem buildPatchConfigTable_ne_nil (c : PatchConfig) : buildPatchConfigTable devMem c ≠ [] := by
  obtain ⟨t, ht, -⟩ := exists_subtable_build devMem c "seasons" (Or.inl rfl)
  intro hnil
  rw [hnil] at ht
  cases ht

/-- After a save that returns true, under any faults, a load with nothing going wrong gives
`saveReload`. -/
theorem run_loadPatchConfigFromPath_of_save {Site' : Type} (place' : ReadSite → Site')
    (fails : Site → Bool) (hpath : TargetPath path) {c : PatchConfig} {error e : String}
    {fs fs' : Fs}
    (hrt : api.RoundTrips (buildPatchConfigTable devMem (normalizePatchConfig api devMem c)))
    (hrun : (savePatchConfigToPath place path api devMem c error).run (faulty fails) fs =
      (.value (true, e), fs')) (error' : String) (g : Globals) :
    (loadPatchConfigFromPath place' path api devMem error' g).run reliable fs' =
      (.value ((true, saveReload api devMem c, error'), g), fs') := by
  have hfile := savePatchConfigToPath_spec place path api devMem fails hpath c error hrun
  have hload := run_loadFromPath_reliable api devMem place' hpath.ne_empty hfile
    (buildPatchConfigTable_ne_nil devMem _) hrt {} error'
  rw [loadPatchConfigFromPath, Prog.run_bind_value _ hload]
  rfl

/-- **Normalising is a projection, saving and loading gives the normalised configuration, and
a configuration of the loader's own form, with the season map off, loses nothing.** -/
theorem normalizePatchConfig_saveLoad {api : Api} (laws : api.Laws) (devMem : Option ℕ) :
    (∀ c, FiniteNumbers c → normalizePatchConfig api devMem (normalizePatchConfig api devMem c) =
        normalizePatchConfig api devMem c) ∧
      (∀ c, FiniteNumbers c →
        api.RoundTrips (buildPatchConfigTable devMem (normalizePatchConfig api devMem c)) →
          ∀ path, TargetPath path → ∀ (fails : SaveSite → Bool) (fs fs' : Fs) (error e : String),
            (savePatchConfigToPath id path api devMem c error).run (faulty fails) fs =
                (.value (true, e), fs') →
              ∀ (error' : String) (g : Globals),
                (loadPatchConfigFromPath id path api devMem error' g).run reliable fs' =
                  (.value ((true, normalizePatchConfig api devMem c, error'), g), fs')) ∧
        ∀ c, Canonical devMem c → c.events.seasonMapMode = .disabled →
          normalizePatchConfig api devMem c =
            { c with initialized := true, defaultsOnly := false } := by
  have hidem : ∀ c, FiniteNumbers c →
      normalizePatchConfig api devMem (normalizePatchConfig api devMem c) =
        normalizePatchConfig api devMem c := by
    intro c hfin
    have hnormal := canonical_normalForm devMem hfin
    rw [normalizePatchConfig_eq laws devMem hfin,
      normalizePatchConfig_eq laws devMem (finite_of_canonical hnormal), normalForm_idem _ hfin]
  refine ⟨hidem, ?_, ?_⟩
  · intro c hfin hrt path hpath fails fs fs' error e hrun error' g
    have hload := run_loadPatchConfigFromPath_of_save id path api devMem id fails hpath hrt hrun
      error' g
    rwa [show saveReload api devMem c = normalizePatchConfig api devMem c from hidem c hfin]
      at hload
  · intro c hcan hmode
    rw [normalizePatchConfig_eq laws devMem (finite_of_canonical hcan),
      normalForm_of_disabled hcan hmode]

/-! ### Two configurations -/

/-- A configuration of the loader's own form, with every setting changed but for the season map. -/
def customConfig : PatchConfig where
  seasons := { active := false, allowOnline := true, currentSeason := 22, spoofPtr := true }
  challengeRifts := { active := true, random := false, rangeStart := 3, rangeEnd := 14 }
  events := { active := false, flags := fun f => !f.defaultConfig }
  rareCheats :=
    { active := false, moveSpeed := .fin (17 / 10), attackSpeed := .fin (3 / 10)
      floatingDamageColor := true, guaranteedLegendaries := true, dropAnything := true
      instantPortal := false, noCooldowns := true, instantCraftActions := false
      anyGemAnySlot := true, autoPickup := true, equipAnySlot := true
      unlockAllDifficulties := false, easyKillDamage := true, infiniteMp := false
      cubeNoConsume := true, gemUpgradeAlways := true, gemUpgradeSpeed := false
      gemUpgradeLvl150 := true, equipMultiLegendary := false, superGodMode := true
      extraGrOrbsElites := true }
  resolutionHack :=
    { active := false, targetResolution := 1440, minResScale := .fin 70
      maxResScale := .fin (181 / 2), spoofDocked := true, expScheduler := false
      outputHandheldScale := .fin 55, clampTextureResolution := 900
      extra :=
        { windowLeft := 0, windowTop := 1, windowWidth := 1280, windowHeight := 720
          uiOptWidth := 640, uiOptHeight := 360, renderWidth := 1600, renderHeight := 900
          refreshRate := 30, bitDepth := 32, msaaLevel := 4 } }
  overlays :=
    { active := false, buildlockerWatermark := true, ddmLabels := false, fpsLabel := true
      varResLabel := false }
  lootModifiers :=
    { active := true, disableAncientDrops := true, disablePrimalAncientDrops := true
      disableTormentDrops := true, disableTormentCheck := true, suppressGiftGeneration := false
      forcedILevel := 70, tieredLootRunLevel := 150, ancientRank := "Ancient"
      ancientRankValue := 1 }
  debug :=
    { active := false, enableCrashes := true, enablePubfileDump := true
      enableErrorTraces := false, enableDebugFlags := true, tagnx := true
      enableExceptionHandler := true, enableOeNotificationHook := true
      logOeNotificationMessages := true }
  gui :=
    { enabled := false, visible := true, allowLeftStickPassthrough := true
      languageOverride := "de" }

/-- A configuration with a season map on, and with settings that normalising moves. -/
def rawConfig : PatchConfig :=
  { customConfig with
    seasons.active := true
    challengeRifts.rangeStart := 30
    events.seasonMapMode := .mapOnly
    rareCheats.moveSpeed := .fin (127 / 50)
    rareCheats.attackSpeed := .fin 25
    resolutionHack.targetResolution := 5000
    resolutionHack.minResScale := .fin 95
    resolutionHack.outputHandheldScale := .fin (17 / 20)
    lootModifiers.forcedILevel := -5
    lootModifiers.ancientRankValue := 7
    gui.languageOverride := "" }

theorem canonical_customConfig : Canonical none customConfig where
  inRange :=
    { targetResolution := by decide
      outputHandheldScale := Or.inr ⟨11, by norm_num [customConfig], by norm_num, by norm_num⟩
      scales := by unfold ScalesInRange; decide +kernel
      clampTextureResolution := Or.inr (by decide)
      currentSeason := by decide
      riftRange := by decide
      extra := by constructor <;> decide
      moveSpeed := ⟨17 / 10, rfl, by norm_num, by norm_num⟩
      attackSpeed := ⟨3 / 10, rfl, by norm_num, by norm_num⟩
      forcedILevel := by decide
      tieredLootRunLevel := by decide
      ancientRankValue := by simp [customConfig] }
  moveSpeed := ⟨17, by norm_num [customConfig]⟩
  attackSpeed := ⟨3, by norm_num [customConfig]⟩
  ancientRank := by decide +kernel

theorem finite_rawConfig : FiniteNumbers rawConfig := ⟨rfl, rfl, rfl, rfl, rfl⟩

/-- The tables written for both are printed to a text that is read back and fits a buffer. -/
theorem print_normalForm : ∀ c ∈ [customConfig, rawConfig],
    printableEntries (buildPatchConfigTable none (normalForm none c)) = true ∧
      (Api.text.print (buildPatchConfigTable none (normalForm none c))).flatten.length ≤
        Buffer.sizeMax := by
  decide +kernel

/-- A card with an older file of the configuration. -/
def oldCard : Fs := cardWith [(kConfigPath, [0x23])]

/-- The first configuration comes back whole, and the second normalised. -/
theorem normalizePatchConfig_saveLoad_custom :
    (∃ e fs', (savePatchConfigToPath id kConfigPath Api.text none customConfig "").run reliable
        oldCard = (.value (true, e), fs') ∧
      (loadPatchConfigFromPath id kConfigPath Api.text none "" {}).run reliable fs' =
        (.value ((true, { customConfig with initialized := true, defaultsOnly := false }, ""), {}),
          fs')) ∧
    (∃ e fs', (savePatchConfigToPath id kConfigPath Api.text none rawConfig "").run reliable
        oldCard = (.value (true, e), fs') ∧
      (loadPatchConfigFromPath id kConfigPath Api.text none "" {}).run reliable fs' =
        (.value ((true, normalizePatchConfig Api.text none rawConfig, ""), {}), fs')) ∧
    normalizePatchConfig Api.text none (normalizePatchConfig Api.text none rawConfig) =
      normalizePatchConfig Api.text none rawConfig := by
  have h := normalizePatchConfig_saveLoad Api.laws_text none
  have hpath : TargetPath kConfigPath := ⟨by decide, by decide, by decide⟩
  have hfree : ∀ p ∈ [kConfigPath, kConfigPath ++ ".tmp", kConfigPath ++ ".bak"],
      oldCard p ≠ some .directory := by decide +kernel
  have hreload : ∀ c ∈ [customConfig, rawConfig], FiniteNumbers c → ∃ e fs',
      (savePatchConfigToPath id kConfigPath Api.text none c "").run reliable oldCard =
          (.value (true, e), fs') ∧
        (loadPatchConfigFromPath id kConfigPath Api.text none "" {}).run reliable fs' =
          (.value ((true, normalizePatchConfig Api.text none c, ""), {}), fs') := by
    intro c hc hfin
    obtain ⟨hprintable, hsize⟩ := print_normalForm c hc
    rw [← normalizePatchConfig_eq Api.laws_text none hfin] at hprintable
    rw [← normalizePatchConfig_eq Api.laws_text none hfin] at hsize
    obtain ⟨e, fs', hsave⟩ := savePatchConfigToPath_given id kConfigPath Api.text none
      (fun _ => false) (fun _ => rfl) hpath c "" (by decide) hfree hsize
    exact ⟨e, fs', hsave, h.2.1 c hfin (Api.roundTrips_text hprintable) kConfigPath hpath _
      oldCard fs' "" e hsave "" {}⟩
  have hcustom := hreload customConfig List.mem_cons_self
    (finite_of_canonical canonical_customConfig)
  rw [h.2.2 customConfig canonical_customConfig rfl] at hcustom
  have hraw := hreload rawConfig (List.mem_cons_of_mem _ List.mem_cons_self) finite_rawConfig
  exact ⟨hcustom, hraw, h.1 rawConfig finite_rawConfig⟩

end D3Hack
