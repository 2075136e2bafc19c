import D3Hack.ConfigTable

/-!
# The ranges of the settings

`InRange` collects the ranges that the loader means to enforce. `inRange_applyTable_iff`
says which TOML roots keep a configuration in range: all but those with an output target
written as a string of a number below 720, which the numeric clamp never sees, and those
with a season number or a speed that is nan, which passes through every clamp.

Each schema setter keeps its own part of the ranges, so the schema reader keeps all of them
except the output target; the sections read by hand are treated one by one.
-/

namespace D3Hack

open Toml

/-! ## The ranges -/

/-- The handheld scale is off, or a multiple of five percent from 40 to 100. -/
def HandheldInRange (v : Ieee) : Prop :=
  v = .fin 0 ∨ ∃ k : ℤ, v = .fin (k * 5) ∧ 40 ≤ k * 5 ∧ k * 5 ≤ 100

/-- `10 ≤ min ≤ max ≤ 100`. -/
def ScalesInRange (r : ResolutionHackConfig) : Prop :=
  Ieee.le (.fin 10) r.minResScale ∧ r.minResScale.le r.maxResScale ∧
    r.maxResScale.le (.fin 100)

/-- The texture clamp is off, or from 100 to 9999. -/
def ClampTextureInRange (v : ℕ) : Prop := v = 0 ∨ 100 ≤ v ∧ v ≤ 9999

open ExtraConfig in
/-- Every extra is from unset to its maximum. -/
structure ExtraConfig.InRange (s : ExtraConfig) : Prop where
  windowLeft : kUnset ≤ s.windowLeft ∧ s.windowLeft ≤ kMaxDimension
  windowTop : kUnset ≤ s.windowTop ∧ s.windowTop ≤ kMaxDimension
  windowWidth : kUnset ≤ s.windowWidth ∧ s.windowWidth ≤ kMaxDimension
  windowHeight : kUnset ≤ s.windowHeight ∧ s.windowHeight ≤ kMaxDimension
  uiOptWidth : kUnset ≤ s.uiOptWidth ∧ s.uiOptWidth ≤ kMaxDimension
  uiOptHeight : kUnset ≤ s.uiOptHeight ∧ s.uiOptHeight ≤ kMaxDimension
  renderWidth : kUnset ≤ s.renderWidth ∧ s.renderWidth ≤ kMaxDimension
  renderHeight : kUnset ≤ s.renderHeight ∧ s.renderHeight ≤ kMaxDimension
  refreshRate : kUnset ≤ s.refreshRate ∧ s.refreshRate ≤ kMaxRefreshRate
  bitDepth : kUnset ≤ s.bitDepth ∧ s.bitDepth ≤ kMaxBitDepth
  msaaLevel : kUnset ≤ s.msaaLevel ∧ s.msaaLevel ≤ kMaxMsaaLevel

/-- A speed is a real number from 0.1 to 10. -/
def SpeedInRange (v : Ieee) : Prop := ∃ q : ℚ, v = .fin q ∧ 1 / 10 ≤ q ∧ q ≤ 10

/-- The ranges of the settings. -/
structure InRange (devMem : Option ℕ) (c : PatchConfig) : Prop where
  targetResolution : 720 ≤ c.resolutionHack.targetResolution ∧
    c.resolutionHack.targetResolution ≤ maxResolutionHackOutputTarget devMem
  outputHandheldScale : HandheldInRange c.resolutionHack.outputHandheldScale
  scales : ScalesInRange c.resolutionHack
  clampTextureResolution : ClampTextureInRange c.resolutionHack.clampTextureResolution
  currentSeason : 1 ≤ c.seasons.currentSeason ∧ c.seasons.currentSeason ≤ 200
  riftRange : c.challengeRifts.rangeStart ≤ c.challengeRifts.rangeEnd ∧
    c.challengeRifts.rangeEnd ≤ 999
  extra : c.resolutionHack.extra.InRange
  moveSpeed : SpeedInRange c.rareCheats.moveSpeed
  attackSpeed : SpeedInRange c.rareCheats.attackSpeed
  forcedILevel : 0 ≤ c.lootModifiers.forcedILevel ∧ c.lootModifiers.forcedILevel ≤ 70
  tieredLootRunLevel : 0 ≤ c.lootModifiers.tieredLootRunLevel ∧
    c.lootModifiers.tieredLootRunLevel ≤ 150
  ancientRankValue : c.lootModifiers.ancientRankValue ∈ ({0, 1, 2} : Set ℤ)

/-- The built-in defaults are in range. -/
theorem inRange_default (devMem : Option ℕ) : InRange devMem {} where
  targetResolution := by
    refine ⟨by decide, ?_⟩
    unfold maxResolutionHackOutputTarget
    split <;> (try split_ifs) <;> decide
  outputHandheldScale := Or.inr ⟨16, by norm_num, by norm_num, by norm_num⟩
  scales := by simp only [ScalesInRange]; norm_num
  clampTextureResolution := Or.inr (by decide)
  currentSeason := by decide
  riftRange := by decide
  extra := by constructor <;> decide
  moveSpeed := ⟨5 / 2, rfl, by norm_num, by norm_num⟩
  attackSpeed := ⟨1, rfl, by norm_num, by norm_num⟩
  forcedILevel := by decide
  tieredLootRunLevel := by decide
  ancientRankValue := by simp

/-! ## The typed readers -/

section Readers

variable (api : Api) (table : Table) (keys : List String)

/-- A bounded unsigned setting stays in its bounds unless it is read as nan. -/
theorem readU32_mem_iff {fallback lo hi : ℕ} (hlo : 0 < lo) (hhi : hi < 2 ^ 32)
    (h : lo ≤ fallback ∧ fallback ≤ hi) :
    (lo ≤ readU32 api table keys fallback lo hi ∧
      readU32 api table keys fallback lo hi ≤ hi) ↔
      readNumber api table keys ≠ some .nan := by
  unfold readU32
  cases hn : readNumber api table keys with
  | none => simpa using h
  | some v =>
    have hle : (lo : ℚ) ≤ hi := by exact_mod_cast h.1.trans h.2
    rcases Ieee.clamp_cases hle v with ⟨rfl, hc⟩ | ⟨hv, q, hc, h₁, h₂⟩
    · simp only [hc, Ieee.toNat]
      simp; omega
    · simp only [hc]
      simpa [hv] using Ieee.toNat_mem hhi h₁ h₂

/-- A bounded unsigned setting never exceeds its bound. -/
theorem readU32_le {fallback lo hi : ℕ} (hlo : lo ≤ hi) (hhi : hi < 2 ^ 32)
    (h : fallback ≤ hi) : readU32 api table keys fallback lo hi ≤ hi := by
  unfold readU32
  cases readNumber api table keys with
  | none => exact h
  | some v =>
    rcases Ieee.clamp_cases (Nat.cast_le.2 hlo : (lo : ℚ) ≤ hi) v with
      ⟨-, hc⟩ | ⟨-, q, hc, h₁, h₂⟩
    · simp [hc, Ieee.toNat]
    · simpa [hc] using (Ieee.toNat_mem hhi h₁ h₂).2

/-- A bounded signed setting whose bounds include zero stays in them: nan is read as zero. -/
theorem readI32_mem {fallback lo hi : ℤ} (hlo : -2 ^ 31 ≤ lo ∧ lo ≤ 0)
    (hhi : 0 ≤ hi ∧ hi < 2 ^ 31) (h : lo ≤ fallback ∧ fallback ≤ hi) :
    lo ≤ readI32 api table keys fallback lo hi ∧
      readI32 api table keys fallback lo hi ≤ hi := by
  unfold readI32
  cases readNumber api table keys with
  | none => exact h
  | some v =>
    have hle : (lo : ℚ) ≤ hi := by exact_mod_cast hlo.2.trans hhi.1
    rcases Ieee.clamp_cases hle v with ⟨-, hc⟩ | ⟨-, q, hc, h₁, h₂⟩
    · simpa [hc, Ieee.toInt] using ⟨hlo.2, hhi.1⟩
    · simpa only [hc] using Ieee.toInt_mem (w := 32) hlo.1 hhi.2 h₁ h₂

/-- A speed stays in range unless it is read as nan. -/
theorem speedInRange_readDouble_iff {fallback : Ieee} (h : SpeedInRange fallback) :
    SpeedInRange (readDouble api table keys fallback (1 / 10) 10) ↔
      readNumber api table keys ≠ some .nan := by
  unfold readDouble
  cases readNumber api table keys with
  | none => simpa using h
  | some v =>
    have hle : (1 / 10 : ℚ) ≤ 10 := by norm_num
    rcases Ieee.clamp_cases hle v with ⟨rfl, hc⟩ | ⟨hv, q, hc, h₁, h₂⟩
    · simp [SpeedInRange]
    · simp only [hc]
      exact iff_of_true ⟨q, rfl, h₁, h₂⟩ (by simpa using hv)

end Readers

/-! ## The schema setters -/

/-- Normalising a finite scale gives zero or a multiple of five percent in range. -/
theorem handheldInRange_normalize (q : ℚ) :
    HandheldInRange (ResolutionHackConfig.normalizeHandheldScale (.fin q)) := by
  unfold ResolutionHackConfig.normalizeHandheldScale
  simp only [ResolutionHackConfig.kHandheldScaleMin, ResolutionHackConfig.kHandheldScaleMax,
    ResolutionHackConfig.kHandheldScaleStep, Ieee.clamp_fin (by norm_num : (40 : ℚ) ≤ 100),
    Ieee.scale, Ieee.round]
  split_ifs
  · exact Or.inl rfl
  · set p : ℚ := max 40 (min q 100) with hp
    have h₁ : (40 : ℚ) ≤ p := le_max_left _ _
    have h₂ : p ≤ 100 := max_le (by norm_num) (min_le_right _ _)
    have hk₁ : (8 : ℤ) ≤ Ieee.roundQ (p * (1 / 5)) := Ieee.le_roundQ (by push_cast; linarith)
    have hk₂ : Ieee.roundQ (p * (1 / 5)) ≤ (20 : ℤ) := Ieee.roundQ_le (by push_cast; linarith)
    have hq₁ : (8 : ℚ) ≤ Ieee.roundQ (p * (1 / 5)) := by exact_mod_cast hk₁
    have hq₂ : (Ieee.roundQ (p * (1 / 5)) : ℚ) ≤ 20 := by exact_mod_cast hk₂
    refine Or.inr ⟨Ieee.roundQ (p * (1 / 5)), ?_, by omega, by omega⟩
    rw [min_eq_left (by linarith), max_eq_right (by linarith)]

/-- The schema part of the resolution ranges, without the output target. -/
def ReshackInRange (r : ResolutionHackConfig) : Prop :=
  HandheldInRange r.outputHandheldScale ∧ ScalesInRange r ∧
    ClampTextureInRange r.clampTextureResolution

theorem handheldInRange_set (c : PatchConfig) (q : ℚ) :
    HandheldInRange
      (setReshackOutputHandheldScale c (.fin q)).resolutionHack.outputHandheldScale := by
  unfold setReshackOutputHandheldScale
  dsimp only
  split_ifs
  · exact handheldInRange_normalize _
  · exact handheldInRange_normalize _

/-- The minimum setter keeps `10 ≤ min ≤ max ≤ 100`. -/
theorem scalesInRange_setMin {c : PatchConfig} (h : ScalesInRange c.resolutionHack) (q : ℚ) :
    ScalesInRange (setReshackMinResScale c (.fin q)).resolutionHack := by
  obtain ⟨h₁, h₂, h₃⟩ := h
  obtain ⟨lo, hlo, -, -⟩ := Ieee.exists_fin_of_le h₁ (Ieee.le_trans h₂ h₃)
  obtain ⟨hi, hhi, -, hi₂⟩ := Ieee.exists_fin_of_le (Ieee.le_trans h₁ h₂) h₃
  simp only [setReshackMinResScale, ScalesInRange, hhi,
    Ieee.clamp_fin (by norm_num : (10 : ℚ) ≤ 100)]
  set p : ℚ := max 10 (min q 100)
  have hp₁ : (10 : ℚ) ≤ p := le_max_left _ _
  have hp₂ : p ≤ 100 := max_le (by norm_num) (min_le_right _ _)
  by_cases hlt : hi < p
  · simp [hlt, hp₁, hp₂]
  · simp [hlt, hp₁, hi₂, not_lt.1 hlt]

/-- The maximum setter keeps `10 ≤ min ≤ max ≤ 100`. -/
theorem scalesInRange_setMax {c : PatchConfig} (h : ScalesInRange c.resolutionHack) (q : ℚ) :
    ScalesInRange (setReshackMaxResScale c (.fin q)).resolutionHack := by
  obtain ⟨h₁, h₂, h₃⟩ := h
  obtain ⟨lo, hlo, lo₁, -⟩ := Ieee.exists_fin_of_le h₁ (Ieee.le_trans h₂ h₃)
  simp only [setReshackMaxResScale, ScalesInRange, hlo,
    Ieee.clamp_fin (by norm_num : (10 : ℚ) ≤ 100)]
  set p : ℚ := max 10 (min q 100)
  have hp₁ : (10 : ℚ) ≤ p := le_max_left _ _
  have hp₂ : p ≤ 100 := max_le (by norm_num) (min_le_right _ _)
  by_cases hlt : p < lo
  · simp [hlt, hp₁, hp₂]
  · simp [hlt, hp₂, lo₁, not_lt.1 hlt]

theorem clampTextureInRange_set (c : PatchConfig) (v : ℕ) :
    ClampTextureInRange
      (setReshackClampTextureResolution c v).resolutionHack.clampTextureResolution := by
  unfold setReshackClampTextureResolution ClampTextureInRange
  split_ifs
  · exact Or.inl rfl
  · right
    simp only [ResolutionHackConfig.kClampTextureResolutionMin,
      ResolutionHackConfig.kClampTextureResolutionMax]
    omega

/-! ## The schema reader -/

/-- The entries outside `resolution_hack` leave that section alone. -/
theorem preserves_resolutionHack (P : ResolutionHackConfig → Prop) :
    ∀ e ∈ overlaysEntries ++ guiEntries ++ debugEntries,
      e.Preserves fun c => P c.resolutionHack := by
  simp [overlaysEntries, guiEntries, debugEntries, Entry.Preserves]

/-- Every entry keeps the schema part of the resolution ranges. -/
theorem preserves_reshackInRange (devMem : Option ℕ) :
    ∀ e ∈ kEntries devMem, e.Preserves fun c => ReshackInRange c.resolutionHack := by
  intro e he
  rcases List.mem_append.1 he with he | he
  · exact preserves_resolutionHack _ e he
  · simp only [resolutionHackEntries, List.mem_cons, List.not_mem_nil, or_false] at he
    rcases he with rfl | rfl | rfl | rfl | rfl | rfl | rfl | rfl
    · exact fun c v h => h
    · exact fun c v h => h
    · exact ⟨fun c q h => ⟨handheldInRange_set c q, h.2⟩, by simp⟩
    · exact ⟨fun c q h => ⟨h.1, scalesInRange_setMin h.2.1 q, h.2.2⟩, by simp⟩
    · exact ⟨fun c q h => ⟨h.1, scalesInRange_setMax h.2.1 q, h.2.2⟩, by simp⟩
    · exact fun c v h => ⟨h.1, h.2.1, clampTextureInRange_set c v⟩
    · exact fun c v h => h
    · exact fun c v h => h

/-- The parts of a configuration that no schema entry touches. -/
theorem preserves_unschemed {β : Type} (f : SeasonsConfig → ChallengeRiftsConfig →
    EventsConfig → RareCheatsConfig → LootModifiersConfig → ExtraConfig → β)
    (b : β) (devMem : Option ℕ) :
    ∀ e ∈ kEntries devMem, e.Preserves fun c =>
      f c.seasons c.challengeRifts c.events c.rareCheats c.lootModifiers
        c.resolutionHack.extra = b := by
  simp [kEntries, overlaysEntries, guiEntries, debugEntries, resolutionHackEntries,
    Entry.Preserves, setReshackOutputTarget, setReshackOutputHandheldScale,
    setReshackMinResScale, setReshackMaxResScale, setReshackClampTextureResolution]

/-- The schema reader leaves the sections read by hand alone. -/
theorem applyTomlTable_unschemed (api : Api) (devMem : Option ℕ) (c : PatchConfig)
    (root : Table) :
    (applyTomlTable api devMem c root).seasons = c.seasons ∧
      (applyTomlTable api devMem c root).challengeRifts = c.challengeRifts ∧
      (applyTomlTable api devMem c root).events = c.events ∧
      (applyTomlTable api devMem c root).rareCheats = c.rareCheats ∧
      (applyTomlTable api devMem c root).lootModifiers = c.lootModifiers ∧
      (applyTomlTable api devMem c root).resolutionHack.extra = c.resolutionHack.extra := by
  have h := applyTomlTable_preserves
    (preserves_unschemed (fun a b d e f g => (a, b, d, e, f, g)) _ devMem) api root (c := c) rfl
  simpa only [Prod.mk.injEq] using h

/-! ## The output target -/

/-- The string is a plain number from 1 to 719, up to case, spaces, dashes and underscores. -/
def LowTarget (s : String) : Prop :=
  ∃ n, fromCharsU32 (normalizeKey s) = some n ∧ 0 < n ∧ n < 720

/-- The output target read from the table of its section. -/
def readOutputTarget (api : Api) (devMem : Option ℕ) (table : Table) (fallback : ℕ) : ℕ :=
  match readNumber api table kKeysReshackOutputTarget with
  | some v =>
    if v = .nan then fallback
    else min ((v.clamp (.fin 720) (.fin 2160)).toNat 32) (maxResolutionHackOutputTarget devMem)
  | none =>
    match readValue api.valueString table kKeysReshackOutputTarget with
    | some s =>
      min (parseResolutionHackOutputTarget s fallback) (maxResolutionHackOutputTarget devMem)
    | none => fallback

/-- The entry of the output target. -/
def outputTargetEntry (devMem : Option ℕ) : Entry :=
  ⟨"resolution_hack", "OutputTarget", kKeysReshackOutputTarget, .restartRequired,
    .u32 720 2160 (·.resolutionHack.targetResolution) (setReshackOutputTarget devMem)
      (some parseResolutionHackOutputTarget)⟩

theorem applyEntry_outputTarget (api : Api) (devMem : Option ℕ) (table : Table)
    (c : PatchConfig) :
    (applyEntry api table c (outputTargetEntry devMem)).resolutionHack.targetResolution =
      readOutputTarget api devMem table c.resolutionHack.targetResolution := by
  have hle : (720 : ℚ) ≤ 2160 := by norm_num
  simp only [applyEntry, outputTargetEntry, readOutputTarget]
  cases readNumber api table kKeysReshackOutputTarget with
  | none => cases readValue api.valueString table kKeysReshackOutputTarget <;> rfl
  | some v =>
    have hb : clampNumber v (.fin (720 : ℕ)) (.fin (2160 : ℕ)) =
        v.clamp (.fin 720) (.fin 2160) := by norm_num [clampNumber]
    simp only [hb]
    rcases Ieee.clamp_cases hle v with ⟨rfl, hc⟩ | ⟨hv, q, hc, h₁, h₂⟩
    · simp [Ieee.clamp_nan]
    · have h₃ : (0 : ℚ) ≤ q := by linarith
      have h₄ : q ≤ 2 ^ 32 - 1 := by norm_num; linarith
      rw [hc, if_neg hv, if_pos (by simp only [Ieee.le_fin, Ieee.isFinite_fin,
        decide_eq_true h₃, decide_eq_true h₄, Bool.and_self])]
      rfl

/-- The schema reader takes the output target from its own entry only. -/
theorem targetResolution_applyTomlTable (api : Api) (devMem : Option ℕ) (c : PatchConfig)
    (root : Table) :
    (applyTomlTable api devMem c root).resolutionHack.targetResolution =
      readSection root "resolution_hack" (readOutputTarget api devMem)
        c.resolutionHack.targetResolution := by
  have hpre : ∀ e ∈ overlaysEntries ++ guiEntries ++ debugEntries ++
      (resolutionHackEntries devMem).take 1, e.Preserves fun c' =>
        c'.resolutionHack.targetResolution = c.resolutionHack.targetResolution := by
    intro e he
    rcases List.mem_append.1 he with he | he
    · exact preserves_resolutionHack (fun r => r.targetResolution = _) e he
    · obtain rfl := List.mem_singleton.1 he
      exact fun c v h => h
  have hpost (b : ℕ) : ∀ e ∈ (resolutionHackEntries devMem).drop 2,
      e.Preserves fun c' => c'.resolutionHack.targetResolution = b := by
    simp [resolutionHackEntries, Entry.Preserves, setReshackOutputHandheldScale,
      setReshackMinResScale, setReshackMaxResScale, setReshackClampTextureResolution]
  have hsplit : kEntries devMem = (overlaysEntries ++ guiEntries ++ debugEntries ++
      (resolutionHackEntries devMem).take 1) ++
        outputTargetEntry devMem :: (resolutionHackEntries devMem).drop 2 := rfl
  unfold applyTomlTable
  rw [hsplit, List.foldl_append, List.foldl_cons]
  refine foldl_applyEntryOf_preserves api root (hpost _) ?_
  have htarget := foldl_applyEntryOf_preserves api root hpre (c := c) rfl
  generalize List.foldl (applyEntryOf api root) c _ = c' at htarget
  unfold applyEntryOf readSection
  rw [show (outputTargetEntry devMem).sec = "resolution_hack" from rfl]
  cases subtable root "resolution_hack" with
  | none => exact htarget
  | some table => exact (applyEntry_outputTarget api devMem table c').trans (by rw [htarget])

/-- The names that the target parser knows. -/
def knownTargets : List String :=
  ["", "default", "unchanged", "720", "720p", "900", "900p", "1080", "1080p", "fhd", "1440",
    "1440p", "2k", "qhd", "2160", "2160p", "4k", "uhd"]

/-- A name the target parser knows is no low number. -/
theorem le_of_mem_knownTargets {k : String} (hk : k ∈ knownTargets) {n : ℕ}
    (hn : fromCharsU32 k = some n) : 720 ≤ n := by
  have h : ∀ k ∈ knownTargets, (fromCharsU32 k).all (720 ≤ ·) = true := by decide +kernel
  simpa [hn] using h k hk

/-- A parsed target is low exactly when the string is a plain low number. -/
theorem parseResolutionHackOutputTarget_lt_iff {s : String} {fallback : ℕ}
    (h : 720 ≤ fallback) :
    parseResolutionHackOutputTarget s fallback < 720 ↔ LowTarget s := by
  unfold parseResolutionHackOutputTarget LowTarget
  generalize normalizeKey s = key
  have hknown {m : ℕ} (hm : 720 ≤ m) (hk : key ∈ knownTargets) :
      m < 720 ↔ ∃ n, fromCharsU32 key = some n ∧ 0 < n ∧ n < 720 := by
    refine iff_of_false (by omega) ?_
    rintro ⟨n, hn, -, hlt⟩
    exact absurd (le_of_mem_knownTargets hk hn) (by omega)
  dsimp only
  split_ifs with h₁ h₂ h₃ h₄ h₅ h₆ h₇
  · exact hknown h (by simp [h₁, knownTargets])
  · exact hknown (by omega) (by rcases h₂ with rfl | rfl <;> simp [knownTargets])
  · exact hknown (by omega) (by rcases h₃ with rfl | rfl <;> simp [knownTargets])
  · exact hknown (by omega) (by rcases h₄ with rfl | rfl <;> simp [knownTargets])
  · exact hknown (by omega) (by rcases h₅ with rfl | rfl | rfl <;> simp [knownTargets])
  · exact hknown (by omega) (by rcases h₆ with rfl | rfl | rfl | rfl <;> simp [knownTargets])
  · exact hknown (by omega) (by rcases h₇ with rfl | rfl | rfl | rfl <;> simp [knownTargets])
  · cases fromCharsU32 key with
    | none => simp; omega
    | some value =>
      by_cases hv : 0 < value
      · simp [hv]
      · simp [hv]; omega

theorem le_maxResolutionHackOutputTarget (devMem : Option ℕ) :
    720 ≤ maxResolutionHackOutputTarget devMem := by
  unfold maxResolutionHackOutputTarget
  split
  · split_ifs <;> omega
  · omega

/-- The output target is in range unless it is read from a string of a low number. -/
theorem readOutputTarget_mem_iff (api : Api) {devMem : Option ℕ} (table : Table)
    {fallback : ℕ}
    (h : 720 ≤ fallback ∧ fallback ≤ maxResolutionHackOutputTarget devMem) :
    (720 ≤ readOutputTarget api devMem table fallback ∧
      readOutputTarget api devMem table fallback ≤ maxResolutionHackOutputTarget devMem) ↔
      (readNumber api table kKeysReshackOutputTarget = none →
        ∀ s, readValue api.valueString table kKeysReshackOutputTarget = some s →
          ¬LowTarget s) := by
  have hmax := le_maxResolutionHackOutputTarget devMem
  unfold readOutputTarget
  cases readNumber api table kKeysReshackOutputTarget with
  | some v =>
    refine iff_of_true ?_ (by simp)
    dsimp only
    split_ifs with hv
    · exact h
    · have hle : (720 : ℚ) ≤ 2160 := by norm_num
      rcases Ieee.clamp_cases hle v with ⟨rfl, -⟩ | ⟨-, q, hc, h₁, h₂⟩
      · exact absurd rfl hv
      · have hq := @Ieee.toNat_mem 32 720 2160 (by norm_num) q
          (by exact_mod_cast h₁) (by exact_mod_cast h₂)
        rw [hc]
        omega
  | none =>
    cases readValue api.valueString table kKeysReshackOutputTarget with
    | none => simpa using h
    | some s =>
      have hs := parseResolutionHackOutputTarget_lt_iff (s := s) h.1
      simp only [forall_const, Option.some.injEq, forall_eq', ← hs]
      omega

/-! ## The whole reader -/

/-- A property of a section that its reader has on some tables holds after reading the root
exactly when the root's table, if there is one, is among them. -/
theorem readSection_iff {α : Type} {P : α → Prop} {Q : Table → Prop} {read : Table → α → α}
    {s : α} (hs : P s) (h : ∀ table, P (read table s) ↔ Q table) (root : Table)
    (key : String) :
    P (readSection root key read s) ↔ ∀ table, subtable root key = some table → Q table := by
  unfold readSection
  cases subtable root key with
  | none => simpa using hs
  | some table => simpa using h table

/-- A property that the reader of a section keeps holds after reading the root. -/
theorem readSection_preserves {α : Type} {P : α → Prop} {read : Table → α → α} {s : α}
    (hs : P s) (h : ∀ table, P (read table s)) (root : Table) (key : String) :
    P (readSection root key read s) :=
  (readSection_iff hs (fun table => iff_true_intro (h table)) root key).2 fun _ _ => trivial

theorem inRange_readExtra (api : Api) (table : Table) {s : ExtraConfig} (h : s.InRange) :
    (readExtra api table s).InRange where
  windowLeft := readI32_mem api table _ (by decide) (by decide) h.windowLeft
  windowTop := readI32_mem api table _ (by decide) (by decide) h.windowTop
  windowWidth := readI32_mem api table _ (by decide) (by decide) h.windowWidth
  windowHeight := readI32_mem api table _ (by decide) (by decide) h.windowHeight
  uiOptWidth := readI32_mem api table _ (by decide) (by decide) h.uiOptWidth
  uiOptHeight := readI32_mem api table _ (by decide) (by decide) h.uiOptHeight
  renderWidth := readI32_mem api table _ (by decide) (by decide) h.renderWidth
  renderHeight := readI32_mem api table _ (by decide) (by decide) h.renderHeight
  refreshRate := readI32_mem api table _ (by decide) (by decide) h.refreshRate
  bitDepth := readI32_mem api table _ (by decide) (by decide) h.bitDepth
  msaaLevel := readI32_mem api table _ (by decide) (by decide) h.msaaLevel

/-- Reading `resolution_hack` by hand changes the extras only, and keeps them in range. -/
theorem readSection_resolutionHack (api : Api) (root : Table) (r : ResolutionHackConfig) :
    ∃ extra, readSection root "resolution_hack" (readResolutionHack api) r =
      { r with extra := extra } ∧ (r.extra.InRange → extra.InRange) := by
  unfold readSection
  cases subtable root "resolution_hack" with
  | none => exact ⟨r.extra, rfl, id⟩
  | some table =>
    refine ⟨readSection table "extra" (readExtra api) r.extra, rfl, fun h => ?_⟩
    exact readSection_preserves h (fun t => inRange_readExtra api t h) table "extra"

theorem readChallengeRifts_range (api : Api) (table : Table) {s : ChallengeRiftsConfig}
    (h : s.rangeStart ≤ s.rangeEnd ∧ s.rangeEnd ≤ 999) :
    (readChallengeRifts api table s).rangeStart ≤ (readChallengeRifts api table s).rangeEnd ∧
      (readChallengeRifts api table s).rangeEnd ≤ 999 := by
  have h₁ := readU32_le api table ["RiftRangeStart", "RangeStart", "RangeMin"]
    (by omega : 0 ≤ 999) (by norm_num) (h.1.trans h.2)
  have h₂ := readU32_le api table ["RiftRangeEnd", "RangeEnd", "RangeMax"]
    (by omega : 0 ≤ 999) (by norm_num) h.2
  simp only [readChallengeRifts]
  split_ifs <;> omega

theorem ancientRankToValue_mem (input : String) {fallback : ℤ}
    (h : fallback ∈ ({0, 1, 2} : Set ℤ)) :
    ancientRankToValue input fallback ∈ ({0, 1, 2} : Set ℤ) := by
  unfold ancientRankToValue
  dsimp only
  split_ifs
  · simp
  · simp
  · simp
  · exact h

theorem readLootModifiers_rank (api : Api) (table : Table) {s : LootModifiersConfig}
    (h : s.ancientRankValue ∈ ({0, 1, 2} : Set ℤ)) :
    (readLootModifiers api table s).ancientRankValue ∈ ({0, 1, 2} : Set ℤ) := by
  simp only [readLootModifiers]
  exact ancientRankToValue_mem _ h

section Sections

variable (api : Api) (root : Table)

/-- The season is in range exactly when the number read for it is not nan. -/
theorem currentSeason_readSection_iff {s : SeasonsConfig}
    (hs : 1 ≤ s.currentSeason ∧ s.currentSeason ≤ 200) :
    (1 ≤ (readSection root "seasons" (readSeasons api) s).currentSeason ∧
        (readSection root "seasons" (readSeasons api) s).currentSeason ≤ 200) ↔
      ∀ table, subtable root "seasons" = some table →
        readNumber api table ["SeasonNumber", "Number", "Season"] ≠ some .nan :=
  readSection_iff (P := fun s : SeasonsConfig => 1 ≤ s.currentSeason ∧ s.currentSeason ≤ 200) hs
    (fun table => readU32_mem_iff api table ["SeasonNumber", "Number", "Season"] (by omega)
      (by norm_num) hs) root "seasons"

theorem moveSpeed_readSection_iff {s : RareCheatsConfig} (hs : SpeedInRange s.moveSpeed) :
    SpeedInRange (readSection root "rare_cheats" (readRareCheats api) s).moveSpeed ↔
      ∀ table, subtable root "rare_cheats" = some table →
        readNumber api table ["MovementSpeedMultiplier", "MoveSpeedMultiplier"] ≠ some .nan :=
  readSection_iff (P := fun s : RareCheatsConfig => SpeedInRange s.moveSpeed) hs
    (fun table => speedInRange_readDouble_iff api table
      ["MovementSpeedMultiplier", "MoveSpeedMultiplier"] hs) root "rare_cheats"

theorem attackSpeed_readSection_iff {s : RareCheatsConfig} (hs : SpeedInRange s.attackSpeed) :
    SpeedInRange (readSection root "rare_cheats" (readRareCheats api) s).attackSpeed ↔
      ∀ table, subtable root "rare_cheats" = some table →
        readNumber api table
          ["AttackSpeedMultiplier", "AtkSpeedMultiplier", "AttackSpeed"] ≠ some .nan :=
  readSection_iff (P := fun s : RareCheatsConfig => SpeedInRange s.attackSpeed) hs
    (fun table => speedInRange_readDouble_iff api table
      ["AttackSpeedMultiplier", "AtkSpeedMultiplier", "AttackSpeed"] hs) root "rare_cheats"

theorem riftRange_readSection {s : ChallengeRiftsConfig}
    (hs : s.rangeStart ≤ s.rangeEnd ∧ s.rangeEnd ≤ 999) :
    (readSection root "challenge_rifts" (readChallengeRifts api) s).rangeStart ≤
        (readSection root "challenge_rifts" (readChallengeRifts api) s).rangeEnd ∧
      (readSection root "challenge_rifts" (readChallengeRifts api) s).rangeEnd ≤ 999 :=
  readSection_preserves
    (P := fun s : ChallengeRiftsConfig => s.rangeStart ≤ s.rangeEnd ∧ s.rangeEnd ≤ 999) hs
    (fun table => readChallengeRifts_range api table hs) root _

theorem forcedILevel_readSection {s : LootModifiersConfig}
    (hs : 0 ≤ s.forcedILevel ∧ s.forcedILevel ≤ 70) :
    0 ≤ (readSection root "loot_modifiers" (readLootModifiers api) s).forcedILevel ∧
      (readSection root "loot_modifiers" (readLootModifiers api) s).forcedILevel ≤ 70 :=
  readSection_preserves
    (P := fun s : LootModifiersConfig => 0 ≤ s.forcedILevel ∧ s.forcedILevel ≤ 70) hs
    (fun table => readI32_mem api table _ (by decide) (by decide) hs) root _

theorem tieredLootRunLevel_readSection {s : LootModifiersConfig}
    (hs : 0 ≤ s.tieredLootRunLevel ∧ s.tieredLootRunLevel ≤ 150) :
    0 ≤ (readSection root "loot_modifiers" (readLootModifiers api) s).tieredLootRunLevel ∧
      (readSection root "loot_modifiers" (readLootModifiers api) s).tieredLootRunLevel ≤ 150 :=
  readSection_preserves
    (P := fun s : LootModifiersConfig => 0 ≤ s.tieredLootRunLevel ∧ s.tieredLootRunLevel ≤ 150) hs
    (fun table => readI32_mem api table _ (by decide) (by decide) hs) root _

theorem ancientRankValue_readSection {s : LootModifiersConfig}
    (hs : s.ancientRankValue ∈ ({0, 1, 2} : Set ℤ)) :
    (readSection root "loot_modifiers" (readLootModifiers api) s).ancientRankValue ∈
      ({0, 1, 2} : Set ℤ) :=
  readSection_preserves
    (P := fun s : LootModifiersConfig => s.ancientRankValue ∈ ({0, 1, 2} : Set ℤ)) hs
    (fun table => readLootModifiers_rank api table hs) root _

end Sections

/-- The roots that keep a configuration in range: no output target given as a string of a
number below 720, and no season number or speed that is nan. -/
structure RangeSafe (api : Api) (root : Table) : Prop where
  target : ∀ table, subtable root "resolution_hack" = some table →
    readNumber api table kKeysReshackOutputTarget = none →
      ∀ s, readValue api.valueString table kKeysReshackOutputTarget = some s → ¬LowTarget s
  season : ∀ table, subtable root "seasons" = some table →
    readNumber api table ["SeasonNumber", "Number", "Season"] ≠ some .nan
  moveSpeed : ∀ table, subtable root "rare_cheats" = some table →
    readNumber api table ["MovementSpeedMultiplier", "MoveSpeedMultiplier"] ≠ some .nan
  attackSpeed : ∀ table, subtable root "rare_cheats" = some table →
    readNumber api table
      ["AttackSpeedMultiplier", "AtkSpeedMultiplier", "AttackSpeed"] ≠ some .nan

/-- The season map and the load flags are outside the ranges. -/
theorem inRange_applyTable (api : Api) (devMem : Option ℕ) (c : PatchConfig) (root : Table) :
    InRange devMem (applyTable api devMem c root) ↔
      InRange devMem (readSections api root (applyTomlTable api devMem c root)) := by
  simp only [applyTable, applySeasonEventMapIfNeeded_eq]
  exact ⟨fun h => ⟨h.1, h.2, h.3, h.4, h.5, h.6, h.7, h.8, h.9, h.10, h.11, h.12⟩,
    fun h => ⟨h.1, h.2, h.3, h.4, h.5, h.6, h.7, h.8, h.9, h.10, h.11, h.12⟩⟩

/-- Applying a TOML root to a configuration in range leaves it in range exactly when the
root is safe. -/
theorem inRange_applyTable_iff (api : Api) (devMem : Option ℕ) {c : PatchConfig}
    (hc : InRange devMem c) (root : Table) :
    InRange devMem (applyTable api devMem c root) ↔ RangeSafe api root := by
  rw [inRange_applyTable]
  have hreshack := applyTomlTable_preserves (preserves_reshackInRange devMem) api root
    ⟨hc.outputHandheldScale, hc.scales, hc.clampTextureResolution⟩
  have htarget := targetResolution_applyTomlTable api devMem c root
  obtain ⟨hseasons, hrifts, -, hrare, hloot, hextra⟩ :=
    applyTomlTable_unschemed api devMem c root
  generalize applyTomlTable api devMem c root = c₁ at *
  obtain ⟨extra, hr, hextraIn⟩ := readSection_resolutionHack api root c₁.resolutionHack
  have htargetIff := readSection_iff
    (P := fun n => 720 ≤ n ∧ n ≤ maxResolutionHackOutputTarget devMem) hc.targetResolution
    (fun table => readOutputTarget_mem_iff api table hc.targetResolution) root
    "resolution_hack"
  have hseasonIff := currentSeason_readSection_iff api root hc.currentSeason
  have hmoveIff := moveSpeed_readSection_iff api root hc.moveSpeed
  have hattackIff := attackSpeed_readSection_iff api root hc.attackSpeed
  constructor
  · intro h
    refine ⟨htargetIff.1 ?_, hseasonIff.1 ?_, hmoveIff.1 ?_, hattackIff.1 ?_⟩
    · simpa only [readSections, hr, htarget] using h.targetResolution
    · simpa only [readSections, hseasons] using h.currentSeason
    · simpa only [readSections, hrare] using h.moveSpeed
    · simpa only [readSections, hrare] using h.attackSpeed
  · rintro ⟨h₁, h₂, h₃, h₄⟩
    constructor
    · simpa only [readSections, hr, htarget] using htargetIff.2 h₁
    · simpa only [readSections, hr] using hreshack.1
    · simp only [readSections, hr]
      exact hreshack.2.1
    · simpa only [readSections, hr] using hreshack.2.2
    · simpa only [readSections, hseasons] using hseasonIff.2 h₂
    · simpa only [readSections, hrifts] using riftRange_readSection api root hc.riftRange
    · simpa only [readSections, hr] using hextraIn (hextra ▸ hc.extra)
    · simpa only [readSections, hrare] using hmoveIff.2 h₃
    · simpa only [readSections, hrare] using hattackIff.2 h₄
    · simpa only [readSections, hloot] using forcedILevel_readSection api root hc.forcedILevel
    · simpa only [readSections, hloot] using
        tieredLootRunLevel_readSection api root hc.tieredLootRunLevel
    · simpa only [readSections, hloot] using
        ancientRankValue_readSection api root hc.ancientRankValue

/-- A season past the bound, an infinite speed and a plain target leave the defaults in
range. -/
theorem inRange_applyTable_default :
    InRange none (applyTable Api.accessors none {}
      [("rare_cheats", .table [("AttackSpeed", .float .posInf)]),
        ("resolution_hack", .table [("OutputTarget", .string "1000p")]),
        ("seasons", .table [("SeasonNumber", .integer 250)])]) := by
  refine (inRange_applyTable_iff _ none (inRange_default none) _).2 ⟨?_, ?_, ?_, ?_⟩
  · rintro table ht - s hs ⟨n, hn, -⟩
    obtain rfl : [("OutputTarget", Node.string "1000p")] = table := Option.some.inj ht
    obtain rfl : "1000p" = s := Option.some.inj hs
    rw [show fromCharsU32 (normalizeKey "1000p") = none by decide +kernel] at hn
    cases hn
  · rintro table ht
    obtain rfl : [("SeasonNumber", Node.integer 250)] = table := Option.some.inj ht
    exact fun h => nomatch h
  · rintro table ht
    obtain rfl : [("AttackSpeed", Node.float .posInf)] = table := Option.some.inj ht
    exact fun h => nomatch h
  · rintro table ht
    obtain rfl : [("AttackSpeed", Node.float .posInf)] = table := Option.some.inj ht
    exact fun h => nomatch h

/-- A root with the output target `"100"`. -/
def lowTargetRoot : Table :=
  [("resolution_hack", .table [("OutputTarget", .string "100")])]

/-- The output target `"100"` goes past the numeric clamp: the defaults are in range, and
the configuration read over them is not. -/
theorem not_inRange_of_lowTargetRoot :
    Api.accessors.Laws ∧ InRange none {} ∧
      (applyTable Api.accessors none {} lowTargetRoot).resolutionHack.targetResolution = 100 ∧
      ¬InRange none (applyTable Api.accessors none {} lowTargetRoot) := by
  have h : (applyTable Api.accessors none {} lowTargetRoot).resolutionHack.targetResolution =
      100 := by decide +kernel
  refine ⟨Api.laws_ofText _ _, inRange_default none, h, fun hr => ?_⟩
  have := hr.targetResolution.1
  omega

end D3Hack
