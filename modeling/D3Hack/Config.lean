import D3Hack.Ieee
import Mathlib.Data.List.Nodup

/-!
# The patch configuration

`PatchConfig` with the built-in defaults of every section. The season event flags come from
one table, `SeasonEventFlag` with its four columns, and a configuration holds one boolean
for each of them. Floating-point settings are `Ieee`, unsigned ones `ℕ` and signed ones `ℤ`.
-/

namespace D3Hack

/-! ## Season event flags -/

/-- The rows of `D3HACK_SEASON_EVENT_FLAGS`. -/
inductive SeasonEventFlag where
  | igrEnabled
  | anniversaryEnabled
  | easterEggWorldEnabled
  | doubleRiftKeystones
  | doubleBloodShards
  | doubleTreasureGoblins
  | doubleBountyBags
  | royalGrandeur
  | legacyOfNightmares
  | triunesWill
  | pandemonium
  | kanaiPowers
  | trialsOfTempests
  | shadowClones
  | fourthKanaisCubeSlot
  | etherealItems
  | soulShards
  | swarmRifts
  | sanctifiedItems
  | darkAlchemy
  | nestingPortals
  deriving DecidableEq

namespace SeasonEventFlag

/-- The flags in the order of the table. -/
def all : List SeasonEventFlag :=
  [igrEnabled, anniversaryEnabled, easterEggWorldEnabled, doubleRiftKeystones,
    doubleBloodShards, doubleTreasureGoblins, doubleBountyBags, royalGrandeur,
    legacyOfNightmares, triunesWill, pandemonium, kanaiPowers, trialsOfTempests,
    shadowClones, fourthKanaisCubeSlot, etherealItems, soulShards, swarmRifts,
    sanctifiedItems, darkAlchemy, nestingPortals]

/-- The column `name`, which is also the TOML key. -/
def name : SeasonEventFlag → String
  | igrEnabled => "IgrEnabled"
  | anniversaryEnabled => "AnniversaryEnabled"
  | easterEggWorldEnabled => "EasterEggWorldEnabled"
  | doubleRiftKeystones => "DoubleRiftKeystones"
  | doubleBloodShards => "DoubleBloodShards"
  | doubleTreasureGoblins => "DoubleTreasureGoblins"
  | doubleBountyBags => "DoubleBountyBags"
  | royalGrandeur => "RoyalGrandeur"
  | legacyOfNightmares => "LegacyOfNightmares"
  | triunesWill => "TriunesWill"
  | pandemonium => "Pandemonium"
  | kanaiPowers => "KanaiPowers"
  | trialsOfTempests => "TrialsOfTempests"
  | shadowClones => "ShadowClones"
  | fourthKanaisCubeSlot => "FourthKanaisCubeSlot"
  | etherealItems => "EtherealItems"
  | soulShards => "SoulShards"
  | swarmRifts => "SwarmRifts"
  | sanctifiedItems => "SanctifiedItems"
  | darkAlchemy => "DarkAlchemy"
  | nestingPortals => "NestingPortals"

/-- The column `default_config`. -/
def defaultConfig : SeasonEventFlag → Bool
  | doubleRiftKeystones | doubleBloodShards | doubleTreasureGoblins | doubleBountyBags
  | darkAlchemy => true
  | _ => false

/-- The column `default_map`. -/
def defaultMap : SeasonEventFlag → Bool
  | darkAlchemy => true
  | _ => false

/-- The column `legacy_key`. -/
def legacyKey : SeasonEventFlag → String
  | etherealItems => "EthrealItems"
  | _ => ""

theorem mem_all (f : SeasonEventFlag) : f ∈ all := by cases f <;> decide

/-- No two flags share a key. -/
theorem name_injective : Function.Injective name := fun f g h =>
  List.inj_on_of_nodup_map (by decide +kernel : (all.map name).Nodup) (mem_all f) (mem_all g) h

end SeasonEventFlag

/-! ## The sections -/

/-- `PatchConfig::SeasonEventMapMode`. -/
inductive SeasonEventMapMode where
  | mapOnly
  | overlayConfig
  | disabled
  deriving DecidableEq

/-- `ResolutionHackConfig::ExtraConfig`. -/
structure ExtraConfig where
  windowLeft : ℤ := -1
  windowTop : ℤ := -1
  windowWidth : ℤ := -1
  windowHeight : ℤ := -1
  uiOptWidth : ℤ := -1
  uiOptHeight : ℤ := -1
  renderWidth : ℤ := -1
  renderHeight : ℤ := -1
  refreshRate : ℤ := -1
  bitDepth : ℤ := -1
  msaaLevel : ℤ := -1

namespace ExtraConfig

/-- The game keeps its own value. -/
def kUnset : ℤ := -1

/-- The largest dimension, in pixels. -/
def kMaxDimension : ℤ := 16384

/-- The largest refresh rate. -/
def kMaxRefreshRate : ℤ := 1000

/-- The largest depth of colours. -/
def kMaxBitDepth : ℤ := 64

/-- The largest level of multisampling. -/
def kMaxMsaaLevel : ℤ := 16

end ExtraConfig

/-- `PatchConfig::ResolutionHackConfig`. -/
structure ResolutionHackConfig where
  active : Bool := true
  targetResolution : ℕ := 1080
  minResScale : Ieee := .fin 85
  maxResScale : Ieee := .fin 100
  spoofDocked : Bool := false
  expScheduler : Bool := true
  /-- In percent; zero leaves the stock size. -/
  outputHandheldScale : Ieee := .fin 80
  clampTextureResolution : ℕ := 1152
  extra : ExtraConfig := {}

namespace ResolutionHackConfig

/-- The smallest clamp of textures that is not zero. -/
def kClampTextureResolutionMin : ℕ := 100

/-- The largest clamp of textures. -/
def kClampTextureResolutionMax : ℕ := 9999

/-- The smallest scale, in percent. -/
def kHandheldScaleMin : ℚ := 40

/-- The largest scale. -/
def kHandheldScaleMax : ℚ := 100

/-- Scales are multiples of it. -/
def kHandheldScaleStep : ℚ := 5

/-- The scale by default. -/
def kHandheldScaleDefault : ℚ := 80

/-- `AlignEven`. -/
def alignEven (value : ℕ) : ℕ := value - value % 2

/-- `OutputHeightPx`. -/
def outputHeightPx (r : ResolutionHackConfig) : ℕ := alignEven r.targetResolution

/-- `NormalizeHandheldScale`. -/
def normalizeHandheldScale (value : Ieee) : Ieee :=
  if value.le (.fin 0) then .fin 0
  else
    let clamped := value.clamp (.fin kHandheldScaleMin) (.fin kHandheldScaleMax)
    let stepped := ((clamped.scale (1 / kHandheldScaleStep)).round).scale kHandheldScaleStep
    stepped.clamp (.fin kHandheldScaleMin) (.fin kHandheldScaleMax)

/-- `kAspectRatio`, which is `16.0f / 9.0f`. -/
def kAspectRatio : ℚ := 14913081 / 2 ^ 23

/-- `0.01f`. -/
def percent : ℚ := 10737418 / 2 ^ 30

example : (Ieee.fin (16 / 9)).toFloat = .fin kAspectRatio ∧
    (Ieee.fin (1 / 100)).toFloat = .fin percent := by decide +kernel

/-- `HandheldScaleFraction`. -/
def handheldScaleFraction (r : ResolutionHackConfig) : Ieee :=
  if r.outputHandheldScale.le (.fin 0) then
    ((Ieee.fin kHandheldScaleDefault).scale percent).toFloat
  else
    ((r.outputHandheldScale.clamp (.fin kHandheldScaleMin) (.fin kHandheldScaleMax)).scale
      percent).toFloat

/-- `WidthForHeight`. -/
def widthForHeight (height : ℕ) : ℕ :=
  (Ieee.fin (Ieee.floatQ height * kAspectRatio)).toFloat.toNat 32

/-- `OutputWidthPx`. -/
def outputWidthPx (r : ResolutionHackConfig) : ℕ := alignEven (widthForHeight r.outputHeightPx)

/-- `OutputHandheldHeightPx`; `lroundf` gives a `long`. -/
def outputHandheldHeightPx (r : ResolutionHackConfig) : ℕ :=
  let scale := r.handheldScaleFraction
  if scale.le (.fin 0) then 0
  else
    let scaled := (scale.scale (Ieee.floatQ r.targetResolution)).toFloat
    alignEven ((scaled.round.toInt 64) % 2 ^ 32).toNat

example :
    outputHandheldHeightPx { targetResolution := 750, outputHandheldScale := .fin 65 } = 486 := by
  decide +kernel

end ResolutionHackConfig

/-- The section `seasons`. -/
structure SeasonsConfig where
  active : Bool := true
  allowOnline : Bool := false
  currentSeason : ℕ := 30
  spoofPtr : Bool := false

/-- The section `challenge_rifts`. -/
structure ChallengeRiftsConfig where
  active : Bool := false
  random : Bool := true
  rangeStart : ℕ := 0
  rangeEnd : ℕ := 20

/-- The section `events`. -/
structure EventsConfig where
  active : Bool := true
  seasonMapMode : SeasonEventMapMode := .disabled
  flags : SeasonEventFlag → Bool := SeasonEventFlag.defaultConfig

/-- The section `rare_cheats`. -/
structure RareCheatsConfig where
  active : Bool := true
  moveSpeed : Ieee := .fin (5 / 2)
  attackSpeed : Ieee := .fin 1
  floatingDamageColor : Bool := false
  guaranteedLegendaries : Bool := false
  dropAnything : Bool := false
  instantPortal : Bool := true
  noCooldowns : Bool := false
  instantCraftActions : Bool := true
  anyGemAnySlot : Bool := false
  autoPickup : Bool := false
  equipAnySlot : Bool := false
  unlockAllDifficulties : Bool := true
  easyKillDamage : Bool := false
  infiniteMp : Bool := true
  cubeNoConsume : Bool := false
  gemUpgradeAlways : Bool := false
  gemUpgradeSpeed : Bool := true
  gemUpgradeLvl150 : Bool := false
  equipMultiLegendary : Bool := true
  superGodMode : Bool := false
  extraGrOrbsElites : Bool := false

/-- The section `overlays`. -/
structure OverlaysConfig where
  active : Bool := true
  buildlockerWatermark : Bool := false
  ddmLabels : Bool := true
  fpsLabel : Bool := false
  varResLabel : Bool := true

/-- The section `loot_modifiers`. -/
structure LootModifiersConfig where
  active : Bool := false
  disableAncientDrops : Bool := false
  disablePrimalAncientDrops : Bool := false
  disableTormentDrops : Bool := false
  disableTormentCheck : Bool := false
  suppressGiftGeneration : Bool := true
  forcedILevel : ℤ := 0
  tieredLootRunLevel : ℤ := 0
  ancientRank : String := "Primal"
  ancientRankValue : ℤ := 2

/-- The section `debug`. -/
structure DebugConfig where
  active : Bool := true
  enableCrashes : Bool := false
  enablePubfileDump : Bool := false
  enableErrorTraces : Bool := true
  enableDebugFlags : Bool := false
  tagnx : Bool := false
  enableExceptionHandler : Bool := false
  enableOeNotificationHook : Bool := false
  logOeNotificationMessages : Bool := false

/-- The section `gui`. -/
structure GuiConfig where
  enabled : Bool := true
  visible : Bool := false
  allowLeftStickPassthrough : Bool := false
  languageOverride : String := ""

/-- `PatchConfig`; `{}` is the built-in default. -/
structure PatchConfig where
  initialized : Bool := false
  defaultsOnly : Bool := true
  seasons : SeasonsConfig := {}
  challengeRifts : ChallengeRiftsConfig := {}
  events : EventsConfig := {}
  rareCheats : RareCheatsConfig := {}
  resolutionHack : ResolutionHackConfig := {}
  overlays : OverlaysConfig := {}
  lootModifiers : LootModifiersConfig := {}
  debug : DebugConfig := {}
  gui : GuiConfig := {}

end D3Hack
