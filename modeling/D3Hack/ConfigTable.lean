import D3Hack.ConfigSchema
import D3Hack.SeasonMap

/-!
# Configurations and TOML tables

`applyTable` reads a configuration from a TOML root: the schema entries first, then the
sections that are read by hand, and the season map last. `buildPatchConfigTable` writes one,
and `normalizePatchConfig` reads back what it wrote. Each section has its own reader, named
after it, and its own list of written entries.
-/

namespace D3Hack

open Toml

section Read

variable (api : Api) (table : Table)

/-! ## Typed readers -/

/-- `ReadBool`. -/
def readBool (keys : List String) (fallback : Bool) : Bool :=
  (readValue api.valueBool table keys).getD fallback

/-- `ReadU32`. -/
def readU32 (keys : List String) (fallback minValue maxValue : ℕ) : ℕ :=
  match readNumber api table keys with
  | some value => (value.clamp (.fin minValue) (.fin maxValue)).toNat 32
  | none => fallback

/-- `ReadI32`. -/
def readI32 (keys : List String) (fallback minValue maxValue : ℤ) : ℤ :=
  match readNumber api table keys with
  | some value => (value.clamp (.fin minValue) (.fin maxValue)).toInt 32
  | none => fallback

/-- `ReadDouble`. -/
def readDouble (keys : List String) (fallback : Ieee) (minValue maxValue : ℚ) : Ieee :=
  match readNumber api table keys with
  | some value => value.clamp (.fin minValue) (.fin maxValue)
  | none => fallback

/-- `ReadString`. -/
def readString (keys : List String) (fallback : String) : String :=
  (readValue api.valueString table keys).getD fallback

/-- `ParseSeasonEventMapMode`. -/
def parseSeasonEventMapMode (input : String) (fallback : SeasonEventMapMode) :
    SeasonEventMapMode :=
  let normalized := normalizeKey input
  if normalized = "" then fallback
  else if normalized ∈ ["maponly", "map", "seasonmap", "simulate"] then .mapOnly
  else if normalized ∈ ["overlay", "overlayconfig", "add", "additive", "merge"] then
    .overlayConfig
  else if normalized ∈ ["disabled", "off", "none", "false"] then .disabled
  else fallback

/-- `ReadSeasonEventMapMode`. -/
def readSeasonEventMapMode (keys : List String) (fallback : SeasonEventMapMode) :
    SeasonEventMapMode :=
  match readValue api.valueString table keys with
  | some value => parseSeasonEventMapMode value fallback
  | none =>
    match readValue api.valueBool table keys with
    | some value => if value then .mapOnly else .disabled
    | none => fallback

/-- `ReadSeasonEventFlagBool`. -/
def readSeasonEventFlagBool (key legacyKey : String) (fallback : Bool) : Bool :=
  if legacyKey ≠ "" then readBool api table [key, legacyKey] fallback
  else readBool api table [key] fallback

/-- `AncientRankToValue`. -/
def ancientRankToValue (input : String) (fallback : ℤ) : ℤ :=
  let normalized := normalizeKey input
  if normalized ∈ ["0", "normal", "none"] then 0
  else if normalized ∈ ["1", "ancient"] then 1
  else if normalized ∈ ["2", "primal", "primalancient"] then 2
  else fallback

/-- `AncientRankCanonical`. -/
def ancientRankCanonical (value : ℤ) (fallback : String) : String :=
  if value = 0 then "Normal"
  else if value = 1 then "Ancient"
  else if value = 2 then "Primal"
  else fallback

/-! ## Sections read by hand -/

/-- The section `seasons` of `PatchConfig::ApplyTable`. -/
def readSeasons (s : SeasonsConfig) : SeasonsConfig where
  active := readBool api table ["SectionEnabled", "Enabled", "Active"] s.active
  allowOnline := readBool api table ["AllowOnlinePlay", "AllowOnline"] s.allowOnline
  currentSeason :=
    readU32 api table ["SeasonNumber", "Number", "Season"] s.currentSeason 1 200
  spoofPtr := readBool api table ["SpoofPtr", "SpoofPTR", "PtrSpoof"] s.spoofPtr

/-- The section `challenge_rifts`; a range the wrong way round is swapped. -/
def readChallengeRifts (s : ChallengeRiftsConfig) : ChallengeRiftsConfig :=
  let rangeStart :=
    readU32 api table ["RiftRangeStart", "RangeStart", "RangeMin"] s.rangeStart 0 999
  let rangeEnd := readU32 api table ["RiftRangeEnd", "RangeEnd", "RangeMax"] s.rangeEnd 0 999
  { active := readBool api table ["SectionEnabled", "Enabled", "Active"] s.active
    random := readBool api table ["MakeRiftsRandom", "Random"] s.random
    rangeStart := if rangeStart > rangeEnd then rangeEnd else rangeStart
    rangeEnd := if rangeStart > rangeEnd then rangeStart else rangeEnd }

/-- The section `events`. -/
def readEvents (s : EventsConfig) : EventsConfig where
  active := readBool api table ["SectionEnabled", "Enabled", "Active"] s.active
  seasonMapMode :=
    readSeasonEventMapMode api table
      ["SeasonMapMode", "SeasonEventMapMode", "SeasonEventMap", "SeasonMap"] s.seasonMapMode
  flags := fun f => readSeasonEventFlagBool api table f.name f.legacyKey (s.flags f)

open ExtraConfig in
/-- The section `resolution_hack.extra`. -/
def readExtra (s : ExtraConfig) : ExtraConfig where
  windowLeft :=
    readI32 api table ["WindowLeft", "WinLeft", "Left"] s.windowLeft kUnset kMaxDimension
  windowTop :=
    readI32 api table ["WindowTop", "WinTop", "Top"] s.windowTop kUnset kMaxDimension
  windowWidth :=
    readI32 api table ["WindowWidth", "WinWidth", "Width"] s.windowWidth kUnset kMaxDimension
  windowHeight :=
    readI32 api table ["WindowHeight", "WinHeight", "Height"] s.windowHeight kUnset
      kMaxDimension
  uiOptWidth :=
    readI32 api table ["UIOptWidth", "UIWidth", "UiWidth"] s.uiOptWidth kUnset kMaxDimension
  uiOptHeight :=
    readI32 api table ["UIOptHeight", "UIHeight", "UiHeight"] s.uiOptHeight kUnset
      kMaxDimension
  renderWidth :=
    readI32 api table ["RenderWidth", "DisplayWidth", "BackbufferWidth"] s.renderWidth kUnset
      kMaxDimension
  renderHeight :=
    readI32 api table ["RenderHeight", "DisplayHeight", "BackbufferHeight"] s.renderHeight
      kUnset kMaxDimension
  refreshRate :=
    readI32 api table ["RefreshRate", "Hz"] s.refreshRate kUnset kMaxRefreshRate
  bitDepth := readI32 api table ["BitDepth", "Bpp"] s.bitDepth kUnset kMaxBitDepth
  msaaLevel :=
    readI32 api table ["MSAALevel", "MSAA", "Msaa"] s.msaaLevel kUnset kMaxMsaaLevel

/-- The section `rare_cheats`. -/
def readRareCheats (s : RareCheatsConfig) : RareCheatsConfig where
  active := readBool api table ["SectionEnabled", "Enabled", "Active"] s.active
  moveSpeed :=
    readDouble api table ["MovementSpeedMultiplier", "MoveSpeedMultiplier"] s.moveSpeed
      (1 / 10) 10
  attackSpeed :=
    readDouble api table ["AttackSpeedMultiplier", "AtkSpeedMultiplier", "AttackSpeed"]
      s.attackSpeed (1 / 10) 10
  floatingDamageColor :=
    readBool api table ["FloatingDamageColor", "FloatingDamageColors", "FloatingDamage"]
      s.floatingDamageColor
  guaranteedLegendaries :=
    readBool api table ["GuaranteedLegendaryChance"] s.guaranteedLegendaries
  dropAnything := readBool api table ["DropAnyItems"] s.dropAnything
  instantPortal := readBool api table ["InstantPortalAndBookOfCain"] s.instantPortal
  noCooldowns := readBool api table ["NoCooldowns"] s.noCooldowns
  instantCraftActions :=
    readBool api table ["InstantCubeAndCraftsAndEnchants"] s.instantCraftActions
  anyGemAnySlot := readBool api table ["SocketGemsToAnySlot"] s.anyGemAnySlot
  autoPickup := readBool api table ["AutoPickup"] s.autoPickup
  equipAnySlot := readBool api table ["EquipAnySlot", "EquipAnyItem"] s.equipAnySlot
  unlockAllDifficulties :=
    readBool api table ["UnlockAllDifficulties", "UnlockDifficulties"] s.unlockAllDifficulties
  easyKillDamage := readBool api table ["EasyKillDamage", "EasyKillBoost"] s.easyKillDamage
  infiniteMp := readBool api table ["InfiniteMP", "InfiniteMana", "InfiniteResource"] s.infiniteMp
  cubeNoConsume :=
    readBool api table ["CubeNoConsumeMaterials", "CubeNoConsume", "KanaiCubeNoConsume"]
      s.cubeNoConsume
  gemUpgradeAlways :=
    readBool api table
      ["LegendaryGemUpgradeAlways", "GemUpgradeAlways", "LegendaryGemUpgradeChance"]
      s.gemUpgradeAlways
  gemUpgradeSpeed :=
    readBool api table ["LegendaryGemUpgradeSpeed", "GemUpgradeSpeed", "GemUpgradeFast"]
      s.gemUpgradeSpeed
  gemUpgradeLvl150 :=
    readBool api table ["LegendaryGemLevel150", "GemUpgradeLevel150", "GemLevel150"]
      s.gemUpgradeLvl150
  equipMultiLegendary :=
    readBool api table
      ["EquipMultipleLegendaries", "EquipMultipleLegendaryItems", "EquipMultiLegendary"]
      s.equipMultiLegendary
  superGodMode := readBool api table ["SuperGodMode", "EnableSuperGodMode"] s.superGodMode
  extraGrOrbsElites :=
    readBool api table
      ["ExtraGreaterRiftOrbsOnEliteKill", "ExtraGROrbsOnEliteKill", "ExtraGROrbsElites"]
      s.extraGrOrbsElites

/-- The section `loot_modifiers`. -/
def readLootModifiers (s : LootModifiersConfig) : LootModifiersConfig :=
  let ancientRank := readString api table ["AncientRank"] s.ancientRank
  let ancientRankValue := ancientRankToValue ancientRank s.ancientRankValue
  { active := readBool api table ["SectionEnabled", "Enabled", "Active"] s.active
    disableAncientDrops := readBool api table ["DisableAncientDrops"] s.disableAncientDrops
    disablePrimalAncientDrops :=
      readBool api table ["DisablePrimalAncientDrops"] s.disablePrimalAncientDrops
    disableTormentDrops := readBool api table ["DisableTormentDrops"] s.disableTormentDrops
    disableTormentCheck := readBool api table ["DisableTormentCheck"] s.disableTormentCheck
    suppressGiftGeneration :=
      readBool api table ["SuppressGiftGeneration"] s.suppressGiftGeneration
    forcedILevel := readI32 api table ["ForcedILevel"] s.forcedILevel 0 70
    tieredLootRunLevel := readI32 api table ["TieredLootRunLevel"] s.tieredLootRunLevel 0 150
    ancientRank := ancientRankCanonical ancientRankValue ancientRank
    ancientRankValue := ancientRankValue }

end Read

/-- A section of the root read by hand, where the root has its table. -/
def readSection {α : Type} (root : Table) (key : String) (read : Table → α → α) (s : α) : α :=
  match subtable root key with
  | some table => read table s
  | none => s

/-- The `extra` table of the section `resolution_hack`. -/
def readResolutionHack (api : Api) (table : Table) (r : ResolutionHackConfig) :
    ResolutionHackConfig :=
  { r with extra := readSection table "extra" (readExtra api) r.extra }

/-- The sections that `PatchConfig::ApplyTable` reads by hand. -/
def readSections (api : Api) (root : Table) (c : PatchConfig) : PatchConfig :=
  { c with
    seasons := readSection root "seasons" (readSeasons api) c.seasons
    challengeRifts :=
      readSection root "challenge_rifts" (readChallengeRifts api) c.challengeRifts
    events := readSection root "events" (readEvents api) c.events
    resolutionHack :=
      readSection root "resolution_hack" (readResolutionHack api) c.resolutionHack
    rareCheats := readSection root "rare_cheats" (readRareCheats api) c.rareCheats
    lootModifiers := readSection root "loot_modifiers" (readLootModifiers api) c.lootModifiers }

/-- `PatchConfig::ApplyTable`. -/
def applyTable (api : Api) (devMem : Option ℕ) (config : PatchConfig) (root : Table) :
    PatchConfig :=
  let read := readSections api root (applyTomlTable api devMem config root)
  { applySeasonEventMapIfNeeded read with initialized := true, defaultsOnly := false }

/-! ## Writing -/

/-- `Round1Decimal`. -/
def round1Decimal (value : Ieee) : Ieee := ((value.scale 10).round).scale (1 / 10)

/-- `SeasonMapModeToString`. -/
def seasonMapModeToString : SeasonEventMapMode → String
  | .mapOnly => "MapOnly"
  | .overlayConfig => "OverlayConfig"
  | .disabled => "Disabled"

/-- The entries written to `resolution_hack.extra`. -/
def extraNodes (s : ExtraConfig) : List (String × Node) :=
  [("WindowLeft", .integer s.windowLeft), ("WindowTop", .integer s.windowTop),
    ("WindowWidth", .integer s.windowWidth), ("WindowHeight", .integer s.windowHeight),
    ("UIOptWidth", .integer s.uiOptWidth), ("UIOptHeight", .integer s.uiOptHeight),
    ("RenderWidth", .integer s.renderWidth), ("RenderHeight", .integer s.renderHeight),
    ("RefreshRate", .integer s.refreshRate), ("BitDepth", .integer s.bitDepth),
    ("MSAALevel", .integer s.msaaLevel)]

/-- The entries written to `seasons`. -/
def seasonsNodes (s : SeasonsConfig) : List (String × Node) :=
  [("SectionEnabled", .boolean s.active), ("AllowOnlinePlay", .boolean s.allowOnline),
    ("SeasonNumber", .integer s.currentSeason), ("SpoofPtr", .boolean s.spoofPtr)]

/-- The entries written to `challenge_rifts`. -/
def challengeRiftsNodes (s : ChallengeRiftsConfig) : List (String × Node) :=
  [("SectionEnabled", .boolean s.active), ("MakeRiftsRandom", .boolean s.random),
    ("RiftRangeStart", .integer s.rangeStart), ("RiftRangeEnd", .integer s.rangeEnd)]

/-- The entries written to `events`. -/
def eventsNodes (s : EventsConfig) : List (String × Node) :=
  ("SectionEnabled", .boolean s.active) ::
    ("SeasonMapMode", .string (seasonMapModeToString s.seasonMapMode)) ::
    SeasonEventFlag.all.map fun f => (f.name, .boolean (s.flags f))

/-- The entries written to `rare_cheats`. -/
def rareCheatsNodes (s : RareCheatsConfig) : List (String × Node) :=
  [("SectionEnabled", .boolean s.active),
    ("MovementSpeedMultiplier", .float (round1Decimal s.moveSpeed)),
    ("AttackSpeedMultiplier", .float (round1Decimal s.attackSpeed)),
    ("FloatingDamageColor", .boolean s.floatingDamageColor),
    ("GuaranteedLegendaryChance", .boolean s.guaranteedLegendaries),
    ("DropAnyItems", .boolean s.dropAnything),
    ("InstantPortalAndBookOfCain", .boolean s.instantPortal),
    ("NoCooldowns", .boolean s.noCooldowns),
    ("InstantCubeAndCraftsAndEnchants", .boolean s.instantCraftActions),
    ("SocketGemsToAnySlot", .boolean s.anyGemAnySlot),
    ("AutoPickup", .boolean s.autoPickup),
    ("EquipAnySlot", .boolean s.equipAnySlot),
    ("UnlockAllDifficulties", .boolean s.unlockAllDifficulties),
    ("EasyKillDamage", .boolean s.easyKillDamage),
    ("InfiniteMP", .boolean s.infiniteMp),
    ("CubeNoConsumeMaterials", .boolean s.cubeNoConsume),
    ("LegendaryGemUpgradeAlways", .boolean s.gemUpgradeAlways),
    ("LegendaryGemUpgradeSpeed", .boolean s.gemUpgradeSpeed),
    ("LegendaryGemLevel150", .boolean s.gemUpgradeLvl150),
    ("EquipMultipleLegendaries", .boolean s.equipMultiLegendary),
    ("SuperGodMode", .boolean s.superGodMode),
    ("ExtraGreaterRiftOrbsOnEliteKill", .boolean s.extraGrOrbsElites)]

/-- The entries written to `loot_modifiers`. -/
def lootModifiersNodes (s : LootModifiersConfig) : List (String × Node) :=
  [("SectionEnabled", .boolean s.active),
    ("DisableAncientDrops", .boolean s.disableAncientDrops),
    ("DisablePrimalAncientDrops", .boolean s.disablePrimalAncientDrops),
    ("DisableTormentDrops", .boolean s.disableTormentDrops),
    ("DisableTormentCheck", .boolean s.disableTormentCheck),
    ("SuppressGiftGeneration", .boolean s.suppressGiftGeneration),
    ("ForcedILevel", .integer s.forcedILevel),
    ("TieredLootRunLevel", .integer s.tieredLootRunLevel),
    ("AncientRank", .string (ancientRankCanonical s.ancientRankValue s.ancientRank))]

/-- The sections that `BuildPatchConfigTable` writes by hand. -/
def sectionNodes (c : PatchConfig) : List (String × Table) :=
  [("resolution_hack",
      Table.ofInserts [("extra", .table (Table.ofInserts (extraNodes c.resolutionHack.extra)))]),
    ("seasons", Table.ofInserts (seasonsNodes c.seasons)),
    ("challenge_rifts", Table.ofInserts (challengeRiftsNodes c.challengeRifts)),
    ("events", Table.ofInserts (eventsNodes c.events)),
    ("rare_cheats", Table.ofInserts (rareCheatsNodes c.rareCheats)),
    ("loot_modifiers", Table.ofInserts (lootModifiersNodes c.lootModifiers))]

/-- `BuildPatchConfigTable`. -/
def buildPatchConfigTable (devMem : Option ℕ) (c : PatchConfig) : Table :=
  insertIntoToml devMem
    (Table.ofInserts ((sectionNodes c).map fun s => (s.1, .table s.2))) c

/-- `NormalizePatchConfig`. -/
def normalizePatchConfig (api : Api) (devMem : Option ℕ) (c : PatchConfig) : PatchConfig :=
  applyTable api devMem {} (buildPatchConfigTable devMem c)

end D3Hack
