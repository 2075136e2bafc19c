import D3Hack.ConfigSchema
import D3Hack.Writes
import Mathlib.Tactic.Simps.Basic

/-!
# Code patches and game variables

The patch functions of the program: each writes words at named sites of the game's code, and
some set variables of the game. `PatchSite` is a row of the patch table, by the group and
the number in its name, or a raw offset, and `PatchWord` what is written there.

`Machine` is what the patches and hooks have done to the game so far.
-/

namespace D3Hack

open Guarded

/-! ## What is written -/

/-- The groups of rows of the patch table, without the prefix `patch_`; `offset` stands for a
raw offset, which is then the number. -/
inductive PatchGroup where
  | offset
  | buildlocker
  | dataBuildLockerFormat
  | resolutionTargets
  | dynamicSeasonal
  | cheatAllocErrors
  | cheatExtraGrOrbsElites
  | cheatDropAnything
  | cheatGuaranteedLegendaries
  | cheatInstantPortal
  | cheatNoCooldowns
  | cheatInstantIdentify
  | cheatInstantCraft
  | cheatInstantEnchant
  | cheatCubeInstantCraft
  | cheatCubeNoConsume
  | cheatGemUpgrade
  | cheatGemSpeed
  | cheatGemLvl150
  | cheatMultiLegendary
  | cheatAnyGemAnySlot
  | cheatAutoPickup
  | infiniteMp
  | signin
  | autosaveString
  | startString
  | localLogging
  | dupeNoequip
  | dupeStub
  | traceStatPath
  | hideonline
  | handicapUnlock
  | easykill
  deriving DecidableEq

/-- A place in the game that is written to. -/
structure PatchSite where
  group : PatchGroup
  number : ℕ
  deriving DecidableEq

/-- The registers of the patches. -/
inductive Reg where
  | w (n : ℕ)
  | x (n : ℕ)
  deriving DecidableEq

/-- What is written: an instruction, a word of bytes, the pair of `MakeAdrlPatch`, or text. -/
inductive PatchWord where
  | movz (rd : Reg) (imm : ℕ) (shift : ℕ := 0)
  | movk (rd : Reg) (imm : ℕ) (shift : ℕ := 0)
  | movn (rd : Reg) (imm : ℕ)
  | nop
  | ret
  | branch (offset : ℕ)
  | addImmediate (rd rn : Reg) (imm : ℕ)
  | bytes (b₀ b₁ b₂ b₃ : ℕ)
  | word (value : ℕ)
  | adrl (rd : Reg) (target : String)
  | text (s : String)
  deriving DecidableEq

/-- A word and where it is written. -/
abbrev PatchWrite := PatchSite × PatchWord

/-- The game variables that are set. -/
inductive XVar where
  | localLoggingEnable
  | challengeRiftEnabled
  | seasonsOverrideEnabled
  | onlineServicePTR
  | experimentalScheduling
  | seasonNum
  | seasonState
  | eventIgr
  | eventAnn
  | eventEggXvar
  | eventEnabled
  | eventSeasonOnly
  | event (f : SeasonEventFlag)
  | paragonCap
  deriving DecidableEq

/-- The value of a game variable. -/
inductive XValue where
  | bool (b : Bool)
  | uint32 (n : ℕ)
  deriving DecidableEq

/-- A game variable and the value that it is set to. -/
abbrev XVarWrite := XVar × XValue

/-- The hooks, by their names in the source. -/
inductive Hook where
  | enumGBTypes
  | fontStringDraw (site : ℕ)
  | tryPopNotificationMessageHook
  | equipAny
  | varResHook
  | forceAncient
  | moveSpeed
  | attackSpeed
  | floatingDmgHook
  | spoofPerfMode
  | spoofDocked
  | getRenderTargetCurrentResolutionHook
  | printChallengeRiftFailed
  | challengeRiftCallback
  | openChallengeRiftHook
  | challengeRiftRewardEarnedSaveToProfileHook
  | challengeRiftHandleChallengeRewardsHook
  | challengeRiftGrantRewardToPlayerIfEligibleHook
  | parsePartialFromStringHook
  | pubFileDataHex
  | printErrorDisplay
  | printErrorStringFinal
  | ensureNetworkServiceAccountAvailable
  | isNetworkServiceAccountAvailable
  | asyncContextGetResult
  | getNetworkServiceAccountId
  | loadNSAIDTokenCache
  | getNetworkServiceLicenseKind
  | loadModule
  | configFileRetrieved
  | seasonsFileRetrieved
  | blacklistFileRetrieved
  | mailboxCheckLobbyConnection
  | specifiersFromModifier
  | evalMod
  | dupeDroppedItem
  | requestDropItemHook
  | fastAttribGetIntValue
  | fastAttribGetFloatValue
  | attributesGetInt
  | attributesGetFloat
  deriving DecidableEq

/-! ## The machine -/

/-- What the program finds in the game: the memory mode, the symbols of the account hooks
that are there, the event variables that are there, and its event data. -/
structure GameEnv where
  devMem : Option ℕ
  symbolFound : Hook → Bool
  pointerSet : XVar → Bool
  buffStart : Option ℤ
  buffEnd : Option ℤ
  eggFlag : Option ℕ

/-- What the program has done to the game. -/
structure Machine where
  hooks : List Hook := []
  code : PatchSite → Option PatchWord := fun _ => none
  xvars : XVar → Option XValue := fun _ => none
  exceptionHandler : Bool := false
  rewardSaveGatePatched : Bool := false
  dynamicSeasonalPatchApplied : Bool := false
  dynamicSeasonalGeneration : ℕ := 0
  buffStart : Option ℤ := none
  buffEnd : Option ℤ := none
  eggFlag : Option ℕ := none

namespace Machine

variable (m : Machine)

/-- Hooks are installed. -/
@[simps -fullyApplied]
def install (hooks : List Hook) : Machine := { m with hooks := m.hooks ++ hooks }

/-- Words of the code are written. -/
@[simps -fullyApplied]
def patch (ws : List PatchWrite) : Machine := { m with code := Writes.apply m.code ws }

/-- Game variables are set. -/
@[simps -fullyApplied]
def setXVars (ws : List XVarWrite) : Machine := { m with xvars := Writes.apply m.xvars ws }

end Machine

/-! ## The patch functions -/

/-- `PatchBuildlocker`. -/
def patchBuildlocker (c : PatchConfig) : List PatchWrite :=
  if c.overlays.active && c.overlays.buildlockerWatermark then
    [(⟨.buildlocker, 1⟩, .nop),
      (⟨.buildlocker, 2⟩, .movz (.w 20) (8 + 0x27F)),
      (⟨.buildlocker, 3⟩, .adrl (.x 2) "g_tSignature"),
      (⟨.buildlocker, 4⟩, .adrl (.x 19) "crgbaTan"),
      (⟨.buildlocker, 5⟩, .adrl (.x 1) "g_szHackVerWatermark"),
      (⟨.dataBuildLockerFormat, 0⟩, .text "%s%s%d.%d.%d"),
      (⟨.buildlocker, 6⟩, .movz (.w 21) 0x13),
      (⟨.buildlocker, 7⟩, .bytes 0x00 0x28 0x2A 0x1E),
      (⟨.buildlocker, 8⟩, .bytes 0x00 0x28 0x2A 0x1E),
      (⟨.buildlocker, 9⟩, .nop)]
  else []

/-- `PatchResolutionTargets`. -/
def patchResolutionTargets (devMem : Option ℕ) (c : PatchConfig) : List PatchWrite :=
  [(⟨.resolutionTargets, 8⟩, .movz (.w 9) 32), (⟨.resolutionTargets, 9⟩, .movz (.w 8) 32)] ++
    if c.resolutionHack.active then
      let maxTarget := maxResolutionHackOutputTarget devMem
      let resolution := if c.resolutionHack.targetResolution > maxTarget then
        { c.resolutionHack with targetResolution := maxTarget } else c.resolutionHack
      let outW := resolution.outputWidthPx
      let outH := resolution.outputHeightPx
      let handheldH := resolution.outputHandheldHeightPx
      let fallbackW := if handheldH ≠ 0 then ResolutionHackConfig.widthForHeight handheldH else 1280
      let fallbackH := if handheldH ≠ 0 then handheldH else 720
      let heapSize := if outH ≥ 1800 then 0x69C00000 else 0x59C00000
      let maxAlloc := if outH ≥ 1800 then 0x20000000 else 0x10000000
      (if outH > 1280 then
        [(⟨.offset, 0x0E7770⟩, .movz (.w 19) (heapSize / 2 ^ 16) 16),
          (⟨.offset, 0x0E77A0⟩, .movz (.w 3) (maxAlloc / 2 ^ 16) 16)]
      else []) ++
        [(⟨.resolutionTargets, 1⟩, .movz (.x 8) (outW % 2 ^ 16)),
          (⟨.resolutionTargets, 2⟩, .movk (.x 8) (outH % 2 ^ 16) 32),
          (⟨.resolutionTargets, 3⟩, .movz (.x 9) (fallbackW % 2 ^ 16)),
          (⟨.resolutionTargets, 4⟩, .movk (.x 9) (fallbackH % 2 ^ 16) 32)]
    else []

/-- The code that `PatchDynamicSeasonal` patches with seasons active. -/
def dynamicSeasonalWrites (c : PatchConfig) : List PatchWrite :=
  [(⟨.dynamicSeasonal, 3⟩, .movz (.w 1) 1),
    (⟨.dynamicSeasonal, 4⟩, .movz (.w 0) 1),
    (⟨.dynamicSeasonal, 5⟩, .movz (.w 21) (c.seasons.currentSeason % 2 ^ 16)),
    (⟨.dynamicSeasonal, 8⟩, .movz (.w 0) 0),
    (⟨.dynamicSeasonal, 9⟩, .ret)]

/-- The variables that `PatchDynamicSeasonal` sets with seasons active. -/
def dynamicSeasonalXVars (c : PatchConfig) : List XVarWrite :=
  [(.seasonNum, .uint32 c.seasons.currentSeason), (.seasonState, .uint32 1)]

/-- `SetDynamicSeasonalPatchArmed`. -/
def setDynamicSeasonalPatchArmed (c : PatchConfig) (armed : Bool) (m : Machine) : Machine :=
  let armed := armed && c.seasons.active
  if m.dynamicSeasonalPatchApplied = armed then m
  else
    let m := m.patch [(⟨.dynamicSeasonal, 10⟩, if armed then .nop else .bytes 0xA8 0x00 0x90 0x36)]
    { m with
      dynamicSeasonalPatchApplied := armed
      dynamicSeasonalGeneration := m.dynamicSeasonalGeneration + 1 }

/-- `PatchDynamicSeasonal`. -/
def patchDynamicSeasonal (c : PatchConfig) (m : Machine) : Machine :=
  if c.seasons.active then
    setDynamicSeasonalPatchArmed c false
      ((m.setXVars (dynamicSeasonalXVars c)).patch (dynamicSeasonalWrites c))
  else setDynamicSeasonalPatchArmed c false m

/-- `UpdateDynamicSeasonalForSpawn`, for whether there are parameters and their flags. -/
def updateDynamicSeasonalForSpawn (c : PatchConfig) (creationFlags : Option ℕ) (m : Machine) :
    Machine :=
  if c.seasons.active then
    let spawnSeasonal := match creationFlags with
      | some flags => flags.testBit 18
      | none => false
    setDynamicSeasonalPatchArmed c spawnSeasonal m
  else setDynamicSeasonalPatchArmed c false m

/-- The flags that `PatchDynamicEvents` writes straight to their variables. -/
def setBoolFlags : List SeasonEventFlag :=
  [.doubleRiftKeystones, .doubleBloodShards, .doubleTreasureGoblins, .doubleBountyBags,
    .royalGrandeur, .legacyOfNightmares, .triunesWill, .pandemonium, .kanaiPowers,
    .trialsOfTempests, .shadowClones, .fourthKanaisCubeSlot, .etherealItems, .soulShards,
    .swarmRifts, .sanctifiedItems, .darkAlchemy, .nestingPortals]

/-- The variables that `PatchDynamicEvents` sets with events active. -/
def dynamicEventsXVars (env : GameEnv) (c : PatchConfig) : List XVarWrite :=
  let flags := c.events.flags
  ([(.eventIgr, .bool (flags .igrEnabled)), (.eventAnn, .bool (flags .anniversaryEnabled)),
    (.eventEggXvar, .bool (flags .easterEggWorldEnabled)), (.eventEnabled, .bool true),
    (.eventSeasonOnly, .bool false)] : List XVarWrite).filter (fun w => env.pointerSet w.1) ++
      setBoolFlags.map (fun f => (.event f, .bool (flags f))) ++ [(.paragonCap, .bool false)]

/-- `PatchDynamicEvents`. -/
def patchDynamicEvents (env : GameEnv) (c : PatchConfig) (m : Machine) : Machine :=
  if c.events.active then
    let m := match m.buffStart, m.buffEnd with
      | some start, some stop =>
        if start = 0 ∨ stop = 0 ∨ stop ≤ start then
          { m with buffStart := some 1, buffEnd := some 0x7FFFFFFFFFFFFFFF }
        else m
      | _, _ => m
    let egg := if c.events.flags .easterEggWorldEnabled then 1 else 0
    { m with eggFlag := m.eggFlag.map fun _ => egg }.setXVars (dynamicEventsXVars env c)
  else m

/-- The blocks of `PortCheatCodes` after its check that cheats are active. -/
def cheatBlocks : Table RareCheatsConfig PatchWrite :=
  [(fun _ => true,
      [(⟨.cheatAllocErrors, 1⟩, .movz (.w 8) 0),
        (⟨.cheatAllocErrors, 2⟩, .bytes 0xE0 0x03 0x00 0x91)]),
    (fun cheats => cheats.extraGrOrbsElites, [(⟨.cheatExtraGrOrbsElites, 1⟩, .movz (.w 3) 999)]),
    (fun cheats => cheats.dropAnything, [(⟨.cheatDropAnything, 1⟩, .movn (.w 0) 0)]),
    (fun cheats => cheats.guaranteedLegendaries,
      [(⟨.cheatGuaranteedLegendaries, 1⟩, .nop),
        (⟨.cheatGuaranteedLegendaries, 2⟩, .nop),
        (⟨.cheatGuaranteedLegendaries, 3⟩, .branch 0x18C),
        (⟨.cheatGuaranteedLegendaries, 4⟩, .nop),
        (⟨.cheatGuaranteedLegendaries, 5⟩, .branch 0x350)]),
    (fun cheats => cheats.instantPortal, [(⟨.cheatInstantPortal, 1⟩, .movz (.w 24) 0)]),
    (fun cheats => cheats.noCooldowns,
      [(⟨.cheatNoCooldowns, 1⟩, .bytes 0xE0 0x03 0x27 0x1E),
        (⟨.cheatNoCooldowns, 2⟩, .bytes 0xE0 0x03 0x00 0x2A),
        (⟨.cheatNoCooldowns, 3⟩, .bytes 0xE8 0x03 0x27 0x1E),
        (⟨.cheatNoCooldowns, 4⟩, .bytes 0xE8 0x03 0x27 0x1E)]),
    (fun cheats => cheats.instantCraftActions, [(⟨.cheatInstantIdentify, 1⟩, .nop)]),
    (fun cheats => cheats.instantCraftActions,
      [(⟨.cheatInstantCraft, 1⟩, .addImmediate (.w 8) (.w 8) 5)]),
    (fun cheats => cheats.instantCraftActions,
      [(⟨.cheatInstantEnchant, 1⟩, .addImmediate (.w 8) (.w 8) 1)]),
    (fun cheats => cheats.instantCraftActions,
      [(⟨.cheatCubeInstantCraft, 1⟩, .movz (.w 8) 0),
        (⟨.cheatCubeInstantCraft, 2⟩, .movz (.w 9) 0),
        (⟨.cheatCubeInstantCraft, 3⟩, .movz (.w 10) 0),
        (⟨.cheatCubeInstantCraft, 4⟩, .movz (.w 8) 0)]),
    (fun cheats => cheats.cubeNoConsume, [(⟨.cheatCubeNoConsume, 1⟩, .ret)]),
    (fun cheats => cheats.gemUpgradeAlways,
      [(⟨.cheatGemUpgrade, 1⟩, .bytes 0x08 0x10 0x2E 0x1E)]),
    (fun cheats => cheats.gemUpgradeSpeed, [(⟨.cheatGemSpeed, 1⟩, .bytes 0x02 0x10 0x2E 0x1E)]),
    (fun cheats => cheats.gemUpgradeLvl150,
      [(⟨.cheatGemLvl150, 1⟩, .bytes 0xF6 0x03 0x00 0x2A),
        (⟨.cheatGemLvl150, 2⟩, .movz (.w 0) 0x96),
        (⟨.cheatGemLvl150, 3⟩, .bytes 0x17 0x00 0x16 0x4B),
        (⟨.cheatGemLvl150, 4⟩, .ret),
        (⟨.cheatGemLvl150, 5⟩, .bytes 0x89 0x4D 0x12 0x94)]),
    (fun cheats => cheats.equipMultiLegendary, [(⟨.cheatMultiLegendary, 1⟩, .branch 0x5C)]),
    (fun cheats => cheats.anyGemAnySlot,
      [(⟨.cheatAnyGemAnySlot, 1⟩, .movz (.w 25) 5),
        (⟨.cheatAnyGemAnySlot, 2⟩, .branch 0xA0)]),
    (fun cheats => cheats.autoPickup, [(⟨.cheatAutoPickup, 1⟩, .nop)])]

/-- `PortCheatCodes`. -/
def portCheatCodes (c : PatchConfig) : List PatchWrite :=
  if c.rareCheats.active then emit cheatBlocks c.rareCheats else []

/-- Whether infinite resource is in effect. -/
def infiniteMpEffective (c : PatchConfig) : Bool :=
  c.rareCheats.active && (c.rareCheats.superGodMode || c.rareCheats.infiniteMp)

/-- `PatchInfiniteMp`. -/
def patchInfiniteMp (enabled : Bool) : List PatchWrite :=
  [(⟨.infiniteMp, 1⟩, if enabled then .nop else .bytes 0x41 0xFF 0xFF 0x97)]

/-- The variables that `PatchBase` sets. -/
def baseXVars (c : PatchConfig) : List XVarWrite :=
  [(.localLoggingEnable, .bool true), (.challengeRiftEnabled, .bool c.challengeRifts.active),
    (.seasonsOverrideEnabled, .bool c.seasons.active),
    (.onlineServicePTR, .bool c.seasons.spoofPtr),
    (.experimentalScheduling, .bool c.resolutionHack.expScheduler)]

/-- The blocks of `PatchBase` after `PatchInfiniteMp`. -/
def baseBlocks : Table PatchConfig PatchWrite :=
  [(fun _ => true,
      [(⟨.autosaveString, 1⟩, .adrl (.x 0) "g_szHackVerAutosave"),
        (⟨.startString, 1⟩, .adrl (.x 0) "g_szHackVerStart"),
        (⟨.localLogging, 1⟩, .movz (.w 0) 1)]),
    (fun c => c.debug.enableCrashes,
      [(⟨.dupeNoequip, 1⟩, .nop),
        (⟨.dupeStub, 1⟩, .ret),
        (⟨.dupeStub, 2⟩, .ret),
        (⟨.dupeStub, 3⟩, .ret),
        (⟨.dupeStub, 4⟩, .ret)]),
    (fun _ => true, [(⟨.traceStatPath, 1⟩, .adrl (.x 0) "g_szTraceStat")]),
    (fun c => !c.seasons.allowOnline,
      [(⟨.hideonline, 2⟩, .movz (.w 0) 0),
        (⟨.hideonline, 3⟩, .ret),
        (⟨.hideonline, 4⟩, .movz (.w 1) 0),
        (⟨.hideonline, 5⟩, .movz (.w 1) 0),
        (⟨.hideonline, 6⟩, .bytes 0x08 0x29 0x40 0xF9),
        (⟨.hideonline, 7⟩, .movz (.w 1) 0),
        (⟨.hideonline, 8⟩, .movz (.w 1) 0),
        (⟨.hideonline, 9⟩, .movz (.w 1) 0),
        (⟨.hideonline, 10⟩, .bytes 0x08 0x29 0x40 0xF9),
        (⟨.hideonline, 11⟩, .movz (.w 1) 0)]),
    (fun c => c.rareCheats.active && c.rareCheats.unlockAllDifficulties,
      [(⟨.handicapUnlock, 1⟩, .movz (.w 0) 1), (⟨.handicapUnlock, 2⟩, .ret)]),
    (fun c => c.rareCheats.active && c.rareCheats.easyKillDamage,
      [(⟨.easykill, 1⟩, .movz (.w 9) 0x7bc7), (⟨.easykill, 2⟩, .movk (.w 9) 0x5d94 16)])]

/-- The words that `PatchBase` writes before `PatchInfiniteMp`. -/
def signinWrites : List PatchWrite := [(⟨.signin, 1⟩, .movz (.w 0) 1), (⟨.signin, 2⟩, .ret)]

/-- The code that `PatchBase` patches. -/
def baseWrites (c : PatchConfig) : List PatchWrite :=
  portCheatCodes c ++ signinWrites ++ patchInfiniteMp (infiniteMpEffective c) ++
    emit baseBlocks c

/-- `PatchBase`. -/
def patchBase (c : PatchConfig) (m : Machine) : Machine :=
  (m.setXVars (baseXVars c)).patch (baseWrites c)

/-! ## What the patch functions leave -/

section Effects

variable (env : GameEnv) (c : PatchConfig) (m : Machine)

/-- The spawn gate stays closed if it is closed. -/
theorem setDynamicSeasonalPatchArmed_false (h : m.dynamicSeasonalPatchApplied = false) :
    setDynamicSeasonalPatchArmed c false m = m := by
  simp [setDynamicSeasonalPatchArmed, h]

theorem patchDynamicSeasonal_eq (h : m.dynamicSeasonalPatchApplied = false)
    (hc : c.seasons.active = true) : patchDynamicSeasonal c m =
      (m.setXVars (dynamicSeasonalXVars c)).patch (dynamicSeasonalWrites c) := by
  rw [patchDynamicSeasonal, if_pos hc]
  exact setDynamicSeasonalPatchArmed_false c _ h

/-- The dynamic events touch the variables and the event data only. -/
theorem patchDynamicEvents_ite : ∃ start stop egg,
    (if c.events.active then patchDynamicEvents env c m else m) =
      { m with buffStart := start, buffEnd := stop, eggFlag := egg }.setXVars
        (if c.events.active then dynamicEventsXVars env c else []) := by
  split_ifs with hc
  · rw [patchDynamicEvents, if_pos hc]
    dsimp only
    split
    · split_ifs <;> exact ⟨_, _, _, rfl⟩
    · exact ⟨_, _, _, rfl⟩
  · exact ⟨_, _, _, rfl⟩

end Effects

end D3Hack
