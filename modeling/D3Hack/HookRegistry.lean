import D3Hack.Patches

/-!
# Hooks and boot

`hookRegistryEntries` is the hook registry: each entry installs its hooks if its predicate
enables it. `mainInit` boots the program with a configuration: it installs the hooks of the
enabled entries, then applies the patches.

`mainInit_hooks`, `mainInit_code` and `mainInit_xvars` say what a boot leaves: the hooks of
`hookBlocks` whose guards hold, and memories with the writes of `bootWrites` and
`bootXVars`, none of which goes to the same place as another.
-/

namespace D3Hack

open Guarded

/-! ## The hooks of the entries -/

/-- `SetupUtilityDebugHooks`; the hooks of the command line are off in this build. -/
def utilityDebugHooks : Table PatchConfig Hook :=
  [(fun _ => true, [.enumGBTypes]),
    (fun c => c.debug.active,
      [.fontStringDraw 0x03ff50, .fontStringDraw 0x03e5b0, .fontStringDraw 0x0010c8]),
    (fun c => c.debug.enableOeNotificationHook, [.tryPopNotificationMessageHook])]

/-- `SetupUtilityHooks` after the debug hooks. -/
def utilityHooks : Table PatchConfig Hook :=
  [(fun c => c.rareCheats.active && c.rareCheats.equipAnySlot, [.equipAny]),
    (fun c => c.resolutionHack.active, [.varResHook]),
    (fun c => c.lootModifiers.active, [.forceAncient]),
    (fun c => c.rareCheats.active && !c.rareCheats.moveSpeed.eq (.fin 1), [.moveSpeed]),
    (fun c => c.rareCheats.active && !c.rareCheats.attackSpeed.eq (.fin 1), [.attackSpeed]),
    (fun c => c.rareCheats.active && c.rareCheats.floatingDamageColor, [.floatingDmgHook]),
    (fun c => c.resolutionHack.spoofDocked, [.spoofPerfMode, .spoofDocked])]

/-- The hooks of `tagnx::InstallHooks`, each installed where its symbol is found. -/
def tagnxHooks : List Hook :=
  [.ensureNetworkServiceAccountAvailable, .isNetworkServiceAccountAvailable,
    .asyncContextGetResult, .getNetworkServiceAccountId, .loadNSAIDTokenCache,
    .getNetworkServiceLicenseKind, .loadModule]

/-- The hooks of `SetupDebuggingHooks`. -/
def debuggingHooks (env : GameEnv) : Table PatchConfig Hook :=
  [(fun c => c.challengeRifts.active,
      [.printChallengeRiftFailed, .challengeRiftCallback, .openChallengeRiftHook,
        .challengeRiftRewardEarnedSaveToProfileHook, .challengeRiftHandleChallengeRewardsHook,
        .challengeRiftGrantRewardToPlayerIfEligibleHook, .parsePartialFromStringHook]),
    (fun c => !c.defaultsOnly && c.debug.active && c.debug.enablePubfileDump, [.pubFileDataHex]),
    (fun c => c.debug.active && c.debug.enableErrorTraces,
      [.printErrorDisplay, .printErrorStringFinal]),
    (fun c => c.debug.active && c.debug.tagnx, tagnxHooks.filter env.symbolFound)]

/-- The words at the two save gates of the challenge rift rewards. -/
def rewardSaveGateWrites (enabled : Bool) : List PatchWrite :=
  [(⟨.offset, 0x4EE18⟩, .word (if enabled then 0x14000001 else 0x54000EE9)),
    (⟨.offset, 0x4EF28⟩, .word (if enabled then 0x17FFFFBD else 0x54FFF7A8))]

/-- `SetRewardSaveGateBypass`. -/
def setRewardSaveGateBypass (enabled : Bool) (m : Machine) : Machine :=
  if m.rewardSaveGatePatched = enabled then m
  else { m.patch (rewardSaveGateWrites enabled) with rewardSaveGatePatched := enabled }

/-- `SetupUtilityHooks`. -/
def setupUtilityHooks (c : PatchConfig) (m : Machine) : Machine :=
  (m.install (emit utilityDebugHooks c)).install (emit utilityHooks c)

/-- `SetupResolutionHooks`. -/
def setupResolutionHooks (c : PatchConfig) (m : Machine) : Machine :=
  if c.resolutionHack.active then m.install [.getRenderTargetCurrentResolutionHook] else m

/-- `SetupDebuggingHooks`. -/
def setupDebuggingHooks (env : GameEnv) (c : PatchConfig) (m : Machine) : Machine :=
  (setRewardSaveGateBypass c.challengeRifts.active m).install (emit (debuggingHooks env) c)

/-- The hooks of `SetupSeasonEventHooks`. -/
def seasonEventHooks : List Hook :=
  [.configFileRetrieved, .seasonsFileRetrieved, .blacklistFileRetrieved,
    .mailboxCheckLobbyConnection]

/-- `SetupSeasonEventHooks`. -/
def setupSeasonEventHooks (_ : PatchConfig) (m : Machine) : Machine := m.install seasonEventHooks

/-- The hooks of `SetupLobbyHooks`. -/
def lobbyHooks : List Hook :=
  [.specifiersFromModifier, .evalMod, .dupeDroppedItem, .requestDropItemHook,
    .fastAttribGetIntValue, .fastAttribGetFloatValue, .attributesGetInt, .attributesGetFloat]

/-- `SetupLobbyHooks`. -/
def setupLobbyHooks (_ : PatchConfig) (m : Machine) : Machine := m.install lobbyHooks

/-! ## The registry -/

/-- `HookEntry`. -/
structure HookEntry where
  name : String
  install : PatchConfig → Machine → Machine
  enabled : PatchConfig → Bool

/-- Whether the debugging hooks are set up. -/
def enabledDebuggingHooks (c : PatchConfig) : Bool :=
  if c.challengeRifts.active then true
  else if !c.debug.active then false
  else c.debug.enablePubfileDump || c.debug.enableErrorTraces || c.debug.tagnx ||
    c.debug.enableDebugFlags || c.debug.enableExceptionHandler ||
      c.debug.enableOeNotificationHook

/-- `k_entries` of the hook registry. -/
def hookRegistryEntries (env : GameEnv) : List HookEntry :=
  [⟨"UtilityHooks", setupUtilityHooks, fun _ => true⟩,
    ⟨"ResolutionHooks", setupResolutionHooks, fun c => c.resolutionHack.active⟩,
    ⟨"DebuggingHooks", setupDebuggingHooks env, enabledDebuggingHooks⟩,
    ⟨"SeasonEventHooks", setupSeasonEventHooks, fun _ => true⟩,
    ⟨"LobbyHooks", setupLobbyHooks, fun c => c.debug.enableCrashes⟩]

/-- A game in which every symbol and every variable is found. -/
def GameEnv.complete : GameEnv :=
  { devMem := none, symbolFound := fun _ => true, pointerSet := fun _ => true, buffStart := none
    buffEnd := none, eggFlag := none }

/-- The machine before the boot. -/
def GameEnv.machine (env : GameEnv) : Machine :=
  { buffStart := env.buffStart, buffEnd := env.buffEnd, eggFlag := env.eggFlag }

/-- The exception handler and the hooks of `MainInit`. -/
def installHooks (env : GameEnv) (c : PatchConfig) : Machine :=
  (hookRegistryEntries env).foldl (fun m e => if e.enabled c then e.install c m else m)
    { env.machine with exceptionHandler := c.debug.enableExceptionHandler }

/-- `MainInit`, from the loaded configuration to the start of the game. -/
def mainInit (env : GameEnv) (c : PatchConfig) : Machine :=
  let m := installHooks env c
  let m := if c.events.active then patchDynamicEvents env c m else m
  let m := if c.seasons.active then patchDynamicSeasonal c m else m
  let m := if c.overlays.active && c.overlays.buildlockerWatermark then
    m.patch (patchBuildlocker c) else m
  let m := if c.resolutionHack.active then m.patch (patchResolutionTargets env.devMem c) else m
  patchBase c m

/-! ## What a boot leaves -/

section Boot

variable (env : GameEnv) (c : PatchConfig)

/-- The blocks of hooks of all entries, with the conditions they are installed under. -/
def hookBlocks : Table PatchConfig Hook :=
  utilityDebugHooks ++ utilityHooks ++
    [(fun c => c.resolutionHack.active, [.getRenderTargetCurrentResolutionHook])] ++
      debuggingHooks env ++
        [(fun _ => true, seasonEventHooks), (fun c => c.debug.enableCrashes, lobbyHooks)]

/-- The blocks of words that only the boot writes. -/
def staticBlocks : Table PatchConfig PatchWrite :=
  (fun c => c.challengeRifts.active, rewardSaveGateWrites true) ::
    under (fun c => c.rareCheats.active) (fun c => c.rareCheats) cheatBlocks ++
      (fun _ => true, signinWrites) :: baseBlocks

/-- The words that follow the configuration at runtime, or are ruled. -/
def liveWrites : List PatchWrite :=
  (if c.seasons.active then dynamicSeasonalWrites c else []) ++ patchBuildlocker c ++
    (if c.resolutionHack.active then patchResolutionTargets env.devMem c else []) ++
      patchInfiniteMp (infiniteMpEffective c)

/-- The writes to code of a boot, in their order. -/
def bootWrites : List PatchWrite :=
  (if c.challengeRifts.active then rewardSaveGateWrites true else []) ++
    (if c.seasons.active then dynamicSeasonalWrites c else []) ++ patchBuildlocker c ++
      (if c.resolutionHack.active then patchResolutionTargets env.devMem c else []) ++
        baseWrites c

/-- The variables that only the boot sets. -/
def staticXVars : List XVarWrite :=
  [(.localLoggingEnable, .bool true), (.challengeRiftEnabled, .bool c.challengeRifts.active),
    (.seasonsOverrideEnabled, .bool c.seasons.active)]

/-- The variables that follow the configuration at runtime. -/
def liveXVars : List XVarWrite :=
  (if c.events.active then dynamicEventsXVars env c else []) ++
    (if c.seasons.active then dynamicSeasonalXVars c else []) ++
      [(.onlineServicePTR, .bool c.seasons.spoofPtr),
        (.experimentalScheduling, .bool c.resolutionHack.expScheduler)]

/-- The writes to variables of a boot, in their order. -/
def bootXVars : List XVarWrite :=
  (if c.events.active then dynamicEventsXVars env c else []) ++
    (if c.seasons.active then dynamicSeasonalXVars c else []) ++ baseXVars c

/-! ## No place is written twice -/

/-- The sites of `PatchDynamicSeasonal`. -/
def seasonalSites : List PatchSite := [3, 4, 5, 8, 9].map (⟨.dynamicSeasonal, ·⟩)

/-- The sites of `PatchBuildlocker`. -/
def buildlockerSites : List PatchSite :=
  [1, 2, 3, 4, 5].map (⟨.buildlocker, ·⟩) ++ ⟨.dataBuildLockerFormat, 0⟩ ::
    [6, 7, 8, 9].map (⟨.buildlocker, ·⟩)

/-- The sites of `PatchResolutionTargets`. -/
def resolutionSites : List PatchSite :=
  [8, 9].map (⟨.resolutionTargets, ·⟩) ++ [0x0E7770, 0x0E77A0].map (⟨.offset, ·⟩) ++
    [1, 2, 3, 4].map (⟨.resolutionTargets, ·⟩)

/-- The sites of the static blocks, then the live ones. -/
def bootSites : List PatchSite :=
  Writes.keys (all staticBlocks) ++
    (seasonalSites ++ buildlockerSites ++ resolutionSites ++ [⟨.infiniteMp, 1⟩])

theorem nodup_bootSites : bootSites.Nodup := by decide +kernel

theorem keys_patchBuildlocker : (Writes.keys (patchBuildlocker c)).Sublist buildlockerSites := by
  unfold patchBuildlocker
  split_ifs
  · exact List.Sublist.refl _
  · exact List.nil_sublist _

theorem keys_patchResolutionTargets (devMem : Option ℕ) :
    (Writes.keys (patchResolutionTargets devMem c)).Sublist resolutionSites := by
  unfold patchResolutionTargets resolutionSites
  rw [Writes.keys, List.map_append, List.append_assoc]
  refine List.Sublist.append (List.Sublist.refl _) ?_
  rcases c.resolutionHack.active with _ | _
  · exact List.nil_sublist _
  · dsimp only
    rw [if_pos rfl, List.map_append]
    refine List.Sublist.append ?_ (List.Sublist.refl _)
    split_ifs <;> simp

/-- What is written, or nothing, at sites of a list. -/
theorem keys_ite_sublist {sites : List PatchSite} {ws : List PatchWrite} (p : Prop) [Decidable p]
    (h : (Writes.keys ws).Sublist sites) :
    (Writes.keys (if p then ws else [])).Sublist sites := by
  split_ifs
  · exact h
  · exact List.nil_sublist _

theorem keys_liveWrites : (Writes.keys (liveWrites env c)).Sublist
    (seasonalSites ++ buildlockerSites ++ resolutionSites ++ [⟨.infiniteMp, 1⟩]) := by
  simp only [liveWrites, Writes.keys, List.map_append]
  refine .append (.append (.append ?_ (keys_patchBuildlocker c)) ?_) (List.Sublist.refl _)
  · exact keys_ite_sublist _ (List.Sublist.refl _)
  · exact keys_ite_sublist _ (keys_patchResolutionTargets c env.devMem)

/-- The order of a boot's writes does not matter. -/
theorem bootWrites_perm : (bootWrites env c).Perm (emit staticBlocks c ++ liveWrites env c) := by
  have hstatic : emit staticBlocks c =
      (if c.challengeRifts.active then rewardSaveGateWrites true else []) ++ portCheatCodes c ++
        signinWrites ++ emit baseBlocks c := by
    have happ : staticBlocks = [(fun c => c.challengeRifts.active, rewardSaveGateWrites true)] ++
        under (fun c => c.rareCheats.active) (fun c => c.rareCheats) cheatBlocks ++
          [(fun _ => true, signinWrites)] ++ baseBlocks := rfl
    rw [happ, emit_append, emit_append, emit_append, emit_under]
    simp [emit, portCheatCodes]
  simp only [hstatic, bootWrites, baseWrites, liveWrites, List.perm_iff_count, List.count_append]
  intro w
  omega

/-- The static writes of one configuration and the live writes of another stay apart. -/
theorem nodup_keys_writes (c₀ : PatchConfig) :
    (Writes.keys (emit staticBlocks c₀ ++ liveWrites env c)).Nodup := by
  rw [Writes.keys, List.map_append]
  exact nodup_bootSites.sublist
    (((emit_sublist staticBlocks c₀).map Prod.fst).append (keys_liveWrites env c))

theorem bootXVars_perm : (bootXVars env c).Perm (staticXVars c ++ liveXVars env c) := by
  simp only [bootXVars, baseXVars, liveXVars, staticXVars, List.perm_iff_count, List.count_append,
    List.count_cons, List.count_nil]
  intro w
  omega

/-- The variables of `PatchDynamicEvents`. -/
def eventXVars : List XVar :=
  [.eventIgr, .eventAnn, .eventEggXvar, .eventEnabled, .eventSeasonOnly] ++
    setBoolFlags.map .event ++ [.paragonCap]

theorem keys_dynamicEventsXVars :
    (Writes.keys (dynamicEventsXVars env c)).Sublist eventXVars := by
  unfold dynamicEventsXVars
  simp only [Writes.keys, List.map_append, List.map_map]
  refine .append (.append ?_ (List.Sublist.refl _)) (List.Sublist.refl _)
  exact (List.filter_sublist).map Prod.fst

theorem nodup_keys_xvars (c₀ : PatchConfig) :
    (Writes.keys (staticXVars c₀ ++ liveXVars env c)).Nodup := by
  have hall : (Writes.keys (staticXVars {}) ++ (eventXVars ++
      Writes.keys (dynamicSeasonalXVars {}) ++ [XVar.onlineServicePTR,
        .experimentalScheduling])).Nodup := by decide +kernel
  refine hall.sublist ?_
  simp only [liveXVars, Writes.keys, List.map_append]
  refine .append (List.Sublist.refl _) (.append (.append ?_ ?_) (List.Sublist.refl _))
  · split_ifs
    · exact keys_dynamicEventsXVars env c
    · exact List.nil_sublist _
  · split_ifs
    · exact List.Sublist.refl _
    · exact List.nil_sublist _

/-! ## The boot -/

/-- The predicate of the debugging entry leaves out no hook. -/
theorem emit_debuggingHooks (h : enabledDebuggingHooks c = false) :
    c.challengeRifts.active = false ∧ emit (debuggingHooks env) c = [] := by
  unfold enabledDebuggingHooks at h
  split_ifs at h with hr hd
  · simp [emit, debuggingHooks, hr, by simpa using hd]
  · simp only [Bool.or_eq_false_iff] at h
    simp [emit, debuggingHooks, hr, h]

theorem setRewardSaveGateBypass_eq {m : Machine} (hm : m.rewardSaveGatePatched = false)
    (enabled : Bool) : setRewardSaveGateBypass enabled m =
      { m.patch (if enabled then rewardSaveGateWrites true else []) with
        rewardSaveGatePatched := enabled } := by
  obtain ⟨⟩ := m
  subst hm
  cases enabled <;> rfl

/-- The debugging entry, enabled or not, leaves its gate and its hooks. -/
theorem ite_setupDebuggingHooks {m : Machine} (hm : m.rewardSaveGatePatched = false) :
    (if enabledDebuggingHooks c then setupDebuggingHooks env c m else m) =
      { (m.patch (if c.challengeRifts.active then rewardSaveGateWrites true else [])).install
          (emit (debuggingHooks env) c) with
        rewardSaveGatePatched := c.challengeRifts.active } := by
  split_ifs with h hr hr
  · rw [setupDebuggingHooks, setRewardSaveGateBypass_eq hm, if_pos hr]
    rfl
  · rw [setupDebuggingHooks, setRewardSaveGateBypass_eq hm, if_neg hr]
    rfl
  · simp [(emit_debuggingHooks env c (by simpa using h)).1] at hr
  · obtain ⟨hrift, hemit⟩ := emit_debuggingHooks env c (by simpa using h)
    rw [hrift, hemit, ← hm]
    simp [Machine.install, Machine.patch]

theorem installHooks_eq : installHooks env c =
    { env.machine with
      hooks := emit (hookBlocks env) c
      code := Writes.apply (fun _ => none)
        (if c.challengeRifts.active then rewardSaveGateWrites true else [])
      exceptionHandler := c.debug.enableExceptionHandler
      rewardSaveGatePatched := c.challengeRifts.active } := by
  have hres : ∀ m, (if c.resolutionHack.active then setupResolutionHooks c m else m) =
      m.install (if c.resolutionHack.active then [.getRenderTargetCurrentResolutionHook]
        else []) := by
    intro m
    split_ifs with h
    · rw [setupResolutionHooks, if_pos h]
    · simp [Machine.install]
  have hlobby : ∀ m, (if c.debug.enableCrashes then setupLobbyHooks c m else m) =
      m.install (if c.debug.enableCrashes then lobbyHooks else []) := by
    intro m
    split_ifs <;> simp [setupLobbyHooks, Machine.install]
  simp only [installHooks, hookRegistryEntries, List.foldl_cons, List.foldl_nil, if_true, hres,
    hlobby]
  rw [ite_setupDebuggingHooks]
  · simp [setupUtilityHooks, setupSeasonEventHooks, Machine.install, Machine.patch, hookBlocks,
      GameEnv.machine, emit]
  · rfl

/-- A boot in its steps: the hooks, the event data, and the writes in their order. -/
theorem mainInit_eq : ∃ start stop egg, mainInit env c =
    { installHooks env c with
      code := Writes.apply (fun _ => none) (bootWrites env c)
      xvars := Writes.apply (fun _ => none) (bootXVars env c)
      buffStart := start, buffEnd := stop, eggFlag := egg } := by
  have hseasons : ∀ m : Machine, m.dynamicSeasonalPatchApplied = false →
      (if c.seasons.active then patchDynamicSeasonal c m else m) =
        (m.setXVars (if c.seasons.active then dynamicSeasonalXVars c else [])).patch
          (if c.seasons.active then dynamicSeasonalWrites c else []) := by
    intro m hm
    split_ifs with h
    · exact patchDynamicSeasonal_eq c m hm h
    · rfl
  have hlocker : ∀ m : Machine,
      (if c.overlays.active && c.overlays.buildlockerWatermark then m.patch (patchBuildlocker c)
        else m) = m.patch (patchBuildlocker c) := by
    intro m
    split_ifs with h
    · rfl
    · simp only [patchBuildlocker, if_neg h]
      rfl
  have hres : ∀ m : Machine,
      (if c.resolutionHack.active then m.patch (patchResolutionTargets env.devMem c) else m) =
        m.patch (if c.resolutionHack.active then patchResolutionTargets env.devMem c else []) := by
    intro m
    split_ifs <;> rfl
  obtain ⟨start, stop, egg, hev⟩ := patchDynamicEvents_ite env c (installHooks env c)
  refine ⟨start, stop, egg, ?_⟩
  simp only [mainInit, hev, hlocker, hres]
  rw [hseasons _ (by simp [installHooks_eq, GameEnv.machine])]
  simp [patchBase, installHooks_eq, GameEnv.machine, bootWrites, bootXVars, Writes.apply_append,
    Machine.patch, Machine.setXVars]

/-- The machine that a boot leaves, its memories as the writes in their order. -/
theorem mainInit_spec : (mainInit env c).hooks = emit (hookBlocks env) c ∧
    (mainInit env c).code = Writes.apply (fun _ => none) (bootWrites env c) ∧
    (mainInit env c).xvars = Writes.apply (fun _ => none) (bootXVars env c) ∧
    (mainInit env c).dynamicSeasonalPatchApplied = false := by
  obtain ⟨start, stop, egg, hinit⟩ := mainInit_eq env c
  rw [hinit, installHooks_eq]
  exact ⟨rfl, rfl, rfl, rfl⟩

theorem mainInit_dynamicSeasonalGeneration :
    (mainInit env c).dynamicSeasonalGeneration = 0 := by
  obtain ⟨start, stop, egg, hinit⟩ := mainInit_eq env c
  rw [hinit, installHooks_eq]
  rfl

theorem mainInit_hooks : (mainInit env c).hooks = emit (hookBlocks env) c :=
  (mainInit_spec env c).1

theorem mainInit_code :
    Writes.Holds (mainInit env c).code (emit staticBlocks c ++ liveWrites env c) := by
  have hperm := bootWrites_perm env c
  have hn : (Writes.keys (bootWrites env c)).Nodup :=
    (hperm.map Prod.fst).nodup_iff.2 (nodup_keys_writes env c c)
  rw [(mainInit_spec env c).2.1]
  exact (Writes.holds_apply hn).congr fun _ => hperm.mem_iff

theorem mainInit_xvars :
    Writes.Holds (mainInit env c).xvars (staticXVars c ++ liveXVars env c) := by
  have hperm := bootXVars_perm env c
  have hn : (Writes.keys (bootXVars env c)).Nodup :=
    (hperm.map Prod.fst).nodup_iff.2 (nodup_keys_xvars env c c)
  rw [(mainInit_spec env c).2.2.1]
  exact (Writes.holds_apply hn).congr fun _ => hperm.mem_iff

end Boot

end D3Hack
