import D3Hack.RuntimeApply

/-!
# Boot and runtime

A session starts with a boot and goes on with configurations applied at runtime. Where no call
reports that a restart is required, the session is compared with a boot of its last
configuration: `SameEffects` asks for the same hooks, the same patched code and the same
variables.

The code follows the configuration (`follows_run`) except in the settings of `bootOnly`,
which only the boot reads and no restart rule compares. `sameEffects_run_iff` says that the
session has the effects of the boot if and only if those settings still agree with the ones
the game was booted with.
-/

namespace D3Hack

open Guarded Runs

/-! ## Sessions -/

/-- A call of `ApplyPatchConfigRuntime`. -/
def sessionStep (env : GameEnv) (s : Session) (c : PatchConfig) : Session :=
  (applyPatchConfigRuntime env c s).1

/-- The call does not report that a restart is required. -/
def NoRestart (env : GameEnv) (s : Session) (c : PatchConfig) : Prop :=
  (applyPatchConfigRuntime env c s).2.restartRequired = false

/-- The same hooks, patched code and variables. -/
structure SameEffects (m m' : Machine) : Prop where
  hooks : ∀ h, h ∈ m.hooks ↔ h ∈ m'.hooks
  code : m.code = m'.code
  xvars : m.xvars = m'.xvars

/-- The settings that only the boot reads and no restart rule compares. -/
def bootOnly : List (PatchConfig → Bool) :=
  [fun c => c.seasons.active,
    fun c => c.challengeRifts.active,
    fun c => c.lootModifiers.active,
    fun c => c.debug.active,
    fun c => !c.defaultsOnly && c.debug.active && c.debug.enablePubfileDump,
    fun c => c.debug.active && c.debug.enableErrorTraces,
    fun c => c.rareCheats.active && c.rareCheats.equipAnySlot,
    fun c => c.rareCheats.active && !c.rareCheats.moveSpeed.eq (.fin 1),
    fun c => c.rareCheats.active && !c.rareCheats.attackSpeed.eq (.fin 1),
    fun c => c.rareCheats.active && c.rareCheats.floatingDamageColor,
    fun c => c.rareCheats.active && c.rareCheats.unlockAllDifficulties,
    fun c => c.rareCheats.active && c.rareCheats.easyKillDamage] ++
    cheatBlocks.map fun b c => c.rareCheats.active && b.1 c.rareCheats

/-- The boot-only settings agree. -/
def BootOnlyAgree (c₀ c : PatchConfig) : Prop := ∀ setting ∈ bootOnly, setting c₀ = setting c

/-! ## What a session follows -/

/-- The session keeps the hooks and the static writes of its boot, and its live writes and
ruled settings are those of the global configuration. -/
structure Follows (env : GameEnv) (c₀ : PatchConfig) (s : Session) : Prop where
  hooks : s.machine.hooks = emit (hookBlocks env) c₀
  code : Writes.Holds s.machine.code (emit staticBlocks c₀ ++ liveWrites env s.globalConfig)
  xvars : Writes.Holds s.machine.xvars (staticXVars c₀ ++ liveXVars env s.globalConfig)
  spawnGate : s.machine.dynamicSeasonalPatchApplied = false
  ruled : ruled c₀ = ruled s.globalConfig

variable {env : GameEnv} {c₀ c prev : PatchConfig} {s : Session}

theorem follows_bootSession (env : GameEnv) (c₀ : PatchConfig) :
    Follows env c₀ (bootSession env c₀) where
  hooks := mainInit_hooks env c₀
  code := mainInit_code env c₀
  xvars := mainInit_xvars env c₀
  spawnGate := (mainInit_spec env c₀).2.2.2
  ruled := rfl

/-- The resolution patch reads three settings. -/
theorem patchResolutionTargets_eq (devMem : Option ℕ) (c : PatchConfig) :
    patchResolutionTargets devMem c = patchResolutionTargets devMem
      { resolutionHack :=
          { active := c.resolutionHack.active
            targetResolution := c.resolutionHack.targetResolution
            outputHandheldScale := c.resolutionHack.outputHandheldScale } } := by
  by_cases h : c.resolutionHack.targetResolution > maxResolutionHackOutputTarget devMem
  · simp only [patchResolutionTargets, if_pos h]
    rfl
  · simp only [patchResolutionTargets, if_neg h]
    rfl

/-- All three are ruled. -/
theorem patchResolutionTargets_congr (devMem : Option ℕ) (h : ruled prev = ruled c) :
    patchResolutionTargets devMem prev = patchResolutionTargets devMem c := by
  obtain ⟨hactive, hscale, -, htarget, -⟩ : _ ∧ _ ∧ _ ∧ _ ∧ _ := by
    simpa only [ruled, Prod.mk.injEq] using h
  rw [patchResolutionTargets_eq, patchResolutionTargets_eq devMem c, hactive, hscale, htarget]

/-- The variables of the dynamic events are those found in the game. -/
theorem keys_dynamicEventsXVars_eq (env : GameEnv) (c c' : PatchConfig) :
    Writes.keys (dynamicEventsXVars env c) = Writes.keys (dynamicEventsXVars env c') := by
  have hfilter : ∀ ws : List XVarWrite, (ws.filter fun w => env.pointerSet w.1).map Prod.fst =
      (ws.map Prod.fst).filter env.pointerSet := fun _ => List.filter_map.symm
  simp only [dynamicEventsXVars, Writes.keys, List.map_append, List.map_map, hfilter]
  rfl

/-- The live variables of the previous configuration are set again. -/
theorem keys_liveXVars_subset (hevents : prev.events.active = true → c.events.active = true)
    (hseasons : prev.seasons.active = true → c.seasons.active = true) :
    Writes.keys (liveXVars env prev) ⊆ Writes.keys (runtimeXVars env c) := by
  have he : Writes.keys (dynamicEventsXVars env prev) ⊆ Writes.keys (dynamicEventsXVars env c) :=
    fun _ hx => keys_dynamicEventsXVars_eq env prev c ▸ hx
  have hs : Writes.keys (dynamicSeasonalXVars prev) ⊆ Writes.keys (dynamicSeasonalXVars c) :=
    List.Subset.refl _
  intro x hx
  simp only [liveXVars, runtimeXVars, Writes.keys, List.map_append, List.mem_append] at hx ⊢
  rcases hx with (hx | hx) | hx
  · exact .inl (.inr (Writes.keys_ite_subset hevents he hx))
  · exact .inr (Writes.keys_ite_subset hseasons hs hx)
  · exact .inl (.inl hx)

theorem liveXVars_perm (env : GameEnv) (c : PatchConfig) :
    (runtimeXVars env c).Perm (liveXVars env c) := by
  simp only [liveXVars, runtimeXVars, List.perm_iff_count, List.count_append]
  intro w
  omega

/-- The live writes that a call leaves as they are. -/
def keptWrites (env : GameEnv) (prev c : PatchConfig) : List PatchWrite :=
  (if infiniteMpEffective prev != infiniteMpEffective c then []
    else patchInfiniteMp (infiniteMpEffective c)) ++
    (if buildlockerOn c && !buildlockerOn prev then [] else patchBuildlocker c) ++
      (if c.resolutionHack.active then patchResolutionTargets env.devMem c else [])

/-- The live writes that a call replaces. -/
def replacedWrites (prev c : PatchConfig) : List PatchWrite :=
  (if infiniteMpEffective prev != infiniteMpEffective c then
      patchInfiniteMp (infiniteMpEffective prev) else []) ++
    (if prev.seasons.active then dynamicSeasonalWrites prev else [])

theorem liveWrites_perm_new (env : GameEnv) (prev c : PatchConfig) :
    (keptWrites env prev c ++ runtimeWrites prev c).Perm (liveWrites env c) := by
  simp only [keptWrites, runtimeWrites, liveWrites, List.perm_iff_count, List.count_append]
  intro w
  split_ifs <;> simp only [List.count_nil] <;> omega

theorem liveWrites_perm_old (hlocker : buildlockerOn prev = true → buildlockerOn c = true)
    (hruled : ruled prev = ruled c) :
    (keptWrites env prev c ++ replacedWrites prev c).Perm (liveWrites env prev) := by
  have hactive : prev.resolutionHack.active = c.resolutionHack.active := congrArg Prod.fst hruled
  have hbuild : patchBuildlocker prev =
      if buildlockerOn c && !buildlockerOn prev then [] else patchBuildlocker c := by
    simp only [patchBuildlocker, ← buildlockerOn.eq_1]
    rcases hp : buildlockerOn prev with _ | _
    · rcases buildlockerOn c <;> rfl
    · simp [hlocker hp]
  simp only [keptWrites, replacedWrites, liveWrites, ← hbuild, hactive,
    patchResolutionTargets_congr env.devMem hruled, List.perm_iff_count, List.count_append]
  intro w
  split_ifs with hmp <;> simp only [List.count_nil]
  all_goals first | omega | simp only [bne_iff_ne, not_not] at hmp; rw [hmp]; omega

theorem keys_replacedWrites_subset
    (hseasons : prev.seasons.active = true → c.seasons.active = true) :
    Writes.keys (replacedWrites prev c) ⊆ Writes.keys (runtimeWrites prev c) := by
  have hmp : Writes.keys (patchInfiniteMp (infiniteMpEffective prev)) ⊆
      Writes.keys (patchInfiniteMp (infiniteMpEffective c)) := List.Subset.refl _
  have hs : Writes.keys (dynamicSeasonalWrites prev) ⊆ Writes.keys (dynamicSeasonalWrites c) :=
    List.Subset.refl _
  intro site hsite
  simp only [replacedWrites, runtimeWrites, Writes.keys, List.map_append, List.mem_append]
    at hsite ⊢
  rcases hsite with hsite | hsite
  · exact .inl (.inl (Writes.keys_ite_subset id hmp hsite))
  · exact .inr (Writes.keys_ite_subset hseasons hs hsite)

/-- A call without a restart keeps following the configuration. -/
theorem Follows.step (h : Follows env c₀ s) (hr : NoRestart env s c) :
    Follows env c₀ (sessionStep env s c) := by
  obtain ⟨hlocker, hevents, hseasons, hrules⟩ := (restartRequired_eq_false_iff _ _).1 hr
  obtain ⟨hruled, -⟩ := (rules_agree_iff _ _).1 hrules
  obtain ⟨hhooks, hcode, hxvars, hgate⟩ :=
    applyEffects_spec env s.globalConfig (running c) s.machine h.spawnGate
  refine ⟨hhooks.trans h.hooks, ?_, ?_, hgate, h.ruled.trans hruled⟩
  · have hnew : (emit staticBlocks c₀ ++ keptWrites env s.globalConfig (running c) ++
        runtimeWrites s.globalConfig (running c)).Perm
          (emit staticBlocks c₀ ++ liveWrites env (running c)) := by
      rw [List.append_assoc]
      exact (liveWrites_perm_new env _ _).append_left _
    have hold : (emit staticBlocks c₀ ++ keptWrites env s.globalConfig (running c) ++
        replacedWrites s.globalConfig (running c)).Perm
          (emit staticBlocks c₀ ++ liveWrites env s.globalConfig) := by
      rw [List.append_assoc]
      exact (liveWrites_perm_old hlocker hruled).append_left _
    have hn := (hnew.map Prod.fst).nodup_iff.2 (nodup_keys_writes env (running c) c₀)
    have hrefresh := (h.code.congr fun _ => hold.mem_iff.symm).refresh
      (keys_replacedWrites_subset hseasons) hn
    rw [← hcode] at hrefresh
    exact hrefresh.congr fun _ => hnew.mem_iff
  · have hnew := (liveXVars_perm env (running c)).append_left (staticXVars c₀)
    have hn := (hnew.map Prod.fst).nodup_iff.2 (nodup_keys_xvars env (running c) c₀)
    have hrefresh := h.xvars.refresh (keys_liveXVars_subset hevents hseasons) hn
    rw [← hxvars] at hrefresh
    exact hrefresh.congr fun _ => hnew.mem_iff

/-- A run without a restart follows the configuration. -/
theorem follows_run (calls : List PatchConfig)
    (h : StepsMeet (sessionStep env) (NoRestart env) (bootSession env c₀) calls) :
    Follows env c₀ (run (sessionStep env) (bootSession env c₀) calls) :=
  run_invariant_of_stepsMeet (fun _ _ hs hr => hs.step hr) (follows_bootSession env c₀) h

/-! ## The settings that only the boot reads -/

/-- No hook is in two blocks. -/
theorem nodup_hookBlocks (env : GameEnv) : (all (hookBlocks env)).Nodup := by
  have hall : (all (hookBlocks .complete)).Nodup := by decide +kernel
  refine hall.sublist ?_
  simp only [hookBlocks, all, List.flatMap_append]
  refine .append (.append (List.Sublist.refl _) ?_) (List.Sublist.refl _)
  refine .append (List.Sublist.refl _) (.append (List.Sublist.refl _)
    (.append (List.Sublist.refl _) (.append ?_ (List.Sublist.refl _))))
  exact List.monotone_filter_right _ fun _ _ => rfl

/-- A static write and a live one go to different sites. -/
theorem not_mem_liveWrites {w : PatchWrite} (hw : w ∈ all staticBlocks) :
    w ∉ liveWrites env c := by
  have hdisj := (List.nodup_append'.1 nodup_bootSites).2.2
  intro hlive
  exact hdisj (List.mem_map_of_mem (f := Prod.fst) hw)
    ((keys_liveWrites env c).subset (List.mem_map_of_mem (f := Prod.fst) hlive))

/-- The same hooks are those of blocks with the same guards. -/
theorem same_hooks_iff : (∀ h, h ∈ emit (hookBlocks env) c₀ ↔ h ∈ emit (hookBlocks env) c) ↔
    ∀ b ∈ hookBlocks env, b.2 ≠ [] → b.1 c₀ = b.1 c := by
  refine ⟨fun h => guards_eq (nodup_hookBlocks env) fun a _ => h a, fun h a => ?_⟩
  rw [emit_congr h]

theorem same_code_iff : (∀ w, w ∈ emit staticBlocks c₀ ++ liveWrites env c ↔
      w ∈ emit staticBlocks c ++ liveWrites env c) ↔
    ∀ b ∈ staticBlocks, b.2 ≠ [] → b.1 c₀ = b.1 c := by
  refine ⟨fun h => guards_eq ?_ fun w hw => ?_, fun h w => ?_⟩
  · exact List.Nodup.of_map _ (List.nodup_append'.1 nodup_bootSites).1
  · have hlive : w ∉ liveWrites env c := not_mem_liveWrites hw
    simpa [List.mem_append, hlive] using h w
  · rw [emit_congr h]

theorem same_xvars_iff : (∀ w, w ∈ staticXVars c₀ ++ liveXVars env c ↔
      w ∈ staticXVars c ++ liveXVars env c) ↔
    c₀.challengeRifts.active = c.challengeRifts.active ∧
      c₀.seasons.active = c.seasons.active := by
  refine ⟨fun h => ?_, fun ⟨hr, hs⟩ w => by simp only [staticXVars, hr, hs]⟩
  have hn := nodup_keys_xvars env c c₀
  rw [Writes.keys, List.map_append] at hn
  have hdisj := (List.nodup_append'.1 hn).2.2
  have hstatic : ∀ w ∈ staticXVars c₀, w ∈ staticXVars c := fun w hw =>
    (List.mem_append.1 ((h w).1 (List.mem_append_left _ hw))).resolve_right fun hl =>
      hdisj (List.mem_map_of_mem (f := Prod.fst) hw) (List.mem_map_of_mem (f := Prod.fst) hl)
  simpa [staticXVars] using hstatic

/-- Where the ruled settings agree, the guards agree exactly when the boot-only settings do. -/
theorem bootOnlyAgree_iff (hruled : ruled c₀ = ruled c) : BootOnlyAgree c₀ c ↔
    (∀ b ∈ hookBlocks env, b.2 ≠ [] → b.1 c₀ = b.1 c) ∧
      (∀ b ∈ staticBlocks, b.2 ≠ [] → b.1 c₀ = b.1 c) ∧
        c₀.challengeRifts.active = c.challengeRifts.active ∧
          c₀.seasons.active = c.seasons.active := by
  obtain ⟨hactive, -, hdocked, -, hcrashes, honline, htagnx, -, -, hoe⟩ :
      _ ∧ _ ∧ _ ∧ _ ∧ _ ∧ _ ∧ _ ∧ _ ∧ _ ∧ _ := by
    simpa only [ruled, Prod.mk.injEq] using hruled
  have hcheats : ∀ b ∈ cheatBlocks, b.2 ≠ [] := by simp [cheatBlocks]
  have happ : staticBlocks = [(fun c => c.challengeRifts.active, rewardSaveGateWrites true)] ++
      under (fun c => c.rareCheats.active) (fun c => c.rareCheats) cheatBlocks ++
        [(fun _ => true, signinWrites)] ++ baseBlocks := rfl
  have hunder : (∀ b ∈ under (fun c : PatchConfig => c.rareCheats.active)
      (fun c => c.rareCheats) cheatBlocks, b.2 ≠ [] → b.1 c₀ = b.1 c) ↔
        ∀ b ∈ cheatBlocks, (c₀.rareCheats.active && b.1 c₀.rareCheats) =
          (c.rareCheats.active && b.1 c.rareCheats) := by
    rw [under, List.forall_mem_map]
    exact forall₂_congr fun b hb => by simp [hcheats b hb]
  rw [happ]
  simp only [BootOnlyAgree, bootOnly, List.forall_mem_append, hunder, List.forall_mem_map,
    List.forall_mem_cons, List.not_mem_nil, false_implies, implies_true, and_true, hookBlocks,
    utilityDebugHooks, utilityHooks, debuggingHooks, baseBlocks, hactive, hdocked, hcrashes,
    honline, htagnx, hoe, rewardSaveGateWrites, signinWrites, ne_eq, reduceCtorEq,
    not_false_eq_true, true_implies, true_and]
  refine ⟨?_, ?_⟩
  · rintro ⟨⟨hs, hr, hl, hd, hpub, htr, heq, hms, has, hfl, hun, hek⟩, hch⟩
    exact ⟨⟨⟨hd, heq, hl, hms, has, hfl⟩, hr, hpub, htr, fun _ => by rw [hd]⟩,
      ⟨⟨hr, hch⟩, hun, hek⟩, hr, hs⟩
  · rintro ⟨⟨⟨hd, heq, hl, hms, has, hfl⟩, hr, hpub, htr, -⟩, ⟨⟨-, hch⟩, hun, hek⟩, -, hs⟩
    exact ⟨⟨hs, hr, hl, hd, hpub, htr, heq, hms, has, hfl, hun, hek⟩, hch⟩

/-- A session whose calls reported no restart has the effects of a boot with its last
configuration if and only if the settings that only the boot reads agree. -/
theorem sameEffects_run_iff (env : GameEnv) (c₀ : PatchConfig) (calls : List PatchConfig)
    (c : PatchConfig)
    (h : StepsMeet (sessionStep env) (NoRestart env) (bootSession env c₀) (calls ++ [c])) :
    SameEffects (run (sessionStep env) (bootSession env c₀) (calls ++ [c])).machine
      (mainInit env (running c)) ↔ BootOnlyAgree c₀ (running c) := by
  have hf := follows_run _ h
  have hglobal : (run (sessionStep env) (bootSession env c₀) (calls ++ [c])).globalConfig =
      running c := by rw [run_concat]; rfl
  have hcode := hf.code
  have hxvars := hf.xvars
  rw [hglobal] at hcode hxvars
  rw [bootOnlyAgree_iff (hglobal ▸ hf.ruled), ← same_hooks_iff, ← same_code_iff, ← same_xvars_iff,
    ← hcode.eq_iff (mainInit_code env _), ← hxvars.eq_iff (mainInit_xvars env _),
    ← hf.hooks, ← mainInit_hooks env (running c)]
  exact ⟨fun hsame => ⟨hsame.hooks, hsame.code, hsame.xvars⟩, fun ⟨hh, hc, hx⟩ => ⟨hh, hc, hx⟩⟩

/-- Infinite resource is turned off and on again, and the season changes. -/
theorem sameEffects_run_seasonChange : SameEffects
    (run (sessionStep .complete) (bootSession .complete {})
      ([{ rareCheats := { infiniteMp := false } }] ++
        [{ seasons := { currentSeason := 31 } }])).machine
    (mainInit .complete (running { seasons := { currentSeason := 31 } })) :=
  (sameEffects_run_iff .complete {} [{ rareCheats := { infiniteMp := false } }]
    { seasons := { currentSeason := 31 } }
    ⟨by unfold NoRestart; decide +kernel, by unfold NoRestart; decide +kernel, trivial⟩).2
      (by unfold BootOnlyAgree; decide +kernel)

/-- Loot modifiers turned on at runtime report no restart, and their hook is missing. -/
theorem not_sameEffects_lootModifiers :
    StepsMeet (sessionStep .complete) (NoRestart .complete) (bootSession .complete {})
        [{ lootModifiers := { active := true } }] ∧
      ¬ SameEffects
        (run (sessionStep .complete) (bootSession .complete {})
          [{ lootModifiers := { active := true } }]).machine
        (mainInit .complete (running { lootModifiers := { active := true } })) := by
  refine ⟨⟨by unfold NoRestart; decide +kernel, trivial⟩, fun h => ?_⟩
  have hboot : Hook.forceAncient ∈
      (mainInit .complete (running { lootModifiers := { active := true } })).hooks := by
    decide +kernel
  have hrun : Hook.forceAncient ∉
      (run (sessionStep .complete) (bootSession .complete {})
        [{ lootModifiers := { active := true } }]).machine.hooks := by
    decide +kernel
  exact hrun ((h.hooks _).2 hboot)

end D3Hack
