import D3Hack.HookRegistry
import D3Hack.Runs

/-!
# Applying a configuration at runtime

`applyPatchConfigRuntime` makes a configuration the global one in a running game. It sets
variables and patches code (`applyEffects`) and reports whether the settings that changed need
a restart (`applyReport`).

`restartRequired_eq_false_iff` reads the report off the two configurations, and
`applyEffects_spec` gives the effects as writes.
-/

namespace D3Hack

/-! ## The report -/

/-- `RuntimeApplyResult`. -/
structure RuntimeApplyResult where
  restartRequired : Bool := false
  appliedEnableOnly : Bool := false
  note : String := ""

namespace RuntimeApplyResult

/-- The size of the buffer of the note. -/
def noteSize : ℕ := 256

/-- Text cut to the buffer, with its final zero. -/
def cut (text : String) : String := String.ofList (text.toList.take (noteSize - 1))

/-- `append_note`. -/
def appendNote (r : RuntimeApplyResult) (text : String) : RuntimeApplyResult :=
  if text = "" then r
  else if r.note = "" then { r with note := cut text }
  else if r.note.length + 2 ≥ noteSize then r
  else { r with note := cut (r.note ++ ", " ++ text) }

/-- `require_restart_if`. -/
def requireRestartIf (r : RuntimeApplyResult) (cond : Bool) (note : String) :
    RuntimeApplyResult :=
  if cond then { r with restartRequired := true }.appendNote note else r

@[simp] theorem appendNote_restartRequired (r : RuntimeApplyResult) (text : String) :
    (r.appendNote text).restartRequired = r.restartRequired := by
  unfold appendNote
  split_ifs <;> rfl

@[simp] theorem requireRestartIf_restartRequired (r : RuntimeApplyResult) (cond : Bool)
    (note : String) : (r.requireRestartIf cond note).restartRequired =
      (r.restartRequired || cond) := by
  cases cond <;> simp [requireRestartIf]

end RuntimeApplyResult

/-! ## The restart rules -/

/-- A setting differs. -/
def changed {α : Type} [BEq α] (setting : PatchConfig → α) (a b : PatchConfig) : Bool :=
  setting a != setting b

/-- The section is switched. -/
def changedResolutionHackActive := changed fun c => c.resolutionHack.active

/-- The scale in handheld mode differs, as a number. -/
def changedResolutionHackOutputScale (a b : PatchConfig) : Bool :=
  !a.resolutionHack.outputHandheldScale.eq b.resolutionHack.outputHandheldScale

/-- The spoofed dock is switched. -/
def changedResolutionHackSpoofDocked := changed fun c => c.resolutionHack.spoofDocked

/-- The height that the game renders at differs, docked or in handheld mode. -/
def changedResolutionTargets (a b : PatchConfig) : Bool :=
  changed (fun c => c.resolutionHack.targetResolution) a b ||
    changed (fun c => c.resolutionHack.outputHandheldHeightPx) a b

/-- The crash hooks are switched. -/
def changedEnableCrashes := changed fun c => c.debug.enableCrashes

/-- Online play is switched. -/
def changedAllowOnline := changed fun c => c.seasons.allowOnline

/-- The spoofed network functions are switched. -/
def changedTagNx := changed fun c => c.debug.tagnx

/-- The debug flags are switched. -/
def changedDebugFlags := changed fun c => c.debug.enableDebugFlags

/-- The exception handler is switched. -/
def changedExceptionHandler := changed fun c => c.debug.enableExceptionHandler

/-- The hook of the notifications is switched. -/
def changedOeNotifications := changed fun c => c.debug.enableOeNotificationHook

/-- `RestartRule`. -/
structure RestartRule where
  note : String
  changed : PatchConfig → PatchConfig → Bool

/-- `k_restart_rules`. -/
def kRestartRules : List RestartRule :=
  [⟨"Resolution hack", changedResolutionHackActive⟩,
    ⟨"Resolution hack", changedResolutionHackOutputScale⟩,
    ⟨"Spoof docked", changedResolutionHackSpoofDocked⟩,
    ⟨"Resolution targets", changedResolutionTargets⟩,
    ⟨"Crash hooks", changedEnableCrashes⟩,
    ⟨"AllowOnlinePlay", changedAllowOnline⟩,
    ⟨"SpoofNetworkFunctions", changedTagNx⟩,
    ⟨"Debug flags", changedDebugFlags⟩,
    ⟨"Exception handler", changedExceptionHandler⟩,
    ⟨"OE notifications", changedOeNotifications⟩]

/-! ## The call -/

/-- A running session: what was done to the game, and `global_config`. -/
structure Session where
  machine : Machine
  globalConfig : PatchConfig

/-- The session after a boot. -/
def bootSession (env : GameEnv) (c : PatchConfig) : Session :=
  { machine := mainInit env c, globalConfig := c }

/-- A configuration made global at runtime. -/
def running (c : PatchConfig) : PatchConfig := { c with initialized := true, defaultsOnly := false }

/-- The watermark is drawn. -/
def buildlockerOn (c : PatchConfig) : Bool := c.overlays.active && c.overlays.buildlockerWatermark

/-- What `ApplyPatchConfigRuntime` does to the game, from the previous configuration to `c`. -/
def applyEffects (env : GameEnv) (prev c : PatchConfig) (m : Machine) : Machine :=
  let m := m.setXVars [(.onlineServicePTR, .bool c.seasons.spoofPtr),
    (.experimentalScheduling, .bool c.resolutionHack.expScheduler)]
  let m := if infiniteMpEffective prev != infiniteMpEffective c then
    m.patch (patchInfiniteMp (infiniteMpEffective c)) else m
  let m := if buildlockerOn c && !buildlockerOn prev then m.patch (patchBuildlocker c) else m
  let m := if c.events.active then patchDynamicEvents env c m else m
  if c.seasons.active then patchDynamicSeasonal c m
  else if prev.seasons.active then updateDynamicSeasonalForSpawn c none m else m

/-- What `ApplyPatchConfigRuntime` reports. -/
def applyReport (prev c : PatchConfig) : RuntimeApplyResult :=
  let r : RuntimeApplyResult := {}
  let r := if infiniteMpEffective prev != infiniteMpEffective c then r.appendNote "Infinite MP"
    else r
  let r := if buildlockerOn c && !buildlockerOn prev then
      { r with appliedEnableOnly := true }.appendNote "BuildLocker"
    else r.requireRestartIf (buildlockerOn prev && !buildlockerOn c) "BuildLocker"
  let r := if c.events.active then r else r.requireRestartIf prev.events.active "Events"
  let r := if c.seasons.active then r else r.requireRestartIf prev.seasons.active "Seasons"
  kRestartRules.foldl
    (fun r rule => if rule.note = "" then r else r.requireRestartIf (rule.changed prev c) rule.note)
    r

/-- `ApplyPatchConfigRuntime`. -/
def applyPatchConfigRuntime (env : GameEnv) (config : PatchConfig) (s : Session) :
    Session × RuntimeApplyResult :=
  let prev := s.globalConfig
  let c := running config
  ({ machine := applyEffects env prev c s.machine, globalConfig := c }, applyReport prev c)

/-! ## What needs a restart -/

/-- The settings that the restart rules compare. -/
def ruled (c : PatchConfig) : Bool × Ieee × Bool × ℕ × Bool × Bool × Bool × Bool × Bool × Bool :=
  (c.resolutionHack.active, c.resolutionHack.outputHandheldScale, c.resolutionHack.spoofDocked,
    c.resolutionHack.targetResolution, c.debug.enableCrashes, c.seasons.allowOnline,
    c.debug.tagnx, c.debug.enableDebugFlags, c.debug.enableExceptionHandler,
    c.debug.enableOeNotificationHook)

section Report

variable (prev c : PatchConfig)

theorem foldl_requireRestartIf (rules : List RestartRule) (hn : ∀ rule ∈ rules, rule.note ≠ "")
    (r : RuntimeApplyResult) :
    (rules.foldl (fun r rule =>
      if rule.note = "" then r else r.requireRestartIf (rule.changed prev c) rule.note)
        r).restartRequired = (r.restartRequired || rules.any fun rule => rule.changed prev c) := by
  induction rules generalizing r with
  | nil => simp
  | cons rule rules ih =>
    obtain ⟨hrule, hrules⟩ := List.forall_mem_cons.1 hn
    simp [ih hrules, hrule, Bool.or_assoc]

/-- No restart is reported when nothing was turned off that stays on, and no rule fires. -/
theorem restartRequired_eq_false_iff : (applyReport prev c).restartRequired = false ↔
    (buildlockerOn prev = true → buildlockerOn c = true) ∧
      (prev.events.active = true → c.events.active = true) ∧
        (prev.seasons.active = true → c.seasons.active = true) ∧
          ∀ rule ∈ kRestartRules, rule.changed prev c = false := by
  rw [applyReport, foldl_requireRestartIf _ _ _ (by decide +kernel)]
  simp only [Bool.or_eq_false_iff, List.any_eq_false, Bool.not_eq_true, ← and_assoc]
  refine and_congr_left fun _ => ?_
  rcases buildlockerOn prev <;> rcases buildlockerOn c <;> rcases prev.events.active <;>
    rcases c.events.active <;> rcases prev.seasons.active <;> rcases c.seasons.active <;>
      simp [apply_ite RuntimeApplyResult.restartRequired]

/-- The handheld height is a function of the scale and the target. -/
theorem outputHandheldHeightPx_congr {a b : ResolutionHackConfig}
    (hs : a.outputHandheldScale = b.outputHandheldScale)
    (ht : a.targetResolution = b.targetResolution) :
    a.outputHandheldHeightPx = b.outputHandheldHeightPx := by
  have hf : a.handheldScaleFraction = b.handheldScaleFraction := by
    simp only [ResolutionHackConfig.handheldScaleFraction, hs]
  simp only [ResolutionHackConfig.outputHandheldHeightPx, hf, ht]

/-- The rules compare the ruled settings; a scale that is not a number differs from itself. -/
theorem rules_agree_iff : (∀ rule ∈ kRestartRules, rule.changed prev c = false) ↔
    ruled prev = ruled c ∧ prev.resolutionHack.outputHandheldScale ≠ .nan := by
  simp only [kRestartRules, List.forall_mem_cons, List.not_mem_nil, false_implies, implies_true,
    and_true, changedResolutionHackActive, changedResolutionHackOutputScale,
    changedResolutionHackSpoofDocked, changedResolutionTargets, changedEnableCrashes,
    changedAllowOnline, changedTagNx, changedDebugFlags, changedExceptionHandler,
    changedOeNotifications, changed, bne_eq_false_iff_eq, Bool.or_eq_false_iff,
    Bool.not_eq_false', Ieee.eq_iff, ruled, Prod.mk.injEq]
  refine ⟨?_, ?_⟩
  · rintro ⟨h₁, ⟨h₂, hn⟩, h₃, ⟨h₄, -⟩, h₅, h₆, h₇, h₈, h₉, h₁₀⟩
    exact ⟨⟨h₁, h₂, h₃, h₄, h₅, h₆, h₇, h₈, h₉, h₁₀⟩, hn⟩
  · rintro ⟨⟨h₁, h₂, h₃, h₄, h₅, h₆, h₇, h₈, h₉, h₁₀⟩, hn⟩
    exact ⟨h₁, ⟨h₂, hn⟩, h₃, ⟨h₄, outputHandheldHeightPx_congr h₂ h₄⟩, h₅, h₆, h₇, h₈, h₉, h₁₀⟩

end Report

/-! ## The effects -/

section Effects

variable (env : GameEnv) (prev c : PatchConfig) (m : Machine)

/-- The writes to code of a call. -/
def runtimeWrites : List PatchWrite :=
  (if infiniteMpEffective prev != infiniteMpEffective c then
      patchInfiniteMp (infiniteMpEffective c) else []) ++
    (if buildlockerOn c && !buildlockerOn prev then patchBuildlocker c else []) ++
      (if c.seasons.active then dynamicSeasonalWrites c else [])

/-- The writes to variables of a call. -/
def runtimeXVars : List XVarWrite :=
  [(.onlineServicePTR, .bool c.seasons.spoofPtr),
    (.experimentalScheduling, .bool c.resolutionHack.expScheduler)] ++
    (if c.events.active then dynamicEventsXVars env c else []) ++
      (if c.seasons.active then dynamicSeasonalXVars c else [])

/-- With the spawn gate closed, a call writes code and variables, and installs no hook. -/
theorem applyEffects_spec (hm : m.dynamicSeasonalPatchApplied = false) :
    (applyEffects env prev c m).hooks = m.hooks ∧
      (applyEffects env prev c m).code = Writes.apply m.code (runtimeWrites prev c) ∧
        (applyEffects env prev c m).xvars = Writes.apply m.xvars (runtimeXVars env c) ∧
          (applyEffects env prev c m).dynamicSeasonalPatchApplied = false := by
  have hpatch : ∀ (p : Prop) [Decidable p] (ws : List PatchWrite) (m : Machine),
      (if p then m.patch ws else m) = m.patch (if p then ws else []) := by
    intro p _ ws m
    split_ifs <;> rfl
  have hseasons : ∀ m : Machine, m.dynamicSeasonalPatchApplied = false →
      (if c.seasons.active then patchDynamicSeasonal c m
        else if prev.seasons.active then updateDynamicSeasonalForSpawn c none m else m) =
        (m.setXVars (if c.seasons.active then dynamicSeasonalXVars c else [])).patch
          (if c.seasons.active then dynamicSeasonalWrites c else []) := by
    intro m hm
    split_ifs with h h'
    · exact patchDynamicSeasonal_eq c m hm h
    · simp [updateDynamicSeasonalForSpawn, h, setDynamicSeasonalPatchArmed_false c m hm,
        Machine.patch, Machine.setXVars]
    · rfl
  simp only [applyEffects, hpatch]
  obtain ⟨start, stop, egg, hev⟩ := patchDynamicEvents_ite env c
    (((m.setXVars [(.onlineServicePTR, .bool c.seasons.spoofPtr),
      (.experimentalScheduling, .bool c.resolutionHack.expScheduler)]).patch _).patch _)
  rw [hev, hseasons _ (by simpa using hm)]
  refine ⟨by simp, by simp [runtimeWrites, Writes.apply_append], ?_, by simpa using hm⟩
  rw [runtimeXVars, Writes.apply_append, Writes.apply_append]
  simp

end Effects

end D3Hack
