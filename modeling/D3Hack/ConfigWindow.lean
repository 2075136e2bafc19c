import D3Hack.ConfigLoad
import D3Hack.ConfigNormalize
import D3Hack.RuntimeApply

/-!
# The configuration window

The window edits a draft of the configuration. The buttons of its last row reload the draft
from the file, reset it to the global configuration, apply it and save it; reloading and
applying go through `applyPatchConfigRuntime` and set the flag of the restart banner.

`along_bannerKept_iff` says when the banner is right in every state of a run of edits and
buttons: the flag is computed from the change against the previous global configuration, so
an action loses the banner when a restart that the boot still needs is not part of that
change. `loadAllOrNothing_iff` says when loading, from the boot and from the window, completes
and changes everything or nothing.
-/

namespace D3Hack

open Calls Runs Toml

/-! ## The window -/

/-- The draft, and what the window keeps, in a running session. -/
structure ConfigWindow where
  session : Session
  cfg : PatchConfig
  uiDirty : Bool := false
  restartRequired : Bool := false
  restartNote : String := ""
  langRestartPending : Bool := false

/-- The window once the boot's configuration is loaded into it. -/
def bootWindow (env : GameEnv) (boot : PatchConfig) : ConfigWindow :=
  { session := bootSession env boot, cfg := boot }

namespace ConfigWindow

/-- `build_runtime_apply`: the settings of the interface stay as they are. -/
def buildRuntimeApply (requested global : PatchConfig) : PatchConfig :=
  { requested with
    gui :=
      { enabled := global.gui.enabled
        visible := global.gui.visible
        allowLeftStickPassthrough := global.gui.allowLeftStickPassthrough
        languageOverride := global.gui.languageOverride } }

/-- The flag that `build_runtime_apply` sets. -/
def guiPending (requested global : PatchConfig) : Bool :=
  requested.gui.enabled != global.gui.enabled || requested.gui.visible != global.gui.visible ||
    requested.gui.allowLeftStickPassthrough != global.gui.allowLeftStickPassthrough

/-- `update_restart_note`. -/
def updateRestartNote (apply : RuntimeApplyResult) (guiPending : Bool) : String :=
  let note := apply.note
  if guiPending then
    if note = "" then "GUI"
    else if note.length + 6 < RuntimeApplyResult.noteSize then
      RuntimeApplyResult.cut (note ++ ", " ++ "GUI")
    else note
  else note

/-- A change of the language waits for a restart. -/
def langPending (cfg global : PatchConfig) : Bool :=
  cfg.gui.languageOverride != global.gui.languageOverride

/-- What reloading and applying do with a normalised configuration. -/
def applyNormalized (env : GameEnv) (normalized : PatchConfig) (w : ConfigWindow) :
    ConfigWindow :=
  let pending := guiPending normalized w.session.globalConfig
  let runtimeApply := buildRuntimeApply normalized w.session.globalConfig
  let (session, apply) := applyPatchConfigRuntime env runtimeApply w.session
  let restartRequired := apply.restartRequired || pending
  { session, cfg := normalized, uiDirty := false, restartRequired
    restartNote := if restartRequired then updateRestartNote apply pending else ""
    langRestartPending := langPending normalized session.globalConfig }

variable (env : GameEnv) (api : Api) (devMem : Option ℕ)

/-- Any edit of the draft. -/
def edit (cfg : PatchConfig) (w : ConfigWindow) : ConfigWindow :=
  { w with cfg, uiDirty := true, langRestartPending := langPending cfg w.session.globalConfig }

/-- The reload button, for the configuration that was loaded. -/
def reload (loaded : Option PatchConfig) (w : ConfigWindow) : ConfigWindow :=
  match loaded with
  | some loaded => applyNormalized env (normalizePatchConfig api devMem loaded) w
  | none => w

/-- The reset button. -/
def reset (w : ConfigWindow) : ConfigWindow :=
  { w with
    cfg := w.session.globalConfig, uiDirty := false, restartRequired := false
    restartNote := "", langRestartPending := false }

/-- The apply button. -/
def apply (w : ConfigWindow) : ConfigWindow :=
  applyNormalized env (normalizePatchConfig api devMem w.cfg) w

/-- The save button, for whether the save succeeded. -/
def save (saved : Bool) (w : ConfigWindow) : ConfigWindow :=
  if saved then { w with langRestartPending := langPending w.cfg w.session.globalConfig } else w

end ConfigWindow

open ConfigWindow

/-- What the user does in the window. -/
inductive WindowAction where
  | edit (cfg : PatchConfig)
  | reload (loaded : Option PatchConfig)
  | reset
  | apply
  | save (saved : Bool)

section Banner

variable (env : GameEnv) (api : Api) (devMem : Option ℕ)

/-- What an action does to the window. -/
def windowStep (w : ConfigWindow) : WindowAction → ConfigWindow
  | .edit cfg => w.edit cfg
  | .reload loaded => w.reload env api devMem loaded
  | .reset => w.reset
  | .apply => w.apply env api devMem
  | .save saved => w.save saved

/-! ## The restart banner -/

/-- If applying the global configuration to the boot would report a restart, the flag is set. -/
def BannerKept (boot : PatchConfig) (w : ConfigWindow) : Prop :=
  (applyPatchConfigRuntime env w.session.globalConfig
      (bootSession env boot)).2.restartRequired = true →
    w.restartRequired = true

/-- Going from `a` to `b` needs a restart: something that stays on is turned off, or a ruled
setting differs, where a scale that is not a number differs from itself. -/
def NeedsRestart (a b : PatchConfig) : Prop :=
  buildlockerOn a = true ∧ buildlockerOn b = false ∨
    a.events.active = true ∧ b.events.active = false ∨
      a.seasons.active = true ∧ b.seasons.active = false ∨
        ruled a ≠ ruled b ∨ a.resolutionHack.outputHandheldScale = .nan

/-- A configuration that still needs a restart after the boot needs one after the global
configuration, or changes the interface. -/
def PendingSeen (boot c global : PatchConfig) : Prop :=
  NeedsRestart boot c → NeedsRestart global c ∨ guiPending c global = true

/-- What an action must meet for the banner to stay. -/
def KeepsBanner (boot : PatchConfig) (w : ConfigWindow) : WindowAction → Prop
  | .reload (some loaded) =>
    PendingSeen boot (normalizePatchConfig api devMem loaded) w.session.globalConfig
  | .reset => ¬NeedsRestart boot w.session.globalConfig
  | .apply => PendingSeen boot (normalizePatchConfig api devMem w.cfg) w.session.globalConfig
  | _ => True

variable {env api devMem}

theorem restartRequired_iff (a b : PatchConfig) :
    (applyReport a b).restartRequired = true ↔ NeedsRestart a b := by
  rw [← not_iff_not, Bool.not_eq_true, restartRequired_eq_false_iff, rules_agree_iff]
  simp only [NeedsRestart, not_or, not_and, Bool.not_eq_false, not_not, ne_eq]

theorem bannerKept_iff (boot : PatchConfig) (w : ConfigWindow) : BannerKept env boot w ↔
    (NeedsRestart boot w.session.globalConfig → w.restartRequired = true) := by
  rw [BannerKept, ← restartRequired_iff]
  rfl

/-- Applying keeps the banner exactly when the restart still needed is seen. -/
theorem bannerKept_applyNormalized (boot c : PatchConfig) (w : ConfigWindow) :
    BannerKept env boot (applyNormalized env c w) ↔ PendingSeen boot c w.session.globalConfig := by
  have hflag : (applyNormalized env c w).restartRequired = true ↔
      NeedsRestart w.session.globalConfig c ∨ guiPending c w.session.globalConfig = true := by
    rw [← restartRequired_iff, ← Bool.or_eq_true]
    rfl
  rw [bannerKept_iff, hflag]
  rfl

theorem bannerKept_windowStep (boot : PatchConfig) (w : ConfigWindow) (a : WindowAction)
    (h : BannerKept env boot w) : BannerKept env boot (windowStep env api devMem w a) ↔
      KeepsBanner api devMem boot w a := by
  cases a with
  | edit cfg => exact iff_of_true h trivial
  | reload loaded =>
    cases loaded with
    | none => exact iff_of_true h trivial
    | some loaded => exact bannerKept_applyNormalized boot _ w
  | reset =>
    rw [bannerKept_iff]
    simp [windowStep, ConfigWindow.reset, KeepsBanner]
  | apply => exact bannerKept_applyNormalized boot _ w
  | save saved =>
    refine iff_of_true ?_ trivial
    cases saved
    · exact h
    · exact h

theorem bannerKept_bootWindow (boot : PatchConfig) : BannerKept env boot (bootWindow env boot) ↔
    boot.resolutionHack.outputHandheldScale ≠ .nan := by
  rw [bannerKept_iff]
  simp [bootWindow, bootSession, NeedsRestart]

/-- **The banner is right in every state of a run if and only if the boot's scale is a number
and every action keeps it.** -/
theorem along_bannerKept_iff (env : GameEnv) (api : Api) (devMem : Option ℕ)
    (boot : PatchConfig) (actions : List WindowAction) :
    Along (windowStep env api devMem) (BannerKept env boot) (bootWindow env boot) actions ↔
      boot.resolutionHack.outputHandheldScale ≠ .nan ∧
        StepsMeet (windowStep env api devMem) (KeepsBanner api devMem boot)
          (bootWindow env boot) actions := by
  refine ⟨fun h => ?_, fun ⟨hscale, h⟩ => ?_⟩
  · refine ⟨(bannerKept_bootWindow boot).1 h.head, ?_⟩
    exact (along_iff_stepsMeet (J := fun _ => True) (fun _ _ _ => trivial)
      (fun w a _ hw => bannerKept_windowStep boot w a hw) trivial h.head actions).1 h
  · exact (along_iff_stepsMeet (J := fun _ => True) (fun _ _ _ => trivial)
      (fun w a _ hw => bannerKept_windowStep boot w a hw) trivial
        ((bannerKept_bootWindow boot).2 hscale) actions).2 h

end Banner

/-- The crash hooks are turned on and applied, and applied again: the second call finds no
change, and the banner goes away. -/
theorem not_bannerKept_applyTwice :
    ¬BannerKept .complete {} (run (windowStep .complete Api.accessors none)
      (bootWindow .complete {})
      [.edit { debug := { enableCrashes := true } }, .apply, .apply]) := by
  have laws : Api.accessors.Laws := Api.laws_ofText _ _
  have hfin : FiniteNumbers { debug := { enableCrashes := true } } := ⟨rfl, rfl, rfl, rfl, rfl⟩
  have hcan := canonical_normalForm none hfin
  have hfirst := normalizePatchConfig_eq laws none hfin
  have hsecond := normalizePatchConfig_eq laws none (finite_of_canonical hcan)
  rw [normalForm_idem none hfin] at hsecond
  rw [run_cons, run_cons, run_cons, run_nil]
  simp only [windowStep, ConfigWindow.edit, ConfigWindow.apply, hfirst]
  rw [bannerKept_applyNormalized, applyNormalized, hsecond]
  simp only [PendingSeen, ← restartRequired_iff]
  decide +kernel

/-! ## Loading under faults -/

section Loading

variable (env : GameEnv) (api : Api) (devMem : Option ℕ) (fails : ReadSite → Bool) (fs : Fs)

/-- The reload handler, with its calls. -/
def clickReload (w : ConfigWindow) : FsProg ReadSite ConfigWindow := do
  let ((loaded, config, _), _) ← loadPatchConfigFromPath id kConfigPath api devMem ""
    { config := w.session.globalConfig }
  pure (w.reload env api devMem (if loaded then some config else none))

/-- Loading completes and is all or nothing: the boot takes the whole file or the defaults,
loading from a path leaves the variables, and a reload that loads nothing leaves the window. -/
structure LoadAllOrNothing : Prop where
  boot : ∀ g, ∃ g', (loadPatchConfig id api devMem g).run (faulty fails) fs = (.value g', fs) ∧
    LoadedOrDefaults api devMem fs g'.config
  fromPath : ∀ path error g result g' fs',
    (loadPatchConfigFromPath id path api devMem error g).run (faulty fails) fs =
      (.value (result, g'), fs') → g' = g
  reload : ∀ w, ∃ w', (clickReload env api devMem w).run (faulty fails) fs = (.value w', fs) ∧
    ((∃ config e g fs', (loadPatchConfigFromPath id kConfigPath api devMem ""
        { config := w.session.globalConfig }).run (faulty fails) fs =
          (.value ((false, config, e), g), fs')) → w' = w)

/-- **Loading completes and is all or nothing exactly when none of its two asserted calls
fails: opening the file that is there, or reading its content.** -/
theorem loadAllOrNothing_iff :
    LoadAllOrNothing env api devMem fails fs ↔ ¬ReadAborts id fails kConfigPath fs := by
  refine ⟨fun h habort => ?_, fun habort => ⟨fun g => ?_, ?_, fun w => ?_⟩⟩
  · obtain ⟨g', hval, -⟩ := h.boot {}
    rcases loadPatchConfig_spec id fails fs api devMem {} with ⟨-, msg, hrun⟩ | ⟨hno, -⟩
    · rw [hval] at hrun
      cases (Prod.mk.inj hrun).1
    · exact hno habort
  · exact ((loadPatchConfig_spec id fails fs api devMem g).resolve_left fun h => habort h.1).2
  · intro path error g result g' fs' hrun
    rw [loadPatchConfigFromPath, Prog.run_bind] at hrun
    split at hrun
    · exact (Prod.mk.inj (Outcome.value.inj (Prod.mk.inj hrun).1)).2.symm
    · cases (Prod.mk.inj hrun).1
  · obtain ⟨-, ok, config, e, hrun, -⟩ :=
      (loadFromPath_spec id fails kConfigPath fs api devMem (by decide) {} "").resolve_left
        fun h => habort h.1
    have hload : (loadPatchConfigFromPath id kConfigPath api devMem ""
        { config := w.session.globalConfig }).run (faulty fails) fs =
          (.value ((ok, config, e), { config := w.session.globalConfig }), fs) := by
      rw [loadPatchConfigFromPath, Prog.run_bind_value _ hrun]
      rfl
    refine ⟨_, by rw [clickReload, Prog.run_bind_value _ hload]; rfl, ?_⟩
    rintro ⟨config', e', g, fs', hfalse⟩
    rw [hload] at hfalse
    obtain ⟨⟨⟨hok, -⟩, -⟩, -⟩ : ((ok = false ∧ _) ∧ _) ∧ _ := by simpa using hfalse
    rw [hok]
    rfl

end Loading

/-- The file is there and does not open: loading aborts. -/
theorem not_loadAllOrNothing_openFails :
    ¬LoadAllOrNothing .complete Api.accessors none (fun site => site == .openConfig)
      (cardWith [(kConfigPath, [1])]) := by
  intro h
  obtain ⟨g', hval, -⟩ := h.boot {}
  have hrun : ((loadPatchConfig id Api.accessors none {}).run
      (faulty fun site => site == .openConfig) (cardWith [(kConfigPath, [1])])).1 =
        .aborted ("Failed to open file: " ++ kConfigPath) := rfl
  rw [hval] at hrun
  cases hrun

end D3Hack
