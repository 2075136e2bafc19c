import D3Hack.ConfigWindow

/-!
# The overlay and the input block

`onPresent` is the frame callback: it sets up the interface, draws the overlay when rendering
is enabled, and only then sets the flag that blocks the game's input. A `Frame` holds what a
frame finds outside and what the user does in it.

`InputSafe` asks that a blocked game shows the overlay. `along_inputSafe_iff` says that a run
keeps it in every state if and only if no frame starts with the input blocked and a draft that
turns the interface off.
-/

namespace D3Hack

open Runs Toml

/-! ## The overlay -/

/-- `GuiFocusState`. -/
structure GuiFocusState where
  visible : Bool := false
  navActive : Bool := false
  wantCaptureGamepad : Bool := false
  wantCaptureMouse : Bool := false
  wantCaptureKeyboard : Bool := false
  shouldBlockGameInput : Bool := false
  allowLeftStickPassthrough : Bool := false

/-- The overlay with the flags of the frame callback and of the input block; `drewOverlay` says
whether the last frame drew the visible overlay. -/
structure Overlay where
  window : ConfigWindow
  uiConfigInitialized : Bool := false
  overlayVisible : Bool := true
  allowLeftStickPassthrough : Bool := false
  focus : GuiFocusState := {}
  imguiCtxInitialized : Bool := false
  backendInitialized : Bool := false
  fontAtlasBuilt : Bool := false
  fontUploaded : Bool := false
  blockGamepadInputToGame : Bool := false
  blockAllowsLeftStick : Bool := false
  drewOverlay : Bool := false

/-- What a frame finds, and what the user does in it. -/
structure Frame where
  allocatorsReady : Bool := true
  deviceReady : Bool := true
  fontsBuilt : Bool := true
  fontTextureOk : Bool := true
  swipe : Bool := false
  toggle : Bool := false
  /-- What the user does in the configuration window, if it is drawn. -/
  actions : List WindowAction := []
  /-- The overlay is closed from within, or no window is left open. -/
  hide : Bool := false
  toastsVisible : Bool := false
  navActive : Bool := false
  wantCaptureMouse : Bool := false
  wantCaptureKeyboard : Bool := false

namespace Overlay

variable (env : GameEnv) (api : Api) (devMem : Option ℕ) (f : Frame) (o : Overlay)

/-- `global_config`. -/
abbrev globalConfig : PatchConfig := o.window.session.globalConfig

/-- `imgui_render_enabled`. -/
def imguiRenderEnabled : Bool :=
  if o.uiConfigInitialized then o.window.cfg.gui.enabled else o.globalConfig.gui.enabled

/-- `EnsureConfigLoaded`. -/
def ensureConfigLoaded : Overlay :=
  if o.uiConfigInitialized then o
  else if !o.globalConfig.initialized then o
  else { o with
    window := { o.window with cfg := o.globalConfig, uiDirty := false }
    overlayVisible := o.globalConfig.gui.visible
    allowLeftStickPassthrough := o.globalConfig.gui.allowLeftStickPassthrough
    uiConfigInitialized := true }

/-- `set_overlay_visible_persist`, less the focus it requests. -/
def setOverlayVisiblePersist (v : Bool) : Overlay := { o with overlayVisible := v }

/-- `ToggleVisibleAndPersist`. -/
def toggleVisibleAndPersist : Overlay := o.setOverlayVisiblePersist !o.overlayVisible

/-- `DetectOverlaySwipe`. -/
def detectOverlaySwipe : Overlay :=
  if !o.imguiRenderEnabled then o
  else if o.overlayVisible then o
  else if f.swipe then o.setOverlayVisiblePersist true else o

/-- `PushImGuiGamepadInputs`: the toggle held long enough. -/
def pushImGuiGamepadInputs : Overlay := if f.toggle then o.toggleVisibleAndPersist else o

/-- `RenderContents` of the configuration window. -/
def renderContents (actions : List WindowAction) : Overlay :=
  if !o.uiConfigInitialized then o
  else if !o.globalConfig.gui.enabled then o
  else { o with window := run (windowStep env api devMem) o.window actions }

/-- `UpdateFrame`. -/
def updateFrame : Overlay :=
  let o := { o.ensureConfigLoaded with focus := {} }
  -- The decision to draw is taken before the window can change the draft.
  let canDraw := o.imguiRenderEnabled && o.fontUploaded
  let o :=
    if canDraw && o.overlayVisible then
      let o := o.renderContents env api devMem f.actions
      let o := if f.hide then o.setOverlayVisiblePersist false else o
      { o with drewOverlay := true }
    else o
  if canDraw then
    { o with
      focus :=
        { navActive := f.navActive
          wantCaptureMouse := f.wantCaptureMouse
          wantCaptureKeyboard := f.wantCaptureKeyboard
          wantCaptureGamepad := f.navActive || f.wantCaptureKeyboard
          visible := canDraw && (o.overlayVisible || f.toastsVisible)
          shouldBlockGameInput := canDraw && o.overlayVisible
          allowLeftStickPassthrough := o.allowLeftStickPassthrough && o.overlayVisible } }
  else o

/-- The render block of `OnPresent`. -/
def renderFrame : Overlay :=
  let o := ((o.detectOverlaySwipe f).pushImGuiGamepadInputs f).updateFrame env api devMem f
  { o with
    blockGamepadInputToGame := o.focus.shouldBlockGameInput
    blockAllowsLeftStick := o.focus.allowLeftStickPassthrough
    fontUploaded := f.fontTextureOk }

/-- `PrepareFonts`. -/
def prepareFonts : Overlay := { o.ensureConfigLoaded with fontAtlasBuilt := f.fontsBuilt }

/-- `OnPresent`. -/
def onPresent : Overlay :=
  let o := { o with
    drewOverlay := false
    imguiCtxInitialized := o.imguiCtxInitialized || f.allocatorsReady }
  if o.imguiCtxInitialized then
    let o := { o with backendInitialized := o.backendInitialized || f.deviceReady }
    if o.backendInitialized then
      let o := if o.fontAtlasBuilt then o else o.prepareFonts f
      let o := o.ensureConfigLoaded
      if o.fontAtlasBuilt && o.imguiRenderEnabled then o.renderFrame env api devMem f else o
    else o
  else o

end Overlay

/-- A frame, or what the user does between frames. -/
inductive OverlayEvent where
  | present (f : Frame)
  | action (a : WindowAction)
  | setVisible (v : Bool)

/-- The overlay after a boot, which leaves an initialised configuration. -/
def bootOverlay (env : GameEnv) (boot : PatchConfig) : Overlay :=
  { window := { session := bootSession env { boot with initialized := true }, cfg := {} } }

/-- What an action does to the overlay. -/
def overlayStep (env : GameEnv) (api : Api) (devMem : Option ℕ) (o : Overlay) :
    OverlayEvent → Overlay
  | .present f => o.onPresent env api devMem f
  | .action a => { o with window := windowStep env api devMem o.window a }
  | .setVisible v => o.setOverlayVisiblePersist v

/-- If the game's input is blocked, the last frame drew the visible overlay. -/
def InputSafe (o : Overlay) : Prop := o.blockGamepadInputToGame = true → o.drewOverlay = true

/-- A frame that starts with the input blocked finds a draft with the interface on. -/
def KeepsInput (o : Overlay) : OverlayEvent → Prop
  | .present _ => o.blockGamepadInputToGame = true → o.window.cfg.gui.enabled = true
  | _ => True

/-! ## What a frame does -/

section Frames

variable {env : GameEnv} {api : Api} {devMem : Option ℕ}

/-- Everything that rendering waits for is there. -/
structure Ready (o : Overlay) : Prop where
  ctx : o.imguiCtxInitialized = true
  backend : o.backendInitialized = true
  fonts : o.fontAtlasBuilt = true
  config : o.uiConfigInitialized = true

/-- The global configuration is initialised, and a blocked input means a set-up interface. -/
structure OverlayInv (o : Overlay) : Prop where
  initialized : o.globalConfig.initialized = true
  ready : o.blockGamepadInputToGame = true → Ready o

theorem windowStep_initialized {w : ConfigWindow}
    (h : w.session.globalConfig.initialized = true) (a : WindowAction) :
    (windowStep env api devMem w a).session.globalConfig.initialized = true := by
  cases a with
  | reload loaded =>
    cases loaded with
    | none => exact h
    | some loaded => rfl
  | apply => rfl
  | save saved => cases saved <;> exact h
  | edit cfg => exact h
  | reset => exact h

theorem run_windowStep_initialized {w : ConfigWindow}
    (h : w.session.globalConfig.initialized = true) (actions : List WindowAction) :
    (run (windowStep env api devMem) w actions).session.globalConfig.initialized = true :=
  run_invariant (I := fun w : ConfigWindow => w.session.globalConfig.initialized = true)
    (fun _ a hw => windowStep_initialized hw a) h actions

theorem ensureConfigLoaded_of_initialized {o : Overlay} (h : o.uiConfigInitialized = true) :
    o.ensureConfigLoaded = o := by
  rw [Overlay.ensureConfigLoaded, if_pos h]

/-- An initialised global configuration is loaded. -/
theorem ensureConfigLoaded_spec {o : Overlay} (h : o.globalConfig.initialized = true) :
    ∃ window visible allow, o.ensureConfigLoaded = { o with
        window, overlayVisible := visible, allowLeftStickPassthrough := allow
        uiConfigInitialized := true } ∧
      window.session.globalConfig.initialized = true := by
  unfold Overlay.ensureConfigLoaded
  rcases hc : o.uiConfigInitialized with _ | _
  · refine ⟨{ o.window with cfg := o.globalConfig, uiDirty := false }, o.globalConfig.gui.visible,
      o.globalConfig.gui.allowLeftStickPassthrough, ?_, h⟩
    rw [if_neg (by simp), if_neg (by simp [h])]
  · exact ⟨o.window, o.overlayVisible, o.allowLeftStickPassthrough, by rw [if_pos rfl, ← hc], h⟩

/-- Input before the draw only opens or closes the overlay. -/
theorem inputs_eq (f : Frame) (o : Overlay) : ∃ visible,
    (o.detectOverlaySwipe f).pushImGuiGamepadInputs f = { o with overlayVisible := visible } := by
  unfold Overlay.pushImGuiGamepadInputs Overlay.detectOverlaySwipe
  split_ifs <;> exact ⟨_, rfl⟩

/-- Drawing leaves a set-up interface so, and blocks the input only behind a drawn overlay. -/
theorem renderFrame_spec (f : Frame) {o : Overlay} (hr : Ready o)
    (hi : o.globalConfig.initialized = true) :
    Ready (o.renderFrame env api devMem f) ∧
      (o.renderFrame env api devMem f).globalConfig.initialized = true ∧
        InputSafe (o.renderFrame env api devMem f) := by
  obtain ⟨visible, hinputs⟩ := inputs_eq f o
  have hload : ({ o with overlayVisible := visible } : Overlay).ensureConfigLoaded =
      { o with overlayVisible := visible } := ensureConfigLoaded_of_initialized hr.config
  obtain ⟨window, hwindow, hinit⟩ : ∃ window, ({ o with overlayVisible := visible, focus := {} } :
      Overlay).renderContents env api devMem f.actions =
        { o with overlayVisible := visible, focus := {}, window } ∧
          window.session.globalConfig.initialized = true := by
    unfold Overlay.renderContents
    split_ifs
    · exact ⟨o.window, rfl, hi⟩
    · exact ⟨o.window, rfl, hi⟩
    · exact ⟨_, rfl, run_windowStep_initialized hi f.actions⟩
  refine ⟨?_, ?_, ?_⟩
  · constructor <;>
      simp only [Overlay.renderFrame, hinputs, Overlay.updateFrame, hload, hwindow] <;>
      split_ifs <;> first | exact hr.ctx | exact hr.backend | exact hr.fonts | exact hr.config
  · simp only [Overlay.renderFrame, hinputs, Overlay.updateFrame, hload, hwindow]
    split_ifs <;> first | exact hinit | exact hi
  · simp only [InputSafe, Overlay.renderFrame, hinputs, Overlay.updateFrame, hload, hwindow]
    rcases visible with _ | _ <;> split_ifs <;> simp_all

/-- A frame with a set-up interface renders as the draft says. -/
theorem onPresent_of_ready (f : Frame) {o : Overlay} (hr : Ready o) :
    o.onPresent env api devMem f =
      if o.window.cfg.gui.enabled then
        ({ o with drewOverlay := false } : Overlay).renderFrame env api devMem f
      else { o with drewOverlay := false } := by
  obtain ⟨hctx, hbackend, hfonts, hconfig⟩ := hr
  obtain ⟨window, _, visible, allow, focus, _, _, _, uploaded, block, left, drew⟩ := o
  dsimp only at hctx hbackend hfonts hconfig
  subst hctx hbackend hfonts hconfig
  simp only [Overlay.onPresent, Bool.true_or, if_true, Overlay.ensureConfigLoaded,
    Overlay.imguiRenderEnabled, Bool.true_and]

theorem prepareFonts_ensureConfigLoaded (f : Frame) {o : Overlay}
    (h : o.globalConfig.initialized = true) : ∃ window visible allow built,
      (if o.fontAtlasBuilt then o else o.prepareFonts f).ensureConfigLoaded = { o with
          window, overlayVisible := visible, allowLeftStickPassthrough := allow
          uiConfigInitialized := true, fontAtlasBuilt := built } ∧
        window.session.globalConfig.initialized = true := by
  obtain ⟨window, visible, allow, hload, hinit⟩ := ensureConfigLoaded_spec h
  split_ifs with hbuilt
  · exact ⟨window, visible, allow, o.fontAtlasBuilt, hload, hinit⟩
  · refine ⟨window, visible, allow, f.fontsBuilt, ?_, hinit⟩
    rw [ensureConfigLoaded_of_initialized (by rw [Overlay.prepareFonts, hload]),
      Overlay.prepareFonts, hload]

/-- A frame renders a set-up interface, or leaves the block as it is. -/
theorem onPresent_cases (f : Frame) {o : Overlay} (hi : o.globalConfig.initialized = true) :
    (∃ o', Ready o' ∧ o'.globalConfig.initialized = true ∧
        o.onPresent env api devMem f = o'.renderFrame env api devMem f) ∨
      (o.onPresent env api devMem f).blockGamepadInputToGame = o.blockGamepadInputToGame ∧
        (o.onPresent env api devMem f).globalConfig.initialized = true := by
  obtain ⟨window, visible, allow, built, hload, hinit⟩ := prepareFonts_ensureConfigLoaded f
    (o := { o with
      drewOverlay := false
      imguiCtxInitialized := o.imguiCtxInitialized || f.allocatorsReady
      backendInitialized := o.backendInitialized || f.deviceReady }) hi
  dsimp only at hload
  unfold Overlay.onPresent
  dsimp only
  rw [hload]
  split_ifs with hctx hbackend hgate
  · rw [Bool.and_eq_true] at hgate
    exact Or.inl ⟨_, ⟨hctx, hbackend, hgate.1, rfl⟩, hinit, rfl⟩
  · exact Or.inr ⟨rfl, hinit⟩
  · exact Or.inr ⟨rfl, hi⟩
  · exact Or.inr ⟨rfl, hi⟩

theorem overlayInv_bootOverlay (boot : PatchConfig) : OverlayInv (bootOverlay env boot) :=
  ⟨rfl, fun h => by cases h⟩

theorem overlayInv_step {o : Overlay} (h : OverlayInv o) (e : OverlayEvent) :
    OverlayInv (overlayStep env api devMem o e) := by
  cases e with
  | present f =>
    by_cases hr : Ready o
    · rw [overlayStep, onPresent_of_ready f hr]
      have hr' : Ready { o with drewOverlay := false } := ⟨hr.ctx, hr.backend, hr.fonts, hr.config⟩
      split_ifs
      · obtain ⟨hready, hinit, -⟩ := renderFrame_spec f hr' h.initialized
        exact ⟨hinit, fun _ => hready⟩
      · exact ⟨h.initialized, fun _ => hr'⟩
    · rcases onPresent_cases f h.initialized with ⟨o', hr', hi', heq⟩ | ⟨hblock, hinit⟩
      · obtain ⟨hready, hinit, -⟩ := renderFrame_spec f hr' hi'
        rw [overlayStep, heq]
        exact ⟨hinit, fun _ => hready⟩
      · refine ⟨hinit, fun hb => absurd (h.ready ?_) hr⟩
        rwa [overlayStep, hblock] at hb
  | action a =>
    refine ⟨windowStep_initialized h.initialized a, fun hb => ?_⟩
    obtain ⟨hctx, hbackend, hfonts, hconfig⟩ := h.ready hb
    exact ⟨hctx, hbackend, hfonts, hconfig⟩
  | setVisible v =>
    refine ⟨h.initialized, fun hb => ?_⟩
    obtain ⟨hctx, hbackend, hfonts, hconfig⟩ := h.ready hb
    exact ⟨hctx, hbackend, hfonts, hconfig⟩

/-- Only a frame that finds the input blocked and the draft's interface off breaks safety. -/
theorem inputSafe_step {o : Overlay} (h : OverlayInv o) (hs : InputSafe o) (e : OverlayEvent) :
    InputSafe (overlayStep env api devMem o e) ↔ KeepsInput o e := by
  cases e with
  | present f =>
    rw [KeepsInput]
    rcases hb : o.blockGamepadInputToGame with _ | _
    · refine iff_of_true ?_ (by simp)
      rcases onPresent_cases f h.initialized with ⟨o', hr', hi', heq⟩ | ⟨hblock, -⟩
      · rw [overlayStep, heq]
        exact (renderFrame_spec f hr' hi').2.2
      · intro hblocked
        rw [overlayStep, hblock, hb] at hblocked
        cases hblocked
    · have hr := h.ready hb
      have hr' : Ready { o with drewOverlay := false } := ⟨hr.ctx, hr.backend, hr.fonts, hr.config⟩
      rw [overlayStep, onPresent_of_ready f hr]
      split_ifs with henabled
      · exact iff_of_true (renderFrame_spec f hr' h.initialized).2.2 fun _ => henabled
      · refine iff_of_false (fun hsafe => ?_) fun hc => henabled (hc rfl)
        cases hsafe hb
  | action a => exact iff_of_true hs trivial
  | setVisible v => exact iff_of_true hs trivial

end Frames

/-- **The input is never left blocked without the overlay if and only if no frame of the run
starts with the input blocked and a draft that turns the interface off.** -/
theorem along_inputSafe_iff (env : GameEnv) (api : Api) (devMem : Option ℕ) (boot : PatchConfig)
    (events : List OverlayEvent) :
    Along (overlayStep env api devMem) InputSafe (bootOverlay env boot) events ↔
      StepsMeet (overlayStep env api devMem) KeepsInput (bootOverlay env boot) events := by
  have hsafe : InputSafe (bootOverlay env boot) := fun h => by cases h
  exact along_iff_stepsMeet (J := OverlayInv) (fun _ e h => overlayInv_step h e)
    (fun _ e h hs => inputSafe_step h hs e) (overlayInv_bootOverlay boot) hsafe events

/-- The interface is turned off from within the drawn window: the next frame draws nothing and
the input stays blocked. -/
theorem not_inputSafe_disabledFromWithin :
    ¬InputSafe (run (overlayStep .complete Api.accessors none)
      (bootOverlay .complete { gui := { visible := true } })
      [.present {},
        .present { actions := [.edit { gui := { enabled := false, visible := true } }] },
        .present {}]) := by
  unfold InputSafe
  decide +kernel

end D3Hack
