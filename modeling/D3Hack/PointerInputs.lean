import D3Hack.HidBlock
import D3Hack.OverlaySwipe

/-!
# Touch and mouse as ImGui's pointer

A frame that shows the overlay passes the touch screen to ImGui, and where no touch is active the
mouse. Both write the same buttons: the touch only when it begins and ends, which it remembers
in a static variable, and the mouse in every frame in which it is connected.

`ButtonsFollow` says what the buttons are after a frame that shows the overlay. A mouse that is
found disconnected releases nothing: `after_buttonsFollow_iff` says that the buttons follow the
touch and the mouse in a run exactly when no frame finds it so while a button is held.
-/

namespace D3Hack

open Runs

/-! ## The events of ImGui -/

/-- `ImGuiMouseButton`. -/
inductive MouseButton where
  | left
  | right
  | middle
  deriving DecidableEq

/-- `ImGuiMouseSource`. -/
inductive MouseSource where
  | mouse
  | touchScreen
  deriving DecidableEq

/-- A point of 1280 by 720, which is scaled and clamped to the viewport, or `-FLT_MAX` twice. -/
inductive MousePos where
  | scaled (x y : Int32)
  | away
  deriving DecidableEq

/-- The calls of `ImGuiIO`; a wheel moves by half a step. -/
inductive PointerEvent where
  | source (s : MouseSource)
  | pos (p : MousePos)
  | button (b : MouseButton) (down : Bool)
  | wheelX (positive : Bool)
  | wheelY (positive : Bool)
  deriving DecidableEq

/-- The state of the button that an event gives. -/
def PointerEvent.sets (b : MouseButton) : PointerEvent → Option Bool
  | .button c down => if c = b then some down else none
  | _ => none

/-- The state of a button after the last event for it, if there is one. -/
def lastButton (b : MouseButton) (events : List PointerEvent) : Option Bool :=
  (events.filterMap (PointerEvent.sets b)).getLast?

/-- The state of a button, which is up at first. -/
def buttonDown (b : MouseButton) (events : List PointerEvent) : Bool :=
  (lastButton b events).getD false

/-! ## Touch and mouse -/

/-- `OperationMode`. -/
inductive OperationMode where
  | handheld
  | docked
  deriving DecidableEq

/-- What a frame finds. -/
structure PointerFrame where
  ctxInitialized : Bool := true
  mainWindow : Bool := true
  overlayVisible : Bool := true
  operationMode : OperationMode := .handheld
  touch : TouchScreenState := {}
  mouse : MouseState := {}

/-- The static variables of `PushImGuiTouchInputs`. -/
structure TouchInputs where
  prevDown : Bool := false
  lastTouchX : Int32 := 0
  lastTouchY : Int32 := 0

/-- `isBitSet`. -/
def isBitSet {size : ℕ} (flags : BitFlagSet size) (index : ℕ) : Bool := flags.getLsbD index

/-- `MouseAttribute::IsConnected`. -/
def MouseState.isConnected (st : MouseState) : Bool := isBitSet st.attributes 1

/-- `MouseButton::Left`, `Right` and `Middle`. -/
def MouseState.pressed (st : MouseState) : MouseButton → Bool
  | .left => isBitSet st.buttons 0
  | .right => isBitSet st.buttons 1
  | .middle => isBitSet st.buttons 2

/-- `PushImGuiTouchInputs`: whether the touch is active, its variables, and its events. -/
def pushImGuiTouchInputs (f : PointerFrame) (s : TouchInputs) :
    Bool × TouchInputs × List PointerEvent :=
  if !f.ctxInitialized then (false, s, [])
  else if !f.mainWindow then (false, s, [])
  else
    let down := decide f.touch.Down
    let pressed := down && !s.prevDown
    let released := !down && s.prevDown
    let active := down || released
    if f.operationMode ≠ .handheld && !active then (false, { s with prevDown := down }, [])
    else
      let s := if down then { s with lastTouchX := f.touch.x, lastTouchY := f.touch.y } else s
      let events :=
        if active then
          [.source .touchScreen, .pos (.scaled s.lastTouchX s.lastTouchY)] ++
            if pressed then [.button .left true]
            else if released then [.button .left false, .pos .away]
            else []
        else []
      (active, { s with prevDown := down }, events)

/-- `PushImGuiMouseInputs`: whether the mouse is connected, and its events. -/
def pushImGuiMouseInputs (f : PointerFrame) : Bool × List PointerEvent :=
  if !f.ctxInitialized then (false, [])
  else if !f.mainWindow then (false, [])
  else
    let st := f.mouse
    if !st.isConnected then (false, [.pos .away])
    else
      (true, [.source .mouse, .pos (.scaled st.x st.y), .button .left (st.pressed .left),
        .button .right (st.pressed .right), .button .middle (st.pressed .middle)] ++
          (if st.wheelDeltaX ≠ 0 then [.wheelX (decide (0 < st.wheelDeltaX))] else []) ++
          if st.wheelDeltaY ≠ 0 then [.wheelY (decide (0 < st.wheelDeltaY))] else [])

/-- The pointer in a frame of `OnPresent`: whether the cursor is drawn, the variables of the
touch, and the events. -/
def presentPointer (f : PointerFrame) (s : TouchInputs) :
    Bool × TouchInputs × List PointerEvent :=
  if !f.overlayVisible then (false, s, [.pos .away])
  else
    let (touchActive, s, events) := pushImGuiTouchInputs f s
    if touchActive then (touchActive, s, events)
    else
      let (mouseConnected, mouseEvents) := pushImGuiMouseInputs f
      (mouseConnected, s, events ++ mouseEvents)

/-! ## Runs of frames -/

/-- The variables, the events of all frames, and the frames. -/
structure PointerRun where
  touch : TouchInputs := {}
  mouseDrawCursor : Bool := false
  events : List PointerEvent := []
  frames : List PointerFrame := []

/-- What a frame does. -/
def pointerStep (r : PointerRun) (f : PointerFrame) : PointerRun :=
  let (cursor, touch, events) := presentPointer f r.touch
  { touch, mouseDrawCursor := cursor, events := r.events ++ events, frames := r.frames ++ [f] }

/-- The frame shows the overlay, and its pointer is looked at. -/
def PointerFrame.shows (f : PointerFrame) : Bool :=
  f.ctxInitialized && f.mainWindow && f.overlayVisible

/-- The touch was down in the last frame that looked at it. -/
def WasDown (frames : List PointerFrame) : Prop :=
  ∃ f, (frames.filter PointerFrame.shows).getLast? = some f ∧ f.touch.Down

/-- After a frame that shows the overlay, the left button is down if the touch is; where the touch
is up, and not just released, the buttons are those of the mouse, if it is connected; and they
are up where the touch is and no mouse is connected. -/
def ButtonsFollow (r : PointerRun) : Prop :=
  ∀ before f, r.frames = before ++ [f] → f.shows = true →
    (f.touch.Down → buttonDown .left r.events = true) ∧
    (¬f.touch.Down → ¬WasDown before → f.mouse.isConnected = true →
      ∀ b, buttonDown b r.events = f.mouse.pressed b) ∧
    (¬f.touch.Down → f.mouse.isConnected = false → ∀ b, buttonDown b r.events = false)

/-- A frame that shows the overlay, with the touch up and no mouse connected, finds no button
held but the left one of a touch that ends in it. -/
def FindsReleased (r : PointerRun) (f : PointerFrame) : Prop :=
  f.shows = true → ¬f.touch.Down → f.mouse.isConnected = false →
    ∀ b, buttonDown b r.events = true → b = .left ∧ WasDown r.frames

/-! ## What a frame does to the buttons -/

theorem lastButton_append (b : MouseButton) (events events' : List PointerEvent) :
    lastButton b (events ++ events') = (lastButton b events').or (lastButton b events) := by
  rw [lastButton, List.filterMap_append, List.getLast?_append, lastButton, lastButton]

theorem buttonDown_append (b : MouseButton) (events events' : List PointerEvent) :
    buttonDown b (events ++ events') = (lastButton b events').getD (buttonDown b events) := by
  rw [buttonDown, lastButton_append, buttonDown]
  cases lastButton b events' <;> rfl

theorem buttonDown_pointerStep (r : PointerRun) (f : PointerFrame) (b : MouseButton) :
    buttonDown b (pointerStep r f).events =
      (lastButton b (presentPointer f r.touch).2.2).getD (buttonDown b r.events) :=
  buttonDown_append b r.events _

theorem shows_iff {f : PointerFrame} : f.shows = true ↔
    f.ctxInitialized = true ∧ f.mainWindow = true ∧ f.overlayVisible = true := by
  rw [PointerFrame.shows, Bool.and_eq_true, Bool.and_eq_true, and_assoc]

/-- The events of a connected mouse set every button. -/
theorem lastButton_mouse {f : PointerFrame} (hshows : f.shows = true)
    (hconnected : f.mouse.isConnected = true) (b : MouseButton) :
    lastButton b (pushImGuiMouseInputs f).2 = some (f.mouse.pressed b) := by
  obtain ⟨hctx, hwindow, -⟩ := shows_iff.1 hshows
  have hwheel (c : Prop) [Decidable c] (e : PointerEvent) (he : e.sets b = none) :
      lastButton b (if c then [e] else []) = none := by
    split_ifs
    · simp [lastButton, he]
    · rfl
  simp only [pushImGuiMouseInputs, hctx, hwindow, hconnected, Bool.not_true, Bool.false_eq_true,
    if_false]
  rw [lastButton_append, lastButton_append, hwheel _ _ rfl, hwheel _ _ rfl]
  cases b <;> rfl

/-- A frame that does not show the overlay. -/
theorem pointerStep_hidden {r : PointerRun} {f : PointerFrame} (hshows : f.shows = false) :
    (pointerStep r f).touch = r.touch ∧
      ∀ b, buttonDown b (pointerStep r f).events = buttonDown b r.events := by
  have hpresent : (presentPointer f r.touch).2.1 = r.touch ∧
      ∀ b, lastButton b (presentPointer f r.touch).2.2 = none := by
    unfold PointerFrame.shows at hshows
    cases hvisible : f.overlayVisible with
    | false => simp [presentPointer, hvisible, lastButton, PointerEvent.sets]
    | true =>
      rw [hvisible, Bool.and_true, Bool.and_eq_false_iff] at hshows
      rcases hshows with h | h <;>
        simp [presentPointer, hvisible, h, pushImGuiTouchInputs, pushImGuiMouseInputs, lastButton]
  refine ⟨hpresent.1, fun b => ?_⟩
  rw [buttonDown_pointerStep, hpresent.2, Option.getD_none]

/-- A frame that finds the touch down presses the left button, if it was up before. -/
theorem pointerStep_down {r : PointerRun} {f : PointerFrame} (hshows : f.shows = true)
    (hdown : f.touch.Down) : (pointerStep r f).touch.prevDown = true ∧
      ∀ b, buttonDown b (pointerStep r f).events =
        if b = .left ∧ r.touch.prevDown = false then true else buttonDown b r.events := by
  obtain ⟨hctx, hwindow, hvisible⟩ := shows_iff.1 hshows
  cases hprev : r.touch.prevDown with
  | false =>
    have hpresent : presentPointer f r.touch = (true, ⟨true, f.touch.x, f.touch.y⟩,
        [.source .touchScreen, .pos (.scaled f.touch.x f.touch.y), .button .left true]) := by
      simp [presentPointer, pushImGuiTouchInputs, hctx, hwindow, hvisible, hdown, hprev]
    refine ⟨?_, fun b => ?_⟩
    · simp [pointerStep, hpresent]
    · rw [buttonDown_pointerStep, hpresent]
      cases b <;> rfl
  | true =>
    have hpresent : presentPointer f r.touch = (true, ⟨true, f.touch.x, f.touch.y⟩,
        [.source .touchScreen, .pos (.scaled f.touch.x f.touch.y)]) := by
      simp [presentPointer, pushImGuiTouchInputs, hctx, hwindow, hvisible, hdown, hprev]
    refine ⟨?_, fun b => ?_⟩
    · simp [pointerStep, hpresent]
    · rw [buttonDown_pointerStep, hpresent]
      cases b <;> rfl

/-- A frame that finds a touch ended releases the left button. -/
theorem pointerStep_released {r : PointerRun} {f : PointerFrame} (hshows : f.shows = true)
    (hup : ¬f.touch.Down) (hprev : r.touch.prevDown = true) :
    (pointerStep r f).touch.prevDown = false ∧
      ∀ b, buttonDown b (pointerStep r f).events =
        if b = .left then false else buttonDown b r.events := by
  obtain ⟨hctx, hwindow, hvisible⟩ := shows_iff.1 hshows
  have hpresent : presentPointer f r.touch = (true, { r.touch with prevDown := false },
      [.source .touchScreen, .pos (.scaled r.touch.lastTouchX r.touch.lastTouchY),
        .button .left false, .pos .away]) := by
    simp [presentPointer, pushImGuiTouchInputs, hctx, hwindow, hvisible, hup, hprev]
  refine ⟨?_, fun b => ?_⟩
  · simp [pointerStep, hpresent]
  · rw [buttonDown_pointerStep, hpresent]
    cases b <;> rfl

/-- A frame with no touch passes on what the mouse does. -/
theorem presentPointer_noTouch {f : PointerFrame} {s : TouchInputs} (hshows : f.shows = true)
    (hup : ¬f.touch.Down) (hprev : s.prevDown = false) :
    (presentPointer f s).2.1 = s ∧ (presentPointer f s).2.2 = (pushImGuiMouseInputs f).2 := by
  obtain ⟨hctx, hwindow, hvisible⟩ := shows_iff.1 hshows
  have htouch : pushImGuiTouchInputs f s = (false, s, []) := by
    obtain ⟨prevDown, lastTouchX, lastTouchY⟩ := s
    obtain rfl := hprev
    simp [pushImGuiTouchInputs, hctx, hwindow, hup]
  simp [presentPointer, hvisible, htouch]

/-- A frame with no touch sets the buttons as the mouse has them. -/
theorem pointerStep_mouse {r : PointerRun} {f : PointerFrame} (hshows : f.shows = true)
    (hup : ¬f.touch.Down) (hprev : r.touch.prevDown = false)
    (hconnected : f.mouse.isConnected = true) : (pointerStep r f).touch = r.touch ∧
      ∀ b, buttonDown b (pointerStep r f).events = f.mouse.pressed b := by
  obtain ⟨htouch, hevents⟩ := presentPointer_noTouch hshows hup hprev
  refine ⟨htouch, fun b => ?_⟩
  rw [buttonDown_pointerStep, hevents, lastButton_mouse hshows hconnected, Option.getD_some]

/-- A frame with no touch and no mouse leaves the buttons as they are. -/
theorem pointerStep_disconnected {r : PointerRun} {f : PointerFrame} (hshows : f.shows = true)
    (hup : ¬f.touch.Down) (hprev : r.touch.prevDown = false)
    (hconnected : f.mouse.isConnected = false) : (pointerStep r f).touch = r.touch ∧
      ∀ b, buttonDown b (pointerStep r f).events = buttonDown b r.events := by
  obtain ⟨htouch, hevents⟩ := presentPointer_noTouch hshows hup hprev
  obtain ⟨hctx, hwindow, -⟩ := shows_iff.1 hshows
  refine ⟨htouch, fun b => ?_⟩
  rw [buttonDown_pointerStep, hevents]
  simp [pushImGuiMouseInputs, hctx, hwindow, hconnected, lastButton, PointerEvent.sets]

/-! ## Every run -/

theorem not_wasDown_nil : ¬WasDown [] := by
  rintro ⟨f, h, -⟩
  cases h

theorem wasDown_concat_of_shows {frames : List PointerFrame} {f : PointerFrame}
    (h : f.shows = true) : WasDown (frames ++ [f]) ↔ f.touch.Down := by
  have hlast : ((frames ++ [f]).filter PointerFrame.shows).getLast? = some f := by
    rw [List.filter_append, List.filter_cons_of_pos h, List.filter_nil, List.getLast?_concat]
  refine ⟨fun ⟨g, hg, hdown⟩ => ?_, fun hdown => ⟨f, hlast, hdown⟩⟩
  rw [hlast] at hg
  obtain rfl := Option.some.inj hg
  exact hdown

theorem wasDown_concat_of_hidden {frames : List PointerFrame} {f : PointerFrame}
    (h : f.shows = false) : WasDown (frames ++ [f]) ↔ WasDown frames := by
  have hnot : ¬f.shows = true := by simp [h]
  unfold WasDown
  rw [List.filter_append, List.filter_cons_of_neg hnot, List.filter_nil, List.append_nil]

/-- What holds after every frame: the touch's variable says what the last frame that looked at
the touch found, and a touch holds the left button. -/
structure PointerInv (r : PointerRun) : Prop where
  wasDown : r.touch.prevDown = true ↔ WasDown r.frames
  left : r.touch.prevDown = true → buttonDown .left r.events = true

theorem pointerInv_init : PointerInv {} where
  wasDown := iff_of_false (by simp) not_wasDown_nil
  left h := by cases h

theorem frames_pointerStep (r : PointerRun) (f : PointerFrame) :
    (pointerStep r f).frames = r.frames ++ [f] := rfl

theorem pointerInv_pointerStep {r : PointerRun} (f : PointerFrame) (hr : PointerInv r) :
    PointerInv (pointerStep r f) := by
  cases hshows : f.shows with
  | false =>
    obtain ⟨htouch, hbuttons⟩ := pointerStep_hidden (r := r) hshows
    constructor
    · rw [htouch, frames_pointerStep, wasDown_concat_of_hidden hshows]
      exact hr.wasDown
    · rw [htouch, hbuttons]
      exact hr.left
  | true =>
    by_cases hdown : f.touch.Down
    · obtain ⟨hprev, hbuttons⟩ := pointerStep_down (r := r) hshows hdown
      constructor
      · rw [hprev, frames_pointerStep, wasDown_concat_of_shows hshows]
        exact iff_of_true rfl hdown
      · intro _
        rw [hbuttons]
        split_ifs with hpressed
        · rfl
        · exact hr.left (by simpa using hpressed)
    · have hnot : (pointerStep r f).touch.prevDown = false := by
        cases hprev : r.touch.prevDown with
        | true => exact (pointerStep_released hshows hdown hprev).1
        | false =>
          cases hconnected : f.mouse.isConnected with
          | true => rw [(pointerStep_mouse hshows hdown hprev hconnected).1, hprev]
          | false => rw [(pointerStep_disconnected hshows hdown hprev hconnected).1, hprev]
      constructor
      · rw [hnot, frames_pointerStep, wasDown_concat_of_shows hshows]
        exact iff_of_false (by simp) hdown
      · rw [hnot]
        exact fun h => by cases h

/-- The buttons after a frame that finds the touch up and no mouse. -/
theorem buttonDown_noMouse {r : PointerRun} {f : PointerFrame} (hr : PointerInv r)
    (hshows : f.shows = true) (hup : ¬f.touch.Down) (hconnected : f.mouse.isConnected = false)
    (b : MouseButton) : buttonDown b (pointerStep r f).events = true ↔
      buttonDown b r.events = true ∧ ¬(b = .left ∧ WasDown r.frames) := by
  cases hprev : r.touch.prevDown with
  | true =>
    have hwas := hr.wasDown.1 hprev
    rw [(pointerStep_released hshows hup hprev).2]
    split_ifs with hb <;> simp [hb, hwas]
  | false =>
    have hwas : ¬WasDown r.frames := fun h => by simp [hr.wasDown.2 h] at hprev
    rw [(pointerStep_disconnected hshows hup hprev hconnected).2]
    simp [hwas]

/-- **One frame.** -/
theorem buttonsFollow_pointerStep {r : PointerRun} (hr : PointerInv r) (f : PointerFrame) :
    ButtonsFollow (pointerStep r f) ↔ FindsReleased r f := by
  have hone : ButtonsFollow (pointerStep r f) ↔ (f.shows = true →
      (f.touch.Down → buttonDown .left (pointerStep r f).events = true) ∧
      (¬f.touch.Down → ¬WasDown r.frames → f.mouse.isConnected = true →
        ∀ b, buttonDown b (pointerStep r f).events = f.mouse.pressed b) ∧
      (¬f.touch.Down → f.mouse.isConnected = false →
        ∀ b, buttonDown b (pointerStep r f).events = false)) := by
    refine ⟨fun h => h r.frames f rfl, fun h before g heq => ?_⟩
    obtain ⟨rfl, hg⟩ := List.append_inj' heq rfl
    obtain rfl := List.singleton_inj.1 hg
    exact h
  rw [hone]
  refine forall_congr' fun hshows => ⟨fun h hup hconnected b hb => ?_, fun h => ⟨?_, ?_, ?_⟩⟩
  · by_contra hnot
    have hstill := (buttonDown_noMouse hr hshows hup hconnected b).2 ⟨hb, hnot⟩
    rw [h.2.2 hup hconnected b] at hstill
    cases hstill
  · intro hdown
    exact (pointerInv_pointerStep f hr).left (pointerStep_down hshows hdown).1
  · intro hup hwas hconnected b
    have hprev : r.touch.prevDown = false :=
      Bool.eq_false_of_not_eq_true (mt hr.wasDown.1 hwas)
    exact (pointerStep_mouse hshows hup hprev hconnected).2 b
  · intro hup hconnected b
    refine Bool.eq_false_of_not_eq_true fun hb => ?_
    obtain ⟨hheld, hnot⟩ := (buttonDown_noMouse hr hshows hup hconnected b).1 hb
    exact hnot (h hup hconnected b hheld)

/-- **The buttons follow the touch and the mouse after every frame of a run exactly when no frame
finds the mouse disconnected while it holds a button.** -/
theorem after_buttonsFollow_iff (frames : List PointerFrame) :
    After pointerStep ButtonsFollow {} frames ↔ StepsMeet pointerStep FindsReleased {} frames :=
  after_iff_stepsMeet (fun _ f hr => pointerInv_pointerStep f hr)
    (fun _ f hr => buttonsFollow_pointerStep hr f) pointerInv_init frames

/-- A mouse that is disconnected while its left button is held. -/
def unpluggedFrames : List PointerFrame :=
  [{ mouse := { buttons := 1, attributes := 2 } }, {}]

/-- **The button stays down.** -/
theorem not_buttonsFollow_unplugged : ¬ButtonsFollow (run pointerStep {} unpluggedFrames) := by
  intro h
  have hup := (h _ {} rfl (by decide)).2.2 (by decide) (by decide) .left
  exact absurd hup (by decide)

end D3Hack
