import D3Hack.Overlay
import Mathlib.Algebra.Order.Group.Int

/-!
# Opening the overlay by a swipe

`detectOverlaySwipe` looks at the touch screen in the frames that do not show the overlay. It
keeps the first point of a touch, and opens the overlay when the touch started at the left edge
and has moved far enough to the right.

A `SwipeRun` keeps the frames with the variables of the detector. `SwipeProper` asks that a frame
which opens the overlay ends a stretch of frames with the touch down, from a point at the edge to
one far enough to its right. A frame in which the detector does not look at the touch can hide
its end: `along_swipeProper` says that swipes are proper in each run where this does not happen
while a start at the edge is kept.
-/

namespace D3Hack

open Runs

/-! ## The detector -/

/-- `TouchScreenState`, with the point of its first touch. -/
structure TouchScreenState where
  count : Int32 := 0
  x : Int32 := 0
  y : Int32 := 0
  deriving DecidableEq

/-- A finger is on the screen. -/
def TouchScreenState.Down (st : TouchScreenState) : Prop := 0 < st.count.toInt

instance (st : TouchScreenState) : Decidable st.Down := inferInstanceAs (Decidable (_ < _))

/-- A frame: what it finds, how the visibility was changed since the last one, and the touch
screen. -/
structure SwipeFrame where
  ctxInitialized : Bool := true
  mainWindow : Bool := true
  renderEnabled : Bool := true
  setVisible : Option Bool := none
  touch : TouchScreenState := {}
  deriving DecidableEq

/-- The static variables of `DetectOverlaySwipe`. -/
structure SwipeState where
  active : Bool := false
  triggered : Bool := false
  startX : Int32 := 0
  startY : Int32 := 0
  deriving DecidableEq

/-- The edge that a swipe starts at. -/
def edgePx : ℤ := 64

/-- How far a swipe goes. -/
def triggerPx : ℤ := 256

/-- How far it may go up or down. -/
def maxVerticalDelta : ℤ := 180

/-- `DetectOverlaySwipe` from where it has read the touch screen: whether it opens the overlay,
and its variables. Differences wrap. -/
def sampleSwipe (touch : TouchScreenState) (s : SwipeState) : Bool × SwipeState :=
  if ¬touch.Down then (false, { s with active := false, triggered := false })
  else
    let s :=
      if s.active then s
      else { active := true, triggered := false, startX := touch.x, startY := touch.y }
    if s.triggered then (false, s)
    else if edgePx < s.startX.toInt then (false, s)
    else
      let dx := touch.x - s.startX
      let dy := touch.y - s.startY
      if triggerPx ≤ dx.toInt ∧ dy.abs.toInt ≤ maxVerticalDelta then
        (true, { s with triggered := true })
      else (false, s)

/-- Whether `DetectOverlaySwipe` returns before it reads the touch screen. -/
def swipeSkips (f : SwipeFrame) (visible : Bool) : Bool :=
  !f.ctxInitialized || !f.mainWindow || !f.renderEnabled || visible

/-- `DetectOverlaySwipe`: whether it opens the overlay, and its variables. -/
def detectOverlaySwipe (f : SwipeFrame) (visible : Bool) (s : SwipeState) : Bool × SwipeState :=
  if swipeSkips f visible then (false, s) else sampleSwipe f.touch s

/-! ## Runs of frames -/

/-- The detector with the visibility, the frames so far, and whether the last one opened the
overlay. -/
structure SwipeRun where
  swipe : SwipeState := {}
  visible : Bool := false
  frames : List SwipeFrame := []
  opened : Bool := false
  deriving DecidableEq

/-- What a frame does. -/
def swipeStep (r : SwipeRun) (f : SwipeFrame) : SwipeRun :=
  let visible := f.setVisible.getD r.visible
  let (opened, swipe) := detectOverlaySwipe f visible r.swipe
  { swipe, visible := visible || opened, frames := r.frames ++ [f], opened }

/-- The touch is down in the frames, from a point at the left edge to one that is far enough to
its right, and neither too far above nor below it. -/
def IsSwipe (frames : List SwipeFrame) : Prop :=
  (∀ f ∈ frames, f.touch.Down) ∧ ∃ first last, frames.head? = some first ∧
    frames.getLast? = some last ∧ first.touch.x.toInt ≤ edgePx ∧
      triggerPx ≤ last.touch.x.toInt - first.touch.x.toInt ∧
        |last.touch.y.toInt - first.touch.y.toInt| ≤ maxVerticalDelta

/-- If the last frame opened the overlay, a swipe ends with it. -/
def SwipeProper (r : SwipeRun) : Prop :=
  r.opened = true → ∃ before stretch, r.frames = before ++ stretch ∧ IsSwipe stretch

/-- A start at the edge is kept, from which a touch can open the overlay. -/
def SwipeState.Armed (s : SwipeState) : Prop :=
  s.active = true ∧ s.triggered = false ∧ s.startX.toInt ≤ edgePx

/-- A difference that 32 bits hold, with its absolute value. -/
def Fits32 (n : ℤ) : Prop := -2 ^ 31 < n ∧ n < 2 ^ 31

instance (s : SwipeState) : Decidable s.Armed := inferInstanceAs (Decidable (_ ∧ _ ∧ _))

instance (n : ℤ) : Decidable (Fits32 n) := inferInstanceAs (Decidable (_ ∧ _))

/-- While a start at the edge is kept, the detector is not kept from seeing that the touch is up,
and the distances from the start do not overflow. -/
def SeesTouch (r : SwipeRun) (f : SwipeFrame) : Prop :=
  r.swipe.Armed →
    (swipeSkips f (f.setVisible.getD r.visible) = true → f.touch.Down) ∧
      (swipeSkips f (f.setVisible.getD r.visible) = false → f.touch.Down →
        Fits32 (f.touch.x.toInt - r.swipe.startX.toInt) ∧
          Fits32 (f.touch.y.toInt - r.swipe.startY.toInt))

instance (r : SwipeRun) (f : SwipeFrame) : Decidable (SeesTouch r f) :=
  inferInstanceAs (Decidable (_ → (_ → _) ∧ (_ → _ → _ ∧ _)))

/-! ## What the detector does with a touch -/

theorem toInt_sub_of_fits {x y : Int32} (h : Fits32 (x.toInt - y.toInt)) :
    (x - y).toInt = x.toInt - y.toInt := by
  unfold Fits32 at h
  rw [Int32.toInt_sub]
  exact Int.bmod_eq_of_le_mul_two (by omega) (by omega)

theorem toInt_abs_of_fits {d : Int32} (h : Fits32 d.toInt) : d.abs.toInt = |d.toInt| := by
  have hmin : d.toBitVec ≠ BitVec.intMin 32 := by
    intro hmin
    have hlow : -2 ^ 31 < d.toBitVec.toInt := h.1
    rw [hmin] at hlow
    exact absurd hlow (by decide)
  have habs := BitVec.toInt_abs_eq_natAbs_of_ne_intMin hmin
  rw [Int.natCast_natAbs] at habs
  exact habs

/-- The variables when a touch is looked at: a new touch gives a new start. -/
def SwipeState.started (s : SwipeState) (touch : TouchScreenState) : SwipeState :=
  if s.active then s
  else { active := true, triggered := false, startX := touch.x, startY := touch.y }

/-- The touch is far enough to the right of the start, as the differences wrap. -/
def SwipeState.Reached (s : SwipeState) (touch : TouchScreenState) : Prop :=
  triggerPx ≤ (touch.x - s.startX).toInt ∧ (touch.y - s.startY).abs.toInt ≤ maxVerticalDelta

/-- What becomes of the variables when a touch is looked at. -/
theorem sampleSwipe_cases (touch : TouchScreenState) (s : SwipeState) :
    (¬touch.Down ∧
      sampleSwipe touch s = (false, { s with active := false, triggered := false })) ∨
    (touch.Down ∧ sampleSwipe touch s = (false, s.started touch)) ∨
    (touch.Down ∧ (s.started touch).Armed ∧ (s.started touch).Reached touch ∧
      sampleSwipe touch s = (true, { s.started touch with triggered := true })) := by
  have hactive : (s.started touch).active = true := by
    unfold SwipeState.started
    split_ifs with h
    · exact h
    · rfl
  by_cases hdown : touch.Down
  · right
    have hsample : sampleSwipe touch s =
        if (s.started touch).triggered then (false, s.started touch)
        else if edgePx < (s.started touch).startX.toInt then (false, s.started touch)
        else if triggerPx ≤ (touch.x - (s.started touch).startX).toInt ∧
            (touch.y - (s.started touch).startY).abs.toInt ≤ maxVerticalDelta then
          (true, { s.started touch with triggered := true })
        else (false, s.started touch) := if_neg (not_not.2 hdown)
    rw [hsample]
    split_ifs with htriggered hedge hreached
    · exact Or.inl ⟨hdown, rfl⟩
    · exact Or.inl ⟨hdown, rfl⟩
    · exact Or.inr ⟨hdown, ⟨hactive, Bool.eq_false_of_not_eq_true htriggered,
        Int.not_lt.1 hedge⟩, hreached, rfl⟩
    · exact Or.inl ⟨hdown, rfl⟩
  · exact Or.inl ⟨hdown, if_pos hdown⟩

/-! ## The start is where the touch began -/

/-- The frames end with a stretch of touches from the start. -/
def Tracked (s : SwipeState) (frames : List SwipeFrame) : Prop :=
  ∃ before first mid, frames = before ++ first :: mid ∧ (∀ f ∈ first :: mid, f.touch.Down) ∧
    first.touch.x = s.startX ∧ first.touch.y = s.startY

theorem Tracked.concat {s : SwipeState} {frames : List SwipeFrame} {f : SwipeFrame}
    (h : Tracked s frames) (hf : f.touch.Down) : Tracked s (frames ++ [f]) := by
  obtain ⟨before, first, mid, rfl, hdown, hx, hy⟩ := h
  refine ⟨before, first, mid ++ [f], by simp, fun g hg => ?_, hx, hy⟩
  rw [← List.cons_append, List.mem_append, List.mem_singleton] at hg
  rcases hg with hg | rfl
  · exact hdown g hg
  · exact hf

/-- A start at the edge is where the touch of the last frames began. -/
def SwipeTracked (r : SwipeRun) : Prop := r.swipe.Armed → Tracked r.swipe r.frames

/-- After a look at a touch, the start is where it began. -/
theorem tracked_started {r : SwipeRun} {f : SwipeFrame} (hr : SwipeTracked r)
    (hdown : f.touch.Down) (harmed : (r.swipe.started f.touch).Armed) :
    Tracked (r.swipe.started f.touch) (r.frames ++ [f]) := by
  unfold SwipeState.started at harmed ⊢
  split_ifs at harmed ⊢ with hactive
  · exact (hr harmed).concat hdown
  · refine ⟨r.frames, f, [], rfl, fun g hg => ?_, rfl, rfl⟩
    rw [List.mem_singleton.1 hg]
    exact hdown

/-- Where no difference overflows, the touch is far enough to the right of the start. -/
theorem reached_of_fits {s : SwipeState} {touch : TouchScreenState} (h : s.Reached touch)
    (hx : Fits32 (touch.x.toInt - s.startX.toInt))
    (hy : Fits32 (touch.y.toInt - s.startY.toInt)) :
    triggerPx ≤ touch.x.toInt - s.startX.toInt ∧
      |touch.y.toInt - s.startY.toInt| ≤ maxVerticalDelta := by
  obtain ⟨hdx, hdy⟩ := h
  rw [toInt_sub_of_fits hx] at hdx
  rw [toInt_abs_of_fits (by rwa [toInt_sub_of_fits hy]), toInt_sub_of_fits hy] at hdy
  exact ⟨hdx, hdy⟩

/-- A tracked start from which the last frame's touch is far enough gives a swipe. -/
theorem isSwipe_of_tracked {s : SwipeState} {frames : List SwipeFrame} {f : SwipeFrame}
    (h : Tracked s (frames ++ [f])) (hedge : s.startX.toInt ≤ edgePx)
    (hx : triggerPx ≤ f.touch.x.toInt - s.startX.toInt)
    (hy : |f.touch.y.toInt - s.startY.toInt| ≤ maxVerticalDelta) :
    ∃ before stretch, frames ++ [f] = before ++ stretch ∧ IsSwipe stretch := by
  obtain ⟨before, first, mid, heq, hdown, hstartX, hstartY⟩ := h
  have hlast : (first :: mid).getLast? = some f := by
    have h := congrArg List.getLast? heq
    rw [List.getLast?_concat, List.getLast?_append_cons] at h
    exact h.symm
  refine ⟨before, first :: mid, heq, hdown, first, f, rfl, hlast, ?_⟩
  rw [hstartX, hstartY]
  exact ⟨hedge, hx, hy⟩

/-! ## Frames -/

theorem swipeStep_of_skips {r : SwipeRun} {f : SwipeFrame}
    (h : swipeSkips f (f.setVisible.getD r.visible) = true) :
    swipeStep r f = { r with
      visible := f.setVisible.getD r.visible, frames := r.frames ++ [f], opened := false } := by
  simp [swipeStep, detectOverlaySwipe, h]

theorem swipeStep_of_looks {r : SwipeRun} {f : SwipeFrame} {opened : Bool} {swipe : SwipeState}
    (h : swipeSkips f (f.setVisible.getD r.visible) = false)
    (hsample : sampleSwipe f.touch r.swipe = (opened, swipe)) :
    swipeStep r f =
      { swipe, visible := f.setVisible.getD r.visible || opened, frames := r.frames ++ [f],
        opened } := by
  simp [swipeStep, detectOverlaySwipe, h, hsample]

/-- The distances from the start fit where the detector looks at a touch: a new start is the
touch itself. -/
theorem fits_started {r : SwipeRun} {f : SwipeFrame} (hsees : SeesTouch r f)
    (hlooks : swipeSkips f (f.setVisible.getD r.visible) = false) (hdown : f.touch.Down)
    (harmed : (r.swipe.started f.touch).Armed) :
    Fits32 (f.touch.x.toInt - (r.swipe.started f.touch).startX.toInt) ∧
      Fits32 (f.touch.y.toInt - (r.swipe.started f.touch).startY.toInt) := by
  unfold SwipeState.started at harmed ⊢
  split_ifs at harmed ⊢ with hactive
  · exact (hsees harmed).2 hlooks hdown
  · have hzero : Fits32 0 := by
      unfold Fits32
      omega
    simpa using hzero

/-- The overlay whose frames say that they hold a swipe is shown by the detector. -/
theorem overlayVisible_detectOverlaySwipe {f : SwipeFrame} {o : Overlay} {g : Frame}
    (s : SwipeState) (hrender : f.renderEnabled = o.imguiRenderEnabled)
    (hswipe : g.swipe = (detectOverlaySwipe f o.overlayVisible s).1) :
    (o.detectOverlaySwipe g).overlayVisible =
      (o.overlayVisible || (detectOverlaySwipe f o.overlayVisible s).1) := by
  have hhidden : (o.imguiRenderEnabled = false ∨ o.overlayVisible = true) → g.swipe = false := by
    intro h
    rw [hswipe, detectOverlaySwipe, if_pos]
    rcases h with h | h <;> simp [swipeSkips, hrender, h]
  rw [← hswipe, Overlay.detectOverlaySwipe]
  split_ifs with hrenders hvisible hswiped
  · rw [hhidden (Or.inl (by simpa using hrenders)), Bool.or_false]
  · rw [hvisible, Bool.true_or]
  · rw [hswiped, Bool.or_true]
    rfl
  · rw [Bool.eq_false_of_not_eq_true hswiped, Bool.or_false]

/-- **One frame.** -/
theorem swipeStep_keeps {r : SwipeRun} {f : SwipeFrame} (hr : SwipeTracked r)
    (hsees : SeesTouch r f) : SwipeTracked (swipeStep r f) ∧ SwipeProper (swipeStep r f) := by
  cases hskips : swipeSkips f (f.setVisible.getD r.visible) with
  | true =>
    rw [swipeStep_of_skips hskips]
    exact ⟨fun harmed => (hr harmed).concat ((hsees harmed).1 hskips),
      fun hopened => by cases hopened⟩
  | false =>
    rcases sampleSwipe_cases f.touch r.swipe with
      ⟨-, hsample⟩ | ⟨hdown, hsample⟩ | ⟨hdown, harmed, hreached, hsample⟩
    · rw [swipeStep_of_looks hskips hsample]
      exact ⟨fun harmed => absurd harmed.1 (by simp), fun hopened => by cases hopened⟩
    · rw [swipeStep_of_looks hskips hsample]
      exact ⟨tracked_started hr hdown, fun hopened => by cases hopened⟩
    · rw [swipeStep_of_looks hskips hsample]
      refine ⟨fun harmed => absurd harmed.2.1 (by simp), fun _ => ?_⟩
      obtain ⟨hfitsX, hfitsY⟩ := fits_started hsees hskips hdown harmed
      obtain ⟨hx, hy⟩ := reached_of_fits hreached hfitsX hfitsY
      exact isSwipe_of_tracked (tracked_started hr hdown harmed) harmed.2.2 hx hy

/-- **Each frame of a run that opens the overlay ends a swipe, if no frame hides the end of a touch
while a start at the edge is kept.** -/
theorem along_swipeProper {visible : Bool} {frames : List SwipeFrame}
    (h : StepsMeet swipeStep SeesTouch { visible } frames) :
    Along swipeStep SwipeProper { visible } frames := by
  refine along_of_stepsMeet (I := fun r => SwipeTracked r ∧ SwipeProper r)
    (fun r f hr hsees => swipeStep_keeps hr.1 hsees) (fun r hr => hr.2) ⟨?_, ?_⟩ h
  · exact fun harmed => absurd harmed.1 (by simp)
  · exact fun hopened => by cases hopened

/-- A touch at the edge that moves to the right. -/
def swipeFrames : List SwipeFrame :=
  [{ touch := ⟨1, 10, 100⟩ }, { touch := ⟨1, 200, 110⟩ }, { touch := ⟨1, 300, 120⟩ }]

theorem swipeFrames_proper :
    StepsMeet swipeStep SeesTouch {} swipeFrames ∧ (run swipeStep {} swipeFrames).opened = true ∧
      Along swipeStep SwipeProper {} swipeFrames := by
  have hmeets : StepsMeet swipeStep SeesTouch {} swipeFrames :=
    ⟨by decide, by decide, by decide, trivial⟩
  exact ⟨hmeets, by decide, along_swipeProper hmeets⟩

/-- A touch at the edge, whose end the visible overlay hides, and a touch far from the edge. -/
def hiddenEndFrames : List SwipeFrame :=
  [{ touch := ⟨1, 10, 100⟩ }, { setVisible := some true },
    { setVisible := some false, touch := ⟨1, 600, 100⟩ }]

/-- **A touch far from the edge opens the overlay.** -/
theorem not_swipeProper_hiddenEnd : ¬SwipeProper (run swipeStep {} hiddenEndFrames) := by
  intro h
  obtain ⟨before, stretch, heq, hdown, first, last, hfirst, hlast, -, hfar, -⟩ := h (by decide)
  -- The stretch starts after the frame in which the touch is up.
  change hiddenEndFrames = before ++ stretch at heq
  have hup : { setVisible := some true } ∉ stretch := fun hmem =>
    absurd (hdown _ hmem) (by decide)
  unfold hiddenEndFrames at heq
  rcases before with _ | ⟨a, _ | ⟨b, before⟩⟩
  · refine hup ?_
    rw [← List.nil_append stretch, ← heq]
    simp
  · obtain ⟨-, rfl⟩ := List.cons_eq_cons.1 heq
    exact hup (by simp)
  · simp only [List.cons_append, List.cons.injEq] at heq
    obtain ⟨-, -, heq⟩ := heq
    rcases before with _ | ⟨c, before⟩
    · obtain rfl := heq
      cases hfirst
      cases hlast
      exact absurd hfar (by decide)
    · obtain ⟨-, hnil⟩ := List.cons_eq_cons.1 heq
      obtain ⟨-, rfl⟩ := List.append_eq_nil_iff.1 hnil.symm
      cases hfirst

end D3Hack
