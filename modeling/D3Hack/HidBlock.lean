import Mathlib.Data.Int.Notation
import Mathlib.Data.List.Induction
import Mathlib.Data.List.Infix
import Mathlib.Logic.Function.Basic

/-!
# Blocking the game's input

While the overlay has the focus the hooks on `nn::hid` hide the hardware from the game. The
overlay still samples it: a thread inside a `ScopedHidPassthroughForOverlay` gets what the
hardware gives (`GamepadBlockMode.none`).

`hidRun_noninterference`: after any properly nested scopes of one thread and any switching of
the block, no assertion has failed, the depth is the nesting and an owner is recorded exactly
inside a scope; every other thread then sees nothing of the hardware while the block is on, or
nothing but the left sticks of its pads, and where it is off everything is passed through.
-/

namespace D3Hack

/-! ## The states of the hardware -/

/-- `BitFlagSet`, by its bits. -/
abbrev BitFlagSet (size : ℕ) := BitVec size

/-- `AnalogStickState`. -/
structure AnalogStickState where
  X : Int32 := 0
  Y : Int32 := 0

/-- `NpadBaseState`. -/
structure NpadBaseState where
  mSamplingNumber : UInt64 := 0
  mButtons : BitFlagSet 64 := 0
  mAnalogStickL : AnalogStickState := {}
  mAnalogStickR : AnalogStickState := {}
  mAttributes : BitFlagSet 32 := 0
  reserved : BitVec 32 := 0

/-- `NpadFullKeyState`; it and the next four add nothing to `NpadBaseState`. -/
abbrev NpadFullKeyState := NpadBaseState

/-- `NpadHandheldState`. -/
abbrev NpadHandheldState := NpadBaseState

/-- `NpadJoyDualState`. -/
abbrev NpadJoyDualState := NpadBaseState

/-- `NpadJoyLeftState`. -/
abbrev NpadJoyLeftState := NpadBaseState

/-- `NpadJoyRightState`. -/
abbrev NpadJoyRightState := NpadBaseState

/-- `MouseState`. -/
structure MouseState where
  samplingNumber : UInt64 := 0
  x : Int32 := 0
  y : Int32 := 0
  deltaX : Int32 := 0
  deltaY : Int32 := 0
  wheelDeltaX : Int32 := 0
  wheelDeltaY : Int32 := 0
  buttons : BitFlagSet 32 := 0
  attributes : BitFlagSet 32 := 0

/-- `KeyboardState`. -/
structure KeyboardState where
  samplingNumber : UInt64 := 0
  modifiers : BitFlagSet 32 := 0
  keys : BitFlagSet 256 := 0

/-- The entries from a pointer on; null is `none`. -/
abbrev Entries (T : Type) := Option (ℕ → T)

/-- What a `detail::GetNpadStates` leaves: its code, `*out_count` and the entries. -/
structure DetailStates (T : Type) where
  rc : ℤ
  outCount : Option ℤ
  out : Entries T

/-- The functions of `nn::hid` for one type of pads, over the state that the hardware has: what
each writes, from what is there. -/
structure NpadHardware (T : Type) where
  getNpadState : T → UInt32 → T
  getNpadStates : (ℕ → T) → ℤ → UInt32 → ℕ → T
  detailGetNpadStates : Option ℤ → Entries T → ℤ → UInt32 → ℤ × ℤ × (ℕ → T)

/-- `nn::hid`, over the state that the hardware has. -/
structure Hardware where
  fullKey : NpadHardware NpadFullKeyState
  handheld : NpadHardware NpadHandheldState
  joyDual : NpadHardware NpadJoyDualState
  joyLeft : NpadHardware NpadJoyLeftState
  joyRight : NpadHardware NpadJoyRightState
  getMouseState : MouseState → MouseState
  getKeyboardState : KeyboardState → KeyboardState

/-- `detail::GetNpadStates`; a null pointer takes nothing. -/
def NpadHardware.detail {T : Type} (npad : NpadHardware T) (outCount : Option ℤ)
    (out : Entries T) (count : ℤ) (port : UInt32) : DetailStates T :=
  let (rc, n, entries) := npad.detailGetNpadStates outCount out count port
  { rc, outCount := outCount.map fun _ => n, out := out.map fun _ => entries }

/-! ## The block and its owner -/

/-- The globals of the block; a thread is its token, and zero is none. The depth is an integer where
the code has an `int`: the two agree as long as fewer than 2^31 scopes are open at once. -/
structure HidBlock where
  blockGamepadInputToGame : Bool := false
  allowLeftStickPassthrough : Bool := false
  passthroughDepth : ℤ := 0
  passthroughThread : UInt64 := 0

/-- `GamepadBlockMode`. -/
inductive GamepadBlockMode where
  | none | full | leftStickOnly
  deriving DecidableEq

/-- `GetGamepadBlockMode`, on the current thread. -/
def getGamepadBlockMode (g : HidBlock) (thread : UInt64) : GamepadBlockMode :=
  if g.blockGamepadInputToGame = false then .none
  else
    let allowLeftStick := g.allowLeftStickPassthrough
    if g.passthroughDepth ≤ 0 then if allowLeftStick then .leftStickOnly else .full
    else if g.passthroughThread ≠ 0 ∧ g.passthroughThread = thread then .none
    else if allowLeftStick then .leftStickOnly else .full

/-- `SetBlockGamepadInputToGame`. -/
def setBlockGamepadInputToGame (block : Bool) (g : HidBlock) : HidBlock :=
  { g with blockGamepadInputToGame := block }

/-- `SetAllowLeftStickPassthrough`. -/
def setAllowLeftStickPassthrough (allow : Bool) (g : HidBlock) : HidBlock :=
  { g with allowLeftStickPassthrough := allow }

/-- The constructor of `ScopedHidPassthroughForOverlay`, on the current thread. -/
def enterPassthrough (token : UInt64) (g : HidBlock) : Except String HidBlock :=
  if token = 0 then .error "[hid_block] Failed to get current thread token"
  else
    let prev := g.passthroughDepth
    let g := { g with passthroughDepth := prev + 1 }
    if prev < 0 then .error "[hid_block] HID passthrough depth underflow on enter"
    else if prev = 0 then .ok { g with passthroughThread := token }
    else if g.passthroughThread = token then .ok g
    else .error "[hid_block] HID passthrough entered on different thread"

/-- Its destructor. -/
def exitPassthrough (token : UInt64) (g : HidBlock) : Except String HidBlock :=
  if token = 0 then .error "[hid_block] Failed to get current thread token"
  else
    let owner := g.passthroughThread
    if ¬(owner = 0 ∨ owner = token) then
      .error "[hid_block] HID passthrough exited on different thread"
    else
      let prev := g.passthroughDepth
      let g := { g with passthroughDepth := prev - 1 }
      if prev ≤ 0 then .error "[hid_block] HID passthrough depth underflow on exit"
      else if prev ≤ 1 then .ok { g with passthroughDepth := 0, passthroughThread := 0 }
      else .ok g

/-! ## The hooks -/

/-- `ClearNpadButtonsAndRightStick`, on an entry. -/
def clearNpadButtonsAndRightStick (st : NpadBaseState) : NpadBaseState :=
  { st with mButtons := 0, mAnalogStickR := {} }

/-- `ResetNpadState`, on an entry. -/
def resetNpadState (_st : NpadBaseState) : NpadBaseState := {}

/-- A loop over the first `count` entries. -/
def forEntries {T : Type} (f : T → T) (count : ℤ) (out : ℕ → T) : ℕ → T :=
  (List.range count.toNat).foldl (fun out i => Function.update out i (f (out i))) out

/-- `ResetNpadStates`. -/
def resetNpadStates (out : Entries NpadBaseState) (count : ℤ) : Entries NpadBaseState :=
  out.map (forEntries resetNpadState count)

section Hooks

variable (npad : NpadHardware NpadBaseState) (g : HidBlock) (thread : UInt64)

/-- `DEFINE_HID_GET_STATE_HOOK`. -/
def getStateHook (out : Option NpadBaseState) (port : UInt32) : Option NpadBaseState :=
  match getGamepadBlockMode g thread with
  | .none => out.map (npad.getNpadState · port)
  | .leftStickOnly => (out.map (npad.getNpadState · port)).map clearNpadButtonsAndRightStick
  | .full => out.map resetNpadState

/-- `DEFINE_HID_GET_STATES_HOOK`. -/
def getStatesHook (out : Entries NpadBaseState) (count : ℤ) (port : UInt32) :
    Entries NpadBaseState :=
  match getGamepadBlockMode g thread with
  | .none => out.map (npad.getNpadStates · count port)
  | .leftStickOnly =>
    (out.map (npad.getNpadStates · count port)).map
      (forEntries clearNpadButtonsAndRightStick count)
  | .full => resetNpadStates out count

/-- `DEFINE_HID_DETAIL_GET_STATES_HOOK`. -/
def detailGetStatesHook (outCount : Option ℤ) (out : Entries NpadBaseState) (count : ℤ)
    (port : UInt32) : DetailStates NpadBaseState :=
  match getGamepadBlockMode g thread with
  | .none => npad.detail outCount out count port
  | .leftStickOnly =>
    let states := npad.detail outCount out count port
    { states with out := states.out.map (forEntries clearNpadButtonsAndRightStick count) }
  | .full => { rc := 0, outCount := outCount.map fun _ => 0, out := resetNpadStates out count }

end Hooks

/-! The hooks that are installed. -/

section Members

variable (hid : Hardware) (g : HidBlock) (thread : UInt64)

/-- `HidGetNpadStateFullKeyHook`. -/
def hidGetNpadStateFullKeyHook := getStateHook hid.fullKey g thread

/-- `HidGetNpadStateHandheldHook`. -/
def hidGetNpadStateHandheldHook := getStateHook hid.handheld g thread

/-- `HidGetNpadStateJoyDualHook`. -/
def hidGetNpadStateJoyDualHook := getStateHook hid.joyDual g thread

/-- `HidGetNpadStateJoyLeftHook`. -/
def hidGetNpadStateJoyLeftHook := getStateHook hid.joyLeft g thread

/-- `HidGetNpadStateJoyRightHook`. -/
def hidGetNpadStateJoyRightHook := getStateHook hid.joyRight g thread

/-- `HidGetNpadStatesFullKeyHook`. -/
def hidGetNpadStatesFullKeyHook := getStatesHook hid.fullKey g thread

/-- `HidGetNpadStatesHandheldHook`. -/
def hidGetNpadStatesHandheldHook := getStatesHook hid.handheld g thread

/-- `HidGetNpadStatesJoyDualHook`. -/
def hidGetNpadStatesJoyDualHook := getStatesHook hid.joyDual g thread

/-- `HidGetNpadStatesJoyLeftHook`. -/
def hidGetNpadStatesJoyLeftHook := getStatesHook hid.joyLeft g thread

/-- `HidGetNpadStatesJoyRightHook`. -/
def hidGetNpadStatesJoyRightHook := getStatesHook hid.joyRight g thread

/-- `HidDetailGetNpadStatesFullKeyHook`. -/
def hidDetailGetNpadStatesFullKeyHook := detailGetStatesHook hid.fullKey g thread

/-- `HidDetailGetNpadStatesHandheldHook`. -/
def hidDetailGetNpadStatesHandheldHook := detailGetStatesHook hid.handheld g thread

/-- `HidDetailGetNpadStatesJoyDualHook`. -/
def hidDetailGetNpadStatesJoyDualHook := detailGetStatesHook hid.joyDual g thread

/-- `HidDetailGetNpadStatesJoyLeftHook`. -/
def hidDetailGetNpadStatesJoyLeftHook := detailGetStatesHook hid.joyLeft g thread

/-- `HidDetailGetNpadStatesJoyRightHook`. -/
def hidDetailGetNpadStatesJoyRightHook := detailGetStatesHook hid.joyRight g thread

/-- `HidGetMouseStateHook`. -/
def hidGetMouseStateHook (out : Option MouseState) : Option MouseState :=
  if getGamepadBlockMode g thread ≠ .none then out.map fun _ => {} else out.map hid.getMouseState

/-- `HidGetKeyboardStateHook`. -/
def hidGetKeyboardStateHook (out : Option KeyboardState) : Option KeyboardState :=
  if getGamepadBlockMode g thread ≠ .none then out.map fun _ => {}
  else out.map hid.getKeyboardState

end Members

/-- The types of pads. -/
inductive NpadStyle where
  | fullKey | handheld | joyDual | joyLeft | joyRight

/-- A call of a function of `nn::hid` with its arguments, and what its pointers lead to. -/
inductive HidCall where
  | npadState (style : NpadStyle) (out : Option NpadBaseState) (port : UInt32)
  | npadStates (style : NpadStyle) (out : Entries NpadBaseState) (count : ℤ) (port : UInt32)
  | detailNpadStates (style : NpadStyle) (outCount : Option ℤ) (out : Entries NpadBaseState)
      (count : ℤ) (port : UInt32)
  | mouse (out : Option MouseState)
  | keyboard (out : Option KeyboardState)

/-- What a call returns and leaves where its pointers lead. -/
inductive HidResult where
  | npadState (out : Option NpadBaseState)
  | npadStates (out : Entries NpadBaseState)
  | detailNpadStates (states : DetailStates NpadBaseState)
  | mouse (out : Option MouseState)
  | keyboard (out : Option KeyboardState)

/-- A call under the hooks that `InstallHidHooks` installs. -/
def hidHook (hid : Hardware) (g : HidBlock) (thread : UInt64) : HidCall → HidResult
  | .npadState .fullKey out port => .npadState (hidGetNpadStateFullKeyHook hid g thread out port)
  | .npadState .handheld out port => .npadState (hidGetNpadStateHandheldHook hid g thread out port)
  | .npadState .joyDual out port => .npadState (hidGetNpadStateJoyDualHook hid g thread out port)
  | .npadState .joyLeft out port => .npadState (hidGetNpadStateJoyLeftHook hid g thread out port)
  | .npadState .joyRight out port => .npadState (hidGetNpadStateJoyRightHook hid g thread out port)
  | .npadStates .fullKey out count port =>
    .npadStates (hidGetNpadStatesFullKeyHook hid g thread out count port)
  | .npadStates .handheld out count port =>
    .npadStates (hidGetNpadStatesHandheldHook hid g thread out count port)
  | .npadStates .joyDual out count port =>
    .npadStates (hidGetNpadStatesJoyDualHook hid g thread out count port)
  | .npadStates .joyLeft out count port =>
    .npadStates (hidGetNpadStatesJoyLeftHook hid g thread out count port)
  | .npadStates .joyRight out count port =>
    .npadStates (hidGetNpadStatesJoyRightHook hid g thread out count port)
  | .detailNpadStates .fullKey outCount out count port =>
    .detailNpadStates (hidDetailGetNpadStatesFullKeyHook hid g thread outCount out count port)
  | .detailNpadStates .handheld outCount out count port =>
    .detailNpadStates (hidDetailGetNpadStatesHandheldHook hid g thread outCount out count port)
  | .detailNpadStates .joyDual outCount out count port =>
    .detailNpadStates (hidDetailGetNpadStatesJoyDualHook hid g thread outCount out count port)
  | .detailNpadStates .joyLeft outCount out count port =>
    .detailNpadStates (hidDetailGetNpadStatesJoyLeftHook hid g thread outCount out count port)
  | .detailNpadStates .joyRight outCount out count port =>
    .detailNpadStates (hidDetailGetNpadStatesJoyRightHook hid g thread outCount out count port)
  | .mouse out => .mouse (hidGetMouseStateHook hid g thread out)
  | .keyboard out => .keyboard (hidGetKeyboardStateHook hid g thread out)

/-- The hardware's functions for a type of pads. -/
def Hardware.npad (hid : Hardware) : NpadStyle → NpadHardware NpadBaseState
  | .fullKey => hid.fullKey
  | .handheld => hid.handheld
  | .joyDual => hid.joyDual
  | .joyLeft => hid.joyLeft
  | .joyRight => hid.joyRight

/-- A call without the hooks. -/
def hidOrig (hid : Hardware) : HidCall → HidResult
  | .npadState style out port => .npadState (out.map ((hid.npad style).getNpadState · port))
  | .npadStates style out count port =>
    .npadStates (out.map ((hid.npad style).getNpadStates · count port))
  | .detailNpadStates style outCount out count port =>
    .detailNpadStates ((hid.npad style).detail outCount out count port)
  | .mouse out => .mouse (out.map hid.getMouseState)
  | .keyboard out => .keyboard (out.map hid.getKeyboardState)

/-! ## What the game may see -/

/-- Neither buttons nor the right stick. -/
def NpadBaseState.Cleared (st : NpadBaseState) : Prop :=
  st.mButtons = 0 ∧ st.mAnalogStickR = {}

/-- The first `count` entries are cleared. -/
def EntriesCleared (out : Entries NpadBaseState) (count : ℤ) : Prop :=
  ∀ entries ∈ out, ∀ i : ℕ, (i : ℤ) < count → (entries i).Cleared

/-- Every pad that a call returns is cleared, and the rest does not depend on the hardware. -/
def OnlyLeftStick (g : HidBlock) (thread : UInt64) : HidCall → Prop
  | .npadState style out port => ∀ hid,
      ∃ out', hidHook hid g thread (.npadState style out port) = .npadState out' ∧
        ∀ st ∈ out', st.Cleared
  | .npadStates style out count port => ∀ hid,
      ∃ out', hidHook hid g thread (.npadStates style out count port) = .npadStates out' ∧
        EntriesCleared out' count
  | .detailNpadStates style outCount out count port => ∀ hid,
      ∃ states, hidHook hid g thread (.detailNpadStates style outCount out count port) =
          .detailNpadStates states ∧ EntriesCleared states.out count
  | .mouse out => ∀ hid₁ hid₂,
      hidHook hid₁ g thread (.mouse out) = hidHook hid₂ g thread (.mouse out)
  | .keyboard out => ∀ hid₁ hid₂,
      hidHook hid₁ g thread (.keyboard out) = hidHook hid₂ g thread (.keyboard out)

/-- What a thread may see: everything where it owns the passthrough or nothing is blocked, else
nothing, or nothing but the left sticks. -/
structure Noninterfering (g : HidBlock) (owner : Option UInt64) (thread : UInt64) : Prop where
  passes : g.blockGamepadInputToGame = false ∨ owner = some thread →
    ∀ hid call, hidHook hid g thread call = hidOrig hid call
  full : g.blockGamepadInputToGame = true → owner ≠ some thread →
    g.allowLeftStickPassthrough = false →
      ∀ hid₁ hid₂ call, hidHook hid₁ g thread call = hidHook hid₂ g thread call
  leftStickOnly : g.blockGamepadInputToGame = true → owner ≠ some thread →
    g.allowLeftStickPassthrough = true → ∀ call, OnlyLeftStick g thread call

/-! ## Runs -/

/-- What happens to the block: a scope opens or closes on the overlay's thread, or a switch is
set. -/
inductive HidEvent where
  | enter
  | exit
  | setBlock (block : Bool)
  | setAllow (allow : Bool)
  deriving DecidableEq

/-- What an event does to the block; a scope may fail an assertion. -/
def hidStep (token : UInt64) (g : HidBlock) : HidEvent → Except String HidBlock
  | .enter => enterPassthrough token g
  | .exit => exitPassthrough token g
  | .setBlock block => .ok (setBlockGamepadInputToGame block g)
  | .setAllow allow => .ok (setAllowLeftStickPassthrough allow g)

/-- The events one after the other, up to a failed assertion. -/
def hidRun (token : UInt64) (events : List HidEvent) : Except String HidBlock :=
  events.foldlM (hidStep token) {}

/-- The scopes that are open after the events. -/
def nesting (events : List HidEvent) : ℤ := events.count .enter - events.count .exit

/-- No scope is closed that was not opened. -/
def ProperlyNested (events : List HidEvent) : Prop :=
  ∀ before, before <+: events → 0 ≤ nesting before

/-- The block was last switched on. -/
def lastBlock (events : List HidEvent) : Bool :=
  events.foldl (fun last e => match e with | .setBlock block => block | _ => last) false

/-- The left stick was last allowed. -/
def lastAllow (events : List HidEvent) : Bool :=
  events.foldl (fun last e => match e with | .setAllow allow => allow | _ => last) false

/-- The thread whose scope is open. -/
def currentOwner (token : UInt64) (events : List HidEvent) : Option UInt64 :=
  if 0 < nesting events then some token else none

/-- What holds after the events: the globals record them, and no thread sees more of the hardware
than they let it. -/
structure HidOk (token : UInt64) (events : List HidEvent) (g : HidBlock) : Prop where
  depth : g.passthroughDepth = nesting events
  owner : g.passthroughThread ≠ 0 ↔ 0 < g.passthroughDepth
  block : g.blockGamepadInputToGame = lastBlock events
  allow : g.allowLeftStickPassthrough = lastAllow events
  access : ∀ thread, Noninterfering g (currentOwner token events) thread

/-! ## What the hooks do in each mode -/

section Modes

variable {hid : Hardware} {g : HidBlock} {thread : UInt64}

theorem hidHook_npadState (style : NpadStyle) (out : Option NpadBaseState) (port : UInt32) :
    hidHook hid g thread (.npadState style out port) =
      .npadState (getStateHook (hid.npad style) g thread out port) := by
  cases style <;> rfl

theorem hidHook_npadStates (style : NpadStyle) (out : Entries NpadBaseState) (count : ℤ)
    (port : UInt32) : hidHook hid g thread (.npadStates style out count port) =
      .npadStates (getStatesHook (hid.npad style) g thread out count port) := by
  cases style <;> rfl

theorem hidHook_detailNpadStates (style : NpadStyle) (outCount : Option ℤ)
    (out : Entries NpadBaseState) (count : ℤ) (port : UInt32) :
    hidHook hid g thread (.detailNpadStates style outCount out count port) =
      .detailNpadStates
        (detailGetStatesHook (hid.npad style) g thread outCount out count port) := by
  cases style <;> rfl

/-- Without a block the hooks pass everything on. -/
theorem hidHook_of_none (hmode : getGamepadBlockMode g thread = .none) (hid : Hardware)
    (call : HidCall) : hidHook hid g thread call = hidOrig hid call := by
  cases call with
  | npadState style out port => rw [hidHook_npadState, getStateHook, hmode, hidOrig]
  | npadStates style out count port => rw [hidHook_npadStates, getStatesHook, hmode, hidOrig]
  | detailNpadStates style outCount out count port =>
    rw [hidHook_detailNpadStates, detailGetStatesHook, hmode, hidOrig]
  | mouse out => simp [hidHook, hidGetMouseStateHook, hmode, hidOrig]
  | keyboard out => simp [hidHook, hidGetKeyboardStateHook, hmode, hidOrig]

/-- Under any block the mouse is hidden. -/
theorem hidHook_mouse (hmode : getGamepadBlockMode g thread ≠ .none) (out : Option MouseState) :
    hidHook hid g thread (.mouse out) = .mouse (out.map fun _ => {}) := by
  rw [hidHook, hidGetMouseStateHook, if_pos hmode]

theorem hidHook_keyboard (hmode : getGamepadBlockMode g thread ≠ .none)
    (out : Option KeyboardState) :
    hidHook hid g thread (.keyboard out) = .keyboard (out.map fun _ => {}) := by
  rw [hidHook, hidGetKeyboardStateHook, if_pos hmode]

/-- Under a full block the hooks do not depend on the hardware. -/
theorem hidHook_of_full (hmode : getGamepadBlockMode g thread = .full) (hid₁ hid₂ : Hardware)
    (call : HidCall) : hidHook hid₁ g thread call = hidHook hid₂ g thread call := by
  have hblocked : getGamepadBlockMode g thread ≠ .none := by simp [hmode]
  cases call with
  | npadState style out port =>
    rw [hidHook_npadState, hidHook_npadState, getStateHook, getStateHook, hmode]
  | npadStates style out count port =>
    rw [hidHook_npadStates, hidHook_npadStates, getStatesHook, getStatesHook, hmode]
  | detailNpadStates style outCount out count port =>
    rw [hidHook_detailNpadStates, hidHook_detailNpadStates, detailGetStatesHook,
      detailGetStatesHook, hmode]
  | mouse out => rw [hidHook_mouse hblocked, hidHook_mouse hblocked]
  | keyboard out => rw [hidHook_keyboard hblocked, hidHook_keyboard hblocked]

theorem cleared_clearNpadButtonsAndRightStick (st : NpadBaseState) :
    (clearNpadButtonsAndRightStick st).Cleared := ⟨rfl, rfl⟩

/-- A loop changes the first `count` entries and no other. -/
theorem forEntries_apply {T : Type} (f : T → T) (count : ℤ) (out : ℕ → T) (i : ℕ) :
    forEntries f count out i = if (i : ℤ) < count then f (out i) else out i := by
  have hloop (n : ℕ) :
      (List.range n).foldl (fun out i => Function.update out i (f (out i))) out i =
        if i < n then f (out i) else out i := by
    induction n generalizing i with
    | zero => rfl
    | succ n ih =>
      rw [List.range_succ, List.foldl_append, List.foldl_cons, List.foldl_nil,
        Function.update_apply, ih, ih]
      by_cases hi : i = n
      · simp [hi]
      · rw [if_neg hi]
        simp only [show i < n + 1 ↔ i < n by omega]
  rw [forEntries, hloop]
  simp only [Int.lt_toNat]

theorem entriesCleared_forEntries (out : Entries NpadBaseState) (count : ℤ) :
    EntriesCleared (out.map (forEntries clearNpadButtonsAndRightStick count)) count := by
  intro entries hentries i hi
  obtain ⟨entries', -, rfl⟩ := Option.map_eq_some_iff.1 hentries
  rw [forEntries_apply, if_pos hi]
  exact cleared_clearNpadButtonsAndRightStick _

/-- Where the left stick is let through, nothing else of the hardware is. -/
theorem onlyLeftStick_of_leftStickOnly (hmode : getGamepadBlockMode g thread = .leftStickOnly)
    (call : HidCall) : OnlyLeftStick g thread call := by
  have hblocked : getGamepadBlockMode g thread ≠ .none := by simp [hmode]
  cases call with
  | npadState style out port =>
    intro hid
    refine ⟨_, hidHook_npadState style out port, fun st hst => ?_⟩
    rw [getStateHook, hmode] at hst
    obtain ⟨st', -, rfl⟩ := Option.map_eq_some_iff.1 hst
    exact cleared_clearNpadButtonsAndRightStick st'
  | npadStates style out count port =>
    intro hid
    refine ⟨_, hidHook_npadStates style out count port, ?_⟩
    rw [getStatesHook, hmode]
    exact entriesCleared_forEntries _ _
  | detailNpadStates style outCount out count port =>
    intro hid
    refine ⟨_, hidHook_detailNpadStates style outCount out count port, ?_⟩
    rw [detailGetStatesHook, hmode]
    exact entriesCleared_forEntries _ _
  | mouse out =>
    intro hid₁ hid₂
    rw [hidHook_mouse hblocked, hidHook_mouse hblocked]
  | keyboard out =>
    intro hid₁ hid₂
    rw [hidHook_keyboard hblocked, hidHook_keyboard hblocked]

end Modes

/-! ## What the scopes do -/

theorem nesting_concat (events : List HidEvent) (e : HidEvent) :
    nesting (events ++ [e]) = nesting events + nesting [e] := by
  simp only [nesting, List.count_append]
  omega

theorem lastBlock_concat (events : List HidEvent) (e : HidEvent) :
    lastBlock (events ++ [e]) = match e with
      | .setBlock block => block
      | _ => lastBlock events := by
  cases e <;> simp [lastBlock]

theorem lastAllow_concat (events : List HidEvent) (e : HidEvent) :
    lastAllow (events ++ [e]) = match e with
      | .setAllow allow => allow
      | _ => lastAllow events := by
  cases e <;> simp [lastAllow]

/-- The globals record the scopes and the switches. -/
structure HidInv (token : UInt64) (events : List HidEvent) (g : HidBlock) : Prop where
  depth : g.passthroughDepth = nesting events
  thread : g.passthroughThread = if 0 < nesting events then token else 0
  block : g.blockGamepadInputToGame = lastBlock events
  allow : g.allowLeftStickPassthrough = lastAllow events

theorem hidStep_enter {token : UInt64} (htoken : token ≠ 0) {events : List HidEvent}
    {g : HidBlock} (h : HidInv token events g) (hopen : 0 ≤ nesting events) :
    ∃ g', hidStep token g .enter = .ok g' ∧ HidInv token (events ++ [.enter]) g' := by
  have hnesting : nesting (events ++ [.enter]) = nesting events + 1 := nesting_concat events .enter
  have hblock := h.block.trans (lastBlock_concat events .enter).symm
  have hallow := h.allow.trans (lastAllow_concat events .enter).symm
  have hpos : 0 < nesting (events ++ [.enter]) := by omega
  rw [hidStep, enterPassthrough, if_neg htoken, h.depth]
  dsimp only
  rw [if_neg (by omega)]
  by_cases hzero : nesting events = 0
  · rw [if_pos hzero]
    refine ⟨_, rfl, hnesting.symm, ?_, hblock, hallow⟩
    rw [if_pos hpos]
  · have howner : g.passthroughThread = token := by rw [h.thread, if_pos (by omega)]
    rw [if_neg hzero, if_pos howner]
    refine ⟨_, rfl, hnesting.symm, ?_, hblock, hallow⟩
    rw [if_pos hpos]
    exact howner

theorem hidStep_exit {token : UInt64} (htoken : token ≠ 0) {events : List HidEvent}
    {g : HidBlock} (h : HidInv token events g) (hnext : 0 ≤ nesting (events ++ [.exit])) :
    ∃ g', hidStep token g .exit = .ok g' ∧ HidInv token (events ++ [.exit]) g' := by
  have hnesting : nesting (events ++ [.exit]) = nesting events - 1 := nesting_concat events .exit
  have hblock := h.block.trans (lastBlock_concat events .exit).symm
  have hallow := h.allow.trans (lastAllow_concat events .exit).symm
  have howner : g.passthroughThread = token := by rw [h.thread, if_pos (by omega)]
  rw [hidStep, exitPassthrough, if_neg htoken]
  dsimp only
  rw [if_neg (by simp [howner]), h.depth, if_neg (by omega)]
  by_cases hlast : nesting events ≤ 1
  · rw [if_pos hlast]
    refine ⟨_, rfl, ?_, ?_, hblock, hallow⟩
    · change 0 = nesting (events ++ [.exit])
      omega
    · rw [if_neg (by omega)]
  · rw [if_neg hlast]
    refine ⟨_, rfl, hnesting.symm, ?_, hblock, hallow⟩
    rw [if_pos (by omega)]
    exact howner

/-- An event that leaves the scopes properly nested fails no assertion and is recorded. -/
theorem hidStep_spec {token : UInt64} (htoken : token ≠ 0) {events : List HidEvent} {g : HidBlock}
    (h : HidInv token events g) (hopen : 0 ≤ nesting events) (e : HidEvent)
    (hnext : 0 ≤ nesting (events ++ [e])) :
    ∃ g', hidStep token g e = .ok g' ∧ HidInv token (events ++ [e]) g' := by
  cases e with
  | enter => exact hidStep_enter htoken h hopen
  | exit => exact hidStep_exit htoken h hnext
  | setBlock block =>
    have hnesting : nesting (events ++ [.setBlock block]) = nesting events :=
      (nesting_concat events _).trans (Int.add_zero _)
    have hblock := lastBlock_concat events (.setBlock block)
    have hallow := h.allow.trans (lastAllow_concat events (.setBlock block)).symm
    refine ⟨_, rfl, h.depth.trans hnesting.symm, ?_, hblock.symm, hallow⟩
    rw [hnesting]
    exact h.thread
  | setAllow allow =>
    have hnesting : nesting (events ++ [.setAllow allow]) = nesting events :=
      (nesting_concat events _).trans (Int.add_zero _)
    have hblock := h.block.trans (lastBlock_concat events (.setAllow allow)).symm
    have hallow := lastAllow_concat events (.setAllow allow)
    refine ⟨_, rfl, h.depth.trans hnesting.symm, ?_, hblock, hallow.symm⟩
    rw [hnesting]
    exact h.thread

theorem ProperlyNested.of_concat {events : List HidEvent} {e : HidEvent}
    (h : ProperlyNested (events ++ [e])) : ProperlyNested events :=
  fun before hbefore => h before (hbefore.trans (List.prefix_append events [e]))

theorem hidRun_concat (token : UInt64) (events : List HidEvent) (e : HidEvent) :
    hidRun token (events ++ [e]) = (hidRun token events).bind (hidStep token · e) := by
  rw [hidRun, List.foldlM_append]
  refine congrArg _ (funext fun g => ?_)
  simp only [List.foldlM_cons, List.foldlM_nil]
  exact bind_pure _

/-- Properly nested scopes fail no assertion. -/
theorem hidRun_spec {token : UInt64} (htoken : token ≠ 0) (events : List HidEvent)
    (h : ProperlyNested events) : ∃ g, hidRun token events = .ok g ∧ HidInv token events g := by
  induction events using List.reverseRecOn with
  | nil => exact ⟨{}, rfl, rfl, rfl, rfl, rfl⟩
  | append_singleton events e ih =>
    obtain ⟨g, hrun, hinv⟩ := ih h.of_concat
    have hopen := h.of_concat events (List.prefix_refl events)
    obtain ⟨g', hstep, hinv'⟩ := hidStep_spec htoken hinv hopen e (h _ (List.prefix_refl _))
    exact ⟨g', by rw [hidRun_concat, hrun]; exact hstep, hinv'⟩

/-- The mode of a thread: free if nothing is blocked or its scope is open. -/
theorem getGamepadBlockMode_of_hidInv {token : UInt64} (htoken : token ≠ 0)
    {events : List HidEvent} {g : HidBlock} (h : HidInv token events g) (thread : UInt64) :
    getGamepadBlockMode g thread =
      if g.blockGamepadInputToGame = false ∨ currentOwner token events = some thread then .none
      else if g.allowLeftStickPassthrough then .leftStickOnly else .full := by
  rw [getGamepadBlockMode, currentOwner, h.depth, h.thread]
  by_cases hblock : g.blockGamepadInputToGame = false
  · rw [if_pos hblock, if_pos (Or.inl hblock)]
  · by_cases hopen : 0 < nesting events
    · have hclosed : ¬nesting events ≤ 0 := by omega
      rw [Bool.not_eq_false] at hblock
      simp [hblock, hopen, hclosed, htoken]
    · have hclosed : nesting events ≤ 0 := by omega
      simp [hblock, hopen, hclosed]

/-- **After properly nested scopes of one thread and any switching of the block, no assertion has
failed, the depth is the nesting, an owner is recorded exactly inside a scope, and a thread sees
of the hardware what the block lets it.** -/
theorem hidRun_noninterference (token : UInt64) (htoken : token ≠ 0) (events : List HidEvent)
    (h : ProperlyNested events) : ∃ g, hidRun token events = .ok g ∧ HidOk token events g := by
  obtain ⟨g, hrun, hinv⟩ := hidRun_spec htoken events h
  refine ⟨g, hrun, hinv.depth, ?_, hinv.block, hinv.allow, fun thread => ?_⟩
  · rw [hinv.thread, hinv.depth]
    split_ifs with hopen <;> simp [htoken, hopen]
  · have hmode := getGamepadBlockMode_of_hidInv htoken hinv thread
    refine ⟨fun hfree => ?_, fun hblock howner hallow => ?_, fun hblock howner hallow => ?_⟩
    · rw [if_pos hfree] at hmode
      exact hidHook_of_none hmode
    · rw [if_neg (by simp [hblock, howner]), hallow] at hmode
      exact hidHook_of_full hmode
    · rw [if_neg (by simp [hblock, howner]), hallow] at hmode
      exact onlyLeftStick_of_leftStickOnly hmode

/-- The overlay opens a scope inside another with the block on, and closes it. -/
theorem hidRun_noninterference_nested : ∃ g,
    hidRun 1 [.setBlock true, .enter, .enter, .exit] = .ok g ∧
      HidOk 1 [.setBlock true, .enter, .enter, .exit] g := by
  refine hidRun_noninterference 1 (by decide) _ fun before hbefore => ?_
  have hall : ∀ bs ∈ [HidEvent.setBlock true, .enter, .enter, .exit].inits,
      0 ≤ nesting bs := by
    decide
  exact hall before ((List.mem_inits _ _).2 hbefore)

end D3Hack
