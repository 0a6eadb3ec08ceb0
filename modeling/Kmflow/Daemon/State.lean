import Kmflow.Daemon.Edge
import Mathlib.Data.Finset.Image

/-!
# The daemon's shared state

`state.rs` and the state half of `lib.rs`: the connection state machine with its transition table,
the `DaemonState` behind the mutex, and the functions that keep track of what the user holds down.

The two `HashSet`s of held keys and buttons are finite sets. Their iteration order is unspecified,
so `flushPressedKeys` takes the order it walks them in (`FlushOrder`); nothing below depends on it.

`DaemonState.pressed` reads both sets as one set of switches. The two facts every later argument
uses are that tracking an event is replaying it (`pressed_trackKeyState`) and that replaying a flush
takes exactly the tracked switches away (`replayEvents_flushPressedKeys`).
-/

namespace Kmflow

/-! ### The connection state machine -/

/-- `ConnectionState`. -/
inductive ConnectionState where
  | disconnected
  | discovering
  | pairing
  | connected
  | active
  | suspended
  | reconnecting
  deriving DecidableEq

namespace ConnectionState

/-- As it is displayed in the answer to `status`. -/
def toString : ConnectionState → String
  | disconnected => "disconnected"
  | discovering => "discovering"
  | pairing => "pairing"
  | connected => "connected"
  | active => "active"
  | suspended => "suspended"
  | reconnecting => "reconnecting"

/-- The transition table. -/
def canTransitionTo : ConnectionState → ConnectionState → Bool
  | disconnected, discovering => true
  | discovering, pairing => true
  | discovering, connected => true
  | pairing, connected => true
  | connected, active => true
  | active, suspended => true
  | active, disconnected => true
  | suspended, reconnecting => true
  | reconnecting, active => true
  | reconnecting, disconnected => true
  | disconnected, active => true
  | active, reconnecting => true
  | connected, disconnected => true
  | _, _ => false

/-- Validate and perform a transition: the new state, or the error text. -/
def transitionTo (s next : ConnectionState) : Except String ConnectionState :=
  if s.canTransitionTo next then .ok next
  else .error s!"invalid state transition: {s.toString} -> {next.toString}"

/-- `let _ = state.transition_to(next)`, as every caller writes it: the error is discarded and the
state stays. -/
def transitionOrStay (s next : ConnectionState) : ConnectionState :=
  match s.transitionTo next with
  | .ok s' => s'
  | .error _ => s

end ConnectionState

/-! ### The shared state -/

/-- `DaemonState`, which the tasks of the daemon share behind a lock. -/
structure DaemonState where
  connectionState : ConnectionState
  pressedKeys : Finset UInt32
  pressedButtons : Finset MouseButton
  localScreen : ScreenInfo
  remoteScreen : Option ScreenInfo
  seqCounter : UInt32
  focusIsRemote : Bool
  cursorX : ℤ
  cursorY : ℤ
  /-- An `Instant`, in nanoseconds. -/
  lastFocusSwitch : ℕ

/-- The state of `Daemon::new`: disconnected, nothing held, focus local, cursor in the centre. -/
def DaemonState.new (screen : ScreenInfo) (now : ℕ) : DaemonState where
  connectionState := .disconnected
  pressedKeys := ∅
  pressedButtons := ∅
  localScreen := screen
  remoteScreen := none
  seqCounter := 0
  focusIsRemote := false
  cursorX := (u32AsI32 screen.width).tdiv 2
  cursorY := (u32AsI32 screen.height).tdiv 2
  lastFocusSwitch := now

/-- The orders in which the two `HashSet`s are walked. -/
structure FlushOrder where
  keys : IterOrder UInt32
  buttons : IterOrder MouseButton

theorem scancode_injective : Function.Injective UInt32.toNat := fun _ _ ↦ UInt32.toNat_inj.1

theorem button_injective : Function.Injective MouseButton.ctorIdx := by
  intro a b h
  cases a <;> cases b <;> first | rfl | cases h

/-- One such order: keys by scancode, buttons as they are declared. -/
def FlushOrder.ascending : FlushOrder where
  keys := .ofKey UInt32.toNat scancode_injective
  buttons := .ofKey MouseButton.ctorIdx button_injective

/-- `EMERGENCY_HOTKEY_CTRL`, left Ctrl. -/
def emergencyHotkeyCtrl : UInt32 := 29

/-- `EMERGENCY_HOTKEY_ALT`, left Alt. -/
def emergencyHotkeyAlt : UInt32 := 56

/-- `EMERGENCY_HOTKEY_ESC`, Escape. -/
def emergencyHotkeyEsc : UInt32 := 1

/-- `check_emergency_hotkey`: the three keys of the chord are tracked as held. -/
def checkEmergencyHotkey (s : DaemonState) : Bool :=
  decide (emergencyHotkeyCtrl ∈ s.pressedKeys) && decide (emergencyHotkeyAlt ∈ s.pressedKeys) &&
    decide (emergencyHotkeyEsc ∈ s.pressedKeys)

/-- The counter wraps: `u32` arithmetic. -/
def nextSeq (s : DaemonState) : DaemonState × UInt32 :=
  ({ s with seqCounter := s.seqCounter + 1 }, s.seqCounter + 1)

/-- `track_key_state`. -/
def trackKeyState (s : DaemonState) : InputEvent → DaemonState
  | .key scancode .pressed => { s with pressedKeys := insert scancode s.pressedKeys }
  | .key scancode .released => { s with pressedKeys := s.pressedKeys.erase scancode }
  | .mouseButton button .pressed => { s with pressedButtons := insert button s.pressedButtons }
  | .mouseButton button .released => { s with pressedButtons := s.pressedButtons.erase button }
  | .mouseMove _ _ => s
  | .scroll _ _ => s

/-- `flush_pressed_keys`: a release for each key, then one for each button, in the orders in which
the sets are gone through. -/
def flushPressedKeys (order : FlushOrder) (s : DaemonState) : List InputEvent :=
  (order.keys.iter s.pressedKeys).map (fun scancode ↦ .key scancode .released) ++
    (order.buttons.iter s.pressedButtons).map fun button ↦ .mouseButton button .released

/-! ### What is held down -/

namespace DaemonState

/-- The tracked keys and buttons, as one set of switches. -/
def pressed (s : DaemonState) : Finset Switch :=
  s.pressedKeys.image Switch.key ∪ s.pressedButtons.image Switch.button

/-- A key is tracked where the keys are. -/
@[simp] theorem key_mem_pressed {s : DaemonState} {c : UInt32} :
    Switch.key c ∈ s.pressed ↔ c ∈ s.pressedKeys := by
  simp [pressed]

/-- A button is tracked where the buttons are. -/
@[simp] theorem button_mem_pressed {s : DaemonState} {b : MouseButton} :
    Switch.button b ∈ s.pressed ↔ b ∈ s.pressedButtons := by
  simp [pressed]

/-- With both sets cleared nothing is tracked. -/
theorem pressed_eq_empty_of_cleared {s : DaemonState} (hk : s.pressedKeys = ∅)
    (hb : s.pressedButtons = ∅) : s.pressed = ∅ := by
  rw [pressed, hk, hb]
  rfl

end DaemonState

open DaemonState

/-- **Tracking an event is replaying it** on the set of held switches. -/
theorem pressed_trackKeyState (s : DaemonState) (e : InputEvent) :
    (trackKeyState s e).pressed = replayEvents s.pressed [e] := by
  ext a
  match e with
  | .mouseMove _ _ | .scroll _ _ => rfl
  | .key c .pressed | .key c .released | .mouseButton c .pressed | .mouseButton c .released =>
    cases a <;>
      simp [trackKeyState, replayEvents, InputEvent.toggle?, Toggle.apply]

/-- Tracking only touches the two sets. -/
theorem trackKeyState_eq (s : DaemonState) (e : InputEvent) :
    trackKeyState s e = { s with
      pressedKeys := (trackKeyState s e).pressedKeys
      pressedButtons := (trackKeyState s e).pressedButtons } := by
  match e with
  | .mouseMove _ _ | .scroll _ _ => rfl
  | .key _ .pressed | .key _ .released | .mouseButton _ .pressed | .mouseButton _ .released => rfl

/-- Tracking an event leaves the focus as it is. -/
@[simp] theorem trackKeyState_focusIsRemote (s : DaemonState) (e : InputEvent) :
    (trackKeyState s e).focusIsRemote = s.focusIsRemote := by
  rw [trackKeyState_eq]

/-- It leaves the connection state as it is. -/
@[simp] theorem trackKeyState_connectionState (s : DaemonState) (e : InputEvent) :
    (trackKeyState s e).connectionState = s.connectionState := by
  rw [trackKeyState_eq]

/-- What the flush does to the switches: each that is tracked comes up, keys before buttons. -/
theorem filterMap_toggle?_flushPressedKeys (order : FlushOrder) (s : DaemonState) :
    (flushPressedKeys order s).filterMap InputEvent.toggle? =
      ((order.keys.iter s.pressedKeys).map Switch.key ++
        (order.buttons.iter s.pressedButtons).map Switch.button).map Toggle.up := by
  simp [flushPressedKeys, List.filterMap_map, Function.comp_def, InputEvent.toggle?]

/-- **Replaying a flush takes exactly the tracked switches away**, in whatever order it walks. -/
theorem replayEvents_flushPressedKeys (order : FlushOrder) (s : DaemonState)
    (held : Finset Switch) :
    replayEvents held (flushPressedKeys order s) = held \ s.pressed := by
  rw [replayEvents, filterMap_toggle?_flushPressedKeys, Toggle.replay_map_up]
  congr 1
  ext a
  cases a <;> simp [pressed, IterOrder.mem_iter]

/-- The chord, as three held switches. -/
theorem checkEmergencyHotkey_iff {s : DaemonState} :
    checkEmergencyHotkey s = true ↔
      .key emergencyHotkeyCtrl ∈ s.pressed ∧ .key emergencyHotkeyAlt ∈ s.pressed ∧
        .key emergencyHotkeyEsc ∈ s.pressed := by
  simp [checkEmergencyHotkey, and_assoc]

end Kmflow
