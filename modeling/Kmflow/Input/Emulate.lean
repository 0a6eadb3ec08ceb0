import Kmflow.Foundation.Passes
import Kmflow.Foundation.Trunc
import Kmflow.Proto.Types

/-!
# The two emulators

`evdev_emulate.rs` and `x11_emulate.rs`: what `emit` makes of an input event, as the list of what it
hands to the kernel or to the X server, in order. A write or a request that fails cuts the list
short; nothing else is done about it.

The arithmetic is that of the release build. The evdev emulator negates an `i32` and the X11
emulator adds to a `u32`, and either can wrap; `emit_scroll` and `emit_key` say what is written when
they do not.

What reaches the device or the server is read back axis by axis: the values written to a relative
axis, the transitions of the keys and the buttons.
-/

namespace Kmflow

/-! ### Deltas -/

/-- The value of an `f64`, with zero for what has none. -/
def F64.toRat : F64 → ℚ
  | finite q => q
  | _ => 0

/-- Inside its range an integer is converted to itself. -/
theorem F64.asI32_intCast {n : ℤ} (h : InI32 n) : (finite n).asI32 = n := by
  have htrunc : (n : ℚ).num.tdiv (n : ℚ).den = n := Rat.trunc_intCast n
  rw [asI32, htrunc, min_eq_left h.2, max_eq_right h.1]

theorem F64.asI32_of_isZero {d : F64} (h : d.isZero = true) : d.asI32 = 0 := by
  match d with
  | finite q =>
    obtain rfl : q = 0 := of_decide_eq_true h
    rfl

/-- The axes, of the pointer and of the wheels. -/
inductive Axis where
  | x
  | y
  deriving DecidableEq

namespace InputEvent

/-- What an event moves the pointer by. -/
def move : Axis → InputEvent → F64
  | .x, mouseMove dx _ => dx
  | .y, mouseMove _ dy => dy
  | _, _ => .finite 0

/-- What an event turns the wheel by. -/
def turn : Axis → InputEvent → F64
  | .x, scroll dx _ => dx
  | .y, scroll _ dy => dy
  | _, _ => .finite 0

end InputEvent

/-! ### The uinput device -/

namespace EvdevEmulator

/-- `EV_SYN`. -/
def evSyn : UInt16 := 0x00

/-- `EV_KEY`. -/
def evKey : UInt16 := 0x01

/-- `EV_REL`. -/
def evRel : UInt16 := 0x02

/-- `SYN_REPORT`. -/
def synReport : UInt16 := 0x00

/-- `REL_X`. -/
def relX : UInt16 := 0x00

/-- `REL_Y`. -/
def relY : UInt16 := 0x01

/-- `REL_WHEEL`. -/
def relWheel : UInt16 := 0x08

/-- `REL_HWHEEL`. -/
def relHwheel : UInt16 := 0x06

/-- `BTN_LEFT`. -/
def btnLeft : UInt16 := 0x110

/-- `BTN_RIGHT`. -/
def btnRight : UInt16 := 0x111

/-- `BTN_MIDDLE`. -/
def btnMiddle : UInt16 := 0x112

/-- `BTN_SIDE`. -/
def btnSide : UInt16 := 0x113

/-- `BTN_EXTRA`. -/
def btnExtra : UInt16 := 0x114

/-- One event as it is written to the device; its time is zero. -/
structure InputEventRaw where
  type : UInt16
  code : UInt16
  value : ℤ
  deriving DecidableEq

/-- The end of a report. -/
def synEvent : InputEventRaw := ⟨evSyn, synReport, 0⟩

/-- A relative axis, unless its delta is `0.0`. -/
def relEvent (code : UInt16) (delta : F64) (value : ℤ) : List InputEventRaw :=
  if delta.isZero then [] else [⟨evRel, code, value⟩]

/-- The code of a button. -/
def buttonCode : MouseButton → UInt16
  | .left => btnLeft
  | .right => btnRight
  | .middle => btnMiddle
  | .back => btnSide
  | .forward => btnExtra

/-- `EvdevEmulator::emit`: what is written to the device, one report for each event. -/
def emit : InputEvent → List InputEventRaw
  | .mouseMove dx dy => relEvent relX dx dx.asI32 ++ relEvent relY dy dy.asI32 ++ [synEvent]
  | .mouseButton button .pressed => [⟨evKey, buttonCode button, 1⟩, synEvent]
  | .mouseButton button .released => [⟨evKey, buttonCode button, 0⟩, synEvent]
  | .scroll dx dy =>
    relEvent relWheel dy (wrapI32 (-dy.asI32)) ++ relEvent relHwheel dx dx.asI32 ++ [synEvent]
  | .key scancode .pressed => [⟨evKey, scancode.toUInt16, 1⟩, synEvent]
  | .key scancode .released => [⟨evKey, scancode.toUInt16, 0⟩, synEvent]

/-- The values a relative axis was given, in order. -/
def axisValues (axis : UInt16) (es : List InputEventRaw) : List ℤ :=
  es.filterMap fun e ↦ if e.type = evRel ∧ e.code = axis then some e.value else none

/-- The transitions of the keys and the buttons, in order. -/
def keyValues (es : List InputEventRaw) : List (UInt16 × ℤ) :=
  es.filterMap fun e ↦ if e.type = evKey then some (e.code, e.value) else none

section Written

variable (axis : UInt16) (es fs : List InputEventRaw)

@[simp]
theorem axisValues_append : axisValues axis (es ++ fs) = axisValues axis es ++ axisValues axis fs :=
  List.filterMap_append

@[simp]
theorem keyValues_append : keyValues (es ++ fs) = keyValues es ++ keyValues fs :=
  List.filterMap_append

@[simp]
theorem axisValues_synEvent : axisValues axis [synEvent] = [] := rfl

@[simp]
theorem keyValues_synEvent : keyValues [synEvent] = [] := rfl

theorem axisValues_relEvent (code : UInt16) (d : F64) (value : ℤ) :
    axisValues axis (relEvent code d value) =
      if code = axis then if d.isZero then [] else [value] else [] := by
  rw [relEvent]
  cases d.isZero with
  | true => simp [axisValues]
  | false =>
    by_cases hcode : code = axis
    · simp [axisValues, hcode]
    · simp [axisValues, hcode]

@[simp]
theorem keyValues_relEvent (code : UInt16) (d : F64) (value : ℤ) :
    keyValues (relEvent code d value) = [] := by
  rw [relEvent]
  split_ifs <;> rfl

end Written

/-- The code of an axis of the pointer. -/
def moveCode : Axis → UInt16
  | .x => relX
  | .y => relY

/-- The code of a wheel. -/
def turnCode : Axis → UInt16
  | .x => relHwheel
  | .y => relWheel

/-- What is written for a turn of a wheel. -/
def turnValue : Axis → F64 → ℤ
  | .x, d => d.asI32
  | .y, d => wrapI32 (-d.asI32)

/-- What is written to an axis of the pointer is the delta as an `i32`, even where nothing is
written. -/
theorem sum_axisValues_emit (axis : Axis) (e : InputEvent) :
    (axisValues (moveCode axis) (emit e)).sum = (e.move axis).asI32 := by
  have hsum (code : UInt16) (d : F64) :
      (axisValues code (relEvent code d d.asI32)).sum = d.asI32 := by
    rw [axisValues_relEvent, if_pos rfl]
    cases hd : d.isZero with
    | true => exact (F64.asI32_of_isZero hd).symm
    | false => simp
  match axis, e with
  | .x, .mouseMove dx dy =>
    have hy : axisValues relX (relEvent relY dy dy.asI32) = [] := by
      simp [axisValues_relEvent, relX, relY]
    simp [emit, moveCode, hsum, hy, InputEvent.move]
  | .y, .mouseMove dx dy =>
    have hx : axisValues relY (relEvent relX dx dx.asI32) = [] := by
      simp [axisValues_relEvent, relX, relY]
    simp [emit, moveCode, hsum, hx, InputEvent.move]
  | .x, .scroll dx dy =>
    show _ = 0
    simp [emit, moveCode, axisValues_relEvent, relX, relWheel, relHwheel]
  | .y, .scroll dx dy =>
    show _ = 0
    simp [emit, moveCode, axisValues_relEvent, relY, relWheel, relHwheel]
  | .x, .mouseButton _ .pressed | .x, .mouseButton _ .released => rfl
  | .y, .mouseButton _ .pressed | .y, .mouseButton _ .released => rfl
  | .x, .key _ .pressed | .x, .key _ .released => rfl
  | .y, .key _ .pressed | .y, .key _ .released => rfl

theorem sum_axisValues_flatMap (axis : Axis) (events : List InputEvent) :
    (axisValues (moveCode axis) (events.flatMap emit)).sum =
      (events.map fun e ↦ (e.move axis).asI32).sum := by
  rw [axisValues, List.filterMap_flatMap, List.sum_flatMap]
  exact congrArg List.sum (List.map_congr_left fun e _ ↦ sum_axisValues_emit axis e)

/-- A wheel is given a value for every turn that is not `0.0`. -/
theorem axisValues_turnCode_emit (axis : Axis) (e : InputEvent) :
    axisValues (turnCode axis) (emit e) =
      if (e.turn axis).isZero then [] else [turnValue axis (e.turn axis)] := by
  match axis, e with
  | .x, .scroll dx dy =>
    show _ = if dx.isZero then [] else [dx.asI32]
    simp [emit, turnCode, axisValues_relEvent, relWheel, relHwheel]
  | .y, .scroll dx dy =>
    show _ = if dy.isZero then [] else [wrapI32 (-dy.asI32)]
    simp [emit, turnCode, axisValues_relEvent, relWheel, relHwheel]
  | .x, .mouseMove dx dy =>
    show _ = []
    simp [emit, turnCode, axisValues_relEvent, relX, relY, relHwheel]
  | .y, .mouseMove dx dy =>
    show _ = []
    simp [emit, turnCode, axisValues_relEvent, relX, relY, relWheel]
  | .x, .mouseButton _ .pressed | .x, .mouseButton _ .released => rfl
  | .y, .mouseButton _ .pressed | .y, .mouseButton _ .released => rfl
  | .x, .key _ .pressed | .x, .key _ .released => rfl
  | .y, .key _ .pressed | .y, .key _ .released => rfl

/-- A press is written as `1` and a release as `0`. -/
theorem keyValues_emit_mouseButton (b : MouseButton) (state : ButtonState) :
    keyValues (emit (.mouseButton b state)) =
      [(buttonCode b, if state = .pressed then 1 else 0)] := by
  cases state <;> rfl

theorem keyValues_emit_key (scancode : UInt32) (state : KeyState) :
    keyValues (emit (.key scancode state)) =
      [(scancode.toUInt16, if state = .pressed then 1 else 0)] := by
  cases state <;> rfl

end EvdevEmulator

/-! ### The XTest extension -/

namespace X11Emulator

/-- One `fake_input` request: its type, its detail, and its coordinates. -/
structure FakeInput where
  type : UInt8
  detail : UInt8
  rootX : ℤ
  rootY : ℤ
  deriving DecidableEq

/-- A request without coordinates. -/
def fakeInput (type detail : UInt8) : FakeInput := ⟨type, detail, 0, 0⟩

/-- `fake_button_click`: a press and a release. -/
def fakeButtonClick (button : UInt8) : List FakeInput := [fakeInput 4 button, fakeInput 5 button]

/-- `for _ in 0..(delta as i32).max(1)`. -/
def clicks (button : UInt8) (delta : F64) : List FakeInput :=
  (List.replicate (max delta.asI32 1).toNat (fakeButtonClick button)).flatten

/-- One scroll axis: the button for negative deltas, and the one for positive ones. -/
def scrollAxis (negative positive : UInt8) (delta : F64) : List FakeInput :=
  if delta.isNeg then clicks negative delta.neg
  else if delta.isPos then clicks positive delta
  else []

/-- The button's number on the X server; 4 to 7 are the wheels. -/
def buttonDetail : MouseButton → UInt8
  | .left => 1
  | .middle => 2
  | .right => 3
  | .back => 8
  | .forward => 9

/-- `X11Emulator::emit`: the XTEST requests that are sent. -/
def emit : InputEvent → List FakeInput
  | .mouseMove dx dy => [⟨6, 0, dx.asI16, dy.asI16⟩]
  | .mouseButton button .pressed => [fakeInput 4 (buttonDetail button)]
  | .mouseButton button .released => [fakeInput 5 (buttonDetail button)]
  | .scroll dx dy => scrollAxis 4 5 dy ++ scrollAxis 6 7 dx
  | .key scancode .pressed => [fakeInput 2 (scancode + 8).toUInt8]
  | .key scancode .released => [fakeInput 3 (scancode + 8).toUInt8]

end X11Emulator

end Kmflow
