import Kmflow.Input.EvdevCapture

/-!
# Do the two emulators agree?

The events that `EvdevCapture` produces, replayed with the one emulator and with the other. What
they hand to the kernel and to the X server is read back as the same kind of actions: motion on each
axis, wheel steps in each direction, and transitions of keys and buttons, with the X keycode eight
above the evdev code.

They agree event by event, but for three narrowings. The X11 emulator takes motion `as i16`, where
the evdev emulator has an `i32`; it negates a horizontal turn of `i32::MIN` before the cast, which
loses one step; and it takes the keycode `as u8`, so that a code past the last X keycode can become
another key. `sameActions_iff` says exactly when nothing of this shows.

How the X server moves the pointer is not up to this code. The request has a detail of `0`, which
the XTEST extension reads as the coordinates of a position; the comment beside it takes it for a
relative motion. So how a detail is read is a parameter of the results: `xtestRelative` is that of
the extension. The edges of the screen are left out on both sides.
-/

namespace Kmflow

open EvdevCapture (IsButton DeltaFits)
open EvdevEmulator (evSyn evKey evRel synReport relX relY relWheel relHwheel btnLeft)

/-! ### What the capture produces -/

/-- The events of the capture, with deltas that fit. -/
inductive Captured : InputEvent → Prop
  | move {m n : ℤ} (hm : InI32 m) (hn : InI32 n) : Captured (.mouseMove (.finite m) (.finite n))
  | wheel {v : ℤ} (hv : InI32 v) (hneg : InI32 (-v)) : Captured (.scroll (.finite 0) (.finite v))
  | hwheel {v : ℤ} (hv : InI32 v) : Captured (.scroll (.finite v) (.finite 0))
  | button (b : MouseButton) (state : ButtonState) : Captured (.mouseButton b state)
  | key (code : UInt16) (state : KeyState) (hcode : ¬ IsButton code) :
    Captured (.key code.toUInt32 state)

/-- The deltas of an event fit in an `i32`. -/
def DeltasFit (e : InputEvent) : Prop :=
  ∀ axis, DeltaFits (e.move axis) ∧ DeltaFits (e.turn axis)

/-- What a capture can produce, if the deltas fit. -/
def Produced (events : List InputEvent) : Prop :=
  (∃ raws, (EvdevCapture.new.run raws).1 = events) ∧ ∀ e ∈ events, DeltasFit e

instance (e : InputEvent) : Decidable (DeltasFit e) :=
  decidable_of_iff ((DeltaFits (e.move .x) ∧ DeltaFits (e.turn .x)) ∧
      DeltaFits (e.move .y) ∧ DeltaFits (e.turn .y))
    ⟨fun h axis ↦ Axis.casesOn axis h.1 h.2, fun h ↦ ⟨h .x, h .y⟩⟩

/-- A delta that fits is in range. -/
theorem inI32_of_deltaFits {n : ℤ} (h : DeltaFits (.finite n)) : InI32 n :=
  ⟨Int.cast_le.1 h.1, Int.cast_le.1 h.2⟩

namespace EvdevCapture

/-- What the capture makes of a key code is a captured event. -/
theorem captured_translateKeyEvent {raw : InputEventRaw} {heldKeys : Finset UInt16} {e : InputEvent}
    (he : e ∈ (translateKeyEvent raw heldKeys).1) : Captured e := by
  obtain ⟨b, state, hevent, -⟩ | ⟨hevent, -⟩ | ⟨state, keys, hevent, hbutton, -⟩ :=
    translateKeyEvent_cases raw heldKeys
  · rw [hevent] at he
    obtain rfl := Option.some.inj he
    exact .button b state
  · rw [hevent] at he
    cases he
  · rw [hevent] at he
    obtain rfl := Option.some.inj he
    exact .key raw.code state hbutton

/-- So is what it makes of a relative axis, if the deltas fit. -/
theorem captured_readRel {s : EvdevCapture} {raw : InputEventRaw} {e : InputEvent}
    (he : e ∈ (s.readRel raw).1) (hfits : DeltasFit e) : Captured e := by
  rw [readRel] at he
  split_ifs at he
  · cases he
  · cases he
  · obtain rfl := Option.some.inj he
    have hneg := (hfits .y).2
    rw [InputEvent.turn, ← Int.cast_neg] at hneg
    rw [← Int.cast_neg]
    exact .wheel (inI32_of_deltaFits hneg) (by rw [neg_neg]; exact raw.inI32_value)
  · obtain rfl := Option.some.inj he
    exact .hwheel raw.inI32_value
  · cases he

/-- So is what it makes of any event. -/
theorem captured_readEvent {s : EvdevCapture} {raw : InputEventRaw} {e : InputEvent}
    (he : e ∈ (s.readEvent raw).1) (hfits : DeltasFit e) : Captured e := by
  rw [readEvent] at he
  split_ifs at he
  · obtain rfl := Option.some.inj he
    exact .move (inI32_of_deltaFits (hfits .x).1) (inI32_of_deltaFits (hfits .y).1)
  · exact captured_readRel he hfits
  · exact captured_translateKeyEvent he
  · cases he

end EvdevCapture

/-- Every event of a capture has one of the five forms. -/
theorem Produced.captured {events : List InputEvent} (h : Produced events) :
    ∀ e ∈ events, Captured e := by
  obtain ⟨⟨raws, rfl⟩, hfits⟩ := h
  generalize EvdevCapture.new = s at hfits
  induction raws generalizing s with
  | nil => exact fun e he ↦ nomatch he
  | cons raw raws ih =>
    rw [EvdevCapture.run_cons] at hfits ⊢
    intro e he
    rcases List.mem_append.1 he with he' | he'
    · exact EvdevCapture.captured_readEvent (Option.mem_toList.1 he') (hfits e he)
    · exact ih _ (fun e he ↦ hfits e (List.mem_append_right _ he)) e he'

/-! ### Reading back -/

namespace X11Emulator

/-- How the XTEST extension reads the detail of a motion: `0` is a position. -/
def xtestRelative (detail : UInt8) : Bool := detail != 0

/-- The button of a detail, the wheels apart. -/
def detailButton (detail : UInt8) : Option MouseButton :=
  if detail = 1 then some .left
  else if detail = 2 then some .middle
  else if detail = 3 then some .right
  else if detail = 8 then some .back
  else if detail = 9 then some .forward
  else none

namespace FakeInput

variable (r : FakeInput)

/-- The coordinate of a request on an axis. -/
def root : Axis → ℤ
  | .x => r.rootX
  | .y => r.rootY

/-- Where a request leaves the pointer on an axis. `relative` tells how the server reads the
detail. -/
def movePointer (relative : UInt8 → Bool) (axis : Axis) (pos : ℤ) : ℤ :=
  if r.type = 6 then if relative r.detail then pos + r.root axis else r.root axis else pos

/-- The switch a request acts on. A keycode starts at eight. -/
def switch : Option Switch :=
  if r.type = 2 ∨ r.type = 3 then
    if 8 ≤ r.detail then some (.key (r.detail.toUInt32 - 8)) else none
  else if r.type = 4 ∨ r.type = 5 then (detailButton r.detail).map .button
  else none

/-- What a request does to a key or a button: types 2 and 4 are the presses. -/
def transition : Option (Toggle Switch) :=
  r.switch.map fun switch ↦ if r.type = 2 ∨ r.type = 4 then .down switch else .up switch

end FakeInput

end X11Emulator

namespace EvdevEmulator.InputEventRaw

variable (e : InputEventRaw)

/-- The switch an event acts on, if the X server has it too: the last keycode is 255. -/
def switch : Option Switch :=
  if e.type = evKey then
    if IsButton e.code then (EvdevCapture.button e.code).map .button
    else if e.code ≤ 247 then some (.key e.code.toUInt32)
    else none
  else none

/-- What a raw event does to a key or a button: any value but `0` is a press. -/
def transition : Option (Toggle Switch) :=
  e.switch.map fun switch ↦ if e.value = 0 then .up switch else .down switch

end EvdevEmulator.InputEventRaw

/-- The directions of the wheels. -/
inductive Direction where
  | up
  | down
  | left
  | right
  deriving DecidableEq

namespace Direction

/-- The axis of a direction. -/
def axis : Direction → Axis
  | up | down => .y
  | left | right => .x

/-- The X button of a direction. -/
def detail : Direction → UInt8
  | up => 4
  | down => 5
  | left => 6
  | right => 7

/-- The steps that a value of the wheel makes in a direction. -/
def steps : Direction → ℤ → ℕ
  | up, value | right, value => value.toNat
  | down, value | left, value => (-value).toNat

end Direction

open EvdevEmulator (axisValues moveCode turnCode turnValue)

/-- The two replays are the same actions: where the pointer ends, from a position, how often each
wheel steps in each direction, and the transitions of the keys and buttons in order. -/
structure SameActions (relative : UInt8 → Bool) (pos : Axis → ℤ) (events : List InputEvent) :
    Prop where
  motion : ∀ axis, (events.flatMap X11Emulator.emit).foldl
      (fun p r ↦ r.movePointer relative axis p) (pos axis) =
    pos axis + (axisValues (moveCode axis) (events.flatMap EvdevEmulator.emit)).sum
  wheel : ∀ dir : Direction,
    (events.flatMap X11Emulator.emit).count (X11Emulator.fakeInput 4 dir.detail) =
      ((axisValues (turnCode dir.axis) (events.flatMap EvdevEmulator.emit)).map dir.steps).sum
  switches : (events.flatMap X11Emulator.emit).filterMap (·.transition) =
    (events.flatMap EvdevEmulator.emit).filterMap (·.transition)

/-- What `as i16` takes off a delta. -/
def excess (d : F64) : ℤ := d.asI32 - d.asI16

/-- The delta of a move, and none of an event that is not a move. -/
def InputEvent.moved (axis : Axis) : InputEvent → Option F64
  | e@(.mouseMove _ _) => some (e.move axis)
  | _ => none

/-- Nothing of the narrowings shows. For a server that reads a relative motion, what the moves have
beyond an `i16` cancels out; for one that reads a position, the last move names the place where the
exact motion ends. No horizontal turn is `i32::MIN`, and no code past the last X keycode has a low
byte that comes to a keycode. -/
structure Harmless (relative : UInt8 → Bool) (pos : Axis → ℤ) (events : List InputEvent) :
    Prop where
  motion : ∀ axis, if relative 0 then (events.map fun e ↦ excess (e.move axis)).sum = 0
    else ∀ d ∈ (events.filterMap (InputEvent.moved axis)).getLast?,
      d.asI16 = pos axis + (events.map fun e ↦ (e.move axis).asI32).sum
  wheel : .scroll (.finite i32Min) (.finite 0) ∉ events
  keys : ∀ code state, .key code state ∈ events → code.toNat ≤ 247 ∨ 248 ≤ code.toNat % 256

/-! ### Motion -/

section Motion

variable (relative : UInt8 → Bool) (axis : Axis) (pos : ℤ)

theorem foldl_movePointer_of_ne {requests : List X11Emulator.FakeInput}
    (h : ∀ r ∈ requests, r.type ≠ 6) :
    requests.foldl (fun p r ↦ r.movePointer relative axis p) pos = pos := by
  induction requests with
  | nil => rfl
  | cons r requests ih =>
    obtain ⟨hr, hrequests⟩ := List.forall_mem_cons.1 h
    rw [List.foldl_cons, X11Emulator.FakeInput.movePointer, if_neg hr, ih hrequests]

/-- A scroll clicks its two buttons. -/
theorem exists_of_mem_scrollAxis {negative positive : UInt8} {d : F64}
    {r : X11Emulator.FakeInput} (h : r ∈ X11Emulator.scrollAxis negative positive d) :
    ∃ type ∈ [4, 5], ∃ button ∈ [negative, positive], r = X11Emulator.fakeInput type button := by
  have hclicks {button : UInt8} {d : F64} (h : r ∈ X11Emulator.clicks button d) :
      ∃ type ∈ [4, 5], r = X11Emulator.fakeInput type button := by
    obtain ⟨click, hclick, hr⟩ := List.mem_flatten.1 h
    rw [List.eq_of_mem_replicate hclick] at hr
    rcases List.mem_pair.1 hr with rfl | rfl
    · exact ⟨4, by decide, rfl⟩
    · exact ⟨5, by decide, rfl⟩
  rw [X11Emulator.scrollAxis] at h
  split_ifs at h
  · obtain ⟨type, htype, hr⟩ := hclicks h
    exact ⟨type, htype, negative, List.mem_cons_self, hr⟩
  · obtain ⟨type, htype, hr⟩ := hclicks h
    exact ⟨type, htype, positive, List.mem_pair.2 (.inr rfl), hr⟩
  · cases h

/-- Only a move moves the pointer. -/
theorem foldl_movePointer_emit (e : InputEvent) :
    (X11Emulator.emit e).foldl (fun p r ↦ r.movePointer relative axis p) pos =
      ((e.moved axis).map fun d ↦ if relative 0 then pos + d.asI16 else d.asI16).getD pos := by
  match e with
  | .mouseMove dx dy => cases axis <;> rfl
  | .mouseButton _ .pressed | .mouseButton _ .released => rfl
  | .scroll dx dy =>
    have hmotion : ∀ type ∈ [(4 : UInt8), 5], type ≠ 6 := by
      simp only [List.forall_mem_cons, List.not_mem_nil, false_implies, implies_true, and_true]
      decide
    refine foldl_movePointer_of_ne relative axis pos fun r hr ↦ ?_
    rcases List.mem_append.1 hr with hr | hr
    · obtain ⟨type, htype, button, -, rfl⟩ := exists_of_mem_scrollAxis hr
      exact hmotion type htype
    · obtain ⟨type, htype, button, -, rfl⟩ := exists_of_mem_scrollAxis hr
      exact hmotion type htype
  | .key _ .pressed | .key _ .released => rfl

/-- Without a move there is no delta. -/
theorem move_of_moved_eq_none {e : InputEvent} (h : e.moved axis = none) :
    e.move axis = .finite 0 := by
  match e with
  | .mouseMove _ _ => cases h
  | .mouseButton _ _ | .scroll _ _ | .key _ _ => cases axis <;> rfl

theorem move_of_moved_eq_some {e : InputEvent} {d : F64} (h : e.moved axis = some d) :
    e.move axis = d := by
  match e with
  | .mouseMove _ _ => exact Option.some.inj h

/-- A server that reads relative motions adds up what is left of the deltas. -/
theorem foldl_movePointer_of_relative (h : relative 0 = true) (events : List InputEvent) :
    (events.flatMap X11Emulator.emit).foldl (fun p r ↦ r.movePointer relative axis p) pos =
      pos + (events.map fun e ↦ (e.move axis).asI16).sum := by
  induction events generalizing pos with
  | nil => exact (add_zero pos).symm
  | cons e events ih =>
    have hstep : ((e.moved axis).map fun d ↦ if relative 0 then pos + d.asI16 else d.asI16).getD
        pos = pos + (e.move axis).asI16 := by
      cases hmoved : e.moved axis with
      | none =>
        rw [move_of_moved_eq_none axis hmoved]
        exact (add_zero pos).symm
      | some d =>
        rw [Option.map_some, Option.getD_some, if_pos h, move_of_moved_eq_some axis hmoved]
    rw [List.flatMap_cons, List.foldl_append, foldl_movePointer_emit, hstep, ih, List.map_cons,
      List.sum_cons, add_assoc]

/-- A server that reads positions follows the last move. -/
theorem foldl_movePointer_of_position (h : relative 0 = false) (events : List InputEvent) :
    (events.flatMap X11Emulator.emit).foldl (fun p r ↦ r.movePointer relative axis p) pos =
      (events.filterMap fun e ↦ (e.moved axis).map F64.asI16).getLastD pos := by
  rw [List.foldl_flatMap, ← List.foldl_getD_eq_getLastD]
  congr 1
  funext p e
  rw [foldl_movePointer_emit]
  simp only [h, Bool.false_eq_true, if_false]

/-- The excess is what one emulator moves and the other does not. -/
theorem sum_excess (events : List InputEvent) :
    (events.map fun e ↦ excess (e.move axis)).sum =
      (events.map fun e ↦ (e.move axis).asI32).sum -
        (events.map fun e ↦ (e.move axis).asI16).sum := by
  induction events with
  | nil => rfl
  | cons e events ih =>
    rw [List.map_cons, List.sum_cons, ih, excess, List.map_cons, List.sum_cons, List.map_cons,
      List.sum_cons]
    omega

theorem motion_iff (events : List InputEvent) :
    (events.flatMap X11Emulator.emit).foldl (fun p r ↦ r.movePointer relative axis p) pos =
        pos + (axisValues (moveCode axis) (events.flatMap EvdevEmulator.emit)).sum ↔
      if relative 0 then (events.map fun e ↦ excess (e.move axis)).sum = 0
      else ∀ d ∈ (events.filterMap (InputEvent.moved axis)).getLast?,
        d.asI16 = pos + (events.map fun e ↦ (e.move axis).asI32).sum := by
  rw [EvdevEmulator.sum_axisValues_flatMap]
  cases h : relative 0 with
  | true =>
    rw [foldl_movePointer_of_relative relative axis pos h, if_pos rfl, sum_excess]
    omega
  | false =>
    rw [foldl_movePointer_of_position relative axis pos h, if_neg Bool.false_ne_true,
      ← List.map_filterMap,
      List.getLastD_eq_getLast?, List.getLast?_map]
    cases hlast : (events.filterMap (InputEvent.moved axis)).getLast? with
    | some d => simp
    | none =>
      -- without a move both stay where they are
      have hmove : ∀ e ∈ events, (e.move axis).asI32 = 0 := fun e he ↦ by
        have hmoved := List.filterMap_eq_nil_iff.1 (List.getLast?_eq_none_iff.1 hlast) e he
        rw [move_of_moved_eq_none axis hmoved]
        rfl
      have hsum : (events.map fun e ↦ (e.move axis).asI32).sum = 0 :=
        List.sum_eq_zero fun n hn ↦ by
          obtain ⟨e, he, rfl⟩ := List.mem_map.1 hn
          exact hmove e he
      simp [hsum]

end Motion

/-! ### Wheels -/

section Counts

open X11Emulator (fakeInput clicks scrollAxis)

/-- How often a replay on the X server clicks a direction. -/
def clickCount (dir : Direction) (e : InputEvent) : ℕ :=
  (X11Emulator.emit e).count (fakeInput 4 dir.detail)

/-- How many steps a replay on the device makes in a direction. -/
def stepCount (dir : Direction) (e : InputEvent) : ℕ :=
  ((axisValues (turnCode dir.axis) (EvdevEmulator.emit e)).map dir.steps).sum

theorem count_clicks (button detail : UInt8) (d : F64) :
    (clicks button d).count (fakeInput 4 detail) =
      if button = detail then (max d.asI32 1).toNat else 0 := by
  rw [clicks, List.count_flatten, List.map_replicate, List.sum_replicate]
  by_cases h : button = detail
  · simp [X11Emulator.fakeButtonClick, fakeInput, h]
  · simp [X11Emulator.fakeButtonClick, fakeInput, h]

variable {v : ℤ} {negative positive : UInt8} (detail : UInt8)

theorem count_scrollAxis (hv : InI32 v) (hneg : InI32 (-v)) :
    (scrollAxis negative positive (.finite v)).count (fakeInput 4 detail) =
      (if negative = detail then (-v).toNat else 0) +
        if positive = detail then v.toNat else 0 := by
  have hcast : F64.neg (.finite v) = .finite (-v : ℤ) := by rw [F64.neg, Int.cast_neg]
  rcases lt_trichotomy v 0 with h | rfl | h
  · have hisNeg : F64.isNeg (.finite v) = true := decide_eq_true (Int.cast_lt_zero.2 h)
    rw [scrollAxis, if_pos hisNeg, count_clicks, hcast, F64.asI32_intCast hneg,
      Int.toNat_of_nonpos h.le, max_eq_left (by omega)]
    simp
  · simp [scrollAxis, F64.isNeg, F64.isPos, F64.neg]
  · have hisNeg : F64.isNeg (.finite v) = false :=
      decide_eq_false (not_lt.2 (Int.cast_nonneg h.le))
    have hisPos : F64.isPos (.finite v) = true := by
      rw [F64.isPos, hcast]
      exact decide_eq_true (Int.cast_lt_zero.2 (neg_lt_zero.2 h))
    rw [scrollAxis, if_neg (by rw [hisNeg]; exact Bool.false_ne_true), if_pos hisPos, count_clicks,
      F64.asI32_intCast hv, Int.toNat_of_nonpos (neg_nonpos.2 h.le), max_eq_left (by omega)]
    simp

/-- The least turn loses a step: its negation is cut off at `i32::MAX`. -/
theorem count_scrollAxis_min :
    (scrollAxis negative positive (.finite i32Min)).count (fakeInput 4 detail) =
      if negative = detail then 2147483647 else 0 := by
  have hcast : F64.neg (.finite i32Min) = .finite (2147483648 : ℚ) := by
    simp [F64.neg, i32Min]
  have hisNeg : F64.isNeg (.finite i32Min) = true := by decide +kernel
  have hlast : (max (F64.finite 2147483648).asI32 1).toNat = 2147483647 := by decide +kernel
  rw [scrollAxis, if_pos hisNeg, count_clicks, hcast, hlast]

theorem scrollAxis_zero : scrollAxis negative positive (.finite 0) = [] := by
  simp [scrollAxis, F64.isNeg, F64.isPos, F64.neg]

end Counts

section Wheel

variable {v : ℤ} (dir : Direction) {e : InputEvent}

/-- A wheel that did not turn makes no step. -/
theorem stepCount_of_turn_zero (he : e.turn dir.axis = .finite 0) : stepCount dir e = 0 := by
  rw [stepCount, EvdevEmulator.axisValues_turnCode_emit, he]
  rfl

/-- The steps of a wheel that turned. -/
theorem stepCount_of_turn (he : e.turn dir.axis = .finite v) :
    stepCount dir e = dir.steps (turnValue dir.axis (.finite v)) := by
  by_cases hv : v = 0
  · subst hv
    rw [stepCount_of_turn_zero dir (he.trans (by rw [Int.cast_zero])), Int.cast_zero]
    cases dir <;> rfl
  · have hzero : (F64.finite v).isZero = false := decide_eq_false (Int.cast_ne_zero.2 hv)
    rw [stepCount, EvdevEmulator.axisValues_turnCode_emit, he, hzero]
    exact add_zero _

/-- A vertical turn steps alike on both sides. -/
theorem clickCount_wheel (hv : InI32 v) (hneg : InI32 (-v)) :
    clickCount dir (.scroll (.finite 0) (.finite v)) =
      stepCount dir (.scroll (.finite 0) (.finite v)) := by
  have hvalue : turnValue .y (.finite v) = -v := by
    rw [turnValue, F64.asI32_intCast hv, wrapI32_of_inI32 hneg]
  rw [clickCount, X11Emulator.emit, scrollAxis_zero, List.append_nil,
    count_scrollAxis _ hv hneg]
  cases dir with
  | up => rw [stepCount_of_turn .up rfl, Direction.axis, hvalue]; rfl
  | down =>
    rw [stepCount_of_turn .down rfl, Direction.axis, hvalue]
    simp [Direction.detail, Direction.steps]
  | left => rw [stepCount_of_turn_zero .left rfl]; rfl
  | right => rw [stepCount_of_turn_zero .right rfl]; rfl

/-- A horizontal turn steps alike on both sides, unless it is the least. -/
theorem clickCount_hwheel (hv : InI32 v) (hneg : InI32 (-v)) :
    clickCount dir (.scroll (.finite v) (.finite 0)) =
      stepCount dir (.scroll (.finite v) (.finite 0)) := by
  have hvalue : turnValue .x (.finite v) = v := F64.asI32_intCast hv
  rw [clickCount, X11Emulator.emit, scrollAxis_zero, List.nil_append, count_scrollAxis _ hv hneg]
  cases dir with
  | up => rw [stepCount_of_turn_zero .up rfl]; rfl
  | down => rw [stepCount_of_turn_zero .down rfl]; rfl
  | left => rw [stepCount_of_turn .left rfl, Direction.axis, hvalue]; rfl
  | right =>
    rw [stepCount_of_turn .right rfl, Direction.axis, hvalue]
    simp [Direction.detail, Direction.steps]

/-- The least horizontal turn. -/
theorem clickCount_hwheel_min : clickCount dir (.scroll (.finite i32Min) (.finite 0)) =
    if dir = .left then 2147483647 else 0 := by
  rw [clickCount, X11Emulator.emit, scrollAxis_zero, List.nil_append, count_scrollAxis_min]
  cases dir <;> rfl

/-- The least value scrolls to the left. -/
theorem stepCount_hwheel_min : stepCount dir (.scroll (.finite i32Min) (.finite 0)) =
    if dir = .left then 2147483648 else 0 := by
  have hvalue : turnValue .x (.finite i32Min) = i32Min := F64.asI32_intCast (by decide)
  cases dir with
  | up => exact stepCount_of_turn_zero .up rfl
  | down => exact stepCount_of_turn_zero .down rfl
  | left => rw [stepCount_of_turn .left rfl, Direction.axis, hvalue]; rfl
  | right => rw [stepCount_of_turn .right rfl, Direction.axis, hvalue]; rfl

/-- Where nothing is cut off the two agree on every direction. -/
theorem clickCount_eq_stepCount (he : Captured e)
    (hmin : e ≠ .scroll (.finite i32Min) (.finite 0)) : clickCount dir e = stepCount dir e := by
  cases he with
  | move hm hn =>
    rw [stepCount_of_turn_zero dir (by cases dir <;> rfl)]
    rfl
  | wheel hv hneg => exact clickCount_wheel dir hv hneg
  | @hwheel v hv =>
    exact clickCount_hwheel dir hv (hv.neg fun h ↦ hmin (by rw [h]))
  | button b state =>
    rw [stepCount_of_turn_zero dir (by cases dir <;> rfl)]
    cases b <;> cases state <;> cases dir <;> rfl
  | key code state hcode =>
    rw [stepCount_of_turn_zero dir (by cases dir <;> rfl), clickCount, List.count_eq_zero]
    cases state with
    | pressed =>
      exact fun h ↦ absurd (congrArg X11Emulator.FakeInput.type (List.mem_singleton.1 h))
        (show (4 : UInt8) ≠ 2 by decide)
    | released =>
      exact fun h ↦ absurd (congrArg X11Emulator.FakeInput.type (List.mem_singleton.1 h))
        (show (4 : UInt8) ≠ 3 by decide)

/-- X11 never clicks more often than the wheel turns. -/
theorem clickCount_le_stepCount (he : Captured e) : clickCount dir e ≤ stepCount dir e := by
  by_cases hmin : e = .scroll (.finite i32Min) (.finite 0)
  · rw [hmin, clickCount_hwheel_min, stepCount_hwheel_min]
    split_ifs <;> decide
  · exact (clickCount_eq_stepCount dir he hmin).le

/-- Over a whole list the steps agree in every direction unless a turn is the least. -/
theorem wheel_iff {events : List InputEvent} (h : ∀ e ∈ events, Captured e) :
    (∀ dir : Direction,
      (events.flatMap X11Emulator.emit).count (X11Emulator.fakeInput 4 dir.detail) =
        ((axisValues (turnCode dir.axis) (events.flatMap EvdevEmulator.emit)).map dir.steps).sum) ↔
    .scroll (.finite i32Min) (.finite 0) ∉ events := by
  have hclicks (dir : Direction) :
      (events.flatMap X11Emulator.emit).count (X11Emulator.fakeInput 4 dir.detail) =
        (events.map (clickCount dir)).sum := by
    rw [List.count_flatMap]
    rfl
  have hsteps (dir : Direction) :
      ((axisValues (turnCode dir.axis) (events.flatMap EvdevEmulator.emit)).map dir.steps).sum =
        (events.map (stepCount dir)).sum := by
    rw [axisValues, List.filterMap_flatMap, List.map_flatMap, List.sum_flatMap]
    rfl
  simp only [hclicks, hsteps]
  constructor
  · intro heq hmem
    have hleft := (List.sum_map_eq_iff fun e he ↦ clickCount_le_stepCount .left (h e he)).1
      (heq .left) _ hmem
    rw [clickCount_hwheel_min, stepCount_hwheel_min] at hleft
    exact absurd hleft (by decide)
  · intro hmin dir
    refine congrArg List.sum (List.map_congr_left fun e he ↦ ?_)
    exact clickCount_eq_stepCount dir (h e he) fun hmin' ↦ hmin (hmin' ▸ he)

end Wheel

/-! ### Keys and buttons -/

section Switches

/-- The transitions a replay on the X server makes for an event. -/
def xTransitions (e : InputEvent) : List (Toggle Switch) :=
  (X11Emulator.emit e).filterMap (·.transition)

/-- The transitions a replay on the device makes for an event. -/
def evdevTransitions (e : InputEvent) : List (Toggle Switch) :=
  (EvdevEmulator.emit e).filterMap (·.transition)

/-- A scroll makes no transition: the wheels are not among the buttons. -/
theorem xTransitions_scroll (dx dy : F64) : xTransitions (.scroll dx dy) = [] := by
  refine List.filterMap_eq_nil_iff.2 fun r hr ↦ ?_
  have hbuttons : ∀ type ∈ [(4 : UInt8), 5], ∀ button ∈ [(4 : UInt8), 5, 6, 7],
      (X11Emulator.fakeInput type button).transition = none := by
    simp only [List.forall_mem_cons, List.not_mem_nil, false_implies, implies_true, and_true]
    decide
  rcases List.mem_append.1 hr with hr | hr
  · obtain ⟨type, htype, button, hbutton, rfl⟩ := exists_of_mem_scrollAxis hr
    exact hbuttons type htype button (List.mem_append_left [6, 7] hbutton)
  · obtain ⟨type, htype, button, hbutton, rfl⟩ := exists_of_mem_scrollAxis hr
    exact hbuttons type htype button (List.mem_append_right [4, 5] hbutton)

/-- The relative axes make no transition. -/
theorem filterMap_transition_relEvent (code : UInt16) (d : F64) (value : ℤ) :
    (EvdevEmulator.relEvent code d value).filterMap (·.transition) = [] := by
  rw [EvdevEmulator.relEvent]
  split_ifs <;> rfl

theorem evdevTransitions_mouseMove (dx dy : F64) : evdevTransitions (.mouseMove dx dy) = [] := by
  rw [evdevTransitions, EvdevEmulator.emit, List.filterMap_append, List.filterMap_append,
    filterMap_transition_relEvent, filterMap_transition_relEvent]
  rfl

theorem evdevTransitions_scroll (dx dy : F64) : evdevTransitions (.scroll dx dy) = [] := by
  rw [evdevTransitions, EvdevEmulator.emit, List.filterMap_append, List.filterMap_append,
    filterMap_transition_relEvent, filterMap_transition_relEvent]
  rfl

/-- A key on the X server is that of the low byte of its keycode. -/
theorem xTransitions_key (scancode : UInt32) (state : KeyState) :
    xTransitions (.key scancode state) = if 8 ≤ (scancode + 8).toUInt8 then
      (InputEvent.key ((scancode + 8).toUInt8.toUInt32 - 8) state).toggle?.toList else [] := by
  cases state with
  | pressed =>
    show [X11Emulator.fakeInput 2 (scancode + 8).toUInt8].filterMap (·.transition) = _
    generalize (scancode + 8).toUInt8 = detail
    by_cases h : 8 ≤ detail <;>
      simp [X11Emulator.FakeInput.transition, X11Emulator.FakeInput.switch, X11Emulator.fakeInput,
        InputEvent.toggle?, h]
  | released =>
    show [X11Emulator.fakeInput 3 (scancode + 8).toUInt8].filterMap (·.transition) = _
    generalize (scancode + 8).toUInt8 = detail
    by_cases h : 8 ≤ detail <;>
      simp [X11Emulator.FakeInput.transition, X11Emulator.FakeInput.switch, X11Emulator.fakeInput,
        InputEvent.toggle?, h]

/-- A key on the device is that of its code, if the X server has it. -/
theorem evdevTransitions_key {code : UInt16} (state : KeyState) (hcode : ¬ IsButton code) :
    evdevTransitions (.key code.toUInt32 state) =
      if code ≤ 247 then (InputEvent.key code.toUInt32 state).toggle?.toList else [] := by
  by_cases h : code ≤ 247
  · rw [if_pos h]
    cases state <;>
      simp [evdevTransitions, EvdevEmulator.emit, EvdevEmulator.InputEventRaw.transition,
        EvdevEmulator.InputEventRaw.switch, EvdevEmulator.synEvent, hcode, h, InputEvent.toggle?,
        evSyn, evKey]
  · rw [if_neg h]
    cases state <;>
      simp [evdevTransitions, EvdevEmulator.emit, EvdevEmulator.InputEventRaw.transition,
        EvdevEmulator.InputEventRaw.switch, EvdevEmulator.synEvent, hcode, h, evSyn, evKey]

/-- The keycode that is sent for a code of the capture. -/
theorem toNat_keycode (code : UInt16) :
    (code.toUInt32 + 8).toUInt8.toNat = (code.toNat + 8) % 256 := by
  have hcode := code.toNat_lt
  rw [UInt32.toNat_toUInt8, UInt32.toNat_add, UInt16.toNat_toUInt32,
    show (8 : UInt32).toNat = 8 from rfl]
  omega

/-- The keycode does not wrap into what X11 keeps for itself. -/
theorem le_keycode_iff (code : UInt16) :
    8 ≤ (code.toUInt32 + 8).toUInt8 ↔ code.toNat % 256 < 248 := by
  rw [UInt8.le_iff_toNat_le, toNat_keycode, show (8 : UInt8).toNat = 8 from rfl]
  omega

theorem xTransitions_key_of_le {code : UInt16} (state : KeyState) (h : code.toNat ≤ 247) :
    xTransitions (.key code.toUInt32 state) =
      (InputEvent.key code.toUInt32 state).toggle?.toList := by
  have hkey : (code.toUInt32 + 8).toUInt8.toUInt32 - 8 = code.toUInt32 := by
    have hle : (8 : UInt32) ≤ (code.toUInt32 + 8).toUInt8.toUInt32 := by
      rw [UInt32.le_iff_toNat_le, UInt8.toNat_toUInt32, toNat_keycode,
        show (8 : UInt32).toNat = 8 from rfl]
      omega
    refine UInt32.toNat_inj.1 ?_
    rw [UInt32.toNat_sub_of_le _ _ hle, UInt8.toNat_toUInt32, toNat_keycode, UInt16.toNat_toUInt32,
      show (8 : UInt32).toNat = 8 from rfl]
    omega
  rw [xTransitions_key, if_pos ((le_keycode_iff code).2 (by omega)), hkey]

/-- The transitions of an event agree, unless it is a key past the last keycode that comes to
another one: then there is one more on the X server. -/
theorem xTransitions_cases {e : InputEvent} (he : Captured e) :
    (xTransitions e = evdevTransitions e ∧
      ∀ code state, e = .key code state → code.toNat ≤ 247 ∨ 248 ≤ code.toNat % 256) ∨
    ((evdevTransitions e).length < (xTransitions e).length ∧
      ∃ code state, e = .key code state ∧ ¬ (code.toNat ≤ 247 ∨ 248 ≤ code.toNat % 256)) := by
  cases he with
  | move hm hn => exact .inl ⟨(evdevTransitions_mouseMove _ _).symm, fun _ _ h ↦ nomatch h⟩
  | wheel hv hneg =>
    exact .inl ⟨(xTransitions_scroll _ _).trans (evdevTransitions_scroll _ _).symm,
      fun _ _ h ↦ nomatch h⟩
  | hwheel hv =>
    exact .inl ⟨(xTransitions_scroll _ _).trans (evdevTransitions_scroll _ _).symm,
      fun _ _ h ↦ nomatch h⟩
  | button b state =>
    refine .inl ⟨?_, fun _ _ h ↦ nomatch h⟩
    cases b <;> cases state <;> decide
  | key code state hcode =>
    have hkey := evdevTransitions_key state hcode
    by_cases hle : code.toNat ≤ 247
    · refine .inl ⟨?_, fun c st h ↦ ?_⟩
      · rw [xTransitions_key_of_le state hle, hkey, if_pos (UInt16.le_iff_toNat_le.2 hle)]
      · obtain ⟨rfl, -⟩ := InputEvent.key.inj h
        exact .inl (by rwa [UInt16.toNat_toUInt32])
    · rw [if_neg (fun h ↦ hle (UInt16.le_iff_toNat_le.1 h))] at hkey
      by_cases hlow : code.toNat % 256 < 248
      · refine .inr ⟨?_, code.toUInt32, state, rfl, ?_⟩
        · rw [hkey, xTransitions_key, if_pos ((le_keycode_iff code).2 hlow)]
          cases state <;> exact Nat.zero_lt_one
        · rw [UInt16.toNat_toUInt32]
          omega
      · refine .inl ⟨?_, fun c st h ↦ ?_⟩
        · rw [hkey, xTransitions_key, if_neg (mt (le_keycode_iff code).1 hlow)]
        · obtain ⟨rfl, -⟩ := InputEvent.key.inj h
          rw [UInt16.toNat_toUInt32]
          omega

/-- Over a whole list the transitions agree unless a key comes to another one. -/
theorem switches_iff {events : List InputEvent} (h : ∀ e ∈ events, Captured e) :
    (events.flatMap X11Emulator.emit).filterMap (·.transition) =
      (events.flatMap EvdevEmulator.emit).filterMap (·.transition) ↔
    ∀ code state, .key code state ∈ events → code.toNat ≤ 247 ∨ 248 ≤ code.toNat % 256 := by
  have hpieces : events.flatMap xTransitions = events.flatMap evdevTransitions ↔
      ∀ e ∈ events, xTransitions e = evdevTransitions e :=
    List.flatMap_eq_iff fun e he ↦ (xTransitions_cases (h e he)).imp And.left And.left
  rw [List.filterMap_flatMap, List.filterMap_flatMap]
  refine hpieces.trans ⟨fun heq code state he ↦ ?_, fun hkeys e he ↦ ?_⟩
  · obtain ⟨-, hharmless⟩ | ⟨hlonger, -⟩ := xTransitions_cases (h _ he)
    · exact hharmless code state rfl
    · exact absurd (congrArg List.length (heq _ he)).symm hlonger.ne
  · obtain ⟨heq, -⟩ | ⟨-, code, state, rfl, hother⟩ := xTransitions_cases (h e he)
    · exact heq
    · exact absurd (hkeys code state he) hother

end Switches

/-! ### The two emulators -/

/-- **When the two emulators agree**, for every capture with deltas that fit, however the server
reads the detail of a motion and wherever the pointer starts. -/
theorem sameActions_iff (relative : UInt8 → Bool) (pos : Axis → ℤ) {events : List InputEvent}
    (h : Produced events) : SameActions relative pos events ↔ Harmless relative pos events := by
  have hmotion (axis : Axis) := motion_iff relative axis (pos axis) events
  have hwheel := wheel_iff h.captured
  have hswitches := switches_iff h.captured
  constructor
  · intro hagree
    exact ⟨fun axis ↦ (hmotion axis).1 (hagree.motion axis), hwheel.1 hagree.wheel,
      hswitches.1 hagree.switches⟩
  · intro hharmless
    exact ⟨fun axis ↦ (hmotion axis).2 (hharmless.motion axis), hwheel.2 hharmless.wheel,
      hswitches.2 hharmless.keys⟩

/-- What the devices bring for a move, a turn of the wheel, a key and a button. -/
def ordinaryRaws : List EvdevCapture.InputEventRaw :=
  [(evRel, relX, 3), (evRel, relY, 2), (evRel, relX, 4), (evSyn, synReport, 0),
    (evRel, relWheel, -1), (evKey, 30, 1), (evKey, 30, 0), (evKey, btnLeft, 1)].map
    fun (type, code, value) ↦ ⟨⟨type, code, wrapI32 value⟩, inI32_wrapI32 value⟩

/-- A move, a turn of the wheel, a key and a button. -/
def ordinaryEvents : List InputEvent :=
  [.mouseMove (.finite 7) (.finite 2), .scroll (.finite 0) (.finite 1), .key 30 .pressed,
    .key 30 .released, .mouseButton .left .pressed]

theorem produced_ordinaryEvents : Produced ordinaryEvents :=
  ⟨⟨ordinaryRaws, by decide +kernel⟩, by decide +kernel⟩

/-- With the XTEST extension nothing is lost of a move from the corner of the screen, which goes to
the position it would reach, and of what comes with it. -/
theorem sameActions_iff_ordinaryEvents :
    SameActions X11Emulator.xtestRelative (fun _ ↦ 0) ordinaryEvents := by
  refine (sameActions_iff _ _ produced_ordinaryEvents).2 ⟨fun axis ↦ ?_, by decide +kernel, ?_⟩
  · cases axis <;> decide +kernel
  · intro code state he
    have hcode : code = 30 := by
      simp only [ordinaryEvents, List.mem_cons, InputEvent.key.injEq, reduceCtorEq, false_or,
        List.not_mem_nil, or_false] at he
      exact he.elim And.left And.left
    exact .inl (hcode ▸ by decide)

/-- The code 352 of a remote control is the keypad's Enter on the X server, the least horizontal
turn loses a step, and a move is cut off at an `i16`. With the XTEST extension every move goes to a
position. -/
theorem not_sameActions :
    (Produced [.key 352 .pressed] ∧
      ¬ SameActions X11Emulator.xtestRelative (fun _ ↦ 100) [.key 352 .pressed]) ∧
    (Produced [.scroll (.finite i32Min) (.finite 0)] ∧
      ¬ SameActions X11Emulator.xtestRelative (fun _ ↦ 100)
        [.scroll (.finite i32Min) (.finite 0)]) ∧
    (Produced [.mouseMove (.finite 40000) (.finite 0)] ∧
      ¬ SameActions (fun _ ↦ true) (fun _ ↦ 100) [.mouseMove (.finite 40000) (.finite 0)]) ∧
    (Produced [.mouseMove (.finite 10) (.finite 0)] ∧
      ¬ SameActions X11Emulator.xtestRelative (fun _ ↦ 100)
        [.mouseMove (.finite 10) (.finite 0)]) := by
  have hkey : Produced [.key 352 .pressed] :=
    ⟨⟨[⟨⟨evKey, 352, 1⟩, by decide⟩], by decide +kernel⟩, by decide +kernel⟩
  have hscroll : Produced [.scroll (.finite i32Min) (.finite 0)] :=
    ⟨⟨[⟨⟨evRel, relHwheel, i32Min⟩, by decide⟩], by decide +kernel⟩, by decide +kernel⟩
  have hfar : Produced [.mouseMove (.finite 40000) (.finite 0)] :=
    ⟨⟨[⟨⟨evRel, relX, 40000⟩, by decide⟩, ⟨⟨evSyn, synReport, 0⟩, by decide⟩],
      by decide +kernel⟩, by decide +kernel⟩
  have hnear : Produced [.mouseMove (.finite 10) (.finite 0)] :=
    ⟨⟨[⟨⟨evRel, relX, 10⟩, by decide⟩, ⟨⟨evSyn, synReport, 0⟩, by decide⟩],
      by decide +kernel⟩, by decide +kernel⟩
  refine ⟨⟨hkey, fun h ↦ ?_⟩, ⟨hscroll, fun h ↦ ?_⟩, ⟨hfar, fun h ↦ ?_⟩, hnear, fun h ↦ ?_⟩
  · exact absurd h.switches (by decide +kernel)
  · exact (wheel_iff hscroll.captured).1 h.wheel List.mem_cons_self
  · exact absurd (h.motion .x) (by decide +kernel)
  · exact absurd (h.motion .x) (by decide +kernel)

end Kmflow
