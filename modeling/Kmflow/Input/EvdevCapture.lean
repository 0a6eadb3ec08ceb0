import Kmflow.Input.Emulate

/-!
# Capturing from evdev

`EvdevCapture::next_event` of `evdev_capture.rs`. A call reads raw events until one of them makes
an input event: motion is added up until the end of a report, a wheel or a key makes an event at
once. What a call has added up is kept for the next one, so it does not matter where one call ends
and the next begins, and a run over the raw events describes any number of calls (`capture_eq_run`).

Replaying the captured events on the uinput device conserves the motion, the turns of the wheels
and the transitions of the keys (`replay_capture`): each raw event does, and so does a run.

The pending motion is a sum of `i32` values in an `f64`; it is an integer here, that is, the sums
are taken as exact. Raw events from several devices are a single list, in the order they are read.
-/

namespace Kmflow

open EvdevEmulator (evSyn evKey evRel synReport relX relY relWheel relHwheel btnLeft btnRight
  btnMiddle btnSide btnExtra emit)

/-- The capture: the keys it takes for held, and the motion of the current report. -/
structure EvdevCapture where
  heldKeys : Finset UInt16
  pendingDx : ℤ
  pendingDy : ℤ
  deriving DecidableEq

namespace EvdevCapture

/-- An event as the kernel hands it over. Its time is not looked at. -/
structure InputEventRaw extends EvdevEmulator.InputEventRaw where
  inI32_value : InI32 value
  deriving DecidableEq

/-- A capture that has read nothing. -/
def new : EvdevCapture := ⟨∅, 0, 0⟩

/-- The range of the mouse buttons. -/
def IsButton (code : UInt16) : Prop := btnLeft ≤ code ∧ code ≤ btnExtra

instance (code : UInt16) : Decidable (IsButton code) := inferInstanceAs (Decidable (_ ∧ _))

/-- The button of a code in the range. -/
def button (code : UInt16) : Option MouseButton :=
  if code = btnLeft then some .left
  else if code = btnRight then some .right
  else if code = btnMiddle then some .middle
  else if code = btnSide then some .back
  else if code = btnExtra then some .forward
  else none

/-- The input event of a key or a button, if it makes one, and the keys held then. -/
def translateKeyEvent (raw : InputEventRaw) (heldKeys : Finset UInt16) :
    Option InputEvent × Finset UInt16 :=
  if IsButton raw.code then
    match button raw.code with
    | none => (none, heldKeys)
    | some b => (some (.mouseButton b (if raw.value ≠ 0 then .pressed else .released)), heldKeys)
  else if raw.value = 2 then (none, heldKeys)
  else if raw.value ≠ 0 then
    (some (.key raw.code.toUInt32 .pressed), insert raw.code heldKeys)
  else (some (.key raw.code.toUInt32 .released), heldKeys.erase raw.code)

section Read

variable (s : EvdevCapture) (raw : InputEventRaw)

/-- The arm for relative axes. -/
def readRel : Option InputEvent × EvdevCapture :=
  if raw.code = relX then (none, { s with pendingDx := s.pendingDx + raw.value })
  else if raw.code = relY then (none, { s with pendingDy := s.pendingDy + raw.value })
  else if raw.code = relWheel then (some (.scroll (.finite 0) (.finite (-raw.value))), s)
  else if raw.code = relHwheel then (some (.scroll (.finite raw.value) (.finite 0)), s)
  else (none, s)

/-- One turn of the inner loop: the event it returns, if it returns one. -/
def readEvent : Option InputEvent × EvdevCapture :=
  if raw.type = evSyn ∧ raw.code = synReport ∧ (s.pendingDx ≠ 0 ∨ s.pendingDy ≠ 0) then
    (some (.mouseMove (.finite s.pendingDx) (.finite s.pendingDy)),
      { s with pendingDx := 0, pendingDy := 0 })
  else if raw.type = evRel then s.readRel raw
  else if raw.type = evKey then
    let (event, heldKeys) := translateKeyEvent raw s.heldKeys
    (event, { s with heldKeys := heldKeys })
  else (none, s)

end Read

/-- Every code of the range is that of a button. -/
theorem button_of_isButton {code : UInt16} (h : IsButton code) :
    ∃ b, button code = some b ∧ EvdevEmulator.buttonCode b = code := by
  have hcodes : code = btnLeft ∨ code = btnRight ∨ code = btnMiddle ∨ code = btnSide ∨
      code = btnExtra := by
    obtain ⟨hlow, hhigh⟩ := h
    simp only [UInt16.le_iff_toNat_le, ← UInt16.toNat_inj, btnLeft, btnRight, btnMiddle, btnSide,
      btnExtra, UInt16.reduceToNat] at hlow hhigh ⊢
    omega
  rcases hcodes with rfl | rfl | rfl | rfl | rfl
  · exact ⟨.left, rfl, rfl⟩
  · exact ⟨.right, rfl, rfl⟩
  · exact ⟨.middle, rfl, rfl⟩
  · exact ⟨.back, rfl, rfl⟩
  · exact ⟨.forward, rfl, rfl⟩

/-- What a key or a button makes: an event for the button, none for a key that repeats, and an event
for the key. -/
theorem translateKeyEvent_cases (raw : InputEventRaw) (heldKeys : Finset UInt16) :
    (∃ b state, translateKeyEvent raw heldKeys = (some (.mouseButton b state), heldKeys) ∧
      IsButton raw.code ∧ EvdevEmulator.buttonCode b = raw.code ∧
      (state = .pressed ↔ raw.value ≠ 0)) ∨
    (translateKeyEvent raw heldKeys = (none, heldKeys) ∧ ¬ IsButton raw.code ∧ raw.value = 2) ∨
    ∃ state keys, translateKeyEvent raw heldKeys = (some (.key raw.code.toUInt32 state), keys) ∧
      ¬ IsButton raw.code ∧ raw.value ≠ 2 ∧ (state = .pressed ↔ raw.value ≠ 0) := by
  rw [translateKeyEvent]
  by_cases hbutton : IsButton raw.code
  · obtain ⟨b, hb, hcode⟩ := button_of_isButton hbutton
    rw [if_pos hbutton, hb]
    refine .inl ⟨b, _, rfl, hbutton, hcode, ?_⟩
    by_cases hvalue : raw.value = 0 <;> simp [hvalue]
  · rw [if_neg hbutton]
    by_cases hrepeat : raw.value = 2
    · exact .inr (.inl ⟨if_pos hrepeat, hbutton, hrepeat⟩)
    · rw [if_neg hrepeat]
      by_cases hvalue : raw.value = 0
      · rw [if_neg (not_not.2 hvalue)]
        exact .inr (.inr ⟨.released, _, rfl, hbutton, hrepeat, by simp [hvalue]⟩)
      · rw [if_pos hvalue]
        exact .inr (.inr ⟨.pressed, _, rfl, hbutton, hrepeat, by simp [hvalue]⟩)

/-- A call, over the raw events that are there to read: the event it returns, and the raw events it
leaves. Without an event it has read them all and waits for more. -/
def nextEvent (s : EvdevCapture) :
    List InputEventRaw → Option InputEvent × EvdevCapture × List InputEventRaw
  | [] => (none, s, [])
  | raw :: raws =>
    match s.readEvent raw with
    | (some event, s') => (some event, s', raws)
    | (none, s') => nextEvent s' raws

/-- A number of calls, one after the other. -/
def capture (s : EvdevCapture) (raws : List InputEventRaw) :
    ℕ → List InputEvent × EvdevCapture × List InputEventRaw
  | 0 => ([], s, raws)
  | n + 1 =>
    match s.nextEvent raws with
    | (none, s', rest) => ([], s', rest)
    | (some event, s', rest) =>
      let (events, s'', rest') := capture s' rest n
      (event :: events, s'', rest')

/-! ### Runs -/

/-- What a list of raw events makes, without regard to the calls that read it. -/
def run (s : EvdevCapture) : List InputEventRaw → List InputEvent × EvdevCapture
  | [] => ([], s)
  | raw :: raws =>
    let (event, s') := s.readEvent raw
    let (events, s'') := run s' raws
    (event.toList ++ events, s'')

theorem run_cons (s : EvdevCapture) (raw : InputEventRaw) (raws : List InputEventRaw) :
    s.run (raw :: raws) = ((s.readEvent raw).1.toList ++ ((s.readEvent raw).2.run raws).1,
      ((s.readEvent raw).2.run raws).2) := rfl

theorem run_append (s : EvdevCapture) (raws more : List InputEventRaw) :
    s.run (raws ++ more) =
      ((s.run raws).1 ++ ((s.run raws).2.run more).1, ((s.run raws).2.run more).2) := by
  induction raws generalizing s with
  | nil => rfl
  | cons raw raws ih => rw [List.cons_append, run_cons, run_cons, ih, List.append_assoc]

/-- A call reads a first part of the raw events. -/
theorem nextEvent_eq_run (s : EvdevCapture) (raws : List InputEventRaw) :
    ∃ read, raws = read ++ (s.nextEvent raws).2.2 ∧
      s.run read = ((s.nextEvent raws).1.toList, (s.nextEvent raws).2.1) := by
  induction raws generalizing s with
  | nil => exact ⟨[], rfl, rfl⟩
  | cons raw raws ih =>
    rw [nextEvent]
    cases hread : s.readEvent raw with
    | mk event s' =>
      cases event with
      | some event => exact ⟨[raw], rfl, by rw [run_cons, hread]; rfl⟩
      | none =>
        obtain ⟨read, hraws, hrun⟩ := ih s'
        refine ⟨raw :: read, congrArg (raw :: ·) hraws, ?_⟩
        rw [run_cons, hread]
        exact hrun

/-- Where one call ends and the next begins makes no difference. -/
theorem capture_eq_run (s : EvdevCapture) (raws : List InputEventRaw) (n : ℕ) :
    ∃ read, raws = read ++ (s.capture raws n).2.2 ∧
      s.run read = ((s.capture raws n).1, (s.capture raws n).2.1) := by
  induction n generalizing s raws with
  | zero => exact ⟨[], rfl, rfl⟩
  | succ n ih =>
    obtain ⟨read, hraws, hrun⟩ := s.nextEvent_eq_run raws
    rw [capture]
    cases hnext : s.nextEvent raws with
    | mk event r =>
      obtain ⟨s', rest⟩ := r
      rw [hnext] at hraws hrun
      cases event with
      | none => exact ⟨read, hraws, hrun⟩
      | some event =>
        obtain ⟨read', hrest, hrun'⟩ := ih s' rest
        refine ⟨read ++ read', ?_, ?_⟩
        · rw [List.append_assoc, ← hrest]
          exact hraws
        · rw [run_append, hrun, hrun']
          rfl

/-! ### What a replay conserves -/

open EvdevEmulator (axisValues keyValues moveCode turnCode)

/-- The motion of the current report, on an axis. -/
def pending (s : EvdevCapture) : Axis → ℤ
  | .x => s.pendingDx
  | .y => s.pendingDy

/-- The transition a replay writes for a raw event of a key or a button. A key that repeats writes
none, and any other value that is not zero is written as `1`. -/
def keyTransition (e : EvdevEmulator.InputEventRaw) : Option (UInt16 × ℤ) :=
  if e.type = evKey ∧ (e.value = 2 → IsButton e.code) then
    some (e.code, if e.value = 0 then 0 else 1)
  else none

/-- A delta that fits in an `i32`. -/
def DeltaFits (d : F64) : Prop := (i32Min : ℚ) ≤ d.toRat ∧ d.toRat ≤ i32Max

instance (d : F64) : Decidable (DeltaFits d) := inferInstanceAs (Decidable (_ ∧ _))

/-- The motion of an event fits in an `i32`. -/
def MoveFits (e : InputEvent) : Prop := ∀ axis, DeltaFits (e.move axis)

instance (e : InputEvent) : Decidable (MoveFits e) :=
  decidable_of_iff (DeltaFits (e.move .x) ∧ DeltaFits (e.move .y))
    ⟨fun h axis ↦ Axis.casesOn axis h.1 h.2, fun h ↦ ⟨h .x, h .y⟩⟩

/-- The captured events and what a replay writes for them match what was read: the motion up to what
is pending, the turns of the wheels and the transitions exactly. -/
structure Replays (s : EvdevCapture) (read : List EvdevEmulator.InputEventRaw)
    (events : List InputEvent) (t : EvdevCapture) : Prop where
  emitted : ∀ axis, (events.map fun e ↦ (e.move axis).toRat).sum + t.pending axis =
    s.pending axis + ((axisValues (moveCode axis) read).sum : ℤ)
  written : ∀ axis, ((axisValues (moveCode axis) (events.flatMap emit)).sum : ℚ) =
    (events.map fun e ↦ (e.move axis).toRat).sum
  turns : ∀ axis, (axisValues (turnCode axis) (events.flatMap emit)).filter (· ≠ 0) =
    (axisValues (turnCode axis) read).filter (· ≠ 0)
  keys : keyValues (events.flatMap emit) = read.filterMap keyTransition

namespace Replays

variable {s t u : EvdevCapture} {read more : List EvdevEmulator.InputEventRaw}
  {events events' : List InputEvent}

theorem nil (s : EvdevCapture) : Replays s [] [] s where
  emitted _ := add_comm _ _
  written _ := rfl
  turns _ := rfl
  keys := rfl

theorem append (h : Replays s read events t) (h' : Replays t more events' u) :
    Replays s (read ++ more) (events ++ events') u where
  emitted axis := by
    have h₁ := h.emitted axis
    have h₂ := h'.emitted axis
    rw [EvdevEmulator.axisValues_append, List.sum_append, List.map_append, List.sum_append,
      Int.cast_add]
    linarith
  written axis := by
    rw [List.flatMap_append, EvdevEmulator.axisValues_append, List.sum_append, List.map_append,
      List.sum_append, Int.cast_add, h.written, h'.written]
  turns axis := by
    rw [List.flatMap_append, EvdevEmulator.axisValues_append, EvdevEmulator.axisValues_append,
      List.filter_append, List.filter_append, h.turns, h'.turns]
  keys := by
    rw [List.flatMap_append, EvdevEmulator.keyValues_append, List.filterMap_append, h.keys, h'.keys]

end Replays

/-- A delta that fits is an integer that the conversion keeps. -/
theorem asI32_move (e : InputEvent) (axis : Axis) {n : ℤ} (he : e.move axis = .finite n)
    (hfits : MoveFits e) : (((e.move axis).asI32 : ℤ) : ℚ) = (e.move axis).toRat := by
  have h := hfits axis
  rw [he, DeltaFits, F64.toRat] at h
  rw [he, F64.asI32_intCast ⟨Int.cast_le.1 h.1, Int.cast_le.1 h.2⟩, F64.toRat]

section Read

variable {s t : EvdevCapture} {raw : InputEventRaw}

/-- The values of one raw event on an axis. -/
theorem axisValues_raw (axis : UInt16) : axisValues axis [raw.toInputEventRaw] =
    if raw.type = evRel ∧ raw.code = axis then [raw.value] else [] := by
  by_cases h : raw.type = evRel ∧ raw.code = axis <;> simp [axisValues, h]

theorem axisValues_raw_of_ne (h : raw.type ≠ evRel) (axis : UInt16) :
    axisValues axis [raw.toInputEventRaw] = [] := by
  rw [axisValues_raw, if_neg fun hrel ↦ h hrel.1]

/-- A raw event without an event to return. -/
theorem replays_none (hmove : ∀ axis, t.pending axis =
      s.pending axis + (axisValues (moveCode axis) [raw.toInputEventRaw]).sum)
    (hturn : ∀ axis, (axisValues (turnCode axis) [raw.toInputEventRaw]).filter (· ≠ 0) = [])
    (hkey : keyTransition raw.toInputEventRaw = none) :
    Replays s [raw.toInputEventRaw] [] t where
  emitted axis := by
    rw [hmove, Int.cast_add]
    exact zero_add _
  written _ := rfl
  turns axis := (hturn axis).symm
  keys := by
    rw [List.filterMap_cons_none hkey]
    rfl

/-- A raw event that is none of an axis, and that nothing comes of. -/
theorem replays_skip (hne : raw.type ≠ evRel) (hpending : ∀ axis, t.pending axis = s.pending axis)
    (hkey : keyTransition raw.toInputEventRaw = none) :
    Replays s [raw.toInputEventRaw] [] t := by
  refine replays_none (fun axis ↦ ?_) (fun axis ↦ ?_) hkey
  · rw [axisValues_raw_of_ne hne, hpending]
    exact (add_zero _).symm
  · rw [axisValues_raw_of_ne hne]
    rfl

/-- A raw event, and the event it makes. -/
theorem replays_some {e : InputEvent} (hmove : ∀ axis, (e.move axis).toRat + t.pending axis =
      s.pending axis + ((axisValues (moveCode axis) [raw.toInputEventRaw]).sum : ℤ))
    (hfits : ∀ axis, (((e.move axis).asI32 : ℤ) : ℚ) = (e.move axis).toRat)
    (hturn : ∀ axis, (axisValues (turnCode axis) (emit e)).filter (· ≠ 0) =
      (axisValues (turnCode axis) [raw.toInputEventRaw]).filter (· ≠ 0))
    (hkey : keyValues (emit e) = (keyTransition raw.toInputEventRaw).toList) :
    Replays s [raw.toInputEventRaw] [e] t where
  emitted axis := by
    rw [List.map_singleton, List.sum_singleton]
    exact hmove axis
  written axis := by
    rw [List.flatMap_singleton, EvdevEmulator.sum_axisValues_emit, List.map_singleton,
      List.sum_singleton]
    exact hfits axis
  turns axis := by
    rw [List.flatMap_singleton]
    exact hturn axis
  keys := by
    rw [List.flatMap_singleton, hkey]
    cases h : keyTransition raw.toInputEventRaw <;> simp [h]

/-- A wheel that did not turn is not written, and a value of zero does not count. -/
theorem filter_turn {axis : Axis} {d : F64} {v : ℤ} (hvalue : EvdevEmulator.turnValue axis d = v)
    (hzero : d.isZero = decide (v = 0)) :
    (if d.isZero then [] else [EvdevEmulator.turnValue axis d]).filter (· ≠ 0) =
      [v].filter (· ≠ 0) := by
  rw [hzero, hvalue]
  by_cases hv : v = 0
  · simp [hv]
  · simp [hv]

/-- The end of a report: the motion so far is written, and none is pending. -/
theorem replays_report (hraw : raw.type = evSyn)
    (hfits : MoveFits (.mouseMove (.finite s.pendingDx) (.finite s.pendingDy))) :
    Replays s [raw.toInputEventRaw] [.mouseMove (.finite s.pendingDx) (.finite s.pendingDy)]
      { s with pendingDx := 0, pendingDy := 0 } := by
  have hvalues (axis : UInt16) : axisValues axis [raw.toInputEventRaw] = [] :=
    axisValues_raw_of_ne (by rw [hraw]; decide) axis
  refine replays_some (fun axis ↦ ?_) (fun axis ↦ ?_) (fun axis ↦ ?_) ?_
  · rw [hvalues]
    cases axis <;> rfl
  · cases axis with
    | x => exact asI32_move _ .x rfl hfits
    | y => exact asI32_move _ .y rfl hfits
  · rw [hvalues, EvdevEmulator.axisValues_turnCode_emit]
    cases axis <;> rfl
  · rw [keyTransition, if_neg (fun h ↦ absurd (hraw.symm.trans h.1) (by decide))]
    simp [emit]

/-- The arm for relative axes. -/
theorem replays_rel (hraw : raw.type = evRel)
    (hwheel : raw.code = relWheel → raw.value ≠ i32Min) :
    Replays s [raw.toInputEventRaw] (s.readRel raw).1.toList (s.readRel raw).2 := by
  have hvalues (axis : UInt16) :
      axisValues axis [raw.toInputEventRaw] = if raw.code = axis then [raw.value] else [] := by
    rw [axisValues_raw]
    simp [hraw]
  have hkey : keyTransition raw.toInputEventRaw = none :=
    if_neg fun h ↦ absurd (hraw.symm.trans h.1) (by decide)
  have hturned := raw.inI32_value
  rw [readRel]
  split_ifs with hx hy hw hh
  · refine replays_none (fun axis ↦ ?_) (fun axis ↦ ?_) hkey
    · cases axis <;> simp [hvalues, hx, moveCode, pending, relX, relY]
    · cases axis <;> simp [hvalues, hx, turnCode, relX, relWheel, relHwheel]
  · refine replays_none (fun axis ↦ ?_) (fun axis ↦ ?_) hkey
    · cases axis <;> simp [hvalues, hy, moveCode, pending, relX, relY]
    · cases axis <;> simp [hvalues, hy, turnCode, relY, relWheel, relHwheel]
  · have hneg : InI32 (-raw.value) := hturned.neg (hwheel hw)
    have hcast : F64.finite (-raw.value) = .finite (-raw.value : ℤ) := by rw [Int.cast_neg]
    have hzero : (F64.finite (-raw.value)).isZero = decide (raw.value = 0) := by
      simp [F64.isZero]
    have hvalue : EvdevEmulator.turnValue .y (.finite (-raw.value)) = raw.value := by
      rw [EvdevEmulator.turnValue, hcast, F64.asI32_intCast hneg, neg_neg, wrapI32_of_inI32 hturned]
    refine replays_some (fun axis ↦ ?_) (fun axis ↦ ?_) (fun axis ↦ ?_) ?_
    · cases axis <;>
        simp [hvalues, hw, moveCode, relX, relY, relWheel, InputEvent.move, F64.toRat, pending]
    · cases axis <;> rfl
    · rw [EvdevEmulator.axisValues_turnCode_emit, hvalues, hw]
      cases axis with
      | x => rfl
      | y =>
        rw [if_pos (show relWheel = turnCode .y from rfl)]
        exact filter_turn hvalue hzero
    · rw [hkey]
      simp [emit]
  · have hvalue : EvdevEmulator.turnValue .x (.finite raw.value) = raw.value :=
      F64.asI32_intCast hturned
    have hzero : (F64.finite raw.value).isZero = decide (raw.value = 0) := by
      simp [F64.isZero]
    refine replays_some (fun axis ↦ ?_) (fun axis ↦ ?_) (fun axis ↦ ?_) ?_
    · cases axis <;>
        simp [hvalues, hh, moveCode, relX, relY, relHwheel, InputEvent.move, F64.toRat, pending]
    · cases axis <;> rfl
    · rw [EvdevEmulator.axisValues_turnCode_emit, hvalues, hh]
      cases axis with
      | x =>
        rw [if_pos (show relHwheel = turnCode .x from rfl)]
        exact filter_turn hvalue hzero
      | y => rfl
    · rw [hkey]
      simp [emit]
  · refine replays_none (fun axis ↦ ?_) (fun axis ↦ ?_) hkey
    · cases axis <;> simp [hvalues, hx, hy, moveCode, pending]
    · cases axis <;> simp [hvalues, hw, hh, turnCode]

/-- A key or a button: no motion and no turn, and the transition that counts. -/
theorem replays_switch {e : InputEvent} {heldKeys : Finset UInt16} (hraw : raw.type = evKey)
    (hmove : ∀ axis, e.move axis = .finite 0) (hturn : ∀ axis, e.turn axis = .finite 0)
    (hkey : keyValues (emit e) = (keyTransition raw.toInputEventRaw).toList) :
    Replays s [raw.toInputEventRaw] [e] { s with heldKeys := heldKeys } := by
  have hvalues (axis : UInt16) : axisValues axis [raw.toInputEventRaw] = [] :=
    axisValues_raw_of_ne (by rw [hraw]; decide) axis
  refine replays_some (fun axis ↦ ?_) (fun axis ↦ ?_) (fun axis ↦ ?_) hkey
  · rw [hvalues, hmove]
    cases axis <;> exact add_comm _ _
  · rw [hmove]
    rfl
  · rw [hvalues, EvdevEmulator.axisValues_turnCode_emit, hturn]
    rfl

/-- The arm for keys and buttons. -/
theorem replays_key (hraw : raw.type = evKey) :
    Replays s [raw.toInputEventRaw] (translateKeyEvent raw s.heldKeys).1.toList
      { s with heldKeys := (translateKeyEvent raw s.heldKeys).2 } := by
  have htransition (h : raw.value = 2 → IsButton raw.code) :
      keyTransition raw.toInputEventRaw = some (raw.code, if raw.value = 0 then 0 else 1) :=
    if_pos ⟨hraw, h⟩
  obtain ⟨b, state, hevent, hbutton, hcode, hstate⟩ | ⟨hevent, hbutton, hrepeat⟩ |
    ⟨state, keys, hevent, -, hrepeat, hstate⟩ := translateKeyEvent_cases raw s.heldKeys
  · rw [hevent]
    refine replays_switch hraw (fun axis ↦ ?_) (fun axis ↦ ?_) ?_
    · cases axis <;> rfl
    · cases axis <;> rfl
    · rw [htransition fun _ ↦ hbutton, EvdevEmulator.keyValues_emit_mouseButton, hcode]
      by_cases hvalue : raw.value = 0 <;> simp [hstate, hvalue]
  · rw [hevent]
    refine replays_skip (by rw [hraw]; decide) (fun axis ↦ ?_)
      (if_neg fun h ↦ hbutton (h.2 hrepeat))
    cases axis <;> rfl
  · have hcode : raw.code.toUInt32.toUInt16 = raw.code := UInt16.toUInt16_toUInt32 _
    rw [hevent]
    refine replays_switch hraw (fun axis ↦ ?_) (fun axis ↦ ?_) ?_
    · cases axis <;> rfl
    · cases axis <;> rfl
    · rw [htransition fun h ↦ absurd h hrepeat, EvdevEmulator.keyValues_emit_key, hcode]
      by_cases hvalue : raw.value = 0 <;> simp [hstate, hvalue]

/-- What one turn of the loop reads is conserved. -/
theorem replays_readEvent (hfits : ∀ e ∈ (s.readEvent raw).1, MoveFits e)
    (hwheel : raw.type = evRel → raw.code = relWheel → raw.value ≠ i32Min) :
    Replays s [raw.toInputEventRaw] (s.readEvent raw).1.toList (s.readEvent raw).2 := by
  rw [readEvent] at hfits ⊢
  split_ifs at hfits ⊢ with hreport hrel hkey
  · exact replays_report hreport.1 (hfits _ rfl)
  · exact replays_rel hrel (hwheel hrel)
  · exact replays_key hkey
  · exact replays_skip hrel (fun axis ↦ rfl) (if_neg fun h ↦ hkey h.1)

end Read

/-- What a run reads is conserved. -/
theorem replays_run (s : EvdevCapture) {raws : List InputEventRaw}
    (hfits : ∀ e ∈ (s.run raws).1, MoveFits e)
    (hwheel : ∀ raw ∈ raws, raw.type = evRel → raw.code = relWheel → raw.value ≠ i32Min) :
    Replays s (raws.map (·.toInputEventRaw)) (s.run raws).1 (s.run raws).2 := by
  induction raws generalizing s with
  | nil => exact .nil s
  | cons raw raws ih =>
    rw [run_cons] at hfits ⊢
    have hhead : Replays s [raw.toInputEventRaw] (s.readEvent raw).1.toList (s.readEvent raw).2 :=
      replays_readEvent
        (fun e he ↦ hfits e (List.mem_append_left _ (Option.mem_toList.2 he)))
        (hwheel raw List.mem_cons_self)
    exact hhead.append (ih _ (fun e he ↦ hfits e (List.mem_append_right _ he))
      fun raw' hraw' ↦ hwheel raw' (List.mem_cons_of_mem _ hraw'))

/-- **Capture and emulation conserve what was read**, for every number of calls and every list of
raw events, wherever the calls end. -/
theorem replay_capture (s : EvdevCapture) (n : ℕ) {raws read : List InputEventRaw}
    (hread : raws = read ++ (s.capture raws n).2.2)
    (hfits : ∀ e ∈ (s.capture raws n).1, MoveFits e)
    (hwheel : ∀ raw ∈ read, raw.type = evRel → raw.code = relWheel → raw.value ≠ i32Min) :
    Replays s (read.map (·.toInputEventRaw)) (s.capture raws n).1 (s.capture raws n).2.1 := by
  obtain ⟨read', hread', hrun⟩ := s.capture_eq_run raws n
  obtain rfl : read = read' := List.append_cancel_right (hread.symm.trans hread')
  have hreplays : Replays s (read.map (·.toInputEventRaw)) (s.run read).1 (s.run read).2 :=
    replays_run s (by rwa [hrun]) hwheel
  rwa [hrun] at hreplays

/-- A move, a turn of the wheel, a key that repeats, a button, and a move whose report has not
ended. -/
def sampleRaws : List InputEventRaw :=
  [⟨⟨evRel, relX, 3⟩, by decide⟩, ⟨⟨evRel, relY, -2⟩, by decide⟩, ⟨⟨evRel, relX, 4⟩, by decide⟩,
    ⟨⟨evSyn, synReport, 0⟩, by decide⟩, ⟨⟨evRel, relWheel, -1⟩, by decide⟩,
    ⟨⟨evKey, 30, 1⟩, by decide⟩, ⟨⟨evKey, 30, 2⟩, by decide⟩, ⟨⟨evKey, 30, 0⟩, by decide⟩,
    ⟨⟨evRel, relX, 5⟩, by decide⟩, ⟨⟨evKey, btnLeft, 1⟩, by decide⟩,
    ⟨⟨evRel, relX, 1⟩, by decide⟩]

/-- Five calls leave the last raw event. -/
theorem replay_capture_sampleRaws :
    Replays .new ((sampleRaws.take 10).map (·.toInputEventRaw))
      [.mouseMove (.finite 7) (.finite (-2)), .scroll (.finite 0) (.finite 1), .key 30 .pressed,
        .key 30 .released, .mouseButton .left .pressed] ⟨∅, 5, 0⟩ := by
  have hcapture : new.capture sampleRaws 5 =
      ([.mouseMove (.finite 7) (.finite (-2)), .scroll (.finite 0) (.finite 1), .key 30 .pressed,
        .key 30 .released, .mouseButton .left .pressed], ⟨∅, 5, 0⟩, sampleRaws.drop 10) := by
    decide +kernel
  have hfits : ∀ e ∈ (new.capture sampleRaws 5).1, MoveFits e := by
    rw [hcapture]
    decide +kernel
  have hread : sampleRaws = sampleRaws.take 10 ++ (new.capture sampleRaws 5).2.2 := by
    rw [hcapture, List.take_append_drop]
  have hreplays := replay_capture new 5 hread hfits (by decide +kernel)
  rwa [hcapture] at hreplays

end EvdevCapture

end Kmflow
