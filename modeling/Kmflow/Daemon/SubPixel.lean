import Kmflow.Daemon.Overflow

/-!
# Motion in fractions of a pixel

The raw deltas of the X server are 32.32 fixed-point numbers, and `X11Capture` passes them on as
they are. The evdev emulator and the tracked cursor both take each delta `as i32`, by itself: the
part behind the point is dropped with every event, and nothing carries it over to the next one. A
motion that is split into halves of a pixel is lost altogether.

So the displacement is the exact sum of the deltas less the dropped parts, the same for both, and
the two are off by at most `1 - 2⁻³²` of a pixel for each event that has a fraction
(`displacement_error`). Deltas are exact rationals here.
-/

namespace Kmflow

/-! ### Raw motion -/

/-- A 32.32 fixed-point number. -/
structure Fp3232 where
  integral : ℤ
  frac : UInt32
  inI32_integral : InI32 integral

/-- `fp3232_to_f64`: the integral part and 2^-32 times the fraction. -/
def fp3232ToF64 (v : Fp3232) : F64 := .finite (v.integral + v.frac.toNat / 4294967296)

/-- A delta that is a 32.32 fixed-point number. -/
def IsFp3232 (d : F64) : Prop := ∃ v, fp3232ToF64 v = d

/-- `RawMotionEvent`: a value for each axis whose bit is set in the mask. -/
structure RawMotionEvent where
  valuatorMask : List UInt32
  axisvaluesRaw : List Fp3232

namespace RawMotionEvent

/-- The variables of the loops. -/
structure Scan where
  dx : F64
  dy : F64
  valueIdx : ℕ

/-- The next value is that of an axis. -/
def Scan.next (m : Scan) (values : List Fp3232) (axis : ℕ) : Scan where
  dx := if axis = 0 then (values[m.valueIdx]?.map fp3232ToF64).getD m.dx else m.dx
  dy := if axis = 1 then (values[m.valueIdx]?.map fp3232ToF64).getD m.dy else m.dy
  valueIdx := m.valueIdx + 1

/-- The inner loop, over the bits of one word. It ends at the first axis after the second. -/
def scanBits (values : List Fp3232) (word : ℕ) (mask : UInt32) : List ℕ → Scan → Scan
  | [], m => m
  | bit :: bits, m =>
    if mask.toNat.testBit bit then
      if 1 < word * 32 + bit then m.next values (word * 32 + bit)
      else scanBits values word mask bits (m.next values (word * 32 + bit))
    else scanBits values word mask bits m

/-- `extract_raw_motion_values`: the words of the mask are gone through, each bit taking a value. -/
def extractRawMotionValues (raw : RawMotionEvent) : F64 × F64 :=
  let m := raw.valuatorMask.zipIdx.foldl
    (fun m (mask, word) ↦ scanBits raw.axisvaluesRaw word mask (List.range 32) m)
    ⟨.finite 0, .finite 0, 0⟩
  (m.dx, m.dy)

/-- The event that is made of a raw motion, unless both deltas are `0.0`. -/
def event (raw : RawMotionEvent) : Option InputEvent :=
  let (dx, dy) := raw.extractRawMotionValues
  if !dx.isZero || !dy.isZero then some (.mouseMove dx dy) else none

/-- Both deltas are fixed-point numbers. -/
def Scan.IsFp3232 (m : Scan) : Prop := Kmflow.IsFp3232 m.dx ∧ Kmflow.IsFp3232 m.dy

/-- A value that may be missing is still a fixed-point number. -/
theorem isFp3232_getD {value : Option Fp3232} {d : F64} (h : IsFp3232 d) :
    IsFp3232 ((value.map fp3232ToF64).getD d) := by
  cases value with
  | none => exact h
  | some v => exact ⟨v, rfl⟩

/-- So are the deltas after the next value. -/
theorem isFp3232_next {m : Scan} (h : m.IsFp3232) (values : List Fp3232) (axis : ℕ) :
    (m.next values axis).IsFp3232 := by
  constructor
  · show Kmflow.IsFp3232 (if axis = 0 then _ else _)
    split_ifs
    · exact isFp3232_getD h.1
    · exact h.1
  · show Kmflow.IsFp3232 (if axis = 1 then _ else _)
    split_ifs
    · exact isFp3232_getD h.2
    · exact h.2

/-- So are they after a word. -/
theorem isFp3232_scanBits {values : List Fp3232} {word : ℕ} {mask : UInt32} {bits : List ℕ}
    {m : Scan} (h : m.IsFp3232) : (scanBits values word mask bits m).IsFp3232 := by
  induction bits generalizing m with
  | nil => exact h
  | cons bit bits ih =>
    rw [scanBits]
    split_ifs
    · exact isFp3232_next h _ _
    · exact ih (isFp3232_next h _ _)
    · exact ih h

/-- Every delta of a raw motion is a fixed-point number. -/
theorem isFp3232_extractRawMotionValues (raw : RawMotionEvent) :
    IsFp3232 raw.extractRawMotionValues.1 ∧ IsFp3232 raw.extractRawMotionValues.2 := by
  have hzero : IsFp3232 (.finite 0) := ⟨⟨0, 0, by decide⟩, by simp [fp3232ToF64]⟩
  have hfold : ∀ (words : List (UInt32 × ℕ)) (m : Scan), m.IsFp3232 →
      (words.foldl (fun m (mask, word) ↦
        scanBits raw.axisvaluesRaw word mask (List.range 32) m) m).IsFp3232 := by
    intro words
    induction words with
    | nil => exact fun _ h ↦ h
    | cons word words ih => exact fun _ h ↦ ih _ (isFp3232_scanBits h)
  exact hfold _ _ ⟨hzero, hzero⟩

/-- So are those of the event that is made. -/
theorem isFp3232_event {raw : RawMotionEvent} {e : InputEvent} (h : e ∈ raw.event) (axis : Axis) :
    IsFp3232 (e.move axis) := by
  obtain ⟨-, he⟩ := Option.ite_none_right_eq_some.1 h
  obtain rfl := Option.some.inj he
  cases axis with
  | x => exact raw.isFp3232_extractRawMotionValues.1
  | y => exact raw.isFp3232_extractRawMotionValues.2

end RawMotionEvent

/-! ### What a delta loses -/

/-- What `as i32` drops. -/
def dropped (d : F64) : ℚ := d.toRat - d.asI32

/-- The delta has a fraction. -/
def hasFraction (d : F64) : Bool := d.toRat.den != 1

/-- The value of a fixed-point number as a fraction. -/
theorem fp3232_eq_div (v : Fp3232) : (v.integral + v.frac.toNat / 4294967296 : ℚ) =
    (v.integral * 4294967296 + v.frac.toNat : ℤ) / (4294967296 : ℕ) := by
  push_cast
  ring

/-- Its integer part is in range. -/
theorem asI32_fp3232ToF64 (v : Fp3232) :
    (fp3232ToF64 v).asI32 = Rat.trunc (v.integral + v.frac.toNat / 4294967296) := by
  have hfrac : (v.frac.toNat : ℚ) < 4294967296 := by exact_mod_cast v.frac.toNat_lt
  have hlow : (v.integral : ℚ) ≤ v.integral + v.frac.toNat / 4294967296 :=
    le_add_of_nonneg_right (by positivity)
  have hhigh : (v.integral + v.frac.toNat / 4294967296 : ℚ) < v.integral + 1 :=
    add_lt_add_of_le_of_lt le_rfl ((div_lt_one (by norm_num)).2 hfrac)
  have hmin := v.inI32_integral.1
  have hmax := v.inI32_integral.2
  have hrange : i32Min ≤ Rat.trunc (v.integral + v.frac.toNat / 4294967296) ∧
      Rat.trunc (v.integral + v.frac.toNat / 4294967296) ≤ i32Max := by
    rcases le_total 0 (v.integral + v.frac.toNat / 4294967296 : ℚ) with h | h
    · rw [Rat.trunc_of_nonneg h]
      have hfloor : ⌊(v.integral + v.frac.toNat / 4294967296 : ℚ)⌋ < v.integral + 1 :=
        Int.floor_lt.2 (by exact_mod_cast hhigh)
      exact ⟨le_trans (by decide) (Int.floor_nonneg.2 h), by omega⟩
    · rw [Rat.trunc_of_nonpos h]
      have hceil : v.integral ≤ ⌈(v.integral + v.frac.toNat / 4294967296 : ℚ)⌉ :=
        Int.cast_le.1 (hlow.trans (Int.le_ceil _))
      exact ⟨hmin.trans hceil, (Int.ceil_nonpos.2 h).trans (by decide)⟩
  rw [fp3232ToF64, F64.asI32]
  exact (congrArg (max i32Min) (min_eq_left hrange.2)).trans (max_eq_right hrange.1)

/-- Less than a pixel is dropped of a delta, and nothing of a whole one. -/
theorem abs_dropped_le {d : F64} (h : IsFp3232 d) :
    |dropped d| ≤ if hasFraction d then 1 - 1 / 4294967296 else 0 := by
  obtain ⟨v, rfl⟩ := h
  rw [dropped, asI32_fp3232ToF64]
  show |(v.integral + v.frac.toNat / 4294967296 : ℚ) - _| ≤ _
  split_ifs with hfrac
  · rw [fp3232_eq_div]
    exact_mod_cast Rat.abs_sub_trunc_le _ (d := 4294967296) (by decide)
  · have hden : (v.integral + v.frac.toNat / 4294967296 : ℚ).den = 1 := by
      simpa [hasFraction, fp3232ToF64, F64.toRat] using hfrac
    rw [← (Rat.den_eq_one_iff _).1 hden, Rat.trunc_intCast, sub_self, abs_zero]

/-! ### What a motion loses -/

/-- A pass adds up no more than the bound of each element that counts. -/
theorem abs_sum_map_le {α : Type*} {f : α → ℚ} {p : α → Bool} {c : ℚ} {l : List α}
    (h : ∀ a ∈ l, |f a| ≤ if p a then c else 0) : |(l.map f).sum| ≤ l.countP p * c := by
  induction l with
  | nil => simp
  | cons a l ih =>
    obtain ⟨ha, hl⟩ := List.forall_mem_cons.1 h
    have hsum := abs_add_le (f a) (l.map f).sum
    have hrest := ih hl
    rw [List.map_cons, List.sum_cons, List.countP_cons]
    split_ifs at ha ⊢ <;> push_cast <;> linarith

section Track

variable {screen : ScreenInfo} {s : DaemonState}

/-- A side of the screen. -/
def ScreenInfo.side (screen : ScreenInfo) : Axis → UInt32
  | .x => screen.width
  | .y => screen.height

/-- The tracked cursor on an axis. -/
def DaemonState.cursor (s : DaemonState) : Axis → ℤ
  | .x => s.cursorX
  | .y => s.cursorY

/-- What a list of events moves an axis by, in whole pixels. -/
def displacement (axis : Axis) (es : List InputEvent) : ℤ :=
  (es.map fun e ↦ (e.move axis).asI32).sum

/-- A position between the bounds of the clamp. -/
def InBounds (screen : ScreenInfo) (axis : Axis) (pos : ℤ) : Prop :=
  0 ≤ pos ∧ pos ≤ wrapI32 (u32AsI32 (screen.side axis) - 1)

instance (screen : ScreenInfo) (axis : Axis) (pos : ℤ) : Decidable (InBounds screen axis pos) :=
  inferInstanceAs (Decidable (_ ∧ _))

/-- The clamp leaves the cursor alone all the way. -/
def Unclamped (screen : ScreenInfo) (s : DaemonState) (es : List InputEvent) : Prop :=
  ∀ before after, es = before ++ after → ∀ axis,
    InBounds screen axis (s.cursor axis + displacement axis before)

instance (screen : ScreenInfo) (s : DaemonState) (es : List InputEvent) :
    Decidable (Unclamped screen s es) :=
  decidable_of_iff (∀ before ∈ es.inits,
      InBounds screen .x (s.cursor .x + displacement .x before) ∧
        InBounds screen .y (s.cursor .y + displacement .y before))
    ⟨fun h before after hes axis ↦ by
      have hbefore := h before (List.mem_inits _ _ |>.2 ⟨after, hes.symm⟩)
      exact Axis.casesOn axis hbefore.1 hbefore.2,
    fun h before hbefore ↦ by
      obtain ⟨after, hes⟩ := (List.mem_inits _ _).1 hbefore
      exact ⟨h before after hes.symm .x, h before after hes.symm .y⟩⟩

/-- Inside the bounds of the clamp the sum is exact. -/
theorem trackAxis_of_mem {size : UInt32} {pos : ℤ} {d : F64} (hlow : 0 ≤ pos + d.asI32)
    (hhigh : pos + d.asI32 ≤ wrapI32 (u32AsI32 size - 1)) :
    trackAxis size pos d = some (pos + d.asI32) := by
  have hmax : wrapI32 (u32AsI32 size - 1) ≤ i32Max := Int.le_of_lt_add_one BitVec.toInt_lt
  have hin : InI32 (pos + d.asI32) := ⟨le_trans (by decide) hlow, hhigh.trans hmax⟩
  rw [trackAxis, clamp, wrapI32_of_inI32 hin, if_pos (hlow.trans hhigh), min_eq_left hhigh,
    max_eq_right hlow]

/-- The displacement is a sum. -/
theorem displacement_cons (axis : Axis) (e : InputEvent) (es : List InputEvent) :
    displacement axis (e :: es) = (e.move axis).asI32 + displacement axis es := List.sum_cons

/-- The bounds hold for what follows an event, from where the event leads. -/
theorem Unclamped.tail {t : DaemonState} {e : InputEvent} {es : List InputEvent}
    (h : Unclamped screen s (e :: es))
    (ht : ∀ axis, t.cursor axis = s.cursor axis + (e.move axis).asI32) :
    Unclamped screen t es := by
  rintro before after rfl axis
  have hbounds := h (e :: before) after rfl axis
  rw [displacement_cons, ← add_assoc, ← ht] at hbounds
  exact hbounds

/-- The tracked cursor moves by what the deltas are in whole pixels. -/
theorem walkMoves_of_unclamped {es : List InputEvent} (h : Unclamped screen s es) :
    ∃ t ∈ walkMoves screen s es, ∀ axis, t.cursor axis = s.cursor axis + displacement axis es := by
  induction es generalizing s with
  | nil => exact ⟨s, rfl, fun axis ↦ (add_zero _).symm⟩
  | cons e es ih =>
    obtain ⟨u, hwalk, hu⟩ : ∃ u, walkMoves screen s (e :: es) = walkMoves screen u es ∧
        ∀ axis, u.cursor axis = s.cursor axis + (e.move axis).asI32 := by
      cases hmove : e.isMove with
      | false =>
        refine ⟨s, walkMoves_cons_of_not_move screen hmove es, fun axis ↦ ?_⟩
        match e with
        | .mouseButton _ _ | .scroll _ _ | .key _ _ => cases axis <;> exact (add_zero _).symm
      | true =>
        match e with
        | .mouseMove dx dy =>
          have hx := h [.mouseMove dx dy] es rfl .x
          have hy := h [.mouseMove dx dy] es rfl .y
          rw [displacement_cons, displacement, List.map_nil, List.sum_nil, add_zero] at hx hy
          have htrackX : trackAxis screen.width s.cursorX dx = some (s.cursorX + dx.asI32) :=
            trackAxis_of_mem hx.1 hx.2
          have htrackY : trackAxis screen.height s.cursorY dy = some (s.cursorY + dy.asI32) :=
            trackAxis_of_mem hy.1 hy.2
          refine ⟨{ s with
            cursorX := s.cursorX + dx.asI32
            cursorY := s.cursorY + dy.asI32 }, ?_, fun axis ↦ ?_⟩
          · rw [walkMoves, trackMove, htrackX, htrackY]
          · cases axis <;> rfl
    obtain ⟨t, ht, hcursor⟩ := ih (h.tail hu)
    refine ⟨t, hwalk ▸ ht, fun axis ↦ ?_⟩
    rw [hcursor, hu, displacement_cons, add_assoc]

end Track

open EvdevEmulator (axisValues moveCode emit)

/-- The exact sum of the deltas on an axis. -/
def exactDisplacement (axis : Axis) (es : List InputEvent) : ℚ :=
  (es.map fun e ↦ (e.move axis).toRat).sum

/-- What is lost is what each event drops. -/
theorem exactDisplacement_sub (axis : Axis) (es : List InputEvent) :
    exactDisplacement axis es - displacement axis es =
      (es.map fun e ↦ dropped (e.move axis)).sum := by
  induction es with
  | nil => exact sub_self _
  | cons e es ih =>
    rw [displacement_cons, exactDisplacement, List.map_cons, List.sum_cons, List.map_cons,
      List.sum_cons, ← ih, Int.cast_add, exactDisplacement, dropped]
    ring

/-- **How far the motion is off**, for every list of raw motions that the clamp leaves alone: what
is written and what is tracked are the same, short of the exact sum by the parts that were dropped,
less than a pixel for each event with a fraction. -/
theorem displacement_error {screen : ScreenInfo} {s : DaemonState} (raws : List RawMotionEvent)
    (h : Unclamped screen s (raws.filterMap RawMotionEvent.event)) :
    ∃ t ∈ walkMoves screen s (raws.filterMap RawMotionEvent.event), ∀ axis,
      let es := raws.filterMap RawMotionEvent.event
      let written := (axisValues (moveCode axis) (es.flatMap emit)).sum
      t.cursor axis - s.cursor axis = written ∧
        exactDisplacement axis es - written = (es.map fun e ↦ dropped (e.move axis)).sum ∧
        |exactDisplacement axis es - written| ≤
          es.countP (fun e ↦ hasFraction (e.move axis)) * (1 - 1 / 4294967296) := by
  obtain ⟨t, ht, hcursor⟩ := walkMoves_of_unclamped h
  refine ⟨t, ht, fun axis ↦ ?_⟩
  have hwritten := EvdevEmulator.sum_axisValues_flatMap axis (raws.filterMap RawMotionEvent.event)
  have herror := exactDisplacement_sub axis (raws.filterMap RawMotionEvent.event)
  rw [displacement, ← hwritten] at herror
  refine ⟨?_, herror, ?_⟩
  · rw [hcursor, displacement, ← hwritten, add_sub_cancel_left]
  · rw [herror]
    refine abs_sum_map_le fun e he ↦ abs_dropped_le ?_
    obtain ⟨raw, -, he⟩ := List.mem_filterMap.1 he
    exact RawMotionEvent.isFp3232_event he axis

/-- A raw motion of half a pixel to the right. -/
def halfPixel : RawMotionEvent := ⟨[1], [⟨0, 2147483648, by decide⟩]⟩

/-- A raw motion of a pixel and a half to the left and a pixel down. -/
def pixelAndHalf : RawMotionEvent := ⟨[3], [⟨-2, 2147483648, by decide⟩, ⟨1, 0, by decide⟩]⟩

/-- From the centre of the screen, three motions with a fraction to the side and none downwards. -/
theorem displacement_error_halfPixel :
    ∃ t ∈ walkMoves .fallback (.new .fallback 0)
        ([halfPixel, pixelAndHalf, halfPixel].filterMap RawMotionEvent.event),
      t.cursor .x - (DaemonState.new .fallback 0).cursor .x = -1 ∧
        t.cursor .y - (DaemonState.new .fallback 0).cursor .y = 1 := by
  have hunclamped : Unclamped .fallback (.new .fallback 0)
      ([halfPixel, pixelAndHalf, halfPixel].filterMap RawMotionEvent.event) := by
    decide +kernel
  obtain ⟨t, ht, herror⟩ := displacement_error [halfPixel, pixelAndHalf, halfPixel] hunclamped
  have hx : (axisValues (moveCode .x)
      (([halfPixel, pixelAndHalf, halfPixel].filterMap RawMotionEvent.event).flatMap emit)).sum =
      -1 := by
    decide +kernel
  have hy : (axisValues (moveCode .y)
      (([halfPixel, pixelAndHalf, halfPixel].filterMap RawMotionEvent.event).flatMap emit)).sum =
      1 := by
    decide +kernel
  exact ⟨t, ht, (herror .x).1.trans hx, (herror .y).1.trans hy⟩

/-- Two halves of a pixel are a whole one, and neither the device nor the cursor moves. -/
theorem not_lt_one_halfPixel :
    let es := [halfPixel, halfPixel].filterMap RawMotionEvent.event
    let written := (axisValues (moveCode .x) (es.flatMap emit)).sum
    Unclamped .fallback (.new .fallback 0) es ∧
      ¬ |exactDisplacement .x es - (written : ℤ)| < 1 ∧
      ∃ t ∈ walkMoves .fallback (.new .fallback 0) es,
        ¬ |exactDisplacement .x es -
          ((t.cursor .x - (DaemonState.new .fallback 0).cursor .x : ℤ))| < 1 := by
  have hunclamped : Unclamped .fallback (.new .fallback 0)
      ([halfPixel, halfPixel].filterMap RawMotionEvent.event) := by
    decide +kernel
  obtain ⟨t, ht, hcursor⟩ := walkMoves_of_unclamped hunclamped
  refine ⟨hunclamped, by decide +kernel, t, ht, ?_⟩
  rw [hcursor]
  decide +kernel

end Kmflow
