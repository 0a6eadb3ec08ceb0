import Kmflow.Daemon.Overflow
import Kmflow.Daemon.Supervisor
import Mathlib.Algebra.Order.Group.Abs
import Mathlib.Algebra.Order.Group.Int

/-!
# The geometry of the edges

Two things are asked of the edge detector beside what its code says. Opposite sides of the screen
should behave alike, and a cursor in the centre should have to travel to reach a side.

The first fails by one pixel. The dead zone of the left and the top side is `pos < d`, which is `d`
pixels; that of the right and the bottom side is `size - d < pos`, which is `d - 1` of them. Only at
the ends of the zones does it show: `mirrorsAt_iff` says at which points.

The second holds. A clamped move takes the cursor no farther than its delta
(`abs_exactAxis_sub_le`), so a walk takes it no farther than the sum of the deltas
(`distance_le_travel`), and whoever reaches a side from the centre has gone half of the screen
(`travels_of_check`).
-/

namespace Kmflow

namespace EdgeDetector

/-- `with_dead_zone`. -/
def withDeadZone (d : EdgeDetector) (px : UInt32) : EdgeDetector := { d with deadZone := px }

/-- The detector of the opposite edge of the same screen. -/
def opposite (d : EdgeDetector) : EdgeDetector := { d with targetEdge := oppositeEdge d.targetEdge }

/-! ### Mirrored points -/

/-- The detector triggers at the point exactly when the detector of the opposite edge triggers at
the mirrored point. -/
def MirrorsAt (d : EdgeDetector) (x y : ℤ) : Prop :=
  d.check x y ≠ .none ↔
    d.opposite.check (d.screen.width.toNat - 1 - x) (d.screen.height.toNat - 1 - y) ≠ .none

instance (d : EdgeDetector) (x y : ℤ) : Decidable (d.MirrorsAt x y) :=
  inferInstanceAs (Decidable (_ ↔ _))

/-- The pixels of a side at which its dead zone and that of the opposite side differ: where the one
of the two that is narrower has ended already. Here `depth` is the size of the screen across the
side and `size` its size along the side. A dead zone of one pixel is none at all on the far sides,
the right one and the bottom one; for a wider one both ends of the side are concerned. -/
def Uneven (deadZone depth size : ℤ) (far : Bool) (pos : ℤ) : Prop :=
  if deadZone = 1 ∧ 1 < depth then pos = if far then size - 1 else 0
  else 0 < deadZone ∧ 2 * deadZone ≤ size ∧ (pos = deadZone - 1 ∨ pos = size - deadZone)

/-- The point is such a pixel of the target side. -/
def UnevenAt (d : EdgeDetector) (x y : ℤ) : Prop :=
  let w : ℤ := d.screen.width.toNat
  let h : ℤ := d.screen.height.toNat
  let dz : ℤ := d.deadZone.toNat
  match d.targetEdge with
  | .right => x = w - 1 ∧ Uneven dz w h true y
  | .left => x = 0 ∧ Uneven dz w h false y
  | .top => y = 0 ∧ Uneven dz h w false x
  | .bottom => y = h - 1 ∧ Uneven dz h w true x

/-- The point is on the target side or beyond it. -/
def AtTarget (d : EdgeDetector) (x y : ℤ) : Prop :=
  match d.targetEdge with
  | .right => (d.screen.width.toNat - 1 : ℤ) ≤ x
  | .left => x ≤ 0
  | .top => y ≤ 0
  | .bottom => (d.screen.height.toNat - 1 : ℤ) ≤ y

section Screen

variable {d : EdgeDetector}

/-- The corners, in exact arithmetic. -/
theorem inCorner_iff (hscreen : d.screen.Usable) (hzone : (d.deadZone.toNat : ℤ) ≤ i32Max)
    (x y : ℤ) : d.inCorner x y = true ↔
      (y < d.deadZone.toNat ∨ (d.screen.height.toNat - d.deadZone.toNat : ℤ) < y) ∧
        (x < d.deadZone.toNat ∨ (d.screen.width.toNat - d.deadZone.toNat : ℤ) < x) := by
  have hwidth := hscreen.width_le
  have hheight := hscreen.height_le
  have hw : wrapI32 (d.screen.width.toNat - d.deadZone.toNat) =
      d.screen.width.toNat - d.deadZone.toNat :=
    wrapI32_of_inI32 (by simp only [InI32, i32Min, i32Max] at *; omega)
  have hh : wrapI32 (d.screen.height.toNat - d.deadZone.toNat) =
      d.screen.height.toNat - d.deadZone.toNat :=
    wrapI32_of_inI32 (by simp only [InI32, i32Min, i32Max] at *; omega)
  simp only [inCorner, u32AsI32_of_le hwidth, u32AsI32_of_le hheight, u32AsI32_of_le hzone, hw, hh,
    Bool.and_eq_true, Bool.or_eq_true, decide_eq_true_eq]

/-- **When the detector triggers.** -/
theorem check_ne_none_iff (hscreen : d.screen.Usable) (x y : ℤ) :
    d.check x y ≠ .none ↔ d.inCorner x y = false ∧ d.AtTarget x y := by
  have hw := wrapI32_size_sub_one hscreen.width_pos hscreen.width_le
  have hh := wrapI32_size_sub_one hscreen.height_pos hscreen.height_le
  rw [check, AtTarget, hw, hh]
  cases d.inCorner x y with
  | true => simp
  | false => cases d.targetEdge <;> simp

/-- **Where two opposite sides agree**: at every point of the screen but the pixels of the target
side that are in the one dead zone and, mirrored, not in the other. -/
theorem mirrorsAt_iff (hscreen : d.screen.Usable) (hzone : (d.deadZone.toNat : ℤ) ≤ i32Max)
    {x y : ℤ} (hx : OnAxis d.screen.width x) (hy : OnAxis d.screen.height y) :
    d.MirrorsAt x y ↔ ¬ d.UnevenAt x y := by
  have hcorner := inCorner_iff (d := d) hscreen hzone
  have hcorner' : ∀ x y, d.opposite.inCorner x y = true ↔ _ := hcorner
  simp only [OnAxis] at hx hy
  rw [MirrorsAt, check_ne_none_iff hscreen, check_ne_none_iff (d := d.opposite) hscreen,
    ← Bool.not_eq_true, ← Bool.not_eq_true, hcorner, hcorner', UnevenAt, AtTarget, AtTarget]
  cases hedge : d.targetEdge
  all_goals
    simp only [opposite, hedge, oppositeEdge, Uneven, if_true, Bool.false_eq_true, if_false]
    split_ifs <;> omega

end Screen

/-- The pixel beside the lower dead zone of the right side: its mirror is inside the upper dead zone
of the left side. -/
theorem not_mirrorsAt_fallback :
    ¬ (SessionConfig.fallback.edgeDetector).MirrorsAt 1919 1030 := by
  decide +kernel

/-- In the middle of the right side the hit is mirrored. -/
theorem mirrorsAt_iff_middle : (SessionConfig.fallback.edgeDetector).MirrorsAt 1919 540 :=
  (mirrorsAt_iff usable_fallback (by decide) ⟨by decide, by decide⟩
    ⟨by decide, by decide⟩).2 fun h ↦ by
      simp [UnevenAt, SessionConfig.edgeDetector, SessionConfig.fallback, new, deadZonePx,
        ScreenInfo.fallback, Uneven] at h

end EdgeDetector

/-! ### From the centre to a side -/

/-- How far a move would take the cursor along the two axes, if nothing stopped it. -/
def InputEvent.reachX : InputEvent → ℤ
  | mouseMove dx _ => |dx.asI32|
  | _ => 0

/-- How far an event moves the cursor up or down, at most. -/
def InputEvent.reachY : InputEvent → ℤ
  | mouseMove _ dy => |dy.asI32|
  | _ => 0

/-- How far all the events together move the cursor to the side, at most. -/
def travelX (es : List InputEvent) : ℤ := (es.map InputEvent.reachX).sum

/-- How far all the events together move it up or down, at most. -/
def travelY (es : List InputEvent) : ℤ := (es.map InputEvent.reachY).sum

/-- No sum of the tracking leaves `i32`. -/
def NoOverflow (screen : ScreenInfo) (s : DaemonState) : List InputEvent → Prop
  | [] => True
  | .mouseMove dx dy :: es =>
    InI32 (s.cursorX + dx.asI32) ∧ InI32 (s.cursorY + dy.asI32) ∧
      ∀ t, trackMove screen dx dy s = .ok t → NoOverflow screen t es
  | _ :: es => NoOverflow screen s es

/-- What must be travelled from the centre to reach the edge. -/
def ReachesFromCenter (screen : ScreenInfo) (es : List InputEvent) : Edge → Prop
  | .right => (screen.width.toNat - 1 - screen.width.toNat / 2 : ℤ) ≤ travelX es
  | .left => (screen.width.toNat / 2 : ℤ) ≤ travelX es
  | .top => (screen.height.toNat / 2 : ℤ) ≤ travelY es
  | .bottom => (screen.height.toNat - 1 - screen.height.toNat / 2 : ℤ) ≤ travelY es

/-- A clamped move goes no farther than its delta. -/
theorem abs_exactAxis_sub_le {size : UInt32} {pos : ℤ} (hpos : OnAxis size pos) (d : F64) :
    |exactAxis size pos d - pos| ≤ |d.asI32| := by
  obtain ⟨hlo, hhi⟩ := hpos
  rw [exactAxis, abs_le]
  rcases abs_cases d.asI32 with ⟨habs, hsign⟩ | ⟨habs, hsign⟩ <;> omega

section Travel

variable {screen : ScreenInfo} {s : DaemonState}

/-- **A walk goes no farther than its deltas add up to**, and it gets through. -/
theorem distance_le_travel (hscreen : screen.Usable) {es : List InputEvent}
    (hs : OnScreen screen s) (hrange : NoOverflow screen s es) :
    ∃ t, walkMoves screen s es = some t ∧
      |t.cursorX - s.cursorX| ≤ travelX es ∧ |t.cursorY - s.cursorY| ≤ travelY es := by
  induction es generalizing s with
  | nil => exact ⟨s, rfl, by simp [travelX], by simp [travelY]⟩
  | cons e es ih =>
    match e with
    | .mouseButton _ _ | .scroll _ _ | .key _ _ =>
      rw [walkMoves_cons_of_not_move _ rfl]
      simpa [travelX, travelY, InputEvent.reachX, InputEvent.reachY] using ih hs hrange
    | .mouseMove dx dy =>
      obtain ⟨hx, hy, hrest⟩ := hrange
      have hmove := ((exactMove_iff hscreen hs).2 ⟨hx.2, hy.2⟩).result
      obtain ⟨t, ht, htx, hty⟩ := ih (onScreen_of_trackMove hscreen hmove) (hrest _ hmove)
      refine ⟨t, by rw [walkMoves, hmove]; exact ht, ?_, ?_⟩
      · calc |t.cursorX - s.cursorX|
            ≤ |t.cursorX - exactAxis screen.width s.cursorX dx|
              + |exactAxis screen.width s.cursorX dx - s.cursorX| := abs_sub_le _ _ _
          _ ≤ travelX es + |dx.asI32| := add_le_add htx (abs_exactAxis_sub_le hs.1 dx)
          _ = travelX (.mouseMove dx dy :: es) := add_comm _ _
      · calc |t.cursorY - s.cursorY|
            ≤ |t.cursorY - exactAxis screen.height s.cursorY dy|
              + |exactAxis screen.height s.cursorY dy - s.cursorY| := abs_sub_le _ _ _
          _ ≤ travelY es + |dy.asI32| := add_le_add hty (abs_exactAxis_sub_le hs.2 dy)
          _ = travelY (.mouseMove dx dy :: es) := add_comm _ _

end Travel

/-- Half of a size, as the reset computes it. -/
theorem tdiv_two_u32AsI32 {size : UInt32} (hle : (size.toNat : ℤ) ≤ i32Max) :
    (u32AsI32 size).tdiv 2 = (size.toNat : ℤ) / 2 := by
  rw [u32AsI32_of_le hle, Int.tdiv_eq_ediv_of_nonneg (by omega)]

/-- **Whoever reaches the edge from the centre has travelled there.** On a screen of three pixels or
more either way, with any dead zone, the detector does not trigger where the reset puts the cursor,
and if it triggers after a walk that does not overflow, the deltas along its axis add up to the
distance of the edge from the centre. -/
theorem travels_of_check {cfg : SessionConfig} (hscreen : cfg.localScreen.Usable)
    (hwidth : 3 ≤ cfg.localScreen.width.toNat) (hheight : 3 ≤ cfg.localScreen.height.toNat)
    (deadZone : UInt32) (s : DaemonState) {es : List InputEvent}
    (hrange : NoOverflow cfg.localScreen (centerCursor cfg s) es) :
    (cfg.edgeDetector.withDeadZone deadZone).check
        (centerCursor cfg s).cursorX (centerCursor cfg s).cursorY = .none ∧
      ∃ t, walkMoves cfg.localScreen (centerCursor cfg s) es = some t ∧
        ((cfg.edgeDetector.withDeadZone deadZone).check t.cursorX t.cursorY ≠ .none →
          ReachesFromCenter cfg.localScreen es cfg.targetEdge) := by
  have hx : (centerCursor cfg s).cursorX = (cfg.localScreen.width.toNat : ℤ) / 2 :=
    tdiv_two_u32AsI32 hscreen.width_le
  have hy : (centerCursor cfg s).cursorY = (cfg.localScreen.height.toNat : ℤ) / 2 :=
    tdiv_two_u32AsI32 hscreen.height_le
  have hcenter : OnScreen cfg.localScreen (centerCursor cfg s) := by
    constructor
    · rw [OnAxis, hx]
      omega
    · rw [OnAxis, hy]
      omega
  have hcheck : ∀ x y, (cfg.edgeDetector.withDeadZone deadZone).check x y ≠ .none →
      (cfg.edgeDetector.withDeadZone deadZone).AtTarget x y := fun x y h ↦
    ((EdgeDetector.check_ne_none_iff hscreen x y).1 h).2
  have htarget : ∀ x y, (cfg.edgeDetector.withDeadZone deadZone).AtTarget x y =
      match cfg.targetEdge with
      | .right => (cfg.localScreen.width.toNat - 1 : ℤ) ≤ x
      | .left => x ≤ 0
      | .top => y ≤ 0
      | .bottom => (cfg.localScreen.height.toNat - 1 : ℤ) ≤ y := fun _ _ ↦ rfl
  obtain ⟨t, ht, htx, hty⟩ := distance_le_travel hscreen hcenter hrange
  rw [hx, abs_le] at htx
  rw [hy, abs_le] at hty
  refine ⟨by_contra fun h ↦ ?_, t, ht, fun h ↦ ?_⟩
  · have hat := hcheck _ _ h
    rw [htarget, hx, hy] at hat
    cases hedge : cfg.targetEdge <;> simp only [hedge] at hat <;> omega
  · have hat := hcheck _ _ h
    rw [htarget] at hat
    cases hedge : cfg.targetEdge <;> simp only [hedge] at hat <;> rw [ReachesFromCenter] <;> omega

/-- From the centre of the fallback screen to its right edge, in two moves. -/
def rightward : List InputEvent :=
  [.mouseMove (.finite 500) (.finite 0), .mouseMove (.finite 500) (.finite 0)]

/-- Moves that get to the right edge have gone half the width. -/
theorem travels_of_check_rightward :
    (SessionConfig.fallback.edgeDetector.withDeadZone 50).check 960 540 = .none ∧
      ∃ t, walkMoves .fallback (.new .fallback 0) rightward = some t ∧
        ((SessionConfig.fallback.edgeDetector.withDeadZone 50).check t.cursorX t.cursorY ≠ .none →
          ReachesFromCenter .fallback rightward .right) := by
  have hrange : NoOverflow .fallback (centerCursor .fallback (.new .fallback 0)) rightward := by
    refine ⟨by decide +kernel, by decide +kernel, fun t ht ↦ ?_⟩
    obtain rfl := Except.ok.inj ht
    exact ⟨by decide +kernel, by decide +kernel, fun _ _ ↦ trivial⟩
  exact @travels_of_check .fallback usable_fallback (by decide) (by decide) 50 (.new .fallback 0) _
    hrange

end Kmflow
