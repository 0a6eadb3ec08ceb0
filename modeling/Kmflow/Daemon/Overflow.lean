import Kmflow.Daemon.Scan
import Kmflow.Input.Emulate

/-!
# Arithmetic on what a peer sends

Deltas and scancodes come from the peer as they are, and three places compute with them in machine
integers: the cursor adds a delta to itself before it clamps, the evdev emulator negates a wheel
delta, and the X11 emulator adds to a scancode. The casts before them saturate, the operations do
not: the debug build panics when one of them leaves its range, and the release build wraps.

On a usable screen a sum can leave its range on one side only, since the cursor is never negative,
and a wrapped sum still ends on the screen, at the opposite edge. So the arithmetic is exact as
long as no sum passes `i32::MAX`, no wheel delta is cut off at `i32::MIN`, and no scancode is within
eight of the end of `u32` (`exact_iff`).
-/

namespace Kmflow

/-! ### The screen and the cursor -/

/-- A screen whose sides an `i32` can hold, and neither of which is empty. -/
structure ScreenInfo.Usable (screen : ScreenInfo) : Prop where
  width_pos : 1 ≤ screen.width.toNat
  width_le : (screen.width.toNat : ℤ) ≤ i32Max
  height_pos : 1 ≤ screen.height.toNat
  height_le : (screen.height.toNat : ℤ) ≤ i32Max

/-- A position on an axis of a given size. -/
def OnAxis (size : UInt32) (pos : ℤ) : Prop := 0 ≤ pos ∧ pos < size.toNat

/-- The cursor is on the screen. -/
def OnScreen (screen : ScreenInfo) (s : DaemonState) : Prop :=
  OnAxis screen.width s.cursorX ∧ OnAxis screen.height s.cursorY

/-- A position moved by a delta in exact arithmetic, and clamped to the axis. -/
def exactAxis (size : UInt32) (pos : ℤ) (d : F64) : ℤ :=
  max 0 (min (pos + d.asI32) (size.toNat - 1))

section Axis

variable {size : UInt32} {pos : ℤ} {d : F64}

/-- The last position of an axis. -/
theorem wrapI32_size_sub_one (hpos : 1 ≤ size.toNat) (hle : (size.toNat : ℤ) ≤ i32Max) :
    wrapI32 (u32AsI32 size - 1) = size.toNat - 1 := by
  rw [u32AsI32_of_le hle]
  refine wrapI32_of_inI32 ⟨?_, by omega⟩
  simp only [i32Min]
  omega

/-- On a usable side, the position after a move is the sum, wrapped and clamped. -/
theorem trackAxis_eq (hpos : 1 ≤ size.toNat) (hle : (size.toNat : ℤ) ≤ i32Max) (pos : ℤ) (d : F64) :
    trackAxis size pos d = some (max 0 (min (wrapI32 (pos + d.asI32)) (size.toNat - 1))) := by
  rw [trackAxis, clamp, wrapI32_size_sub_one hpos hle, if_pos (by omega)]

/-- A tracked position is on the axis, whether or not the sum wrapped. -/
theorem onAxis_of_trackAxis (hpos : 1 ≤ size.toNat) (hle : (size.toNat : ℤ) ≤ i32Max) {x : ℤ}
    (hx : trackAxis size pos d = some x) : OnAxis size x := by
  rw [trackAxis_eq hpos hle] at hx
  obtain rfl := Option.some.inj hx
  exact ⟨le_max_left _ _, by omega⟩

/-- A sum stays in range exactly when it does not pass `i32::MAX`. -/
theorem inI32_sum_iff (hx : OnAxis size pos) :
    InI32 (pos + d.asI32) ↔ pos + d.asI32 ≤ i32Max := by
  refine ⟨fun h ↦ h.2, fun h ↦ ⟨?_, h⟩⟩
  have hd := d.inI32_asI32.1
  have hpos := hx.1
  omega

end Axis

/-- The cursor update is exact: both sums are in range, and the cursor ends where exact arithmetic
and a clamp put it. -/
structure ExactMove (screen : ScreenInfo) (dx dy : F64) (s : DaemonState) : Prop where
  sumX : InI32 (s.cursorX + dx.asI32)
  sumY : InI32 (s.cursorY + dy.asI32)
  result : trackMove screen dx dy s = .ok { s with
    cursorX := exactAxis screen.width s.cursorX dx
    cursorY := exactAxis screen.height s.cursorY dy }

section Screen

variable {screen : ScreenInfo} {s t : DaemonState} {dx dy : F64}

/-- A move is exact unless a sum exceeds `i32::MAX`. -/
theorem exactMove_iff (hscreen : screen.Usable) (hs : OnScreen screen s) :
    ExactMove screen dx dy s ↔
      s.cursorX + dx.asI32 ≤ i32Max ∧ s.cursorY + dy.asI32 ≤ i32Max := by
  rw [← inI32_sum_iff hs.1, ← inI32_sum_iff hs.2]
  refine ⟨fun h ↦ ⟨h.sumX, h.sumY⟩, fun ⟨hx, hy⟩ ↦ ⟨hx, hy, ?_⟩⟩
  rw [trackMove, trackAxis_eq hscreen.width_pos hscreen.width_le,
    trackAxis_eq hscreen.height_pos hscreen.height_le, wrapI32_of_inI32 hx, wrapI32_of_inI32 hy]
  rfl

/-- A move that can be tracked ends on the screen. -/
theorem onScreen_of_trackMove (hscreen : screen.Usable) (ht : trackMove screen dx dy s = .ok t) :
    OnScreen screen t := by
  rw [trackMove] at ht
  cases hx : trackAxis screen.width s.cursorX dx with
  | none => rw [hx] at ht; cases ht
  | some x =>
    cases hy : trackAxis screen.height s.cursorY dy with
    | none => rw [hx, hy] at ht; cases ht
    | some y =>
      rw [hx, hy] at ht
      obtain rfl := Except.ok.inj ht
      exact ⟨onAxis_of_trackAxis hscreen.width_pos hscreen.width_le hx,
        onAxis_of_trackAxis hscreen.height_pos hscreen.height_le hy⟩

/-- However the sums come out, the cursor stays on the screen. -/
theorem onScreen_of_walkMoves (hscreen : screen.Usable) {es : List InputEvent}
    (hs : OnScreen screen s) (ht : walkMoves screen s es = some t) : OnScreen screen t := by
  induction es generalizing s with
  | nil => exact Option.some.inj ht ▸ hs
  | cons e es ih =>
    match e with
    | .mouseButton _ _ | .scroll _ _ | .key _ _ => exact ih hs ht
    | .mouseMove dx dy =>
      rw [walkMoves] at ht
      cases hmove : trackMove screen dx dy s with
      | error u => rw [hmove] at ht; cases ht
      | ok u =>
        rw [hmove] at ht
        exact ih (onScreen_of_trackMove hscreen hmove) ht

end Screen

/-! ### What the emulators compute -/

/-- The wheel value is the exact negation when that is in range. -/
theorem EvdevEmulator.emit_scroll {dx dy : F64} (h : InI32 (-dy.asI32)) :
    emit (.scroll dx dy) =
      relEvent relWheel dy (-dy.asI32) ++ relEvent relHwheel dx dx.asI32 ++ [synEvent] := by
  rw [emit, wrapI32_of_inI32 h]

/-- The negation stays in range but for `i32::MIN`. -/
theorem inI32_neg_iff (d : F64) : InI32 (-d.asI32) ↔ d.asI32 ≠ i32Min := by
  refine ⟨fun h hmin ↦ ?_, d.inI32_asI32.neg⟩
  rw [hmin] at h
  exact absurd h (by decide)

/-- The keycode is the low byte of the exact sum when that is in range. -/
theorem X11Emulator.emit_key {scancode : UInt32} (h : scancode.toNat + 8 < 4294967296) :
    ∀ request ∈ emit (.key scancode .pressed) ++ emit (.key scancode .released),
      request.detail.toNat = (scancode.toNat + 8) % 256 := by
  have hsum : (scancode + 8).toNat = scancode.toNat + 8 := by
    rw [UInt32.toNat_add]
    exact Nat.mod_eq_of_lt h
  intro request hrequest
  rcases List.mem_pair.1 hrequest with rfl | rfl
  · exact (UInt32.toNat_toUInt8 _).trans (congrArg (· % 256) hsum)
  · exact (UInt32.toNat_toUInt8 _).trans (congrArg (· % 256) hsum)

/-! ### A list of events -/

/-- Every cursor update that the tracking of the events makes is exact. The update for a move is
made once the moves before it have passed. -/
def CursorExact (cfg : SessionConfig) (inCooldown : Bool) (s : DaemonState)
    (es : List InputEvent) : Prop :=
  ∀ before dx dy after, es = before ++ .mouseMove dx dy :: after →
    Passes cfg inCooldown s before → ∀ t ∈ walkMoves cfg.localScreen s before,
      ExactMove cfg.localScreen dx dy t

/-- Every wheel delta can be negated. -/
def WheelExact (es : List InputEvent) : Prop :=
  ∀ dx dy, .scroll dx dy ∈ es → InI32 (-dy.asI32)

/-- Eight can be added to every scancode. -/
def KeycodeExact (es : List InputEvent) : Prop :=
  ∀ scancode state, .key scancode state ∈ es → scancode.toNat + 8 < UInt32.size

/-- The condition: no sum passes `i32::MAX`, no wheel delta is cut off at `i32::MIN`, and no
scancode is within eight of the end of `u32`. -/
structure Moderate (cfg : SessionConfig) (inCooldown : Bool) (s : DaemonState)
    (es : List InputEvent) : Prop where
  cursor : ∀ before dx dy after, es = before ++ .mouseMove dx dy :: after →
    Passes cfg inCooldown s before → ∀ t ∈ walkMoves cfg.localScreen s before,
      t.cursorX + dx.asI32 ≤ i32Max ∧ t.cursorY + dy.asI32 ≤ i32Max
  wheel : ∀ dx dy, .scroll dx dy ∈ es → dy.asI32 ≠ i32Min
  keycode : ∀ scancode state, .key scancode state ∈ es → scancode.toNat ≤ 4294967287

/-- **When the arithmetic is exact.** On a usable screen, with the cursor on it, for every list of
events (a received frame, or one captured event), in or out of the cooldown. -/
theorem exact_iff {cfg : SessionConfig} (hscreen : cfg.localScreen.Usable) {s : DaemonState}
    (hs : OnScreen cfg.localScreen s) (inCooldown : Bool) (es : List InputEvent) :
    CursorExact cfg inCooldown s es ∧ WheelExact es ∧ KeycodeExact es ↔
      Moderate cfg inCooldown s es := by
  have hcursor {t : DaemonState} {before : List InputEvent} {dx dy : F64}
      (ht : t ∈ walkMoves cfg.localScreen s before) :
      ExactMove cfg.localScreen dx dy t ↔
        t.cursorX + dx.asI32 ≤ i32Max ∧ t.cursorY + dy.asI32 ≤ i32Max :=
    exactMove_iff hscreen (onScreen_of_walkMoves hscreen hs ht)
  constructor
  · rintro ⟨hexact, hwheel, hkeycode⟩
    refine ⟨fun before dx dy after hes hpasses t ht ↦ ?_, fun dx dy he ↦ ?_, fun c state he ↦ ?_⟩
    · exact (hcursor ht).1 (hexact before dx dy after hes hpasses t ht)
    · exact (inI32_neg_iff dy).1 (hwheel dx dy he)
    · exact Nat.le_of_lt_add_one (Nat.lt_of_add_lt_add_right (hkeycode c state he))
  · intro h
    refine ⟨fun before dx dy after hes hpasses t ht ↦ ?_, fun dx dy he ↦ ?_, fun c state he ↦ ?_⟩
    · exact (hcursor ht).2 (h.cursor before dx dy after hes hpasses t ht)
    · exact (inI32_neg_iff dy).2 (h.wheel dx dy he)
    · exact Nat.add_lt_add_right (Nat.lt_add_one_of_le (h.keycode c state he)) 8

/-- The screen that is assumed is usable. -/
theorem usable_fallback : ScreenInfo.fallback.Usable := by
  constructor <;> decide

/-- Its centre is on it. -/
theorem onScreen_fallback : OnScreen .fallback (.new .fallback 0) :=
  ⟨⟨by decide, by decide⟩, by decide, by decide⟩

/-- A small move, a turn of the wheel and a key. -/
def smallEvents : List InputEvent :=
  [.mouseMove (.finite 10) (.finite 0), .scroll (.finite 0) (.finite 1), .key 30 .pressed]

/-- Small deltas and common keys are exact. -/
theorem exact_iff_smallEvents :
    CursorExact .fallback false (.new .fallback 0) smallEvents ∧ WheelExact smallEvents ∧
      KeycodeExact smallEvents := by
  refine (exact_iff usable_fallback onScreen_fallback false smallEvents).2 ⟨?_, ?_, ?_⟩
  · intro before dx dy after hes _ t ht
    cases before with
    | nil =>
      obtain ⟨rfl, rfl⟩ := InputEvent.mouseMove.inj (List.cons.inj hes).1
      obtain rfl := Option.some.inj ht
      decide +kernel
    | cons e before =>
      have hmem : .mouseMove dx dy ∈ smallEvents.tail := by
        rw [hes]
        simp
      simp [smallEvents] at hmem
  · intro dx dy he
    obtain ⟨rfl, rfl⟩ : dx = .finite 0 ∧ dy = .finite 1 := by simpa [smallEvents] using he
    decide +kernel
  · intro scancode state he
    obtain ⟨rfl, rfl⟩ : scancode = 30 ∧ state = .pressed := by simpa [smallEvents] using he
    decide

/-- The largest move, the largest turn of the wheel and the largest scancode. -/
def extremeEvents : List InputEvent :=
  [.mouseMove (.finite 2147483647) (.finite 0), .scroll (.finite 0) (.finite (-2147483648)),
    .key 4294967295 .pressed]

/-- All three go wrong. From the middle of the screen the wrapped sum takes the cursor to the left
edge. -/
theorem not_exact_extremeEvents :
    ¬ CursorExact .fallback false (.new .fallback 0) extremeEvents ∧
      trackAxis 1920 960 (.finite 2147483647) = some 0 ∧ ¬ WheelExact extremeEvents ∧
      ¬ KeycodeExact extremeEvents := by
  refine ⟨fun h ↦ ?_, by decide +kernel, fun h ↦ ?_, fun h ↦ ?_⟩
  · have hmove := h [] _ _ _ rfl passes_nil _ rfl
    exact absurd hmove.sumX (by decide +kernel)
  · exact absurd (h _ _ (.tail _ (.head _))) (by decide +kernel)
  · exact absurd (h _ _ (.tail _ (.tail _ (.head _)))) (by decide)

end Kmflow
