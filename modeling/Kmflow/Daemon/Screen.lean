import Kmflow.Foundation.Passes
import Kmflow.Foundation.Text
import Kmflow.Foundation.Trunc
import Kmflow.Daemon.Overflow

/-!
# The size of the local screen

`parse_cosmic_randr` and `parse_wlr_randr` read a resolution and a scale from what a display tool
prints, check that the resolution is not empty, and divide it by the scale; `Daemon::new` then
applies the scale of the command line, which divides once more when no scale was found. The check
comes before the division, and nothing checks a scale: a large one leaves a screen of size `0`, and
a scale of `0` one of size `u32::MAX`. The event loops clamp to the sizes read as `i32`, and panic
on both.

The size is usable exactly when the scale divided by is positive, no larger than either side, and
large enough for both quotients to stay below `2 ^ 31` (`usable_iff`). Scales are exact rationals
here, as they are written and without rounding, and a division by `0.0` gives the positive infinity;
a scale of `-0.0` would give the negative one, which makes the size `0`.
-/

namespace Kmflow

/-! ### Numbers -/

namespace F64

/-- A `u32` read `as f64`. -/
def ofU32 (n : UInt32) : F64 := finite n.toNat

/-- `as u32` on an `f64`. -/
def asU32 : F64 → UInt32
  | nan => 0
  | inf true => 0
  | inf false => 4294967295
  | finite q => .ofNat (min q.trunc.toNat 4294967295)

/-- Division of `f64`s, without rounding. -/
def div : F64 → F64 → F64
  | nan, _ | _, nan | inf _, inf _ => nan
  | inf negative, finite q => inf (negative ^^ decide (q < 0))
  | finite _, inf _ => finite 0
  | finite p, finite q =>
    if q ≠ 0 then finite (p / q) else if p = 0 then nan else inf (decide (p < 0))

/-- `x > 1.0`. -/
def isAboveOne : F64 → Bool
  | nan => false
  | inf negative => !negative
  | finite q => decide (1 < q)

/-- `x == 1.0`. -/
def isOne (x : F64) : Bool := decide (x = finite 1)

/-- `parse` as an `f64`: the number that is written, which is not rounded to a double. -/
def parse (text : List Char) : Option F64 :=
  let (negative, rest) := match text with
    | '-' :: rest => (true, rest)
    | '+' :: rest => (false, rest)
    | _ => (false, text)
  match Text.decimal rest with
  | some q => some (finite (if negative then -q else q))
  | none =>
    let word := rest.map Char.toLower
    if word = "inf".toList ∨ word = "infinity".toList then some (inf negative)
    else if word = "nan".toList then some nan
    else none

end F64

/-- `parse` as a `u32`, with `0` for what cannot be read. -/
def parseU32 (text : List Char) : UInt32 :=
  .ofNat ((Text.parseUnsigned UInt32.size text).getD 0)

/-! ### What the display tools print -/

/-- How a tool's lines are read, each trimmed: the scale a line gives, if it gives one, and whether
the line is that of the current mode. -/
structure Randr where
  clean : List Char → List Char
  scale : List Char → Option F64
  isCurrent : List Char → Bool

/-- `ansi_re`: the text without its colour codes. `escape` tells whether the character is in one. -/
def stripAnsi (escape : Bool) : List Char → List Char
  | [] => []
  | c :: cs =>
    if escape then stripAnsi (c != 'm') cs
    else if c = '\x1b' then stripAnsi true cs
    else c :: stripAnsi false cs

/-- `cosmic-randr` gives the scale in percent. -/
def cosmicRandr : Randr where
  clean := stripAnsi false
  scale line := do
    let percent ← Text.stripStart "Scale:".toList line
    let percent ← F64.parse (Text.trimEndMatches '%' (Text.trim percent))
    return percent.div (.finite 100)
  isCurrent line := Text.contains "(current)".toList line

/-- The lines of `wlr-randr`. -/
def wlrRandr : Randr where
  clean text := text
  scale line := do
    let scale ← Text.stripStart "Scale:".toList line
    F64.parse (Text.trim scale)
  isCurrent line := Text.contains "current".toList line && line.contains 'x'

namespace Randr

variable (randr : Randr)

/-- The resolution a line gives, if it is that of the current mode. -/
def mode (line : List Char) : Option (UInt32 × UInt32) :=
  if randr.isCurrent line then do
    let resolution ← Text.firstWord line
    let (width, height) ← Text.splitOnce 'x' resolution
    return (parseU32 width, parseU32 height)
  else none

/-- The loop variables of a parser. -/
structure Reading where
  scale : F64
  mode : UInt32 × UInt32

/-- The body of the loop. -/
def readLine (r : Reading) (line : List Char) : Reading where
  scale := (randr.scale (Text.trim line)).getD r.scale
  mode := (randr.mode (Text.trim line)).getD r.mode

/-- The loop over the lines: of the modes and of the scales the last one counts. -/
def read (text : List Char) : Reading :=
  (Text.lines (randr.clean text)).foldl randr.readLine ⟨.finite 1, 0, 0⟩

/-- One side of the resolution, divided by the scale. -/
def logical (size : UInt32) (scale : F64) : UInt32 := ((F64.ofU32 size).div scale).asU32

/-- What a parser returns: the resolution divided by the scale, unless a side of it is empty. -/
def parse (text : List Char) : Option ScreenInfo :=
  let r := randr.read text
  if 0 < r.mode.1 ∧ 0 < r.mode.2 then
    some {
      width := logical r.mode.1 r.scale
      height := logical r.mode.2 r.scale
      scaleFactor := r.scale
      position := ⟨.right, 0⟩ }
  else none

end Randr

/-- `parse_cosmic_randr`. -/
def parseCosmicRandr (text : List Char) : Option ScreenInfo := cosmicRandr.parse text

/-- `parse_wlr_randr`. -/
def parseWlrRandr (text : List Char) : Option ScreenInfo := wlrRandr.parse text

/-- What `Daemon::new` does with the `--scale` of the command line. -/
def applyScaleOverride (scaleOverride : Option F64) (screen : ScreenInfo) : ScreenInfo :=
  match scaleOverride with
  | none => screen
  | some s =>
    if s.isAboveOne && screen.scaleFactor.isOne then
      { screen with
        width := Randr.logical screen.width s
        height := Randr.logical screen.height s
        scaleFactor := s }
    else { screen with scaleFactor := s }

/-! ### What decides the size -/

namespace Randr

variable (randr : Randr) (text : List Char)

/-- The lines of a text, as the parsers look at them. -/
def lines : List (List Char) := (Text.lines (randr.clean text)).map Text.trim

/-- The scale on the last line that gives one, and `1.0` without such a line. -/
def lastScale : F64 := ((randr.lines text).filterMap randr.scale).getLastD (.finite 1)

/-- The resolution on the last line that gives one, and an empty one without such a line. -/
def lastMode : UInt32 × UInt32 := ((randr.lines text).filterMap randr.mode).getLastD (0, 0)

/-- The last line that gives a value decides. -/
theorem read_eq : randr.read text = ⟨randr.lastScale text, randr.lastMode text⟩ := by
  have hfold : ∀ (ls : List (List Char)) (r : Reading), ls.foldl randr.readLine r =
      ⟨(ls.map Text.trim).foldl (fun b a ↦ (randr.scale a).getD b) r.scale,
        (ls.map Text.trim).foldl (fun b a ↦ (randr.mode a).getD b) r.mode⟩ := by
    intro ls
    induction ls with
    | nil => exact fun _ ↦ rfl
    | cons l ls ih => exact fun r ↦ ih (randr.readLine r l)
  rw [read, hfold, List.foldl_getD_eq_getLastD, List.foldl_getD_eq_getLastD]
  rfl

/-- What a parser returns, in terms of the last mode and the last scale. -/
theorem parse_eq_some {screen : ScreenInfo} (h : randr.parse text = some screen) :
    0 < (randr.lastMode text).1.toNat ∧ 0 < (randr.lastMode text).2.toNat ∧
      screen.width = logical (randr.lastMode text).1 (randr.lastScale text) ∧
      screen.height = logical (randr.lastMode text).2 (randr.lastScale text) ∧
      screen.scaleFactor = randr.lastScale text := by
  rw [parse, read_eq] at h
  obtain ⟨⟨hwidth, hheight⟩, hscreen⟩ := Option.ite_none_right_eq_some.1 h
  obtain rfl := Option.some.inj hscreen
  exact ⟨UInt32.lt_iff_toNat_lt.1 hwidth, UInt32.lt_iff_toNat_lt.1 hheight, rfl, rfl, rfl⟩

end Randr

/-- The scale the resolution is divided by: the override where it divides, and otherwise the scale
that was printed. -/
def divisor (scale : F64) (scaleOverride : Option F64) : F64 :=
  match scaleOverride with
  | none => scale
  | some s => if s.isAboveOne && scale.isOne then s else scale

/-- A divisor that is positive, not above the side, and large enough for the quotient. -/
def FitsSide (size : UInt32) : F64 → Prop
  | .finite q => 0 < q ∧ q ≤ size.toNat ∧ size.toNat < 2147483648 * q
  | _ => False

instance (size : UInt32) : (d : F64) → Decidable (FitsSide size d)
  | .finite _ => inferInstanceAs (Decidable (_ ∧ _ ∧ _))
  | .nan | .inf _ => inferInstanceAs (Decidable False)

/-- A divisor that fits both sides of a resolution. -/
def Fits (mode : UInt32 × UInt32) (divisor : F64) : Prop :=
  FitsSide mode.1 divisor ∧ FitsSide mode.2 divisor

instance (mode : UInt32 × UInt32) (d : F64) : Decidable (Fits mode d) :=
  inferInstanceAs (Decidable (_ ∧ _))

section Logical

variable {size : UInt32} {q : ℚ}

/-- A side divided by a number is cut off to an integer, and at `u32::MAX`. -/
theorem logical_finite (hq : q ≠ 0) :
    (Randr.logical size (.finite q)).toNat =
      min (Rat.trunc (size.toNat / q)).toNat 4294967295 := by
  rw [Randr.logical, F64.ofU32, F64.div, if_pos hq, F64.asU32, UInt32.toNat_ofNat']
  exact Nat.mod_eq_of_lt (by omega)

/-- Dividing by `1.0` changes nothing. -/
theorem logical_one (size : UInt32) : Randr.logical size (.finite 1) = size := by
  refine UInt32.toNat_inj.1 ?_
  have hsize := size.toNat_lt
  rw [logical_finite one_ne_zero, div_one, ← Int.cast_natCast, Rat.trunc_intCast,
    Int.toNat_natCast]
  omega

/-- Neither infinity, nor what is not a number, nor a divisor that is not positive leaves a usable
size. -/
theorem logical_of_not_pos {d : F64} (hsize : 0 < size.toNat) (hd : ∀ q, d = .finite q → q ≤ 0) :
    Randr.logical size d = 0 ∨ Randr.logical size d = 4294967295 := by
  match d with
  | .nan => exact .inl rfl
  | .inf negative => exact .inl (by simp [Randr.logical, F64.ofU32, F64.div, F64.asU32, Rat.trunc])
  | .finite q =>
    rcases (hd q rfl).lt_or_eq with hq | rfl
    · have hle : Rat.trunc (size.toNat / q) ≤ 0 := by
        have hquot : (size.toNat / q : ℚ) ≤ 0 :=
          div_nonpos_of_nonneg_of_nonpos (Nat.cast_nonneg _) hq.le
        rw [Rat.trunc_of_nonpos hquot]
        exact Int.ceil_nonpos.2 hquot
      refine .inl (UInt32.toNat_inj.1 ?_)
      rw [logical_finite hq.ne, Int.toNat_of_nonpos hle]
      rfl
    · have hne : (size.toNat : ℚ) ≠ 0 := Nat.cast_ne_zero.2 hsize.ne'
      have hneg : ¬ (size.toNat : ℚ) < 0 := (Nat.cast_nonneg _).not_gt
      refine .inr ?_
      rw [Randr.logical, F64.ofU32, F64.div, if_neg (not_not.2 rfl), if_neg hne,
        decide_eq_false hneg]
      rfl

/-- A quotient is usable exactly when the divisor fits. -/
theorem logical_usable_iff (hsize : 0 < size.toNat) (d : F64) :
    1 ≤ (Randr.logical size d).toNat ∧ ((Randr.logical size d).toNat : ℤ) ≤ i32Max ↔
      FitsSide size d := by
  by_cases hd : ∃ q, d = .finite q ∧ 0 < q
  · obtain ⟨q, rfl, hq⟩ := hd
    have hquot : (0 : ℚ) ≤ size.toNat / q := div_nonneg (Nat.cast_nonneg _) hq.le
    have hlow : 1 ≤ ⌊(size.toNat / q : ℚ)⌋ ↔ q ≤ size.toNat := by
      rw [Int.le_floor, Int.cast_one, one_le_div hq]
    have hhigh : ⌊(size.toNat / q : ℚ)⌋ < 2147483648 ↔ size.toNat < 2147483648 * q := by
      rw [Int.floor_lt, div_lt_iff₀ hq]
      norm_num
    rw [FitsSide, ← hlow, ← hhigh, logical_finite hq.ne', Rat.trunc_of_nonneg hquot,
      and_iff_right hq, i32Max]
    omega
  · have hnot : ¬ FitsSide size d := by
      cases d with
      | nan => exact id
      | inf negative => exact id
      | finite q => exact fun h ↦ hd ⟨q, rfl, h.1⟩
    refine iff_of_false ?_ hnot
    rcases logical_of_not_pos hsize (fun q hq ↦ not_lt.1 fun h ↦ hd ⟨q, hq, h⟩) with h | h <;>
      rw [h] <;> decide

end Logical

/-- The screen of the daemon has the resolution of the text, divided once. -/
theorem applyScaleOverride_sides {randr : Randr} {text : List Char} {screen : ScreenInfo}
    (h : randr.parse text = some screen) (scaleOverride : Option F64) :
    let mode := randr.lastMode text
    let d := divisor (randr.lastScale text) scaleOverride
    (applyScaleOverride scaleOverride screen).width = Randr.logical mode.1 d ∧
      (applyScaleOverride scaleOverride screen).height = Randr.logical mode.2 d := by
  obtain ⟨-, -, hwidth, hheight, hscale⟩ := randr.parse_eq_some text h
  cases scaleOverride with
  | none => exact ⟨hwidth, hheight⟩
  | some s =>
    rw [applyScaleOverride, divisor, hscale]
    by_cases hs : (s.isAboveOne && (randr.lastScale text).isOne) = true
    · have hone : randr.lastScale text = .finite 1 :=
        of_decide_eq_true (Bool.and_eq_true_iff.1 hs).2
      rw [hone, logical_one] at hwidth hheight
      rw [if_pos hs, if_pos hs, hwidth, hheight]
      exact ⟨rfl, rfl⟩
    · rw [if_neg hs, if_neg hs]
      exact ⟨hwidth, hheight⟩

/-- **The screen is usable exactly when the divisor fits**, for either parser. -/
theorem Randr.usable_applyScaleOverride_iff (randr : Randr) {text : List Char} {screen : ScreenInfo}
    (h : randr.parse text = some screen) (scaleOverride : Option F64) :
    (applyScaleOverride scaleOverride screen).Usable ↔
      Fits (randr.lastMode text) (divisor (randr.lastScale text) scaleOverride) := by
  obtain ⟨hwidth, hheight⟩ := applyScaleOverride_sides h scaleOverride
  obtain ⟨hwidthPos, hheightPos, -⟩ := randr.parse_eq_some text h
  rw [Fits, ← logical_usable_iff hwidthPos, ← logical_usable_iff hheightPos, ← hwidth, ← hheight]
  exact ⟨fun u ↦ ⟨⟨u.1, u.2⟩, u.3, u.4⟩, fun u ↦ ⟨u.1.1, u.1.2, u.2.1, u.2.2⟩⟩

/-- **When the size of the local screen is usable**, for every text either tool can print that the
parser accepts, and for every `--scale`. -/
theorem usable_iff (text : List Char) (scaleOverride : Option F64) :
    (∀ screen ∈ parseCosmicRandr text, (applyScaleOverride scaleOverride screen).Usable ↔
        Fits (cosmicRandr.lastMode text) (divisor (cosmicRandr.lastScale text) scaleOverride)) ∧
      ∀ screen ∈ parseWlrRandr text, (applyScaleOverride scaleOverride screen).Usable ↔
        Fits (wlrRandr.lastMode text) (divisor (wlrRandr.lastScale text) scaleOverride) :=
  ⟨fun _ h ↦ cosmicRandr.usable_applyScaleOverride_iff h scaleOverride,
    fun _ h ↦ wlrRandr.usable_applyScaleOverride_iff h scaleOverride⟩

/-- The clamp panics on an empty side, and on one that is negative as an `i32`. At `2 ^ 31` itself
the upper bound has wrapped to `i32::MAX`. -/
theorem trackAxis_eq_none_iff {size : UInt32} {pos : ℤ} {d : F64} :
    trackAxis size pos d = none ↔ size.toNat = 0 ∨ 2147483648 < size.toNat := by
  have hsize := size.toNat_lt
  have hbound : wrapI32 (u32AsI32 size - 1) < 0 ↔ size.toNat = 0 ∨ 2147483648 < size.toNat := by
    simp only [u32AsI32, wrapI32, BitVec.toInt_ofInt, Int.bmod]
    omega
  rw [trackAxis, clamp, ← hbound, ← not_le]
  simp

/-- What `cosmic-randr` prints for a laptop at 150%. -/
def laptopText : List Char :=
  "eDP-1 (enabled)\n  Scale: 150%\n  Modes:\n    1920x1080 @  60.000 Hz (current)".toList

/-- What `wlr-randr` prints for a monitor that is not scaled. -/
def monitorText : List Char :=
  "DP-1\n  Modes:\n    1920x1080 px, 60.000000 Hz (current)\n  Scale: 1.000000".toList

/-- The laptop has a logical size of 1280x720, and with `--scale 1.25` the monitor one of
1536x864. -/
theorem usable_iff_laptopText :
    (∃ screen ∈ parseCosmicRandr laptopText, (applyScaleOverride none screen).Usable) ∧
      ∃ screen ∈ parseWlrRandr monitorText,
        (applyScaleOverride (some (.finite (5 / 4))) screen).Usable := by
  constructor
  · have hparse : parseCosmicRandr laptopText = some ⟨1280, 720, .finite (3 / 2), ⟨.right, 0⟩⟩ := by
      decide +kernel
    exact ⟨_, hparse, ((usable_iff laptopText none).1 _ hparse).2 (by decide +kernel)⟩
  · have hparse : parseWlrRandr monitorText = some ⟨1920, 1080, .finite 1, ⟨.right, 0⟩⟩ := by
      decide +kernel
    exact ⟨_, hparse, ((usable_iff monitorText _).2 _ hparse).2 (by decide +kernel)⟩

/-- What `cosmic-randr` prints for a scale of 0%. -/
def zeroScaleText : List Char := "Scale: 0%\n1920x1080 (current)".toList

/-- With `--scale 2000` the monitor has no size left, and a scale of 0% makes the laptop larger than
an `i32` can tell. Either way the clamp of the cursor has its bounds the wrong way round. -/
theorem not_usable_monitorText :
    (∃ screen ∈ parseWlrRandr monitorText,
      let screen := applyScaleOverride (some (.finite 2000)) screen
      screen.width = 0 ∧ ¬ screen.Usable ∧ ∀ pos d, trackAxis screen.width pos d = none) ∧
    ∃ screen ∈ parseCosmicRandr zeroScaleText,
      let screen := applyScaleOverride none screen
      screen.width = 4294967295 ∧ ¬ screen.Usable ∧
        ∀ pos d, trackAxis screen.width pos d = none := by
  constructor
  · refine ⟨⟨1920, 1080, .finite 1, ⟨.right, 0⟩⟩, by decide +kernel, by decide +kernel,
      fun h ↦ absurd h.width_pos (by decide +kernel),
      fun _ _ ↦ trackAxis_eq_none_iff.2 (by decide +kernel)⟩
  · refine ⟨⟨4294967295, 4294967295, .finite 0, ⟨.right, 0⟩⟩, by decide +kernel, by decide +kernel,
      fun h ↦ absurd h.width_le (by decide +kernel),
      fun _ _ ↦ trackAxis_eq_none_iff.2 (by decide +kernel)⟩

end Kmflow
