import Kmflow.Foundation.Toggle
import Mathlib.Data.Rat.Defs

/-!
# The protocol types

The types of `kmflow-proto`, and the two machine number types the daemon computes with.

An `f64` is the number it denotes: not-a-number, one of the infinities, or a rational. Every finite
`f64` is such a rational, so what is proved for all of `F64` holds for all of `f64`; the sign of
zero is the one thing this reading forgets, and nothing in the sources but the division by a scale
looks at it. `F64.asI32` is Rust's `as i32`: truncation toward zero, saturating at the bounds, with
not-a-number sent to `0`.

An `i32` is an integer; `wrapI32` brings a result back into range, which is what the arithmetic of
the release build does.
-/

namespace Kmflow

/-! ### Numbers -/

/-- `i32::MIN`. -/
def i32Min : ℤ := -2147483648

/-- `i32::MAX`. -/
def i32Max : ℤ := 2147483647

/-- The `i32` congruent to `n`: the result of wrapping `i32` arithmetic, and of `as i32` on an
unsigned value. -/
def wrapI32 (n : ℤ) : ℤ := (BitVec.ofInt 32 n).toInt

/-- An integer that an `i32` can hold. -/
def InI32 (n : ℤ) : Prop := i32Min ≤ n ∧ n ≤ i32Max

instance (n : ℤ) : Decidable (InI32 n) := inferInstanceAs (Decidable (_ ∧ _))

theorem inI32_zero : InI32 0 := by decide

/-- What is wrapped is in range. -/
theorem inI32_wrapI32 (n : ℤ) : InI32 (wrapI32 n) := by
  have hle := BitVec.le_toInt (BitVec.ofInt 32 n)
  have hlt := BitVec.toInt_lt (x := BitVec.ofInt 32 n)
  simp only [InI32, wrapI32, i32Min, i32Max]
  omega

/-- In range nothing wraps. -/
theorem wrapI32_of_inI32 {n : ℤ} (h : InI32 n) : wrapI32 n = n := by
  rw [wrapI32, BitVec.toInt_ofInt]
  simp only [InI32, i32Min, i32Max] at h
  exact Int.bmod_eq_of_le (by omega) (by omega)

/-- Only the negation of `i32::MIN` is out of range. -/
theorem InI32.neg {n : ℤ} (h : InI32 n) (hmin : n ≠ i32Min) : InI32 (-n) := by
  simp only [InI32, i32Min, i32Max] at h hmin ⊢
  omega

/-- A `u32` read `as i32`. -/
def u32AsI32 (n : UInt32) : ℤ := wrapI32 n.toNat

/-- Up to `i32::MAX` a `u32` keeps its value. -/
theorem u32AsI32_of_le {n : UInt32} (h : (n.toNat : ℤ) ≤ i32Max) : u32AsI32 n = n.toNat :=
  wrapI32_of_inI32 ⟨by simp only [i32Min]; omega, h⟩

/-- An `f64`, as the number it denotes. -/
inductive F64 where
  | nan
  | inf (negative : Bool)
  | finite (value : ℚ)
  deriving DecidableEq

/-- `as i32` on an `f64`. -/
def F64.asI32 : F64 → ℤ
  | nan => 0
  | inf true => i32Min
  | inf false => i32Max
  | finite q => max i32Min (min (q.num.tdiv q.den) i32Max)

/-- The cast saturates, so it stays in range. -/
theorem F64.inI32_asI32 (d : F64) : InI32 d.asI32 := by
  have hle : i32Min ≤ i32Max := by decide
  match d with
  | nan => decide
  | inf true => decide
  | inf false => decide
  | finite q => exact ⟨le_max_left _ _, max_le hle (min_le_right _ _)⟩

/-- `as i16` on an `f64`. -/
def F64.asI16 : F64 → ℤ
  | nan => 0
  | inf true => -32768
  | inf false => 32767
  | finite q => max (-32768) (min (q.num.tdiv q.den) 32767)

/-- Negation of an `f64`. -/
def F64.neg : F64 → F64
  | nan => nan
  | inf negative => inf !negative
  | finite q => finite (-q)

/-- `x == 0.0`. -/
def F64.isZero : F64 → Bool
  | finite q => decide (q = 0)
  | _ => false

/-- `x < 0.0`. -/
def F64.isNeg : F64 → Bool
  | nan => false
  | inf negative => negative
  | finite q => decide (q < 0)

/-- `x > 0.0`. -/
def F64.isPos (x : F64) : Bool := x.neg.isNeg

/-- The version both sides must name in the handshake. -/
def protocolVersion : UInt32 := 1

/-! ### Input events -/

/-- `MouseButton`. -/
inductive MouseButton where
  | left
  | right
  | middle
  | back
  | forward
  deriving DecidableEq

/-- `ButtonState`. -/
inductive ButtonState where
  | pressed
  | released
  deriving DecidableEq

/-- `KeyState`. -/
inductive KeyState where
  | pressed
  | released
  deriving DecidableEq

/-- `InputEvent`; motion and wheel turns are relative. -/
inductive InputEvent where
  | mouseMove (dx dy : F64)
  | mouseButton (button : MouseButton) (state : ButtonState)
  | scroll (dx dy : F64)
  | key (scancode : UInt32) (state : KeyState)
  deriving DecidableEq

/-- `EventFrame`, the contents of one datagram. -/
structure EventFrame where
  seq : UInt32
  timestampUs : UInt64
  events : List InputEvent
  deriving DecidableEq

/-- What a user can hold down: a key, by scancode, or a mouse button. -/
inductive Switch where
  | key (scancode : UInt32)
  | button (button : MouseButton)
  deriving DecidableEq

/-- The switch transition an input event makes, if it makes one. -/
def InputEvent.toggle? : InputEvent → Option (Toggle Switch)
  | mouseButton b .pressed => some (.down (.button b))
  | mouseButton b .released => some (.up (.button b))
  | key c .pressed => some (.down (.key c))
  | key c .released => some (.up (.key c))
  | mouseMove _ _ => none
  | scroll _ _ => none

/-- A key or a button event. -/
def InputEvent.isSwitch (event : InputEvent) : Bool := event.toggle?.isSome

/-- The switches held after replaying a list of events, starting from `held`. -/
def replayEvents (held : Finset Switch) (es : List InputEvent) : Finset Switch :=
  Toggle.replay held (es.filterMap InputEvent.toggle?)

/-- Events are replayed one after the other. -/
theorem replayEvents_append (held : Finset Switch) (es fs : List InputEvent) :
    replayEvents held (es ++ fs) = replayEvents (replayEvents held es) fs := by
  rw [replayEvents, List.filterMap_append, Toggle.replay_append]
  rfl

/-- What was held to begin with can only add to what is held in the end. -/
theorem replayEvents_subset {held held' : Finset Switch} (h : held ⊆ held')
    (es : List InputEvent) : replayEvents held es ⊆ replayEvents held' es :=
  Toggle.replay_subset_replay h _

/-! ### Screens -/

/-- `Edge`. -/
inductive Edge where
  | left
  | right
  | top
  | bottom
  deriving DecidableEq

/-- `ScreenPosition`. -/
structure ScreenPosition where
  edge : Edge
  monitorId : UInt32
  deriving DecidableEq

/-- `ScreenInfo`. -/
structure ScreenInfo where
  width : UInt32
  height : UInt32
  scaleFactor : F64
  position : ScreenPosition
  deriving DecidableEq

/-- What `query_screen_info` falls back to when nothing can be detected. -/
def ScreenInfo.fallback : ScreenInfo where
  width := 1920
  height := 1080
  scaleFactor := .finite 1
  position := ⟨.right, 0⟩

/-! ### Control messages and clipboard payloads -/

/-- `ControlCommand`, the contents of one message on the control stream. -/
inductive ControlCommand where
  | ping (timestampUs : UInt64)
  | pong (echoTimestampUs : UInt64)
  | handshake (protocolVersion : UInt32) (hostname : String) (screenInfo : ScreenInfo)
      (edge : Option Edge)
  | handshakeAck (protocolVersion : UInt32) (hostname : String) (screenInfo : ScreenInfo)
      (edge : Option Edge)
  | switchFocus (toPeer : String)
  | releaseFocus
  | peerDisconnecting
  deriving DecidableEq

/-- `ClipboardContent`. -/
inductive ClipboardContent where
  | text (text : String)
  | image (mime : String) (data : List UInt8)
  | fileUri (uris : List String)
  deriving DecidableEq

/-- `ClipboardPayload`. -/
structure ClipboardPayload where
  originPeerId : String
  content : ClipboardContent
  deriving DecidableEq

/-! ### Known peers -/

/-- `PeerIdentity`. -/
structure PeerIdentity where
  fingerprint : String
  hostname : String
  lastSeen : UInt64
  deriving DecidableEq

end Kmflow
