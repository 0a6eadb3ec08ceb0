import Kmflow.Proto.Types

/-!
# Edge detection

`edge.rs`: the detector of one target edge of one screen, with a dead zone at the corners. All
arithmetic is `i32` arithmetic on the screen size read `as i32`.
-/

namespace Kmflow

/-- `DEAD_ZONE_PX`. -/
def deadZonePx : UInt32 := 50

/-- `EdgeDetector`: the edge of the screen that leads to the peer, with its dead zone. -/
structure EdgeDetector where
  screen : ScreenInfo
  targetEdge : Edge
  deadZone : UInt32

/-- `EdgeHit`. -/
inductive EdgeHit where
  | none
  | triggered (edge : Edge)
  deriving DecidableEq

namespace EdgeDetector

/-- `EdgeDetector::new`, with the constant for the dead zone. -/
def new (screen : ScreenInfo) (targetEdge : Edge) : EdgeDetector where
  screen := screen
  targetEdge := targetEdge
  deadZone := deadZonePx

/-- The corners: within the dead zone of two adjacent sides. -/
def inCorner (d : EdgeDetector) (x y : ℤ) : Bool :=
  let w := u32AsI32 d.screen.width
  let h := u32AsI32 d.screen.height
  let dz := u32AsI32 d.deadZone
  let inTop := decide (y < dz)
  let inBottom := decide (wrapI32 (h - dz) < y)
  let inLeft := decide (x < dz)
  let inRight := decide (wrapI32 (w - dz) < x)
  (inTop || inBottom) && (inLeft || inRight)

/-- `EdgeDetector::check`: the target edge is hit outside of the corners. -/
def check (d : EdgeDetector) (x y : ℤ) : EdgeHit :=
  if d.inCorner x y then .none
  else match d.targetEdge with
    | .right =>
      if wrapI32 (u32AsI32 d.screen.width - 1) ≤ x then .triggered .right else .none
    | .left => if x ≤ 0 then .triggered .left else .none
    | .top => if y ≤ 0 then .triggered .top else .none
    | .bottom =>
      if wrapI32 (u32AsI32 d.screen.height - 1) ≤ y then .triggered .bottom else .none

end EdgeDetector

end Kmflow
