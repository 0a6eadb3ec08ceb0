import Kmflow.Foundation.Framing
import Kmflow.Proto.Codec

/-!
# Control messages on a stream

`send_control` and `recv_control` of `quic.rs`. A control message is its serialisation, framed by a
four-byte length; the length is cast to `u32`, so it is exact for messages below `2 ^ 32` bytes.

`recv_control` is two `read_exact` calls in a row, and the bytes they have taken live in its future.
`ControlReader` is that future between two polls. The serialiser is a parameter, `ControlCodec`; the
sources' own is `ControlCodec.json`.
-/

namespace Kmflow

open Framing

/-- `encode_control` and `decode_control`. -/
structure ControlCodec where
  encode : ControlCommand → List UInt8
  decode : List UInt8 → Option ControlCommand

/-- The serialiser undoes itself on a command, whose serialisation is shorter than `2 ^ 32`. -/
structure ControlCodec.Faithful (codec : ControlCodec) (cmd : ControlCommand) : Prop where
  decode_encode : codec.decode (codec.encode cmd) = some cmd
  short : (codec.encode cmd).length < 2 ^ 32

/-- The bytes `send_control` writes. -/
def sendControl (codec : ControlCodec) (cmd : ControlCommand) : List UInt8 :=
  frame (codec.encode cmd)

/-- How `recv_control` fails. -/
inductive RecvError where
  | readLength
  | readControl
  | decodeControl
  deriving DecidableEq

/-- The context the error carries. -/
def RecvError.context : RecvError → String
  | readLength => "read length"
  | readControl => "read control"
  | decodeControl => "decode control"

/-- The future of `recv_control`, between two polls. -/
abbrev ControlReader := Framing.Reader

/-- What a read error in the middle of `recv_control` turns into. -/
def ControlReader.readError : ControlReader → RecvError
  | .length _ _ => .readLength
  | .body _ _ _ _ => .readControl

/-- The end of `recv_control`: decode the body. -/
def recvControl (codec : ControlCodec) (body : List UInt8) : Except RecvError ControlCommand :=
  match codec.decode body with
  | some cmd => .ok cmd
  | none => .error .decodeControl

theorem ControlCodec.Faithful.recvControl {codec : ControlCodec} {cmd : ControlCommand}
    (h : codec.Faithful cmd) : Kmflow.recvControl codec (codec.encode cmd) = .ok cmd := by
  rw [Kmflow.recvControl, h.decode_encode]

/-- The serialiser of `kmflow-proto`. -/
def ControlCodec.json (fmt : FloatFormat) : ControlCodec where
  encode := encodeControl fmt
  decode := decodeControl fmt

/-- It undoes itself on the commands whose floats are finite and written exactly. -/
theorem ControlCodec.faithful_json {fmt : FloatFormat} {cmd : ControlCommand}
    (hexact : ∀ q, .finite q ∈ cmd.floats → fmt.Exact q) (hfinite : ∀ x ∈ cmd.floats, x.isFinite)
    (hshort : (encodeControl fmt cmd).length < 2 ^ 32) : (json fmt).Faithful cmd where
  decode_encode := by
    show decodeControl fmt (encodeControl fmt cmd) = some cmd
    rw [decodeControl, encodeControl, Serde.fromSlice_toVec]
    exact ControlCommand.keeps_iff.2 ((keeps_floats_iff hexact).2 hfinite)
  short := hshort

end Kmflow
