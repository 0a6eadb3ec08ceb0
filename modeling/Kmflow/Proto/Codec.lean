import Kmflow.Foundation.Serde
import Kmflow.Proto.Types

/-!
# The wire format

The derived serialisation of the messages, and `encode_frame`, `encode_control` and
`encode_clipboard` with their inverses. Every name is the one the derived code writes.

How a finite `f64` becomes a literal and how a literal is rounded to one is the business of the
JSON library, so that is a parameter, `FloatFormat`. What is not a finite number is written as
`null`, and `null` is no `f64`: this is where a message is lost (`lossless_iff`).
-/

namespace Kmflow

open Json Serde

/-! ### Floats -/

/-- How a finite `f64` is written, and which one a literal is read as, if it is in range. -/
structure FloatFormat where
  write : ℚ → Number
  read : Number → Option ℚ

/-- The number is read back from its literal. -/
def FloatFormat.Exact (fmt : FloatFormat) (q : ℚ) : Prop := fmt.read (fmt.write q) = some q

instance (fmt : FloatFormat) (q : ℚ) : Decidable (fmt.Exact q) :=
  inferInstanceAs (Decidable (_ = _))

/-- Neither an infinity nor not-a-number. -/
def F64.isFinite : F64 → Bool
  | finite _ => true
  | _ => false

/-- An `f64` as a number; what is not finite is written `null`, which no `f64` is read from. -/
def F64.serde (fmt : FloatFormat) : Serde F64 where
  encode
    | .finite q => .number (fmt.write q)
    | _ => .null
  decode
    | .number n => (fmt.read n).map .finite
    | _ => none

/-- What is finite comes back, and nothing else does. -/
theorem F64.keeps_iff {fmt : FloatFormat} {x : F64} (h : ∀ q, x = .finite q → fmt.Exact q) :
    (F64.serde fmt).Keeps x ↔ x.isFinite = true := by
  match x with
  | .nan | .inf _ => simp [Keeps, F64.serde, F64.isFinite]
  | .finite q =>
    have hq : fmt.read (fmt.write q) = some q := h q rfl
    simp [Keeps, F64.serde, F64.isFinite, hq]

/-- What is read of a float is what was written. -/
theorem F64.eq_of_decode {fmt : FloatFormat} {x y : F64}
    (hexact : ∀ q, x = .finite q → fmt.Exact q)
    (h : (F64.serde fmt).decode ((F64.serde fmt).encode x) = some y) : y = x := by
  cases x with
  | finite q => exact Option.some.inj (h.symm.trans ((F64.keeps_iff hexact).2 rfl))
  | nan => cases h
  | inf negative => cases h

/-! ### Event frames -/

/-- The names of the variants. -/
def MouseButton.variantName : MouseButton → String
  | left => "Left"
  | right => "Right"
  | middle => "Middle"
  | back => "Back"
  | forward => "Forward"

/-- As it is derived. -/
def MouseButton.serde : Serde MouseButton :=
  unitEnum variantName [left, right, middle, back, forward]

/-- The names of the variants. -/
def ButtonState.variantName : ButtonState → String
  | pressed => "Pressed"
  | released => "Released"

/-- As it is derived. -/
def ButtonState.serde : Serde ButtonState := unitEnum variantName [pressed, released]

/-- The names of the variants. -/
def KeyState.variantName : KeyState → String
  | pressed => "Pressed"
  | released => "Released"

/-- As it is derived. -/
def KeyState.serde : Serde KeyState := unitEnum variantName [pressed, released]

/-- As it is derived: an object whose one member has the name of the variant. -/
def InputEvent.serde (fmt : FloatFormat) : Serde InputEvent where
  encode
    | .mouseMove dx dy =>
      .object [("MouseMove", .object
        [("dx", (F64.serde fmt).encode dx), ("dy", (F64.serde fmt).encode dy)])]
    | .mouseButton button state =>
      .object [("MouseButton", .object
        [("button", MouseButton.serde.encode button), ("state", ButtonState.serde.encode state)])]
    | .scroll dx dy =>
      .object [("Scroll", .object
        [("dx", (F64.serde fmt).encode dx), ("dy", (F64.serde fmt).encode dy)])]
    | .key scancode state =>
      .object [("Key", .object
        [("scancode", u32.encode scancode), ("state", KeyState.serde.encode state)])]
  decode j :=
    match variant j with
    | some ("MouseMove", some content) => do
      let get ← fields ["dx", "dy"] content
      some (.mouseMove (← field (F64.serde fmt) get "dx") (← field (F64.serde fmt) get "dy"))
    | some ("MouseButton", some content) => do
      let get ← fields ["button", "state"] content
      some (.mouseButton (← field MouseButton.serde get "button")
        (← field ButtonState.serde get "state"))
    | some ("Scroll", some content) => do
      let get ← fields ["dx", "dy"] content
      some (.scroll (← field (F64.serde fmt) get "dx") (← field (F64.serde fmt) get "dy"))
    | some ("Key", some content) => do
      let get ← fields ["scancode", "state"] content
      some (.key (← field u32 get "scancode") (← field KeyState.serde get "state"))
    | _ => none

/-- As it is derived: an object of the fields. -/
def EventFrame.serde (fmt : FloatFormat) : Serde EventFrame where
  encode frame := .object
    [("seq", u32.encode frame.seq), ("timestamp_us", u64.encode frame.timestampUs),
      ("events", (InputEvent.serde fmt).list.encode frame.events)]
  decode j := do
    let get ← fields ["seq", "timestamp_us", "events"] j
    some ⟨← field u32 get "seq", ← field u64 get "timestamp_us",
      ← field (InputEvent.serde fmt).list get "events"⟩

/-- Every button comes back. -/
theorem MouseButton.keeps (b : MouseButton) : serde.Keeps b :=
  keeps_unitEnum (by decide) (by cases b <;> decide)

/-- Both states come back. -/
theorem ButtonState.keeps (s : ButtonState) : serde.Keeps s :=
  keeps_unitEnum (by decide) (by cases s <;> decide)

/-- Both states come back. -/
theorem KeyState.keeps (s : KeyState) : serde.Keeps s :=
  keeps_unitEnum (by decide) (by cases s <;> decide)

/-- The floats of an event. -/
def InputEvent.floats : InputEvent → List F64
  | mouseMove dx dy => [dx, dy]
  | scroll dx dy => [dx, dy]
  | mouseButton _ _ | key _ _ => []

/-- An event comes back exactly when its floats do. -/
theorem InputEvent.keeps_iff {fmt : FloatFormat} {e : InputEvent} :
    (InputEvent.serde fmt).Keeps e ↔ ∀ x ∈ e.floats, (F64.serde fmt).Keeps x := by
  match e with
  | .mouseMove dx dy | .scroll dx dy =>
    simp [Keeps, InputEvent.serde, InputEvent.floats, variant, fields_object,
      Option.bind_eq_some_iff]
  | .mouseButton b s =>
    simp [Keeps, InputEvent.serde, InputEvent.floats, variant, fields_object,
      b.keeps.decode_encode, s.keeps.decode_encode]
  | .key c s =>
    simp [Keeps, InputEvent.serde, InputEvent.floats, variant, fields_object,
      (keeps_u32 c).decode_encode, s.keeps.decode_encode]

/-- The floats of a frame. -/
def EventFrame.floats (frame : EventFrame) : List F64 := frame.events.flatMap InputEvent.floats

/-- A frame comes back exactly when the floats of its events do. -/
theorem EventFrame.keeps_iff {fmt : FloatFormat} {frame : EventFrame} :
    (EventFrame.serde fmt).Keeps frame ↔ ∀ x ∈ frame.floats, (F64.serde fmt).Keeps x := by
  -- the counter and the time come back whatever they are, so it is the events that decide
  have hevents : (InputEvent.serde fmt).list.Keeps frame.events ↔
      ∀ x ∈ frame.floats, (F64.serde fmt).Keeps x := by
    simp only [keeps_list_iff, InputEvent.keeps_iff, floats, List.mem_flatMap,
      forall_exists_index, and_imp]
    exact ⟨fun h x e he hx ↦ h e he x hx, fun h e he x hx ↦ h x e he hx⟩
  rw [← hevents]
  obtain ⟨seq, timestampUs, events⟩ := frame
  simp [Keeps, EventFrame.serde, fields_object, Option.bind_eq_some_iff,
    (keeps_u32 seq).decode_encode, (keeps_u64 timestampUs).decode_encode]

/-- What is read of an event is what was written. -/
theorem InputEvent.eq_of_decode {fmt : FloatFormat} {e e' : InputEvent}
    (hexact : ∀ q, .finite q ∈ e.floats → fmt.Exact q)
    (h : (InputEvent.serde fmt).decode ((InputEvent.serde fmt).encode e) = some e') : e' = e := by
  match e with
  | .mouseMove dx dy | .scroll dx dy =>
    simp [InputEvent.serde, variant, fields_object, Option.bind_eq_some_iff] at h
    obtain ⟨dx', hdx, dy', hdy, rfl⟩ := h
    rw [F64.eq_of_decode (fun q hq ↦ hexact q (by simp [floats, hq])) hdx,
      F64.eq_of_decode (fun q hq ↦ hexact q (by simp [floats, hq])) hdy]
  | .mouseButton b s =>
    exact Option.some.inj (h.symm.trans (InputEvent.keeps_iff.2 fun x hx ↦ by cases hx))
  | .key c s =>
    exact Option.some.inj (h.symm.trans (InputEvent.keeps_iff.2 fun x hx ↦ by cases hx))

/-- `encode_frame`; it cannot fail. -/
def encodeFrame (fmt : FloatFormat) (frame : EventFrame) : List UInt8 :=
  (EventFrame.serde fmt).toVec frame

/-- `decode_frame`. -/
def decodeFrame (fmt : FloatFormat) (data : List UInt8) : Option EventFrame :=
  (EventFrame.serde fmt).fromSlice data

/-- **A frame that is read is the one that was written.** -/
theorem EventFrame.eq_of_decode {fmt : FloatFormat} {frame frame' : EventFrame}
    (hexact : ∀ q, .finite q ∈ frame.floats → fmt.Exact q)
    (h : decodeFrame fmt (encodeFrame fmt frame) = some frame') : frame' = frame := by
  rw [decodeFrame, encodeFrame, Serde.fromSlice_toVec] at h
  obtain ⟨seq, timestampUs, events⟩ := frame
  simp [EventFrame.serde, fields_object, Option.bind_eq_some_iff, (keeps_u32 seq).decode_encode,
    (keeps_u64 timestampUs).decode_encode] at h
  obtain ⟨events', hevents, rfl⟩ := h
  have hevent : ∀ e ∈ events, ∀ e', (InputEvent.serde fmt).decode
      ((InputEvent.serde fmt).encode e) = some e' → e' = e :=
    fun e he e' ↦ InputEvent.eq_of_decode fun q hq ↦
      hexact q (List.mem_flatMap.2 ⟨e, he, hq⟩)
  rw [eq_of_decode_list hevent hevents]

/-! ### Control messages -/

/-- The names of the variants. -/
def Edge.variantName : Edge → String
  | left => "Left"
  | right => "Right"
  | top => "Top"
  | bottom => "Bottom"

/-- As it is derived. -/
def Edge.serde : Serde Edge := unitEnum variantName [left, right, top, bottom]

/-- As it is derived: an object of the fields. -/
def ScreenPosition.serde : Serde ScreenPosition where
  encode position := .object
    [("edge", Edge.serde.encode position.edge), ("monitor_id", u32.encode position.monitorId)]
  decode j := do
    let get ← fields ["edge", "monitor_id"] j
    some ⟨← field Edge.serde get "edge", ← field u32 get "monitor_id"⟩

/-- As it is derived: an object of the fields. -/
def ScreenInfo.serde (fmt : FloatFormat) : Serde ScreenInfo where
  encode screen := .object
    [("width", u32.encode screen.width), ("height", u32.encode screen.height),
      ("scale_factor", (F64.serde fmt).encode screen.scaleFactor),
      ("position", ScreenPosition.serde.encode screen.position)]
  decode j := do
    let get ← fields ["width", "height", "scale_factor", "position"] j
    some ⟨← field u32 get "width", ← field u32 get "height",
      ← field (F64.serde fmt) get "scale_factor", ← field ScreenPosition.serde get "position"⟩

/-- The content of `Handshake` and `HandshakeAck`, which have the same fields. -/
def encodeHandshake (fmt : FloatFormat) (protocolVersion : UInt32) (hostname : String)
    (screenInfo : ScreenInfo) (edge : Option Edge) : Json := .object
  [("protocol_version", u32.encode protocolVersion), ("hostname", Serde.string.encode hostname),
    ("screen_info", (ScreenInfo.serde fmt).encode screenInfo),
    ("edge", Edge.serde.option.encode edge)]

/-- The fields of the two handshake messages; the edge may be missing. -/
def decodeHandshake (fmt : FloatFormat)
    (make : UInt32 → String → ScreenInfo → Option Edge → ControlCommand) (content : Json) :
    Option ControlCommand := do
  let get ← fields ["protocol_version", "hostname", "screen_info", "edge"] content
  some (make (← field u32 get "protocol_version") (← field Serde.string get "hostname")
    (← field (ScreenInfo.serde fmt) get "screen_info") (← optionalField Edge.serde get "edge"))

/-- As it is derived: a name alone for a command without fields. -/
def ControlCommand.serde (fmt : FloatFormat) : Serde ControlCommand where
  encode
    | .ping timestampUs =>
      .object [("Ping", .object [("timestamp_us", u64.encode timestampUs)])]
    | .pong echoTimestampUs =>
      .object [("Pong", .object [("echo_timestamp_us", u64.encode echoTimestampUs)])]
    | .handshake protocolVersion hostname screenInfo edge =>
      .object [("Handshake", encodeHandshake fmt protocolVersion hostname screenInfo edge)]
    | .handshakeAck protocolVersion hostname screenInfo edge =>
      .object [("HandshakeAck", encodeHandshake fmt protocolVersion hostname screenInfo edge)]
    | .switchFocus toPeer =>
      .object [("SwitchFocus", .object [("to_peer", Serde.string.encode toPeer)])]
    | .releaseFocus => .string "ReleaseFocus"
    | .peerDisconnecting => .string "PeerDisconnecting"
  decode j :=
    match variant j with
    | some ("Ping", some content) => do
      let get ← fields ["timestamp_us"] content
      some (.ping (← field u64 get "timestamp_us"))
    | some ("Pong", some content) => do
      let get ← fields ["echo_timestamp_us"] content
      some (.pong (← field u64 get "echo_timestamp_us"))
    | some ("Handshake", some content) => decodeHandshake fmt .handshake content
    | some ("HandshakeAck", some content) => decodeHandshake fmt .handshakeAck content
    | some ("SwitchFocus", some content) => do
      let get ← fields ["to_peer"] content
      some (.switchFocus (← field Serde.string get "to_peer"))
    | some ("ReleaseFocus", content) => if noContent content then some .releaseFocus else none
    | some ("PeerDisconnecting", content) =>
      if noContent content then some .peerDisconnecting else none
    | _ => none

/-- Every edge comes back. -/
theorem Edge.keeps (e : Edge) : serde.Keeps e :=
  keeps_unitEnum (by decide) (by cases e <;> decide)

/-- So does an edge that may be missing. -/
theorem Edge.keeps_option (o : Option Edge) : serde.option.Keeps o :=
  Serde.keeps_option fun e _ ↦ ⟨e.keeps, fun h ↦ by cases h⟩

/-- Every position comes back. -/
theorem ScreenPosition.keeps (position : ScreenPosition) : serde.Keeps position := by
  obtain ⟨edge, monitorId⟩ := position
  simp [Keeps, ScreenPosition.serde, fields_object, edge.keeps.decode_encode,
    (keeps_u32 monitorId).decode_encode]

/-- A screen comes back exactly when its scale factor does. -/
theorem ScreenInfo.keeps_iff {fmt : FloatFormat} {screen : ScreenInfo} :
    (ScreenInfo.serde fmt).Keeps screen ↔ (F64.serde fmt).Keeps screen.scaleFactor := by
  obtain ⟨width, height, scaleFactor, position⟩ := screen
  simp [Keeps, ScreenInfo.serde, fields_object, Option.bind_eq_some_iff,
    (keeps_u32 width).decode_encode, (keeps_u32 height).decode_encode,
    position.keeps.decode_encode]

/-- Of a handshake message it is the screen's scale factor that decides. -/
theorem decodeHandshake_encodeHandshake_iff {fmt : FloatFormat}
    {make : UInt32 → String → ScreenInfo → Option Edge → ControlCommand} {v : UInt32}
    {hostname : String} {screen : ScreenInfo} {edge : Option Edge}
    (hmake : ∀ screen', make v hostname screen' edge = make v hostname screen edge →
      screen' = screen) :
    decodeHandshake fmt make (encodeHandshake fmt v hostname screen edge) =
        some (make v hostname screen edge) ↔ (F64.serde fmt).Keeps screen.scaleFactor := by
  -- every other field comes back whatever it is
  have hdecode : decodeHandshake fmt make (encodeHandshake fmt v hostname screen edge) =
      ((ScreenInfo.serde fmt).decode ((ScreenInfo.serde fmt).encode screen)).map
        (make v hostname · edge) := by
    simp [decodeHandshake, encodeHandshake, fields_object, (keeps_u32 v).decode_encode,
      (keeps_string hostname).decode_encode, (Edge.keeps_option edge).decode_encode,
      Option.map_eq_bind]
  rw [hdecode, Option.map_eq_some_iff, ← ScreenInfo.keeps_iff]
  constructor
  · -- another screen in the message would make another message
    rintro ⟨screen', hscreen, hsame⟩
    exact hmake screen' hsame ▸ hscreen
  · exact fun h ↦ ⟨screen, h, rfl⟩

/-- The floats of a control message. -/
def ControlCommand.floats : ControlCommand → List F64
  | handshake _ _ screenInfo _ | handshakeAck _ _ screenInfo _ => [screenInfo.scaleFactor]
  | _ => []

/-- A command comes back exactly when its floats do, which only handshakes have. -/
theorem ControlCommand.keeps_iff {fmt : FloatFormat} {cmd : ControlCommand} :
    (ControlCommand.serde fmt).Keeps cmd ↔ ∀ x ∈ cmd.floats, (F64.serde fmt).Keeps x := by
  match cmd with
  | .ping t | .pong t =>
    simp [Keeps, ControlCommand.serde, floats, variant, fields_object,
      (keeps_u64 t).decode_encode]
  | .handshake v hostname screen edge =>
    rw [floats, List.forall_mem_singleton]
    exact @decodeHandshake_encodeHandshake_iff fmt handshake v hostname screen edge
      fun screen' h ↦ (handshake.inj h).2.2.1
  | .handshakeAck v hostname screen edge =>
    rw [floats, List.forall_mem_singleton]
    exact @decodeHandshake_encodeHandshake_iff fmt handshakeAck v hostname screen edge
      fun screen' h ↦ (handshakeAck.inj h).2.2.1
  | .switchFocus toPeer =>
    simp [Keeps, ControlCommand.serde, floats, variant, fields_object,
      (keeps_string toPeer).decode_encode]
  | .releaseFocus | .peerDisconnecting =>
    simp [Keeps, ControlCommand.serde, floats, variant, noContent]

/-- `encode_control`; it cannot fail. -/
def encodeControl (fmt : FloatFormat) (cmd : ControlCommand) : List UInt8 :=
  (ControlCommand.serde fmt).toVec cmd

/-- `decode_control`. -/
def decodeControl (fmt : FloatFormat) (data : List UInt8) : Option ControlCommand :=
  (ControlCommand.serde fmt).fromSlice data

/-! ### Clipboard payloads -/

/-- As it is derived; an image is an array of its bytes. -/
def ClipboardContent.serde : Serde ClipboardContent where
  encode
    | .text s => .object [("Text", Serde.string.encode s)]
    | .image mime data =>
      .object [("Image", .object
        [("mime", Serde.string.encode mime), ("data", u8.list.encode data)])]
    | .fileUri uris => .object [("FileUri", Serde.string.list.encode uris)]
  decode j :=
    match variant j with
    | some ("Text", some content) => (Serde.string.decode content).map .text
    | some ("Image", some content) => do
      let get ← fields ["mime", "data"] content
      some (.image (← field Serde.string get "mime") (← field u8.list get "data"))
    | some ("FileUri", some content) => (Serde.string.list.decode content).map .fileUri
    | _ => none

/-- As it is derived: an object of the fields. -/
def ClipboardPayload.serde : Serde ClipboardPayload where
  encode payload := .object
    [("origin_peer_id", Serde.string.encode payload.originPeerId),
      ("content", ClipboardContent.serde.encode payload.content)]
  decode j := do
    let get ← fields ["origin_peer_id", "content"] j
    some ⟨← field Serde.string get "origin_peer_id", ← field ClipboardContent.serde get "content"⟩

/-- Every content comes back. -/
theorem ClipboardContent.keeps (content : ClipboardContent) : serde.Keeps content := by
  match content with
  | .text s => rfl
  | .image mime data =>
    have hdata : u8.list.Keeps data := keeps_list_iff.2 fun b _ ↦ keeps_u8 b
    simp [Keeps, ClipboardContent.serde, variant, fields_object,
      (keeps_string mime).decode_encode, hdata.decode_encode]
  | .fileUri uris =>
    have huris : Serde.string.list.Keeps uris := keeps_list_iff.2 fun s _ ↦ keeps_string s
    simp [Keeps, ClipboardContent.serde, variant, huris.decode_encode]

/-- Every payload comes back. -/
theorem ClipboardPayload.keeps (payload : ClipboardPayload) : serde.Keeps payload := by
  obtain ⟨originPeerId, content⟩ := payload
  simp [Keeps, ClipboardPayload.serde, fields_object, (keeps_string originPeerId).decode_encode,
    content.keeps.decode_encode]

/-- `encode_clipboard`; it cannot fail. -/
def encodeClipboard (payload : ClipboardPayload) : List UInt8 :=
  ClipboardPayload.serde.toVec payload

/-- `decode_clipboard`. -/
def decodeClipboard (data : List UInt8) : Option ClipboardPayload :=
  ClipboardPayload.serde.fromSlice data

/-! ### What survives the wire -/

/-- The floats of a list come back when they are finite, if their literals are exact. -/
theorem keeps_floats_iff {fmt : FloatFormat} {xs : List F64}
    (h : ∀ q, .finite q ∈ xs → fmt.Exact q) :
    (∀ x ∈ xs, (F64.serde fmt).Keeps x) ↔ ∀ x ∈ xs, x.isFinite = true :=
  forall₂_congr fun _ hx ↦ F64.keeps_iff fun q hq ↦ h q (hq ▸ hx)

/-- **A message survives the wire exactly when its floats are finite**, given that the literals of
those of its floats that are finite are exact. Every clipboard payload does. -/
theorem lossless_iff (fmt : FloatFormat) (frame : EventFrame) (cmd : ControlCommand)
    (payload : ClipboardPayload)
    (hexact : ∀ q, .finite q ∈ frame.floats ++ cmd.floats → fmt.Exact q) :
    (decodeFrame fmt (encodeFrame fmt frame) = some frame ↔ ∀ x ∈ frame.floats, x.isFinite) ∧
      (decodeControl fmt (encodeControl fmt cmd) = some cmd ↔ ∀ x ∈ cmd.floats, x.isFinite) ∧
        decodeClipboard (encodeClipboard payload) = some payload := by
  refine ⟨?_, ?_, ?_⟩
  · rw [decodeFrame, encodeFrame, fromSlice_toVec,
      ← keeps_floats_iff fun q hq ↦ hexact q (List.mem_append_left _ hq)]
    exact EventFrame.keeps_iff
  · rw [decodeControl, encodeControl, fromSlice_toVec,
      ← keeps_floats_iff fun q hq ↦ hexact q (List.mem_append_right _ hq)]
    exact ControlCommand.keeps_iff
  · rw [decodeClipboard, encodeClipboard, fromSlice_toVec]
    exact payload.keeps

/-- A number with one decimal is a number of JSON. -/
theorem isNumber_tenths (n m : ℕ) (negative : Bool) :
    isNumber (if negative then '-' :: (Nat.toDigits 10 n ++ ['.', Nat.digitChar (m % 10)])
      else Nat.toDigits 10 n ++ ['.', Nat.digitChar (m % 10)]) = true := by
  have hdigit : (Nat.digitChar (m % 10)).isDigit = true := by
    rw [Nat.isDigit_digitChar, decide_eq_true_iff]
    omega
  -- the integer part ends at the point, which is no digit
  have hinteger : skipInteger (Nat.toDigits 10 n ++ ['.', Nat.digitChar (m % 10)]) =
      some ['.', Nat.digitChar (m % 10)] :=
    skipInteger_toDigits n fun d hd ↦ by
      obtain rfl := Option.some.inj hd
      decide
  have hfraction : skipFraction ['.', Nat.digitChar (m % 10)] = some [] := by
    simp [skipFraction, skipDigits, hdigit]
  cases negative with
  | true =>
    rw [if_pos rfl, isNumber, skipMinus, hinteger, Option.bind_some, hfraction]
    rfl
  | false =>
    rw [if_neg Bool.false_ne_true, isNumber, skipMinus_toDigits, hinteger, Option.bind_some,
      hfraction]
    rfl

/-- A tenth is written with one digit after the point, and literals without an exponent are read
exactly. On short tenths the JSON library does the same. -/
def FloatFormat.tenths : FloatFormat where
  write q :=
    let digits := Nat.toDigits 10 (q.num.natAbs / q.den) ++
      ['.', Nat.digitChar (q.num.natAbs * 10 / q.den % 10)]
    ⟨if decide (q < 0) then '-' :: digits else digits, isNumber_tenths _ _ _⟩
  read n :=
    let integer := (skipMinus n.chars).takeWhile Char.isDigit
    let fraction := ((skipMinus n.chars).dropWhile Char.isDigit).drop 1
    let value : ℚ := Nat.ofDigitChars 10 (integer ++ fraction) 0 / 10 ^ fraction.length
    if fraction.all Char.isDigit then some (if n.chars.head? = some '-' then -value else value)
    else none

/-- A move and a keystroke. -/
def sampleFrame : EventFrame :=
  ⟨42, 123456789, [.mouseMove (.finite (21 / 2)) (.finite (-7 / 2)), .key 4 .pressed]⟩

/-- The handshake of a host on the fallback screen. -/
def sampleHandshake : ControlCommand :=
  .handshake Kmflow.protocolVersion "my-pc" .fallback (some .right)

/-- A text that is not all ASCII. -/
def sampleText : ClipboardPayload := ⟨"host-a", .text "你好世界 hello"⟩

/-- A frame with a fraction, a handshake and a text that is not ASCII come back. -/
theorem lossless_iff_samples :
    decodeFrame .tenths (encodeFrame .tenths sampleFrame) = some sampleFrame ∧
      decodeControl .tenths (encodeControl .tenths sampleHandshake) = some sampleHandshake ∧
        decodeClipboard (encodeClipboard sampleText) = some sampleText := by
  have hexact : ∀ q, .finite q ∈ sampleFrame.floats ++ sampleHandshake.floats →
      FloatFormat.tenths.Exact q := by
    intro q hq
    have hvalues : sampleFrame.floats ++ sampleHandshake.floats =
      [.finite (21 / 2), .finite (-7 / 2), .finite 1] := rfl
    simp only [hvalues, List.mem_cons, F64.finite.injEq, List.not_mem_nil, or_false] at hq
    rcases hq with rfl | rfl | rfl <;> decide +kernel
  obtain ⟨hframe, hcmd, hpayload⟩ :=
    lossless_iff .tenths sampleFrame sampleHandshake sampleText hexact
  exact ⟨hframe.2 (by decide), hcmd.2 (by decide), hpayload⟩

/-- A handshake from a host started with a scale factor that is not a number. -/
def nanHandshake : ControlCommand :=
  .handshake Kmflow.protocolVersion "my-pc" { ScreenInfo.fallback with scaleFactor := .nan }
    (some .right)

/-- The peer cannot read it. -/
theorem not_lossless_nanHandshake :
    ¬ decodeControl .tenths (encodeControl .tenths nanHandshake) = some nanHandshake := by
  rw [decodeControl, encodeControl, fromSlice_toVec]
  intro h
  have hnan : (F64.serde .tenths).Keeps .nan :=
    ControlCommand.keeps_iff.1 h .nan (List.mem_singleton_self _)
  cases hnan

end Kmflow
