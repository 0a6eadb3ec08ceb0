import Kmflow.Daemon.FrameSize
import Kmflow.Foundation.Framing
import Kmflow.Foundation.JsonCut

/-!
# Clipboard payloads on streams of their own

The clipboard arm opens a stream for a payload, writes a tag byte, the length of the serialised
payload, cast to `u32`, and the payload, and finishes the stream. The peer's stream task reads the
streams one after the other; what has another tag, announces more than ten megabytes, ends early or
cannot be decoded is dropped, and the sender does not learn of it.

The limit is on the reader's side alone, so the peer has what was sent exactly when every payload is
within it (`clipboardsArrive_iff`). That a longer one cannot slip through in part rests on the
serialisation: a length from `2 ^ 32` on is announced modulo `2 ^ 32`, so the task may read the
beginning of a payload, but a JSON object that is cut short stands for nothing
(`ofBytes_eq_none_of_prefix`).
-/

namespace Kmflow

open Framing Json Serde Transition

/-! ### The size of a payload -/

/-- The bytes a content takes: names and punctuation, and what the data adds to them. -/
def ClipboardContent.textSize : ClipboardContent → ℕ
  | text s => 9 + quotedSize s
  | image mime data =>
    29 + quotedSize mime + (data.map fun b ↦ digits b.toNat).sum + (data.length - 1)
  | fileUri uris => 14 + (uris.map quotedSize).sum + (uris.length - 1)

/-- The bytes a payload takes. -/
def ClipboardPayload.textSize (payload : ClipboardPayload) : ℕ :=
  30 + quotedSize payload.originPeerId + payload.content.textSize

/-- What a string takes. -/
theorem size_encode_string (s : String) : size (Serde.string.encode s) = quotedSize s := rfl

/-- What a byte takes. -/
theorem size_encode_u8 (b : UInt8) : size (u8.encode b) = digits b.toNat := size_number _

/-- What the content takes. -/
theorem size_encode_content (content : ClipboardContent) :
    size (ClipboardContent.serde.encode content) = content.textSize := by
  have htext : quotedSize "Text" = 6 := by decide
  have himage : quotedSize "Image" = 7 := by decide
  have hmime : quotedSize "mime" = 6 := by decide
  have hdata : quotedSize "data" = 6 := by decide
  have hfileUri : quotedSize "FileUri" = 9 := by decide
  match content with
  | .text s =>
    simp only [ClipboardContent.serde, ClipboardContent.textSize, size_object_one,
      size_encode_string, htext]
    omega
  | .image mime data =>
    have hlist : size (u8.list.encode data) =
        (data.map fun b ↦ digits b.toNat).sum + (data.length - 1) + 2 := by
      rw [Serde.list]
      simp only [size_array, List.map_map, List.length_map, Function.comp_def, size_encode_u8]
    simp only [ClipboardContent.serde, ClipboardContent.textSize, size_object_one,
      size_object_two, size_encode_string, hlist, himage, hmime, hdata]
    omega
  | .fileUri uris =>
    have hlist : size (Serde.string.list.encode uris) =
        (uris.map quotedSize).sum + (uris.length - 1) + 2 := by
      rw [Serde.list]
      simp only [size_array, List.map_map, List.length_map, Function.comp_def, size_encode_string]
    simp only [ClipboardContent.serde, ClipboardContent.textSize, size_object_one, hlist, hfileUri]
    omega

/-- **The bytes a payload takes.** -/
theorem length_encodeClipboard (payload : ClipboardPayload) :
    (encodeClipboard payload).length = payload.textSize := by
  have horigin : quotedSize "origin_peer_id" = 16 := by decide
  have hcontent : quotedSize "content" = 9 := by decide
  show size (ClipboardPayload.serde.encode payload) = _
  simp only [ClipboardPayload.serde, ClipboardPayload.textSize, size_object_two,
    size_encode_string, size_encode_content, horigin, hcontent]
  omega

/-- A text takes more bytes than it has characters. -/
theorem length_lt_textSize_text (originPeerId s : String) :
    s.length < ClipboardPayload.textSize ⟨originPeerId, .text s⟩ := by
  have hquoted := length_lt_quotedSize s
  simp only [ClipboardPayload.textSize, ClipboardContent.textSize]
  omega

/-! ### One stream -/

/-- The tag that tells a clipboard stream from a control stream. -/
def clipboardTag : UInt8 := 0xCB

/-- The safety limit of the stream task. -/
def maxClipboardSize : ℕ := 10 * 1024 * 1024

/-- The bytes the clipboard arm writes to the stream it has opened. -/
def clipboardStream (payload : ClipboardPayload) : List UInt8 :=
  clipboardTag :: frame (encodeClipboard payload)

/-- The bytes of a payload, as the stream task reads them off a finished stream; `none` where it
goes on to the next stream. -/
def readClipboard (stream : List UInt8) : Option (List UInt8) := do
  let (tag, rest) ← readExact 1 stream
  if tag ≠ [clipboardTag] then none else readFrame maxClipboardSize rest

/-- What the stream task passes on of a stream. -/
def acceptClipboard (stream : List UInt8) : Option ClipboardPayload :=
  (readClipboard stream).bind decodeClipboard

/-- The receiver reads what the sender has written, behind the tag. -/
theorem readClipboard_clipboardStream (payload : ClipboardPayload) :
    readClipboard (clipboardStream payload) =
      readFrame maxClipboardSize (frame (encodeClipboard payload)) := by
  have htag : readExact 1 (clipboardStream payload) =
      some ([clipboardTag], frame (encodeClipboard payload)) :=
    readExact_append [clipboardTag] _
  simp only [readClipboard, htag, Option.bind_eq_bind, Option.bind_some, ne_eq, not_true_eq_false,
    if_false]

/-- The task reads back what was written when that is within the limit. -/
theorem readClipboard_eq_some_iff {payload : ClipboardPayload} :
    readClipboard (clipboardStream payload) = some (encodeClipboard payload) ↔
      payload.textSize ≤ maxClipboardSize := by
  rw [readClipboard_clipboardStream, readFrame_frame_eq_some_iff (by decide),
    length_encodeClipboard]

/-- What is only the beginning of a payload is not decoded. -/
theorem decodeClipboard_eq_none {payload : ClipboardPayload} {data : List UInt8}
    (h : data <+: encodeClipboard payload) (hne : data ≠ encodeClipboard payload) :
    decodeClipboard data = none := by
  rw [decodeClipboard, fromSlice, ofBytes_eq_none_of_prefix h hne]
  rfl

/-- **A payload within the limit is passed on, and no other is.** -/
theorem acceptClipboard_clipboardStream (payload : ClipboardPayload) :
    acceptClipboard (clipboardStream payload) =
      if payload.textSize ≤ maxClipboardSize then some payload else none := by
  have hiff : readClipboard (clipboardStream payload) = some (encodeClipboard payload) ↔
    payload.textSize ≤ maxClipboardSize := readClipboard_eq_some_iff
  split_ifs with hfits
  · have hkeeps : decodeClipboard (encodeClipboard payload) = some payload := by
      rw [decodeClipboard, encodeClipboard, fromSlice_toVec]
      exact payload.keeps
    rw [acceptClipboard, hiff.2 hfits, Option.bind_some, hkeeps]
  · cases hread : readClipboard (clipboardStream payload) with
    | none => rw [acceptClipboard, hread, Option.bind_none]
    | some data =>
      have hne : data ≠ encodeClipboard payload := fun h ↦ hfits (hiff.1 (h ▸ hread))
      rw [readClipboard_clipboardStream] at hread
      rw [acceptClipboard, readClipboard_clipboardStream, hread, Option.bind_some]
      exact decodeClipboard_eq_none (isPrefix_of_readFrame_frame hread) hne

/-! ### The streams of a session -/

/-- The payload of a stream that an output opens. -/
def Output.clipboard? : Output → Option ClipboardPayload
  | clipboardToPeer payload => some payload
  | _ => none

/-- The streams the stream task has accepted, to the payloads it passes on. -/
def streamTask (streams : List (List UInt8)) : List ClipboardPayload :=
  streams.filterMap acceptClipboard

/-! ### What the arms write -/

/-- Plain outputs have nothing for a clipboard. -/
theorem clipboards_of_isPlain {outs : List Output} (h : outs.all Output.isPlain = true) :
    outs.filterMap Output.clipboard? = [] :=
  filterMap_eq_nil_of_isPlain (fun o ho ↦ by cases o <;> first | rfl | cases ho) h

/-- No frame has anything for a clipboard. -/
theorem clipboards_of_frameReaction {cfg : SessionConfig} {env : Env} {d : DaemonState}
    {onHit : List Output} {result : Option EventFrame} {r : Reaction}
    (h : FrameReaction cfg env d onHit result r) (hplain : onHit.all Output.isPlain = true) :
    r.outputs.filterMap Output.clipboard? = [] := by
  cases h with
  | failed | ignored | panicked => rfl
  | hit => exact clipboards_of_isPlain hplain
  | passed frame t =>
    dsimp only
    split_ifs
    · simp [List.filterMap_map, Function.comp_def, Output.clipboard?]
    · rfl

namespace Session

/-- The payloads the session has written and reported as sent. -/
def clipboards (s : Session) : List ClipboardPayload := s.outputs.filterMap Output.clipboard?

/-- The payload a step writes, if it writes one. -/
def clipboard? : Input → Option ClipboardPayload
  | .clipboardOutgoing payload true => some payload
  | _ => none

/-- Every payload the session has sent is read back byte for byte, and the peer's stream task has
passed on the payloads that were sent, in order. -/
def ClipboardsArrive (s : Session) : Prop :=
  s.clipboards.map (readClipboard ∘ clipboardStream) = s.clipboards.map (some ∘ encodeClipboard) ∧
    streamTask (s.clipboards.map clipboardStream) = s.clipboards

/-- The condition on one step: what the clipboard arm writes is within the reader's limit. -/
def ClipboardFits (_ : Session) : Input → Prop
  | .clipboardOutgoing payload true => payload.textSize ≤ maxClipboardSize
  | _ => True

/-- **What a step writes** comes after what was written before it. -/
theorem clipboards_of_step {cfg : SessionConfig} {s s' : Session} {i : Input}
    (hs' : s' ∈ step cfg s i) : s'.clipboards = s.clipboards ++ (clipboard? i).toList := by
  have habsorb {r : Reaction} {channel : List InputEvent} :
      (s.absorb r channel).clipboards =
        s.clipboards ++ r.outputs.filterMap Output.clipboard? :=
    List.filterMap_append
  have hnothing {r : Reaction} {channel : List InputEvent}
      (hr : r.outputs.filterMap Output.clipboard? = []) :
      (s.absorb r channel).clipboards = s.clipboards ++ [] := by
    rw [habsorb, hr]
  cases armStep_of_step hs' with
  | push => exact (List.append_nil _).symm
  | captured => exact hnothing (clipboards_of_isPlain (isPlain_capturedArm _ _ _ _ _))
  | captureClosed | shutdown | clipboardReceived => exact hnothing rfl
  | frame => exact hnothing (clipboards_of_frameReaction (frameReaction_arms _ _ _ _).1 rfl)
  | control => exact hnothing (clipboards_of_isPlain (isPlain_controlArm _ _ _ _))
  | receiveOnlyFrame =>
    exact hnothing (clipboards_of_frameReaction (frameReaction_arms _ _ _ _).2 rfl)
  | receiveOnlyControl =>
    exact hnothing (clipboards_of_isPlain (isPlain_receiveOnlyControlArm _ _ _))
  | clipboardOutgoing payload sent => cases sent <;> exact habsorb
  | cleanup env =>
    exact List.filterMap_append.trans
      (congrArg (s.clipboards ++ ·) (clipboards_of_isPlain (isPlain_cleanup env s.daemon)))

/-- What was sent has arrived when it is within the limit. -/
theorem clipboardsArrive_iff_forall {s : Session} :
    s.ClipboardsArrive ↔ ∀ payload ∈ s.clipboards, payload.textSize ≤ maxClipboardSize := by
  have hread : s.clipboards.map (readClipboard ∘ clipboardStream) =
      s.clipboards.map (some ∘ encodeClipboard) ↔
        ∀ payload ∈ s.clipboards, payload.textSize ≤ maxClipboardSize :=
    List.map_inj_left.trans (forall₂_congr fun _ _ ↦ readClipboard_eq_some_iff)
  refine ⟨fun h ↦ hread.1 h.1, fun h ↦ ⟨hread.2 h, ?_⟩⟩
  rw [streamTask, List.filterMap_map]
  calc s.clipboards.filterMap (acceptClipboard ∘ clipboardStream)
      = s.clipboards.filterMap some := List.filterMap_congr fun payload hpayload ↦ by
        rw [Function.comp_apply, acceptClipboard_clipboardStream, if_pos (h payload hpayload)]
    _ = s.clipboards := List.filterMap_some

/-- A step fits when its payload does, if it has one. -/
theorem clipboardFits_iff {s : Session} {i : Input} :
    s.ClipboardFits i ↔ ∀ payload ∈ clipboard? i, payload.textSize ≤ maxClipboardSize := by
  match i with
  | .clipboardOutgoing payload true | .clipboardOutgoing payload false =>
    simp [ClipboardFits, clipboard?]
  | .push _ | .shutdown | .clipboardReceived _ | .captureClosed | .captured _ _ | .frame _ _
  | .control _ _ | .cleanup _ => simp [ClipboardFits, clipboard?]

/-- A payload that is too long does not arrive, and the session has sent it. -/
theorem not_clipboardsArrive {s : Session} {payload : ClipboardPayload}
    (hsent : payload ∈ s.clipboards) (hlong : maxClipboardSize < payload.textSize) :
    ¬ s.ClipboardsArrive :=
  fun h ↦ Nat.not_le.2 hlong (clipboardsArrive_iff_forall.1 h payload hsent)

/-- **When everything sent is received.** In every run of a session, in the main loop and in the
receive-only loop, the peer has read back and passed on whatever the clipboard arm has sent exactly
when each payload it was given to send takes at most ten megabytes, escapes included. -/
theorem clipboardsArrive_iff (cfg : SessionConfig) (d : DaemonState) (is : List Input) :
    Throughout (step cfg) ClipboardsArrive (start d) is ↔
      EachStep (step cfg) ClipboardFits (start d) is := by
  have hstep {s s' : Session} {i : Input} (hs' : s' ∈ step cfg s i) :
      s'.ClipboardsArrive ↔ s.ClipboardsArrive ∧ s.ClipboardFits i := by
    rw [clipboardsArrive_iff_forall, clipboards_of_step hs', List.forall_mem_append,
      clipboardsArrive_iff_forall, clipboardFits_iff]
    simp only [Option.mem_toList]
    exact Iff.rfl
  exact throughout_iff_eachStep (I := ClipboardsArrive) (fun s hs ↦ hs)
    (fun s i hs hi s' hs' ↦ (hstep hs').2 ⟨hs, hi⟩)
    (fun s i _ hi s' hs' h ↦ hi ((hstep hs').1 h).2) ⟨rfl, rfl⟩ is

/-- A text as long as the limit. -/
def longText : ClipboardPayload :=
  ⟨"left", .text (String.ofList (List.replicate maxClipboardSize 'a'))⟩

/-- The text is too long. -/
theorem maxClipboardSize_lt_longText : maxClipboardSize < longText.textSize := by
  have hlength :=
    length_lt_textSize_text "left" (String.ofList (List.replicate maxClipboardSize 'a'))
  rwa [String.length_ofList, List.length_replicate] at hlength

/-- It is sent, and the stream task drops it. -/
theorem not_clipboardsArrive_longText :
    ¬ Throughout (step .fallback) ClipboardsArrive (start (.new .fallback 0))
      [.clipboardOutgoing longText true] := by
  have hrun (payload : ClipboardPayload) : run (step .fallback) (start (.new .fallback 0))
      [.clipboardOutgoing payload true] =
        some { start (.new .fallback 0) with outputs := [.clipboardToPeer payload] } := rfl
  refine not_throughout_of_run (hrun longText) ?_
  exact not_clipboardsArrive (List.mem_singleton_self _) maxClipboardSize_lt_longText

end Session

end Kmflow
