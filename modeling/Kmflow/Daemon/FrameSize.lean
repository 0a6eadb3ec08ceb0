import Kmflow.Daemon.Batching
import Kmflow.Proto.Codec
import Mathlib.Algebra.BigOperators.Group.Finset.Basic
import Mathlib.Algebra.Order.BigOperators.Group.List

/-!
# Frames and the datagram limit

How many bytes a frame takes (`length_encodeFrame`), and when every frame a session hands to
`send_datagram` stays within `MAX_FRAME_SIZE` (`framesFit_iff`). The batch limit counts events and
the datagram limit counts bytes, and nothing in the session relates the two: fourteen events fit
(`length_encodeFrame_le`), forty-four never do (`lt_length_encodeFrame`), and sixty-four are taken
in one batch.

What a flush sends depends on the order in which the sets of held keys and buttons are walked; its
size does not, so it is a sum over the two sets (`heldSize`).
-/

namespace Kmflow

open Json Serde Transition

/-- `MAX_FRAME_SIZE`. -/
def maxFrameSize : ℕ := 1200

/-! ### The size of a frame -/

/-- The number of decimal digits. -/
def digits (n : ℕ) : ℕ := (Nat.toDigits 10 n).length

/-- The bytes that an `f64` takes; what is not finite is written `null`. -/
def F64.textSize (fmt : FloatFormat) : F64 → ℕ
  | finite q => (fmt.write q).chars.length
  | _ => 4

/-- The bytes an event takes: names and punctuation, and what the data adds to them. -/
def InputEvent.textSize (fmt : FloatFormat) : InputEvent → ℕ
  | mouseMove dx dy => 27 + dx.textSize fmt + dy.textSize fmt
  | mouseButton button state => 40 + button.variantName.length + state.variantName.length
  | scroll dx dy => 24 + dx.textSize fmt + dy.textSize fmt
  | key scancode state => 32 + digits scancode.toNat + state.variantName.length

/-- The bytes a frame takes, from the bytes its events take together and their number. -/
def frameSize (seq : UInt32) (timestampUs : UInt64) (total count : ℕ) : ℕ :=
  36 + digits seq.toNat + digits timestampUs.toNat + total + (count - 1)

/-- What a float takes. -/
theorem size_encode_f64 (fmt : FloatFormat) (x : F64) :
    size ((F64.serde fmt).encode x) = x.textSize fmt := by
  match x with
  | .nan | .inf _ => exact size_null
  | .finite q => exact size_number _

/-- What a number takes. -/
theorem size_encode_u32 (n : UInt32) : size (u32.encode n) = digits n.toNat := size_number _

/-- What a larger number takes. -/
theorem size_encode_u64 (n : UInt64) : size (u64.encode n) = digits n.toNat := size_number _

/-- What a button takes: its name in quotes. -/
theorem size_encode_button (b : MouseButton) :
    size (MouseButton.serde.encode b) = b.variantName.length + 2 := by
  cases b <;> decide

/-- What its state takes. -/
theorem size_encode_buttonState (s : ButtonState) :
    size (ButtonState.serde.encode s) = s.variantName.length + 2 := by
  cases s <;> decide

/-- What the state of a key takes. -/
theorem size_encode_keyState (s : KeyState) :
    size (KeyState.serde.encode s) = s.variantName.length + 2 := by
  cases s <;> decide

/-- What an event takes. -/
theorem size_encode_event (fmt : FloatFormat) (e : InputEvent) :
    size ((InputEvent.serde fmt).encode e) = e.textSize fmt := by
  have hmove : quotedSize "MouseMove" = 11 := by decide
  have hbutton : quotedSize "MouseButton" = 13 := by decide
  have hscroll : quotedSize "Scroll" = 8 := by decide
  have hkey : quotedSize "Key" = 5 := by decide
  have hdx : quotedSize "dx" = 4 := by decide
  have hdy : quotedSize "dy" = 4 := by decide
  have hfield : quotedSize "button" = 8 := by decide
  have hstate : quotedSize "state" = 7 := by decide
  have hscancode : quotedSize "scancode" = 10 := by decide
  match e with
  | .mouseMove dx dy | .scroll dx dy =>
    simp only [InputEvent.serde, InputEvent.textSize, size_object_one, size_object_two,
      size_encode_f64, hmove, hscroll, hdx, hdy]
    omega
  | .mouseButton b s =>
    simp only [InputEvent.serde, InputEvent.textSize, size_object_one, size_object_two,
      size_encode_button, size_encode_buttonState, hbutton, hfield, hstate]
    omega
  | .key c s =>
    simp only [InputEvent.serde, InputEvent.textSize, size_object_one, size_object_two,
      size_encode_u32, size_encode_keyState, hkey, hscancode, hstate]
    omega

/-- **The bytes a frame takes.** -/
theorem length_encodeFrame (fmt : FloatFormat) (frame : EventFrame) :
    (encodeFrame fmt frame).length = frameSize frame.seq frame.timestampUs
      (frame.events.map (InputEvent.textSize fmt)).sum frame.events.length := by
  have hseq : quotedSize "seq" = 5 := by decide
  have htimestamp : quotedSize "timestamp_us" = 14 := by decide
  have hevents : quotedSize "events" = 8 := by decide
  have hlist : size ((InputEvent.serde fmt).list.encode frame.events) =
      (frame.events.map (InputEvent.textSize fmt)).sum + (frame.events.length - 1) + 2 := by
    rw [Serde.list]
    simp only [size_array, List.map_map, List.length_map, Function.comp_def, size_encode_event]
  show size ((EventFrame.serde fmt).encode frame) = _
  simp only [EventFrame.serde, size_object, size_encode_u32, size_encode_u64, hlist, List.map_cons,
    List.map_nil, List.sum_cons, List.sum_nil, List.length_cons, List.length_nil, hseq, htimestamp,
    hevents, frameSize]
  omega

/-! ### How many events fit -/

/-- A number has a digit at least. -/
theorem digits_pos (n : ℕ) : 0 < digits n := Nat.length_toDigits_pos

/-- A number below a power of ten has no more digits than its exponent. -/
theorem digits_le {n k : ℕ} (hk : 0 < k) (hn : n < 10 ^ k) : digits n ≤ k :=
  (Nat.length_toDigits_le_iff (by decide) hk).2 hn

/-- A float takes a byte at least. -/
theorem F64.textSize_pos (fmt : FloatFormat) (x : F64) : 0 < x.textSize fmt := by
  match x with
  | .nan | .inf _ => exact Nat.succ_pos _
  | .finite q => exact List.length_pos_of_ne_nil (fmt.write q).chars_ne_nil

/-- No event takes fewer than 26 bytes. -/
theorem InputEvent.le_textSize (fmt : FloatFormat) (e : InputEvent) : 26 ≤ e.textSize fmt := by
  match e with
  | .mouseMove dx dy | .scroll dx dy =>
    have hdx := dx.textSize_pos fmt
    have hdy := dy.textSize_pos fmt
    simp only [InputEvent.textSize]
    omega
  | .mouseButton _ _ | .key _ _ =>
    simp only [InputEvent.textSize]
    omega

/-- With literals of at most 24 characters, which is as long as any shortest literal of an `f64`
gets, no event takes more than 75 bytes. -/
theorem InputEvent.textSize_le {fmt : FloatFormat} {e : InputEvent}
    (h : ∀ x ∈ e.floats, x.textSize fmt ≤ 24) : e.textSize fmt ≤ 75 := by
  match e with
  | .mouseMove dx dy | .scroll dx dy =>
    have hdx : dx.textSize fmt ≤ 24 := h dx (List.mem_cons_self ..)
    have hdy : dy.textSize fmt ≤ 24 := h dy (.tail _ (List.mem_cons_self ..))
    simp only [InputEvent.textSize]
    omega
  | .mouseButton b s =>
    have hb : b.variantName.length ≤ 7 := by cases b <;> decide
    have hs : s.variantName.length ≤ 8 := by cases s <;> decide
    simp only [InputEvent.textSize]
    omega
  | .key c s =>
    have hc : digits c.toNat ≤ 10 := digits_le (by decide) (Nat.lt_trans c.toNat_lt (by decide))
    have hs : s.variantName.length ≤ 8 := by cases s <;> decide
    simp only [InputEvent.textSize]
    omega

/-- **Fourteen events fit**, whatever they are, if no literal is longer than that. -/
theorem length_encodeFrame_le {fmt : FloatFormat} {frame : EventFrame}
    (h : ∀ x ∈ frame.floats, x.textSize fmt ≤ 24) (hcount : frame.events.length ≤ 14) :
    (encodeFrame fmt frame).length ≤ maxFrameSize := by
  have htotal : (frame.events.map (InputEvent.textSize fmt)).sum ≤
      (frame.events.map (InputEvent.textSize fmt)).length • 75 := by
    refine List.sum_le_card_nsmul _ 75 (List.forall_mem_map.2 fun e he ↦ ?_)
    exact InputEvent.textSize_le fun x hx ↦ h x (List.mem_flatMap.2 ⟨e, he, hx⟩)
  have hseq : digits frame.seq.toNat ≤ 10 :=
    digits_le (by decide) (Nat.lt_trans frame.seq.toNat_lt (by decide))
  have htimestamp : digits frame.timestampUs.toNat ≤ 20 :=
    digits_le (by decide) (Nat.lt_trans frame.timestampUs.toNat_lt (by decide))
  rw [List.length_map, Nat.nsmul_eq_mul] at htotal
  rw [length_encodeFrame, frameSize, maxFrameSize]
  omega

/-- **Forty-four events do not fit**, whatever they are. -/
theorem lt_length_encodeFrame {fmt : FloatFormat} {frame : EventFrame}
    (hcount : 44 ≤ frame.events.length) : maxFrameSize < (encodeFrame fmt frame).length := by
  have htotal : (frame.events.map (InputEvent.textSize fmt)).length • 26 ≤
      (frame.events.map (InputEvent.textSize fmt)).sum :=
    List.card_nsmul_le_sum _ 26 (List.forall_mem_map.2 fun e _ ↦ e.le_textSize fmt)
  have hseq := digits_pos frame.seq.toNat
  have htimestamp := digits_pos frame.timestampUs.toNat
  rw [List.length_map, Nat.nsmul_eq_mul] at htotal
  rw [length_encodeFrame, frameSize, maxFrameSize]
  omega

/-! ### The size of a flush -/

/-- What the flush of the tracked keys and buttons takes, in whatever order it walks them. -/
def heldSize (d : DaemonState) : ℕ :=
  ∑ c ∈ d.pressedKeys, (40 + digits c.toNat) +
    ∑ b ∈ d.pressedButtons, (48 + b.variantName.length)

/-- How many keys and buttons are tracked as held. -/
def heldCount (d : DaemonState) : ℕ := d.pressedKeys.card + d.pressedButtons.card

/-- The flush has a release for each key and button, in whatever order. -/
theorem length_flushPressedKeys (order : FlushOrder) (d : DaemonState) :
    (flushPressedKeys order d).length = heldCount d := by
  simp only [flushPressedKeys, List.length_append, List.length_map, IterOrder.length_iter,
    heldCount]

/-- What it takes does not depend on the order either. -/
theorem sum_textSize_flushPressedKeys (fmt : FloatFormat) (order : FlushOrder) (d : DaemonState) :
    ((flushPressedKeys order d).map (InputEvent.textSize fmt)).sum = heldSize d := by
  have hkey (c : UInt32) : InputEvent.textSize fmt (.key c .released) = 40 + digits c.toNat := by
    show 32 + digits c.toNat + 8 = _
    omega
  have hbutton (b : MouseButton) :
      InputEvent.textSize fmt (.mouseButton b .released) = 48 + b.variantName.length := by
    show 40 + b.variantName.length + 8 = _
    omega
  simp only [flushPressedKeys, List.map_append, List.map_map, List.sum_append, Function.comp_def,
    hkey, hbutton, IterOrder.sum_map_iter, heldSize]

namespace Session

/-! ### What a step sends -/

/-- The frames the session handed to `send_datagram`. -/
def frames (s : Session) : List EventFrame := s.outputs.filterMap Output.frame?

/-- The frame a step hands to `send_datagram`, if it hands one. -/
def sent? (s : Session) : Input → Option EventFrame
  | .captured env ready =>
    match s.channel with
    | [] => none
    | event :: rest =>
      if !s.daemon.focusIsRemote then none
      else if checkEmergencyHotkey (trackKeyState s.daemon event) then
        some ⟨s.daemon.seqCounter + 1, env.nowUs,
          flushPressedKeys env.order (trackKeyState s.daemon event)⟩
      else some ⟨s.daemon.seqCounter + 1, env.nowUs, event :: rest.take (drained ready)⟩
  | .cleanup env =>
    if s.daemon.focusIsRemote && !(flushPressedKeys env.order s.daemon).isEmpty then
      some ⟨s.daemon.seqCounter + 1, env.nowUs, flushPressedKeys env.order s.daemon⟩
    else none
  | _ => none

/-- The hotkey sends one frame, since the chord itself is held. -/
theorem frames_emergencyRelease (env : Env) {d : DaemonState}
    (h : checkEmergencyHotkey d = true) :
    (emergencyRelease env d).outputs.filterMap Output.frame? =
      [⟨d.seqCounter + 1, env.nowUs, flushPressedKeys env.order d⟩] := by
  have hflush : flushPressedKeys env.order { d with focusIsRemote := false } =
    flushPressedKeys env.order d := rfl
  have hne : (flushPressedKeys env.order d).isEmpty = false :=
    List.isEmpty_eq_false_iff.2 (flushPressedKeys_ne_nil env.order h)
  simp only [emergencyRelease, hflush, hne]
  rfl

/-- The cleanup sends a frame if there is something to release. -/
theorem frames_cleanup (env : Env) (s : Session) :
    (Kmflow.cleanup env s.daemon).2.filterMap Output.frame? = (s.sent? (.cleanup env)).toList := by
  simp only [Kmflow.cleanup, cleanupFlush, sent?]
  cases s.daemon.focusIsRemote with
  | false => rfl
  | true => cases flushPressedKeys env.order s.daemon <;> rfl

/-- Tracking leaves the counter as it is. -/
theorem tracked_seqCounter (d : DaemonState) (es : List InputEvent) :
    (tracked d es).seqCounter = d.seqCounter := by
  induction es generalizing d with
  | nil => rfl
  | cons e es ih =>
    show (tracked (trackKeyState d e) es).seqCounter = _
    rw [ih, trackKeyState_eq]

/-- **A step sends the frame it is said to**, and no other. -/
theorem frames_of_step {cfg : SessionConfig} {s s' : Session} {i : Input}
    (hs' : s' ∈ step cfg s i) : s'.frames = s.frames ++ (s.sent? i).toList := by
  cases outcome_of_step hs' with
  | push => exact (List.append_nil _).symm
  | idle d outs phase hrun hd houts hphase hpush hcapt hclean hctrl =>
    have hsent : s.sent? i = none := by
      match i with
      | .captured env ready => exact absurd rfl (hcapt env ready)
      | .cleanup env => exact absurd rfl (hclean env)
      | .push _ | .shutdown | .clipboardOutgoing _ _ | .clipboardReceived _ | .captureClosed
      | .frame _ _ | .control _ _ => rfl
    rw [frames, frames, List.filterMap_append, houts.frames, hsent]
    rfl
  | captureClosed => exact (List.append_nil _).symm
  | keep event rest d phase hphase hch hfocus =>
    simp [frames, sent?, hch, hfocus]
  | edgeHit event rest d hphase hch hfocus =>
    simp [frames, sent?, hch, hfocus, Output.frame?]
  | @emergency env ready event rest hphase hch hfocus hkey =>
    have hseq : (trackKeyState s.daemon event).seqCounter = s.daemon.seqCounter :=
      tracked_seqCounter s.daemon [event]
    rw [frames, List.filterMap_append, frames_emergencyRelease env hkey, hseq]
    simp [frames, sent?, hch, hfocus, hkey]
  | forward event rest hphase hch hfocus hkey =>
    simp [frames, sent?, hch, hfocus, hkey, Output.frame?, nextSeq, tracked_seqCounter]
  | frameHit => simp [frames, sent?, Output.frame?]
  | receiveOnlyFrameHit => simp [frames, sent?, Output.frame?]
  | handBack => simp [frames, sent?, Output.frame?]
  | receiveOnlyHandBack => simp [frames, sent?]
  | cleanup env =>
    rw [frames, List.filterMap_append, frames_cleanup]
    rfl

/-! ### Runs -/

/-- Every frame the session handed to `send_datagram` is within the limit. -/
def FramesFit (fmt : FloatFormat) (s : Session) : Prop :=
  ∀ frame ∈ s.frames, (encodeFrame fmt frame).length ≤ maxFrameSize

/-- The condition on one step: with focus remote, what the captured-event arm forwards or flushes
and what the cleanup flushes is short enough. -/
def Fits (fmt : FloatFormat) (s : Session) : Input → Prop
  | .captured env ready => ∀ event rest, s.channel = event :: rest →
      s.daemon.focusIsRemote = true →
        if checkEmergencyHotkey (trackKeyState s.daemon event) then
          frameSize (s.daemon.seqCounter + 1) env.nowUs (heldSize (trackKeyState s.daemon event))
            (heldCount (trackKeyState s.daemon event)) ≤ maxFrameSize
        else
          frameSize (s.daemon.seqCounter + 1) env.nowUs
            ((event :: rest.take (drained ready)).map (InputEvent.textSize fmt)).sum
            (event :: rest.take (drained ready)).length ≤ maxFrameSize
  | .cleanup env => s.daemon.focusIsRemote = true →
      frameSize (s.daemon.seqCounter + 1) env.nowUs (heldSize s.daemon) (heldCount s.daemon) ≤
        maxFrameSize
  | _ => True

/-- How long the frame of a flush is. -/
theorem length_encodeFrame_flush (fmt : FloatFormat) (seq : UInt32) (timestampUs : UInt64)
    (order : FlushOrder) (d : DaemonState) :
    (encodeFrame fmt ⟨seq, timestampUs, flushPressedKeys order d⟩).length =
      frameSize seq timestampUs (heldSize d) (heldCount d) := by
  rw [length_encodeFrame, sum_textSize_flushPressedKeys, length_flushPressedKeys]

/-- A frame without events is within the limit. -/
theorem frameSize_zero_le (seq : UInt32) (timestampUs : UInt64) :
    frameSize seq timestampUs 0 0 ≤ maxFrameSize := by
  have h : (encodeFrame .tenths ⟨seq, timestampUs, []⟩).length ≤ maxFrameSize :=
    length_encodeFrame_le (fun x hx ↦ by cases hx) (Nat.zero_le _)
  rwa [length_encodeFrame] at h

/-- A step fits exactly when the frame it sends does. -/
theorem fits_iff {fmt : FloatFormat} {s : Session} {i : Input} :
    s.Fits fmt i ↔ ∀ frame ∈ s.sent? i, (encodeFrame fmt frame).length ≤ maxFrameSize := by
  match i with
  | .push _ | .shutdown | .clipboardOutgoing _ _ | .clipboardReceived _ | .captureClosed
  | .frame _ _ | .control _ _ => simp [Fits, sent?]
  | .captured env ready =>
    simp only [Fits, sent?]
    cases hch : s.channel with
    | nil => simp
    | cons event rest =>
      cases hfocus : s.daemon.focusIsRemote with
      | false => simp
      | true =>
        cases hkey : checkEmergencyHotkey (trackKeyState s.daemon event) with
        | false => simp [hkey, length_encodeFrame]
        | true => simp [hkey, length_encodeFrame_flush]
  | .cleanup env =>
    simp only [Fits, sent?]
    cases hfocus : s.daemon.focusIsRemote with
    | false => simp
    | true =>
      cases hflush : flushPressedKeys env.order s.daemon with
      | nil =>
        have hsize : heldSize s.daemon = 0 ∧ heldCount s.daemon = 0 := by
          rw [← sum_textSize_flushPressedKeys fmt env.order, ← length_flushPressedKeys env.order,
            hflush]
          exact ⟨rfl, rfl⟩
        simpa [hsize] using frameSize_zero_le _ _
      | cons e es =>
        have hlength := length_encodeFrame_flush fmt (s.daemon.seqCounter + 1) env.nowUs env.order
          s.daemon
        rw [hflush] at hlength
        simp [hlength]

/-- **When every frame fits.** In every run of a session, from any state of the daemon, the frames
handed to `send_datagram` are within the limit exactly when each step hands over few enough
bytes. -/
theorem framesFit_iff (fmt : FloatFormat) (cfg : SessionConfig) (d : DaemonState)
    (is : List Input) :
    Throughout (step cfg) (FramesFit fmt) (start d) is ↔
      EachStep (step cfg) (Fits fmt) (start d) is := by
  have hstep {s s' : Session} {i : Input} (hs' : s' ∈ step cfg s i) :
      s'.FramesFit fmt ↔ s.FramesFit fmt ∧ s.Fits fmt i := by
    rw [FramesFit, frames_of_step hs', List.forall_mem_append, fits_iff]
    simp only [Option.mem_toList]
    exact Iff.rfl
  exact throughout_iff_eachStep (I := FramesFit fmt) (fun s hs ↦ hs)
    (fun s i hs hi s' hs' ↦ (hstep hs').2 ⟨hs, hi⟩)
    (fun s i _ hi s' hs' h ↦ hi ((hstep hs').1 h).2) (fun frame hframe ↦ by cases hframe) is

/-- Focus goes to the peer, and then the channel fills faster than the session takes events. -/
def burstRun : List Input :=
  [.push (.mouseMove (.finite 1000) (.finite 0)), .captured (.at 0) 0] ++
    List.replicate 64 (.push (.key 30 .pressed)) ++ [.captured (.at 0) 63]

/-- The batch is too long for a datagram. -/
theorem not_framesFit_burstRun :
    ¬ Throughout (step .fallback) (FramesFit .tenths) (start (.new .fallback 0)) burstRun := by
  have hlengths : (run (step .fallback) (start (.new .fallback 0)) burstRun).map
      (fun t ↦ t.frames.map fun frame ↦ frame.events.length) = some [64] := by
    decide +kernel
  obtain ⟨t, ht, hlengths⟩ := Option.map_eq_some_iff.1 hlengths
  obtain ⟨frame, hframe, hlength⟩ : ∃ frame ∈ t.frames, frame.events.length = 64 := by
    have hmem : 64 ∈ t.frames.map fun frame ↦ frame.events.length := by
      rw [hlengths]
      exact List.mem_singleton_self _
    exact List.mem_map.1 hmem
  refine not_throughout_of_run ht fun hfit ↦ ?_
  exact Nat.not_le.2 (lt_length_encodeFrame (by omega)) (hfit frame hframe)

end Session

end Kmflow
