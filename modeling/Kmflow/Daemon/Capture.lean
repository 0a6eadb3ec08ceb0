import Kmflow.Daemon.Outcome

/-!
# From the devices to one of the two machines

The path of a captured event: the devices queue it, `run_capture_loop` takes it with `next_event`
and sends it into the bounded channel, and the session receives it and forwards it or keeps it
local.

`CaptureLoop` is `run_capture_loop`, one step for each thing the rest of the program can fall in
between: the shutdown test, the look at `grab_rx`, the return of `grab_pointer` or `ungrab_pointer`,
the return of `next_event`, the return of `blocking_send`. `CapturePath` puts it together with the
devices on one side and the session on the other, and a run of it is any interleaving of the three.

The devices are what the operating system promises: an event that occurs while they are grabbed is
seen by the capture thread alone, any other by the local desktop as well. So an `Occurrence` carries
whether the devices were grabbed, and that bit says what the desktop saw. What the peer is given is
read off the frames the session hands to `send_datagram`. The two agree when an event is received
under the focus it was made under (`settles_reachedOne_iff`), and nothing in the code sees to that:
the request to grab is looked at between two calls of `next_event`, which does not return before
there is an event (`not_exactlyOne_lateGrabRun`). It takes a user who waits: nothing pressed or
released until the thread has answered a change of focus, and no change of focus while something is
on its way (`exactlyOne_of_orderly`).
-/

namespace Kmflow

open Transition

/-! ### The capture loop -/

/-- The receiver of a `watch` channel: the last value, and whether it has been looked at since. -/
structure WatchReceiver (β : Type) where
  value : β
  changed : Bool

/-- Where the capture thread stands in its loop. -/
inductive CapturePoint (ε : Type) where
  /-- Before the shutdown test. -/
  | top
  /-- Before `has_changed`. -/
  | grabTest
  /-- Inside `grab_pointer` (`true`) or `ungrab_pointer` (`false`). -/
  | calling (on : Bool)
  /-- Inside `next_event`. -/
  | reading
  /-- Inside `blocking_send`. -/
  | sending (event : ε)
  /-- Past the loop: the capture is dropped and its descriptors are closed. -/
  | ended

/-- The thread, with the channel its requests come over. -/
structure CaptureLoop (ε : Type) where
  point : CapturePoint ε
  /-- The loop's own variable. -/
  grabbed : Bool
  grabRx : WatchReceiver Bool

namespace CaptureLoop

variable {ε : Type}

/-- The labels: what the thread does next and what it is answered. -/
inductive Input (ε : Type) where
  | request (on : Bool)
  | testShutdown (raised : Bool)
  /-- `has_changed`, which is an error once the sender is gone, and `borrow_and_update`. -/
  | testGrab (closed : Bool)
  | call (ok : Bool)
  /-- `next_event` returns, with an error when `none`. -/
  | nextEvent (result : Option ε)
  /-- `blocking_send` returns, with an error when the receiver is gone. -/
  | sent (ok : Bool)

/-- The thread as it is spawned, before any request. -/
def start : CaptureLoop ε where
  point := .top
  grabbed := false
  grabRx := ⟨false, false⟩

/-- What the loop does about a value it has seen for the first time. -/
def answer (grabbed shouldGrab : Bool) : CapturePoint ε :=
  if shouldGrab && !grabbed then .calling true
  else if !shouldGrab && grabbed then .calling false
  else .reading

/-- Having looked at a request, the thread goes on to read, or calls the devices first. -/
theorem answer_cases (grabbed shouldGrab : Bool) :
    (answer grabbed shouldGrab : CapturePoint ε) = .reading ∨
      ∃ on, (answer grabbed shouldGrab : CapturePoint ε) = .calling on := by
  unfold answer
  split_ifs
  · exact .inr ⟨true, rfl⟩
  · exact .inr ⟨false, rfl⟩
  · exact .inl rfl

/-- A value is sent on `grab_tx`. -/
def request (l : CaptureLoop ε) (on : Bool) : CaptureLoop ε := { l with grabRx := ⟨on, true⟩ }

/-- One step of the loop; `none` when the thread is not there. -/
def step (l : CaptureLoop ε) (i : Input ε) : Option (CaptureLoop ε) :=
  match l.point, i with
  | _, .request on => some (l.request on)
  | .top, .testShutdown raised => some { l with point := if raised then .ended else .grabTest }
  | .grabTest, .testGrab closed =>
    -- only the last of the values sent since the last look is seen
    if !closed && l.grabRx.changed then
      some { l with
        point := answer l.grabbed l.grabRx.value
        grabRx := ⟨l.grabRx.value, false⟩ }
    else some { l with point := .reading }
  | .calling on, .call ok =>
    some { l with point := .reading, grabbed := if ok then on else l.grabbed }
  | .reading, .nextEvent (some event) => some { l with point := .sending event }
  | .reading, .nextEvent none => some { l with point := .ended }
  | .sending _, .sent ok => some { l with point := if ok then .top else .ended }
  | _, _ => none

/-- The event the thread has taken from the devices and not yet passed on. -/
def inHand (l : CaptureLoop ε) : List ε :=
  match l.point with
  | .sending event => [event]
  | _ => []

/-- What a step leaves in the thread's hand, when it found nothing there. -/
def Input.takesUp : Input ε → List ε
  | nextEvent (some event) => [event]
  | _ => []

/-- The steps between two events: what the thread has in its hand it took up in this step. -/
theorem inHand_of_step {l l' : CaptureLoop ε} {i : Input ε} (h : l' ∈ l.step i)
    (hrequest : ∀ on, i ≠ .request on) (hsent : ∀ ok, i ≠ .sent ok) :
    l.inHand = [] ∧ l'.inHand = i.takesUp := by
  unfold step at h
  split at h
  case h_1 on => exact absurd rfl (hrequest on)
  case h_2 raised hpoint =>
    obtain rfl := Option.some.inj h
    rw [inHand, hpoint]
    cases raised <;> exact ⟨rfl, rfl⟩
  case h_3 closed hpoint =>
    rw [inHand, hpoint]
    split_ifs at h
    · obtain rfl := Option.some.inj h
      rcases @answer_cases ε l.grabbed l.grabRx.value with hanswer | ⟨on, hanswer⟩
      · simp [inHand, hanswer, Input.takesUp]
      · simp [inHand, hanswer, Input.takesUp]
    · obtain rfl := Option.some.inj h
      exact ⟨rfl, rfl⟩
  case h_4 on ok hpoint =>
    obtain rfl := Option.some.inj h
    rw [inHand, hpoint]
    exact ⟨rfl, rfl⟩
  case h_5 event hpoint =>
    obtain rfl := Option.some.inj h
    rw [inHand, hpoint]
    exact ⟨rfl, rfl⟩
  case h_6 hpoint =>
    obtain rfl := Option.some.inj h
    rw [inHand, hpoint]
    exact ⟨rfl, rfl⟩
  case h_7 ok _ => exact absurd rfl (hsent ok)
  case h_8 => cases h

/-- `blocking_send` empties the thread's hand, whatever it returns. -/
theorem inHand_of_sent {l l' : CaptureLoop ε} {ok : Bool} (h : l' ∈ l.step (.sent ok)) :
    l'.inHand = [] := by
  cases hpoint : l.point with
  | sending event =>
    simp only [step, hpoint] at h
    obtain rfl := Option.some.inj h
    cases ok <;> rfl
  | top | grabTest | calling | reading | ended => simp [step, hpoint] at h

/-- Whether the thread is past its loop. -/
def hasEnded (l : CaptureLoop ε) : Bool :=
  match l.point with
  | .ended => true
  | _ => false

/-- Whether the devices are grabbed, when every call succeeds: the last call was a grab, and the
descriptors are still open. -/
def holdsDevices (l : CaptureLoop ε) : Bool := l.grabbed && !l.hasEnded

end CaptureLoop

/-! ### What a session takes from the channel -/

/-- The key event that completes the emergency hotkey, and with focus remote sets it off. -/
def completesHotkey (d : DaemonState) (event : InputEvent) : Bool :=
  d.focusIsRemote && checkEmergencyHotkey (trackKeyState d event) && !checkEmergencyHotkey d

namespace Session

/-- A batch that starts with this event is forwarded: focus is remote, the hotkey not set off. -/
def forwardsOn (s : Session) (event : InputEvent) : Bool :=
  s.daemon.focusIsRemote && !checkEmergencyHotkey (trackKeyState s.daemon event)

/-- How many events a step receives from the channel, if so many are waiting. -/
def takes (s : Session) : Input → ℕ
  | .captured _ ready => if s.channel.head?.any s.forwardsOn then drained ready + 1 else 1
  | _ => 0

/-- Whether the events a step receives go to the peer, as far as the session can tell. -/
def delivers (s : Session) : Input → Bool
  | .captured env _ => s.channel.head?.any fun event ↦ s.forwardsOn event && env.datagramOk
  | _ => false

/-- Whether a step receives the event that completes the emergency hotkey. -/
def firesHotkey (s : Session) : Input → Bool
  | .captured _ _ => s.channel.head?.any (completesHotkey s.daemon)
  | _ => false

/-- Only the captured-event arm takes events from the channel. -/
theorem takes_eq_zero {s : Session} {i : Input} (h : ∀ env ready, i ≠ .captured env ready) :
    s.takes i = 0 := by
  match i with
  | .captured env ready => exact absurd rfl (h env ready)
  | .push _ | .shutdown | .clipboardOutgoing _ _ | .clipboardReceived _ | .captureClosed
  | .frame _ _ | .control _ _ | .cleanup _ => rfl

section Receipt

variable {cfg : SessionConfig} {s t : Session} {i : Input} {env : Env} {ready : ℕ}
  {event : InputEvent} {rest : List InputEvent}

/-- With focus remote it takes a batch. -/
theorem takes_batch (hch : s.channel = event :: rest) (h : s.forwardsOn event = true) :
    s.takes (.captured env ready) = drained ready + 1 := by
  simp [takes, hch, h]

/-- Otherwise it takes one event. -/
theorem takes_single (hch : s.channel = event :: rest) (h : s.forwardsOn event = false) :
    s.takes (.captured env ready) = 1 := by
  simp [takes, hch, h]

/-- A step takes its events off the front of the channel. -/
theorem channel_of_step (ht : t ∈ step cfg s i) (hpush : ∀ event, i ≠ .push event) :
    t.channel = s.channel.drop (s.takes i) := by
  cases outcome_of_step ht with
  | push event => exact absurd rfl (hpush event)
  | idle _ _ _ _ _ _ _ _ hcapt =>
    rw [takes_eq_zero hcapt]
    rfl
  | captureClosed _ hch => rw [hch, List.drop_nil]
  | keep event rest _ _ _ hch hfocus | edgeHit event rest _ _ hch hfocus =>
    rw [takes_single hch (by rw [forwardsOn, hfocus, Bool.false_and]), hch]
    rfl
  | emergency event rest _ hch _ hkey =>
    rw [takes_single hch (by rw [forwardsOn, hkey, Bool.not_true, Bool.and_false]), hch]
    rfl
  | forward event rest _ hch hfocus hkey =>
    rw [takes_batch hch (by rw [forwardsOn, hfocus, hkey]; rfl), hch]
    rfl
  | frameHit | receiveOnlyFrameHit | handBack | receiveOnlyHandBack | cleanup => rfl

/-- The flush of the emergency hotkey is not the event that set the hotkey off: it releases at least
three keys. -/
theorem flushPressedKeys_ne_singleton {order : FlushOrder} {d : DaemonState}
    (hkey : checkEmergencyHotkey d = true) (event : InputEvent) :
    flushPressedKeys order d ≠ [event] := by
  intro h
  have hmem : ∀ c ∈ d.pressedKeys, InputEvent.key c .released = event := by
    intro c hc
    have : InputEvent.key c .released ∈ flushPressedKeys order d := by
      simp [flushPressedKeys, IterOrder.mem_iter, hc]
    rwa [h, List.mem_singleton] at this
  obtain ⟨hctrl, halt, -⟩ := checkEmergencyHotkey_iff.1 hkey
  have hkeys := (hmem _ (DaemonState.key_mem_pressed.1 hctrl)).trans
    (hmem _ (DaemonState.key_mem_pressed.1 halt)).symm
  exact absurd hkeys (by decide)

/-- **What a step hands to the peer.** The frames of a step that receives events carry exactly these
events when the session forwards, and not these events otherwise. -/
theorem sent_eq_taken_iff (ht : t ∈ step cfg s (.captured env ready))
    (hch : s.channel = event :: rest) :
    Output.forwarded (t.outputs.drop s.outputs.length) =
        s.channel.take (s.takes (.captured env ready)) ↔
      s.forwardsOn event = true := by
  cases outcome_of_step ht with
  | idle _ _ _ _ _ _ _ _ hcapt => exact absurd rfl (hcapt env ready)
  | keep _ _ _ _ _ hch' hfocus | edgeHit _ _ _ _ hch' hfocus =>
    cases hch.symm.trans hch'
    have hlocal : s.forwardsOn event = false := by rw [forwardsOn, hfocus, Bool.false_and]
    rw [takes_single hch hlocal, hch, hlocal]
    simp
  | emergency _ _ _ hch' _ hkey =>
    cases hch.symm.trans hch'
    have hfire : s.forwardsOn event = false := by
      rw [forwardsOn, hkey, Bool.not_true, Bool.and_false]
    rw [takes_single hch hfire, hch, hfire, List.drop_left, forwarded_emergencyRelease]
    have hne : flushPressedKeys env.order (trackKeyState s.daemon event) ≠ [event] :=
      flushPressedKeys_ne_singleton hkey event
    simpa using hne
  | forward _ _ _ hch' hfocus hkey =>
    cases hch.symm.trans hch'
    have hforward : s.forwardsOn event = true := by rw [forwardsOn, hfocus, hkey]; rfl
    rw [takes_batch hch hforward, hch, hforward]
    simp

/-- With focus local nothing is forwarded. -/
theorem delivers_of_local (hfocus : s.daemon.focusIsRemote = false) (i : Input) :
    s.delivers i = false := by
  match i with
  | .captured env ready => cases hch : s.channel <;> simp [delivers, forwardsOn, hfocus, hch]
  | .push _ | .shutdown | .clipboardOutgoing _ _ | .clipboardReceived _ | .captureClosed
  | .frame _ _ | .control _ _ | .cleanup _ => rfl

/-- With focus remote and the chord not held, only the completed hotkey keeps a batch back. -/
theorem delivers_of_remote (hfocus : s.daemon.focusIsRemote = true)
    (hchord : checkEmergencyHotkey s.daemon = false) (hch : s.channel = event :: rest)
    (hfires : s.firesHotkey (.captured env ready) = false) :
    s.delivers (.captured env ready) = env.datagramOk := by
  have hkey : checkEmergencyHotkey (trackKeyState s.daemon event) = false := by
    simpa [firesHotkey, completesHotkey, hch, hfocus, hchord] using hfires
  simp [delivers, forwardsOn, hch, hfocus, hkey]

/-- The channel's receiver is on its way out: the session is cleaned up, or its task unwinds. -/
def Ended (s : Session) : Prop := s.phase = .cleanedUp ∨ s.phase = .panicked

instance (s : Session) : Decidable s.Ended := inferInstanceAs (Decidable (_ ∨ _))

/-- A session that can still take a step has not ended. -/
theorem not_ended_of_step (ht : t ∈ step cfg s i) : ¬ s.Ended := by
  rintro (h | h) <;> cases i <;> simp [step, h] at ht

/-- However a session ends, it ends with focus local. -/
theorem focusIsRemote_of_ended (ht : t ∈ step cfg s i) (hend : t.Ended) :
    t.daemon.focusIsRemote = false := by
  have hrunning : ¬ s.Ended := not_ended_of_step ht
  cases outcome_of_step ht with
  | idle d outs phase _ hd _ hphase =>
    rcases hphase with rfl | rfl | ⟨-, hfocus⟩
    · exact absurd hend hrunning
    · rcases hend with h | h <;> cases h
    · exact hd.focusIsRemote.trans hfocus
  | keep event rest d phase _ _ hfocus hd _ =>
    exact (hd.focusIsRemote.trans (trackKeyState_focusIsRemote _ _)).trans hfocus
  | cleanup => rfl
  | forward => rcases hend with h | h <;> dsimp only at h <;> split_ifs at h
  | push => exact absurd hend hrunning
  | captureClosed | edgeHit | emergency | frameHit | receiveOnlyFrameHit | handBack
  | receiveOnlyHandBack =>
    rcases hend with h | h <;> cases h

end Receipt

end Session

/-! ### The whole path -/

/-- An event, at the moment it occurs at a device. -/
structure Occurrence where
  device : ℕ
  event : InputEvent
  /-- Whether the devices were grabbed. -/
  grabbed : Bool
  deriving DecidableEq

/-- What became of an event that has left the path. -/
structure Delivery where
  occurrence : Occurrence
  /-- A frame with it was handed to `send_datagram`, which succeeded. -/
  toPeer : Bool
  /-- It completed the emergency hotkey. -/
  completesHotkey : Bool
  deriving DecidableEq

namespace Delivery

/-- The desktop sees what occurs while the devices are not grabbed. -/
def toDesktop (x : Delivery) : Bool := !x.occurrence.grabbed

/-- The event reached one of the two machines and not the other. -/
def ReachedOne (x : Delivery) : Prop :=
  x.occurrence.event.isSwitch = true → x.completesHotkey = false → x.toDesktop ≠ x.toPeer

instance (x : Delivery) : Decidable x.ReachedOne :=
  inferInstanceAs (Decidable (_ → _ → _))

end Delivery

/-- An event that was captured and that the session never received. -/
def Occurrence.lost (o : Occurrence) : Delivery where
  occurrence := o
  toPeer := false
  completesHotkey := false

/-- The thread, the devices it reads and the session it feeds. -/
structure CapturePath where
  loop : CaptureLoop Occurrence
  /-- What the devices hold for the thread, oldest first. -/
  unread : List Occurrence
  session : Session
  /-- The occurrences behind the events in the session's channel. -/
  waiting : List Occurrence
  /-- Cleared by `drop(capture_rx)`, or by the unwinding of a panic. -/
  receiverOpen : Bool
  /-- What became of every captured event so far, oldest first. -/
  settled : List Delivery

namespace CapturePath

/-- The labels: who moves, and with what. -/
inductive Label where
  /-- The user presses, releases or moves something. -/
  | physical (device : ℕ) (event : InputEvent)
  | testShutdown (raised : Bool)
  | testGrab
  /-- `grab_pointer` or `ungrab_pointer` succeeds. -/
  | call
  /-- `next_event` returns the oldest event of a device. -/
  | nextEvent (device : ℕ)
  | captureError
  | send
  /-- The session completes an arm, or its cleanup. -/
  | session (i : Input)
  | dropReceiver

/-- The thread has just been spawned, and nothing has been read. -/
def start (daemon : DaemonState) : CapturePath where
  loop := .start
  unread := []
  session := .start daemon
  waiting := []
  receiverOpen := true
  settled := []

/-- The session's channel is fed by the thread alone, and closed when the thread returns. -/
def admits (s : CapturePath) : Input → Bool
  | .push _ => false
  | .captureClosed => s.loop.hasEnded
  | _ => true

/-- `send_datagram` succeeds in this step. -/
def datagramOk : Input → Bool
  | .captured env _ => env.datagramOk
  | _ => true

/-- What a step of the session to `t` settles: the events it took from the channel, forwarded when
the frames it handed over carry exactly them. -/
def deliveries (s : CapturePath) (i : Input) (t : Session) : List Delivery :=
  let taken := s.waiting.take (s.session.channel.length - t.channel.length)
  let sent := Output.forwarded (t.outputs.drop s.session.outputs.length)
  taken.map fun o ↦
    ⟨o, decide (sent = taken.map Occurrence.event) && datagramOk i, s.session.firesHotkey i⟩

/-- The path after a step of the session to `t`: the grab requests it made reach the thread's
receiver. -/
def afterSession (s : CapturePath) (i : Input) (t : Session) : CapturePath :=
  let requests := (t.outputs.drop s.session.outputs.length).filterMap Output.grab?
  { s with
    loop := requests.foldl CaptureLoop.request s.loop
    session := t
    waiting := s.waiting.drop (s.session.channel.length - t.channel.length)
    settled := s.settled ++ s.deliveries i t }

/-- One step of the path; `none` when the label is not enabled. -/
def step (cfg : SessionConfig) (s : CapturePath) : Label → Option CapturePath
  | .physical device event =>
    -- once the descriptors are closed, only the desktop is left
    if s.loop.hasEnded then some s
    else some { s with unread := s.unread ++ [⟨device, event, s.loop.holdsDevices⟩] }
  | .testShutdown raised => (s.loop.step (.testShutdown raised)).map fun l ↦ { s with loop := l }
  | .testGrab =>
    -- `grab_tx` lives as long as the session's task, which a panic ends
    (s.loop.step (.testGrab (decide (s.session.phase = .panicked)))).map fun l ↦
      { s with loop := l }
  | .call => (s.loop.step (.call true)).map fun l ↦ { s with loop := l }
  | .nextEvent device =>
    (s.unread.find? (·.device == device)).bind fun o ↦
      (s.loop.step (.nextEvent (some o))).map fun l ↦
        { s with loop := l, unread := s.unread.eraseP (·.device == device) }
  | .captureError => (s.loop.step (.nextEvent none)).map fun l ↦ { s with loop := l }
  | .send =>
    match s.loop.point with
    | .sending o =>
      if s.receiverOpen then
        -- on a full channel the thread blocks: the label is not enabled
        if s.session.channel.length < captureChannelCapacity then
          (s.loop.step (.sent true)).map fun l ↦
            { s with
              loop := l
              session := { s.session with channel := s.session.channel ++ [o.event] }
              waiting := s.waiting ++ [o] }
        else none
      else
        (s.loop.step (.sent false)).map fun l ↦
          { s with loop := l, settled := s.settled ++ [o.lost] }
    | _ => none
  | .session i =>
    if s.admits i then (s.session.step cfg i).map (s.afterSession i) else none
  | .dropReceiver =>
    if s.receiverOpen && (s.session.phase == .cleanedUp || s.session.phase == .panicked) then
      some { s with
        session := { s.session with channel := [] }
        waiting := []
        receiverOpen := false
        settled := s.settled ++ s.waiting.map Occurrence.lost }
    else none

/-! ### What a step settles -/

/-- The occurrences that wait are those behind the session's channel. -/
structure Aligned (s : CapturePath) : Prop where
  events : s.waiting.map Occurrence.event = s.session.channel
  closed : s.receiverOpen = false → s.waiting = []

/-- What a step settles, told from the state before it. -/
def settles (s : CapturePath) : Label → List Delivery
  | .session i =>
    (s.waiting.take (s.session.takes i)).map fun o ↦
      ⟨o, s.session.delivers i, s.session.firesHotkey i⟩
  | .send =>
    match s.loop.point with
    | .sending o => if s.receiverOpen then [] else [o.lost]
    | _ => []
  | .dropReceiver => s.waiting.map Occurrence.lost
  | _ => []

section Step

variable {cfg : SessionConfig} {s s' : CapturePath}

/-- Counting off what is gone from a list takes what was dropped. -/
private theorem take_length_sub {α β : Type} {l : List α} {m : List β} (h : l.length = m.length)
    (k : ℕ) : l.take (m.length - (m.drop k).length) = l.take k ∧
      l.drop (m.length - (m.drop k).length) = l.drop k := by
  rw [List.length_drop, ← h]
  rcases le_total k l.length with hle | hle
  · rw [Nat.sub_sub_self hle]
    exact ⟨rfl, rfl⟩
  · rw [Nat.sub_eq_zero_of_le hle, Nat.sub_zero, List.take_length, List.drop_length,
      List.take_of_length_le hle, List.drop_eq_nil_of_le hle]
    exact ⟨rfl, rfl⟩

/-- **The session's share.** A step of the session settles the events it takes, the way its state
before the step says, and leaves the others waiting. -/
theorem afterSession_eq (hs : s.Aligned) {i : Input} {t : Session}
    (ht : t ∈ s.session.step cfg i) (hi : s.admits i = true) :
    (s.afterSession i t).Aligned ∧
      (s.afterSession i t).waiting = s.waiting.drop (s.session.takes i) ∧
      (s.afterSession i t).settled = s.settled ++ s.settles (.session i) := by
  have hpush : ∀ event, i ≠ .push event := by
    rintro event rfl
    cases hi
  have hlength : s.waiting.length = s.session.channel.length := by
    rw [← hs.events, List.length_map]
  have hchannel : t.channel = s.session.channel.drop (s.session.takes i) :=
    Session.channel_of_step ht hpush
  obtain ⟨htake, hdrop⟩ := take_length_sub hlength (s.session.takes i)
  have hwaiting : (s.afterSession i t).waiting = s.waiting.drop (s.session.takes i) := by
    rw [afterSession, hchannel, hdrop]
  refine ⟨⟨?_, fun hclosed ↦ ?_⟩, hwaiting, congrArg (s.settled ++ ·) ?_⟩
  · show (s.afterSession i t).waiting.map Occurrence.event = t.channel
    rw [hwaiting, hchannel, ← hs.events, List.map_drop]
  · rw [hwaiting, hs.closed hclosed, List.drop_nil]
  rw [deliveries, settles, hchannel, htake]
  -- the label of each delivery: what was read off the frames is what the state before tells
  refine List.map_congr_left fun o ho ↦ ?_
  congr 1
  rw [List.map_take, hs.events]
  match i with
  | .captured env ready =>
    cases hch : s.session.channel with
    | nil =>
      rw [← hs.events, List.map_eq_nil_iff] at hch
      rw [hch, List.take_nil] at ho
      cases ho
    | cons event rest =>
      have hsent := Session.sent_eq_taken_iff ht hch
      rw [← hch, Bool.eq_iff_iff, Bool.and_eq_true, decide_eq_true_iff, hsent]
      simp [Session.delivers, hch, datagramOk]
  | .push _ | .shutdown | .clipboardOutgoing _ _ | .clipboardReceived _ | .captureClosed
  | .frame _ _ | .control _ _ | .cleanup _ =>
    rw [Session.takes_eq_zero (fun _ _ h ↦ by cases h), List.take_zero] at ho
    cases ho

/-- **What one step does to the record.** The waiting occurrences stay behind the session's channel,
and the record grows by what the step settles. -/
theorem settled_of_step (hs : s.Aligned) {l : Label} (hs' : s' ∈ step cfg s l) :
    s'.Aligned ∧ s'.settled = s.settled ++ s.settles l := by
  match l with
  | .physical device event =>
    rw [step] at hs'
    split_ifs at hs'
    · obtain rfl := Option.some.inj hs'
      exact ⟨hs, (List.append_nil _).symm⟩
    · obtain rfl := Option.some.inj hs'
      exact ⟨⟨hs.events, hs.closed⟩, (List.append_nil _).symm⟩
  | .testShutdown _ | .testGrab | .call | .captureError =>
    obtain ⟨l, -, rfl⟩ := Option.map_eq_some_iff.1 hs'
    exact ⟨⟨hs.events, hs.closed⟩, (List.append_nil _).symm⟩
  | .nextEvent device =>
    obtain ⟨o, -, hs'⟩ := Option.bind_eq_some_iff.1 hs'
    obtain ⟨l, -, rfl⟩ := Option.map_eq_some_iff.1 hs'
    exact ⟨⟨hs.events, hs.closed⟩, (List.append_nil _).symm⟩
  | .send =>
    rw [step] at hs'
    split at hs'
    case h_1 o hpoint =>
      split_ifs at hs' with hopen hroom
      · obtain ⟨l, -, rfl⟩ := Option.map_eq_some_iff.1 hs'
        refine ⟨⟨?_, fun hclosed ↦ ?_⟩, ?_⟩
        · show (s.waiting ++ [o]).map Occurrence.event = s.session.channel ++ [o.event]
          rw [List.map_append, hs.events]
          rfl
        · cases hopen.symm.trans hclosed
        · simp [settles, hpoint, hopen]
      · cases hs'
      · obtain ⟨l, -, rfl⟩ := Option.map_eq_some_iff.1 hs'
        exact ⟨⟨hs.events, hs.closed⟩, by simp [settles, hpoint, hopen]⟩
    case h_2 => cases hs'
  | .session i =>
    rw [step] at hs'
    split_ifs at hs' with hi
    · obtain ⟨t, ht, rfl⟩ := Option.map_eq_some_iff.1 hs'
      obtain ⟨haligned, -, hsettled⟩ := afterSession_eq hs ht hi
      exact ⟨haligned, hsettled⟩
    · cases hs'
  | .dropReceiver =>
    rw [step] at hs'
    split_ifs at hs'
    · obtain rfl := Option.some.inj hs'
      exact ⟨⟨rfl, fun _ ↦ rfl⟩, rfl⟩
    · cases hs'

end Step

/-! ### Nothing is lost on the way -/

/-- The captured events that have not been settled: those in the channel and the one in the thread's
hand. -/
def onTheWay (s : CapturePath) : List Occurrence := s.waiting ++ s.loop.inHand

/-- The event a step makes `next_event` return. -/
def returned (s : CapturePath) : Label → List Occurrence
  | .nextEvent device => (s.unread.find? (·.device == device)).toList
  | _ => []

/-- Requests do not change what the thread has in its hand. -/
@[simp] theorem inHand_foldl_request (l : CaptureLoop Occurrence) (requests : List Bool) :
    (requests.foldl CaptureLoop.request l).inHand = l.inHand := by
  induction requests generalizing l with
  | nil => rfl
  | cons on requests ih => exact ih (l.request on)

/-- What a step settles comes off the front of what was on the way, what it captures is added at the
end. -/
theorem onTheWay_of_step {cfg : SessionConfig} {s s' : CapturePath} (hs : s.Aligned) {l : Label}
    (hs' : s' ∈ step cfg s l) :
    (s.settles l).map Delivery.occurrence ++ s'.onTheWay = s.onTheWay ++ s.returned l := by
  match l with
  | .physical device event =>
    rw [step] at hs'
    split_ifs at hs'
    · obtain rfl := Option.some.inj hs'
      exact (List.append_nil _).symm
    · obtain rfl := Option.some.inj hs'
      exact (List.append_nil _).symm
  | .testShutdown _ | .testGrab | .call | .captureError =>
    obtain ⟨l, hl, rfl⟩ := Option.map_eq_some_iff.1 hs'
    obtain ⟨hbefore, hafter⟩ := CaptureLoop.inHand_of_step hl (fun _ h ↦ by cases h)
      (fun _ h ↦ by cases h)
    simp [settles, onTheWay, returned, hbefore, hafter, CaptureLoop.Input.takesUp]
  | .nextEvent device =>
    obtain ⟨o, ho, hs'⟩ := Option.bind_eq_some_iff.1 hs'
    obtain ⟨l, hl, rfl⟩ := Option.map_eq_some_iff.1 hs'
    obtain ⟨hbefore, hafter⟩ := CaptureLoop.inHand_of_step hl (fun _ h ↦ by cases h)
      (fun _ h ↦ by cases h)
    simp [settles, onTheWay, returned, ho, hbefore, hafter, CaptureLoop.Input.takesUp]
  | .send =>
    rw [step] at hs'
    split at hs'
    case h_1 o hpoint =>
      have hbefore : s.loop.inHand = [o] := by rw [CaptureLoop.inHand, hpoint]
      split_ifs at hs' with hopen hroom
      · obtain ⟨l, hl, rfl⟩ := Option.map_eq_some_iff.1 hs'
        simp [settles, onTheWay, returned, hpoint, hopen, hbefore, CaptureLoop.inHand_of_sent hl]
      · cases hs'
      · obtain ⟨l, hl, rfl⟩ := Option.map_eq_some_iff.1 hs'
        -- nothing waits any more, so the event in hand was the first on the way
        have hempty : s.waiting = [] := hs.closed (Bool.eq_false_of_not_eq_true hopen)
        simp [settles, onTheWay, returned, hpoint, hopen, hbefore, hempty, Occurrence.lost,
          CaptureLoop.inHand_of_sent hl]
    case h_2 => cases hs'
  | .session i =>
    rw [step] at hs'
    split_ifs at hs' with hi
    · obtain ⟨t, ht, rfl⟩ := Option.map_eq_some_iff.1 hs'
      obtain ⟨-, hwaiting, -⟩ := afterSession_eq hs ht hi
      have hhand : (s.afterSession i t).loop.inHand = s.loop.inHand := inHand_foldl_request _ _
      rw [onTheWay, onTheWay, hwaiting, hhand, ← List.append_assoc]
      simp [settles, returned, Function.comp_def]
    · cases hs'
  | .dropReceiver =>
    rw [step] at hs'
    split_ifs at hs'
    · obtain rfl := Option.some.inj hs'
      simp [settles, onTheWay, returned, Function.comp_def, Occurrence.lost]
    · cases hs'

/-- **No captured event is lost or duplicated on the way**: what `next_event` has returned so far is
what is settled followed by what is on the way, in order. -/
theorem captured_eq (cfg : SessionConfig) (daemon : DaemonState) (ls : List Label) :
    Throughout (withHistory (step cfg) fun captured s l _ ↦ captured ++ s.returned l)
      (fun sh ↦ sh.2 = sh.1.settled.map Delivery.occurrence ++ sh.1.onTheWay)
      (start daemon, []) ls := by
  have hstart : (start daemon).Aligned ∧
      [] = (start daemon).settled.map Delivery.occurrence ++ (start daemon).onTheWay :=
    ⟨⟨rfl, fun h ↦ by cases h⟩, rfl⟩
  refine (throughout_of_invariant (I := fun sh : CapturePath × List Occurrence ↦
    sh.1.Aligned ∧ sh.2 = sh.1.settled.map Delivery.occurrence ++ sh.1.onTheWay) ?_
    hstart ls).mono fun sh hsh ↦ hsh.2
  rintro ⟨s, captured⟩ l ⟨haligned, hcaptured⟩ ⟨s', captured'⟩ hs'
  obtain ⟨hs', rfl⟩ := mem_withHistory.1 hs'
  obtain ⟨haligned', hsettled⟩ := settled_of_step haligned hs'
  refine ⟨haligned', ?_⟩
  show captured ++ s.returned l = _
  dsimp only at hcaptured hsettled ⊢
  rw [hsettled, hcaptured, List.map_append, List.append_assoc, List.append_assoc,
    onTheWay_of_step haligned hs']

/-! ### Exactly one machine -/

/-- Every key and button event that left the path, the one that completed the emergency hotkey
apart, reached one machine and not the other. -/
def ExactlyOne (s : CapturePath) : Prop := ∀ x ∈ s.settled, x.ReachedOne

/-- The step settles events as they were made: an event the session receives was made under the
focus it is received under (grabbed, when it is forwarded, and not grabbed otherwise), and no event
made under the grab is lost with the channel. -/
def AsMade (s : CapturePath) : Label → Prop
  | .session i =>
    ∀ o ∈ s.waiting.take (s.session.takes i), o.event.isSwitch = true →
      s.session.firesHotkey i = false → o.grabbed = s.session.delivers i
  | .send =>
    s.receiverOpen = false → ∀ o, s.loop.point = .sending o → o.event.isSwitch = true →
      o.grabbed = false
  | .dropReceiver => ∀ o ∈ s.waiting, o.event.isSwitch = true → o.grabbed = false
  | _ => True

/-- The desktop has seen what the devices were not grabbed for, so it is the grab that has to agree
with the delivery. -/
theorem reachedOne_iff {o : Occurrence} {toPeer fired : Bool} :
    Delivery.ReachedOne ⟨o, toPeer, fired⟩ ↔
      (o.event.isSwitch = true → fired = false → o.grabbed = toPeer) := by
  refine imp_congr_right fun _ ↦ imp_congr_right fun _ ↦ ?_
  show (!o.grabbed) ≠ toPeer ↔ _
  cases o.grabbed <;> cases toPeer <;> decide

/-- What a step settles reaches one machine each if it is settled as it was made. -/
theorem settles_reachedOne_iff (s : CapturePath) (l : Label) :
    (∀ x ∈ s.settles l, x.ReachedOne) ↔ s.AsMade l := by
  match l with
  | .physical _ _ | .testShutdown _ | .testGrab | .call | .nextEvent _ | .captureError =>
    simp [settles, AsMade]
  | .session i => simp only [settles, AsMade, List.forall_mem_map, reachedOne_iff]
  | .dropReceiver => simp [settles, AsMade, Occurrence.lost, reachedOne_iff]
  | .send =>
    simp only [settles, AsMade]
    cases hpoint : s.loop.point with
    | sending o => cases s.receiverOpen <;> simp [Occurrence.lost, reachedOne_iff]
    | top | grabTest | calling | reading | ended => simp

/-- A step that settles events as they were made keeps to one machine. -/
theorem ExactlyOne.step {cfg : SessionConfig} {s s' : CapturePath} {l : Label} (h : s.ExactlyOne)
    (haligned : s.Aligned) (hmade : s.AsMade l) (hs' : s' ∈ CapturePath.step cfg s l) :
    s'.ExactlyOne := by
  obtain ⟨-, hsettled⟩ := settled_of_step haligned hs'
  intro x hx
  rw [hsettled, List.mem_append] at hx
  rcases hx with hx | hx
  · exact h x hx
  · exact (settles_reachedOne_iff s l).2 hmade x hx

/-- The run that fails: the thread is back inside `next_event` when the session finds that the
cursor has reached the edge, so the next key is pressed with the devices not grabbed and received
with focus remote. -/
def lateGrabRun : List Label :=
  [.testShutdown false, .testGrab, .physical 0 (.mouseMove (.finite 1000) (.finite 0)),
    .nextEvent 0, .send, .testShutdown false, .testGrab, .session (.captured (.at 0) 0),
    .physical 1 (.key 30 .pressed), .nextEvent 1, .send, .session (.captured (.at 0) 0)]

/-- After the run the key has reached both machines. -/
theorem not_exactlyOne_lateGrabRun :
    ¬ Throughout (step .fallback) ExactlyOne (start (.new .fallback 0)) lateGrabRun := by
  have hsettled : (run (step .fallback) (start (.new .fallback 0)) lateGrabRun).map
      (fun s ↦ s.settled.getLast?) =
        some (some ⟨⟨1, .key 30 .pressed, false⟩, true, false⟩) := by
    decide +kernel
  obtain ⟨t, ht, hlast⟩ := Option.map_eq_some_iff.1 hsettled
  refine not_throughout_of_run ht fun hone ↦ ?_
  exact absurd (hone _ (List.mem_of_getLast? hlast)) (by decide)

/-! ### Quiet hand-overs -/

/-- The captured events the session has not received, and those the thread has not captured yet. -/
def ahead (s : CapturePath) : List Occurrence := s.onTheWay ++ s.unread

/-- No key or button event is between the devices and the session. -/
def Quiet (s : CapturePath) : Prop := ∀ o ∈ s.ahead, o.event.isSwitch = false

instance (s : CapturePath) : Decidable s.Quiet := List.decidableBAll _ _

/-- The step respects the hand-overs. Nothing is pressed or released before the thread has answered
the last one; focus moves only when no key or button event is on its way; and what the session
receives with focus remote is sent, with the chord of the emergency hotkey not held already. -/
def Orderly (cfg : SessionConfig) (s : CapturePath) : Label → Prop
  | .physical _ event =>
    event.isSwitch = true → s.loop.holdsDevices = s.session.daemon.focusIsRemote
  | .session i =>
    (∀ t ∈ s.session.step cfg i, t.daemon.focusIsRemote ≠ s.session.daemon.focusIsRemote →
      (s.afterSession i t).Quiet) ∧
    ∀ o ∈ s.waiting.take (s.session.takes i), o.event.isSwitch = true →
      s.session.daemon.focusIsRemote = true →
        checkEmergencyHotkey s.session.daemon = false ∧ datagramOk i = true
  | _ => True

instance (cfg : SessionConfig) (s : CapturePath) : DecidablePred (s.Orderly cfg)
  | .physical _ _ => inferInstanceAs (Decidable (_ → _))
  | .session _ => inferInstanceAs (Decidable (_ ∧ _))
  | .testShutdown _ | .testGrab | .call | .nextEvent _ | .captureError | .send | .dropReceiver =>
    instDecidableTrue

/-- What is on its way was made under the present focus, and focus is local once the receiver is
gone. -/
structure InStep (s : CapturePath) : Prop where
  aligned : s.Aligned
  made : ∀ o ∈ s.ahead, o.event.isSwitch = true → o.grabbed = s.session.daemon.focusIsRemote
  ended : s.session.Ended → s.session.daemon.focusIsRemote = false
  closed : s.receiverOpen = false → s.session.Ended

/-- Nothing is on its way when a session starts. -/
theorem inStep_start (daemon : DaemonState) : (start daemon).InStep where
  aligned := ⟨rfl, fun hopen ↦ by cases hopen⟩
  made o ho := by cases ho
  ended hended := by rcases hended with h | h <;> cases h
  closed hopen := by cases hopen

section Orderly

variable {cfg : SessionConfig} {s s' : CapturePath}

/-- What the thread takes was there to be read. -/
theorem returned_subset (s : CapturePath) (l : Label) : s.returned l ⊆ s.unread := by
  match l with
  | .nextEvent device => exact fun o ho ↦ List.mem_of_find?_eq_some (Option.mem_toList.1 ho)
  | .physical _ _ | .testShutdown _ | .testGrab | .call | .captureError | .send | .session _
  | .dropReceiver => exact List.nil_subset _

/-- The receiver is dropped at the end of the session. -/
theorem ended_of_dropReceiver (hs' : s' ∈ step cfg s .dropReceiver) : s.session.Ended := by
  rw [step] at hs'
  split_ifs at hs' with h
  · simpa [Session.Ended] using (Bool.and_eq_true_iff.1 h).2
  · cases hs'

/-- **Frame.** A step of the thread, or of the channel's receiver, leaves the session's state and
adds nothing to what the devices hold. -/
theorem frame_of_step {l : Label} (hs' : s' ∈ step cfg s l)
    (hphysical : ∀ device event, l ≠ .physical device event) (hsession : ∀ i, l ≠ .session i) :
    s'.session.daemon = s.session.daemon ∧ s'.session.phase = s.session.phase ∧
      s'.unread ⊆ s.unread ∧
      (s'.receiverOpen = false → s.receiverOpen = false ∨ s.session.Ended) := by
  match l with
  | .physical device event => exact absurd rfl (hphysical device event)
  | .session i => exact absurd rfl (hsession i)
  | .testShutdown _ | .testGrab | .call | .captureError =>
    obtain ⟨l, -, rfl⟩ := Option.map_eq_some_iff.1 hs'
    exact ⟨rfl, rfl, List.Subset.refl _, .inl⟩
  | .nextEvent device =>
    obtain ⟨o, -, hs'⟩ := Option.bind_eq_some_iff.1 hs'
    obtain ⟨l, -, rfl⟩ := Option.map_eq_some_iff.1 hs'
    exact ⟨rfl, rfl, List.eraseP_subset, .inl⟩
  | .send =>
    rw [step] at hs'
    split at hs'
    case h_1 =>
      split_ifs at hs'
      · obtain ⟨l, -, rfl⟩ := Option.map_eq_some_iff.1 hs'
        exact ⟨rfl, rfl, List.Subset.refl _, .inl⟩
      · cases hs'
      · obtain ⟨l, -, rfl⟩ := Option.map_eq_some_iff.1 hs'
        exact ⟨rfl, rfl, List.Subset.refl _, .inl⟩
    case h_2 => cases hs'
  | .dropReceiver =>
    have hended : s.session.Ended := ended_of_dropReceiver hs'
    rw [step] at hs'
    split_ifs at hs'
    · obtain rfl := Option.some.inj hs'
      exact ⟨rfl, rfl, List.Subset.refl _, fun _ ↦ .inr hended⟩
    · cases hs'

/-- Only the devices add to what is ahead of the session. -/
theorem ahead_subset_of_step (hs : s.Aligned) {l : Label} (hs' : s' ∈ step cfg s l)
    (hunread : s'.unread ⊆ s.unread) : s'.ahead ⊆ s.ahead := by
  have hway : s'.onTheWay ⊆ s.onTheWay ++ s.returned l := by
    rw [← onTheWay_of_step hs hs']
    exact List.subset_append_right _ _
  intro o ho
  rcases List.mem_append.1 ho with ho | ho
  · rcases List.mem_append.1 (hway ho) with ho | ho
    · exact List.mem_append_left _ ho
    · exact List.mem_append_right _ (returned_subset s l ho)
  · exact List.mem_append_right _ (hunread ho)

/-- An orderly step settles what it settles as it was made. -/
theorem InStep.asMade (hs : s.InStep) {l : Label} (horderly : s.Orderly cfg l)
    (hs' : s' ∈ step cfg s l) : s.AsMade l := by
  match l with
  | .physical _ _ | .testShutdown _ | .testGrab | .call | .nextEvent _ | .captureError => trivial
  | .send =>
    intro hclosed o hpoint hswitch
    have hmem : o ∈ s.ahead := by simp [ahead, onTheWay, CaptureLoop.inHand, hpoint]
    rw [hs.made o hmem hswitch, hs.ended (hs.closed hclosed)]
  | .dropReceiver =>
    intro o ho hswitch
    have hmem : o ∈ s.ahead := List.mem_append_left _ (List.mem_append_left _ ho)
    rw [hs.made o hmem hswitch, hs.ended (ended_of_dropReceiver hs')]
  | .session i =>
    intro o ho hswitch hfires
    have hmem : o ∈ s.ahead :=
      List.mem_append_left _ (List.mem_append_left _ (List.mem_of_mem_take ho))
    rw [hs.made o hmem hswitch]
    cases hfocus : s.session.daemon.focusIsRemote with
    | false => exact (Session.delivers_of_local hfocus i).symm
    | true =>
      obtain ⟨hchord, hok⟩ := horderly.2 o ho hswitch hfocus
      match i with
      | .captured env ready =>
        cases hch : s.session.channel with
        | nil =>
          rw [List.map_eq_nil_iff.1 (hs.aligned.events.trans hch), List.take_nil] at ho
          cases ho
        | cons event rest =>
          exact ((Session.delivers_of_remote hfocus hchord hch hfires).trans hok).symm
      | .push _ | .shutdown | .clipboardOutgoing _ _ | .clipboardReceived _ | .captureClosed
      | .frame _ _ | .control _ _ | .cleanup _ =>
        rw [Session.takes_eq_zero (fun _ _ h ↦ by cases h), List.take_zero] at ho
        cases ho

/-- **An orderly step keeps in step.** -/
theorem InStep.step (hs : s.InStep) {l : Label} (horderly : s.Orderly cfg l)
    (hs' : s' ∈ CapturePath.step cfg s l) : s'.InStep := by
  obtain ⟨haligned, -⟩ := settled_of_step hs.aligned hs'
  by_cases hphysical : ∃ device event, l = .physical device event
  · obtain ⟨device, event, rfl⟩ := hphysical
    rw [CapturePath.step] at hs'
    split_ifs at hs'
    · obtain rfl := Option.some.inj hs'
      exact hs
    · obtain rfl := Option.some.inj hs'
      refine ⟨haligned, fun o ho hswitch ↦ ?_, hs.ended, hs.closed⟩
      rw [ahead, ← List.append_assoc] at ho
      rcases List.mem_append.1 ho with ho | ho
      · exact hs.made o ho hswitch
      · rw [List.mem_singleton] at ho
        subst ho
        exact horderly hswitch
  by_cases hsession : ∃ i, l = .session i
  · obtain ⟨i, rfl⟩ := hsession
    have hahead : s'.unread ⊆ s.unread → s'.ahead ⊆ s.ahead := ahead_subset_of_step hs.aligned hs'
    rw [CapturePath.step] at hs'
    split_ifs at hs'
    · obtain ⟨t, ht, rfl⟩ := Option.map_eq_some_iff.1 hs'
      refine ⟨haligned, fun o ho hswitch ↦ ?_, Session.focusIsRemote_of_ended ht, fun hclosed ↦ ?_⟩
      · by_cases hfocus : t.daemon.focusIsRemote = s.session.daemon.focusIsRemote
        · exact (hs.made o (hahead (List.Subset.refl _) ho) hswitch).trans hfocus.symm
        · -- focus has moved, and there is nothing the move could have overtaken
          cases hswitch.symm.trans (horderly.1 t ht hfocus o ho)
      · exact absurd (hs.closed hclosed) (Session.not_ended_of_step ht)
    · cases hs'
  · obtain ⟨hdaemon, hphase, hunread, hclosed⟩ := frame_of_step hs'
      (fun device event h ↦ hphysical ⟨device, event, h⟩) (fun i h ↦ hsession ⟨i, h⟩)
    have hended : s'.session.Ended ↔ s.session.Ended := by rw [Session.Ended, hphase]; rfl
    refine ⟨haligned, fun o ho hswitch ↦ ?_, fun h ↦ ?_, fun h ↦ ?_⟩
    · rw [hdaemon]
      exact hs.made o (ahead_subset_of_step hs.aligned hs' hunread ho) hswitch
    · rw [hdaemon]
      exact hs.ended (hended.1 h)
    · exact hended.2 ((hclosed h).elim hs.closed id)

/-- A hand-over at the edge, with a key pressed once the thread has answered it. -/
def answeredRun : List Label :=
  [.testShutdown false, .testGrab, .physical 0 (.mouseMove (.finite 1000) (.finite 0)),
    .nextEvent 0, .send, .session (.captured (.at 0) 0), .testShutdown false, .testGrab, .call,
    .physical 1 (.key 30 .pressed), .nextEvent 1, .send, .session (.captured (.at 0) 0)]

/-- **Quiet hand-overs are enough.** In every run whose steps respect the hand-overs, every captured
key and button event reaches exactly one machine. -/
theorem exactlyOne_of_orderly (cfg : SessionConfig) (daemon : DaemonState) {ls : List Label}
    (h : EachStep (CapturePath.step cfg) (Orderly cfg) (start daemon) ls) :
    Throughout (CapturePath.step cfg) ExactlyOne (start daemon) ls := by
  have hstart : (start daemon).InStep ∧ (start daemon).ExactlyOne :=
    ⟨inStep_start daemon, fun x hx ↦ by cases hx⟩
  refine (throughout_of_guarded (I := fun s : CapturePath ↦ s.InStep ∧ s.ExactlyOne) ?_ hstart
    h).mono fun s hs ↦ hs.2
  rintro s l ⟨hinStep, hone⟩ horderly s' hs'
  have hmade : s.AsMade l := hinStep.asMade horderly hs'
  exact ⟨hinStep.step horderly hs', hone.step hinStep.aligned hmade hs'⟩

/-- The key has reached the peer and not the desktop. -/
theorem exactlyOne_of_orderly_answeredRun :
    Throughout (CapturePath.step .fallback) ExactlyOne (start (.new .fallback 0)) answeredRun ∧
      (run (CapturePath.step .fallback) (start (.new .fallback 0)) answeredRun).map settled =
        some [⟨⟨0, .mouseMove (.finite 1000) (.finite 0), false⟩, false, false⟩,
          ⟨⟨1, .key 30 .pressed, true⟩, true, false⟩] :=
  ⟨exactlyOne_of_orderly .fallback (.new .fallback 0) (by decide +kernel), by decide +kernel⟩

end Orderly

end CapturePath

end Kmflow
