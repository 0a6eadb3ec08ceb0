import Kmflow.Daemon.GrabLoop
import Kmflow.Daemon.GrabRequest
import Kmflow.Input.EvdevDevices

/-!
# From the kernel's devices to the session

`EvdevDevices`, `GrabLoop` and `Session` put together: the capture thread and the task of the
session, with the bounded channel of events one way and the `watch` channel of the grab the other
way. The kernel's buffers fill and overrun at any time, `epoll_wait` reports what it likes,
`EVIOCGRAB` may fail for some of the devices, and the two threads take their steps in any order.

No event is lost, repeated or overtaken on the way but for what an overrun drops
(`received_of_run`): what the session has received, what waits in its channel and what the thread
has in its hand is what the capture makes of a merge of the buffers, and only when the session's
receiver is gone is anything dropped. The thread that is blocked on a full channel loses nothing
either; it is the kernel's buffers that may overrun meanwhile.

And the devices are kept from the desktop just while the input belongs to the peer
(`kept_of_run`): whenever the thread has seen the last request and answered it, the devices that are
kept are those that let themselves be grabbed when the focus is remote, and none when it is local or
the thread has ended.
-/

namespace Kmflow

open Transition Channels

/-! ### The loop and the last request -/

namespace GrabLoop

variable {ε : Type} {s s' : GrabLoop ε} {i : Input ε}

/-- A call is made against the loop's own variable, and once the last value has been seen, the loop
has answered it or is about to. -/
structure Follows (s : GrabLoop ε) : Prop where
  calling : ∀ on, s.point = .calling on → s.grabbed = !on
  aims : s.grabRx.hasChanged = false → ∀ on, s.point = .calling on → on = s.grabRx.value
  arrived : s.grabRx.hasChanged = false → (∀ on, s.point ≠ .calling on) →
    s.grabbed = s.grabRx.value

theorem follows_start : (start : GrabLoop ε).Follows where
  calling _ h := by cases h
  aims _ _ h := by cases h
  arrived _ _ := rfl

/-- A step that leaves the variable and the channel as they are, and calls nothing. -/
theorem Follows.of_quiet (h : s.Follows) (hgrabbed : s'.grabbed = s.grabbed)
    (hgrabRx : s'.grabRx = s.grabRx) (hpoint : ∀ on, s.point ≠ .calling on)
    (hpoint' : ∀ on, s'.point ≠ .calling on) : s'.Follows where
  calling on hon := absurd hon (hpoint' on)
  aims _ on hon := absurd hon (hpoint' on)
  arrived hseen _ := by
    rw [hgrabRx] at hseen ⊢
    rw [hgrabbed]
    exact h.arrived hseen hpoint

/-- **The loop follows the requests** as long as its calls succeed. -/
theorem Follows.step (h : s.Follows) (hi : i ≠ .call false) (hs' : s' ∈ GrabLoop.step s i) :
    s'.Follows := by
  have hmove := move_of_step hs'
  generalize s.deeds i = os at hmove
  cases hmove with
  | send on =>
    have hunseen (hseen : (s.grabRx.send on).hasChanged = false) : False := by simp at hseen
    exact ⟨h.calling, fun hseen ↦ (hunseen hseen).elim, fun hseen ↦ (hunseen hseen).elim⟩
  | testShutdown raised hpoint =>
    exact h.of_quiet rfl rfl (by simp [hpoint]) (by cases raised <;> simp)
  | changed hpoint hlooking hchanged => exact ⟨h.calling, h.aims, h.arrived⟩
  | unchanged closed hpoint hlooking hchanged =>
    exact h.of_quiet rfl rfl (by simp [hpoint]) (by simp)
  | borrowAndUpdate hpoint hlooking =>
    refine ⟨fun on hon ↦ ?_, fun _ on hon ↦ (answer_eq_calling_iff.1 hon).1, fun _ hnot ↦ ?_⟩
    · obtain ⟨rfl, hne⟩ := answer_eq_calling_iff.1 hon
      exact Bool.eq_not.2 hne
    · by_contra hne
      exact hnot s.grabRx.value (answer_eq_calling_iff.2 ⟨rfl, hne⟩)
  | call on ok hpoint =>
    obtain rfl : ok = true := by
      cases ok
      · exact absurd rfl hi
      · rfl
    refine ⟨fun _ hon ↦ (by cases hon), fun _ _ hon ↦ (by cases hon), fun hseen _ ↦ ?_⟩
    exact h.aims hseen on hpoint
  | event event hpoint => exact h.of_quiet rfl rfl (by simp [hpoint]) (by simp)
  | failed hpoint => exact h.of_quiet rfl rfl (by simp [hpoint]) (by simp)
  | sent event ok hpoint =>
    exact h.of_quiet rfl rfl (by simp [hpoint]) (by cases ok <;> simp)

/-- The event the thread has taken from the devices and not yet passed on. -/
def inHand (s : GrabLoop ε) : List ε := s.coarse.inHand

/-- A value is sent on `grab_tx`. -/
def request (s : GrabLoop ε) (on : Bool) : GrabLoop ε := { s with grabRx := s.grabRx.send on }

/-- However many requests are sent, the loop still follows them. -/
theorem Follows.requests (h : s.Follows) (requests : List Bool) :
    (requests.foldl request s).Follows := by
  induction requests generalizing s with
  | nil => exact h
  | cons on requests ih => exact ih (h.step (i := .send on) nofun rfl)

/-- What requests leave of the loop. -/
theorem foldl_request (requests : List Bool) (s : GrabLoop ε) :
    (requests.foldl request s).point = s.point ∧ (requests.foldl request s).grabbed = s.grabbed ∧
      (requests.foldl request s).grabRx.value = requests.getLast?.getD s.grabRx.value := by
  induction requests generalizing s with
  | nil => exact ⟨rfl, rfl, rfl⟩
  | cons on requests ih =>
    obtain ⟨hpoint, hgrabbed, hvalue⟩ := ih (s.request on)
    refine ⟨hpoint, hgrabbed, hvalue.trans ?_⟩
    rw [List.getLast?_cons, Option.getD_some]
    rfl

end GrabLoop

/-! ### The session and its requests -/

namespace Session

variable {cfg : SessionConfig} {s s' : Session} {i : Input}

/-- A step only adds to what has been handed out. -/
theorem exists_outputs (hs' : s' ∈ step cfg s i) : ∃ outs, s'.outputs = s.outputs ++ outs := by
  cases armStep_of_step hs' with
  | push => exact ⟨[], (List.append_nil _).symm⟩
  | captured | captureClosed | frame | control | receiveOnlyFrame | receiveOnlyControl | shutdown
  | clipboardOutgoing | clipboardReceived | cleanup => exact ⟨_, rfl⟩

/-- The main loop is not entered again. -/
theorem mainLoop_of_step (hs' : s' ∈ step cfg s i) (hmain : s'.phase = .mainLoop) :
    s.phase = .mainLoop ∧ ∀ env, i ≠ .cleanup env := by
  cases outcome_of_step hs' with
  | push event hphase => exact ⟨hphase, nofun⟩
  | idle d outs phase hrun hd houts hphase hpush hcapt hclean =>
    obtain rfl : phase = .mainLoop := hmain
    rcases hphase with h | h | ⟨h, -⟩
    · exact ⟨h.symm, hclean⟩
    · cases h
    · cases h
  | captureClosed | receiveOnlyFrameHit | receiveOnlyHandBack | cleanup => cases hmain
  | keep _ _ _ _ hphase | edgeHit _ _ _ hphase | emergency _ _ hphase | forward _ _ hphase
  | frameHit _ hphase | handBack _ hphase => exact ⟨hphase, nofun⟩

/-- In the main loop the last request remains the focus. -/
theorem lastGrab_of_step
    (h : s.phase = .mainLoop → s.lastGrab = s.daemon.focusIsRemote) (hs' : s' ∈ step cfg s i)
    (hphase' : s'.phase = .mainLoop) : s'.lastGrab = s'.daemon.focusIsRemote := by
  obtain ⟨hphase, hclean⟩ := mainLoop_of_step hs' hphase'
  have hcleansUp : CleansUpLocal (s, false) i := by
    match i with
    | .cleanup env => exact absurd rfl (hclean env)
    | .push _ | .shutdown | .clipboardOutgoing _ _ | .clipboardReceived _ | .captured _ _
    | .captureClosed | .frame _ _ | .control _ _ => trivial
  have hstart : RequestStands (s, false) := .of_mainLoop hphase (h hphase)
  have hstands : RequestStands (s', recordExit false s i s') :=
    requestStands_step hstart hcleansUp (mem_withHistory.2 ⟨hs', rfl⟩)
  exact hstands.grabMirrorsFocus (.inl hphase')

end Session

/-! ### What the kernel's side does -/

namespace EvdevDevices

open EvdevCapture (InputEventRaw)

section Returns

variable {ι : Type} [DecidableEq ι] {devices : DeviceSet ι} {s s' : EvdevDevices ι} {i : Input ι}

/-- The event that a step makes. -/
def made (s : EvdevDevices ι) (i : Input ι) : List InputEvent :=
  (taken s i).flatMap fun entry ↦ (s.capture.readEvent entry.2).1.toList

/-- How a step ends a call of `next_event`, if it ends one; without an event it is an error. -/
def returns (s : EvdevDevices ι) (i : Input ι) (s' : EvdevDevices ι) :
    Option (Option InputEvent) :=
  if s.stage ≠ .idle ∧ s'.stage = .idle then some (s.made i).head? else none

/-- **A step that makes an event ends the call with it.** -/
theorem made_eq (hs' : s' ∈ step devices s i) :
    s.made i = (returns s i s').elim [] Option.toList := by
  have hnone (hmade : s.made i = []) : s.made i = (returns s i s').elim [] Option.toList := by
    rw [returns, hmade]
    split_ifs <;> rfl
  cases i with
  | read ok =>
    obtain ⟨fd, ready, hstage, ⟨raw, rest, hhead, htaken, rfl⟩ | ⟨htaken, -⟩⟩ := read_cases hs'
    · have hmade : s.made (.read ok) = (s.capture.readEvent raw).1.toList := by
        rw [made, htaken, List.flatMap_singleton]
      rw [returns, hmade, hstage]
      cases hevent : (s.capture.readEvent raw).1 with
      | none => simp [take, hevent]
      | some event => simp [take, hevent]
    · exact hnone (by rw [made, htaken, List.flatMap_nil])
  | arrive | overrun | signal | nextEvent | epollWait | grabPointer | ungrabPointer =>
    exact hnone rfl

end Returns

end EvdevDevices

/-! ### The path -/

/-- What the loop looks at between two calls. -/
inductive Look where
  | testShutdown (raised : Bool)
  | hasChanged (closed : Bool)
  | borrowAndUpdate

/-- The step of the capture loop that a look is. -/
def Look.input : Look → GrabLoop.Input InputEvent
  | testShutdown raised => .testShutdown raised
  | hasChanged closed => .hasChanged closed
  | borrowAndUpdate => .borrowAndUpdate

/-- What happens at the devices by itself, and within a call of `next_event`. -/
inductive DeviceLabel (ι : Type) where
  | arrive (fd : ι) (raw : EvdevCapture.InputEventRaw)
  | overrun (fd : ι) (raw : EvdevCapture.InputEventRaw)
  | signal
  | epollWait (polled : EvdevDevices.Polled ι)
  | read (ok : Bool)

/-- The step of the kernel and the capture that a label is. -/
def DeviceLabel.input {ι : Type} : DeviceLabel ι → EvdevDevices.Input ι
  | arrive fd raw => .arrive fd raw
  | overrun fd raw => .overrun fd raw
  | signal => .signal
  | epollWait polled => .epollWait polled
  | read ok => .read ok

/-- The capture thread with its devices, and the session it belongs to. -/
structure DevicePath (ι : Type) where
  devices : EvdevDevices ι
  loop : GrabLoop InputEvent
  session : Session
  /-- The receiver of the channel is still there. -/
  receiverOpen : Bool

namespace DevicePath

/-- The labels of the whole path. -/
inductive Label (ι : Type) where
  | device (k : DeviceLabel ι)
  | look (look : Look)
  /-- `grab_pointer` or `ungrab_pointer`, where the ioctl fails for some of the devices. -/
  | call (refused : Finset ι)
  | nextEvent
  /-- `blocking_send`. -/
  | send
  /-- The session completes an arm, or its cleanup. -/
  | session (i : Input)
  | dropReceiver

variable {ι : Type}

/-- The thread has just been spawned, and nothing has arrived. -/
def start (daemon : DaemonState) : DevicePath ι where
  devices := .start
  loop := .start
  session := .start daemon
  receiverOpen := true

/-- The session's channel is fed by the thread alone, and closed when the thread returns. -/
def admits (s : DevicePath ι) : Input → Bool
  | .push _ => false
  | .captureClosed => s.loop.coarse.hasEnded
  | _ => true

/-- The grab requests that a step of the session makes. -/
def grabsBetween (s t : Session) : List Bool :=
  (t.outputs.drop s.outputs.length).filterMap Output.grab?

/-- The path after a step of the session: its requests reach the thread's receiver. -/
def afterSession (s : DevicePath ι) (t : Session) : DevicePath ι :=
  { s with
    loop := (grabsBetween s.session t).foldl GrabLoop.request s.loop
    session := t }

/-- The devices that are kept from the desktop; the grabs end with the descriptors. -/
def kept (s : DevicePath ι) : Finset ι :=
  if s.loop.coarse.hasEnded then ∅ else s.devices.exclusive

section Step

variable [DecidableEq ι] (cfg : SessionConfig) (set : DeviceSet ι) (s : DevicePath ι)

/-- One step of the path; `none` when the label is not enabled. -/
def step : Label ι → Option (DevicePath ι)
  | .device k => do
    let d ← EvdevDevices.step set s.devices k.input
    match s.devices.returns k.input d with
    | none => some { s with devices := d }
    | some result =>
      (s.loop.step (.nextEvent result)).map fun l ↦ { s with devices := d, loop := l }
  | .look look => (s.loop.step look.input).map fun l ↦ { s with loop := l }
  | .call refused =>
    match s.loop.point with
    | .calling on => do
      let d ← EvdevDevices.step set s.devices (if on then .grabPointer refused else .ungrabPointer)
      (s.loop.step (.call true)).map fun l ↦ { s with devices := d, loop := l }
    | _ => none
  | .nextEvent =>
    match s.loop.point with
    | .reading => (EvdevDevices.step set s.devices .nextEvent).map fun d ↦ { s with devices := d }
    | _ => none
  | .send =>
    match s.loop.point with
    | .sending event =>
      if s.receiverOpen then
        -- on a full channel the thread blocks: the label is not enabled
        if s.session.channel.length < captureChannelCapacity then
          (s.loop.step (.sent true)).map fun l ↦
            { s with
              loop := l
              session := { s.session with channel := s.session.channel ++ [event] } }
        else none
      else (s.loop.step (.sent false)).map fun l ↦ { s with loop := l }
    | _ => none
  | .session i => if s.admits i then (Session.step cfg s.session i).map s.afterSession else none
  | .dropReceiver =>
    if s.receiverOpen ∧ s.session.Ended then
      some { s with session := { s.session with channel := [] }, receiverOpen := false }
    else none

end Step

/-- What happened at the devices, what the session has received, what was dropped because nobody
receives it, and the devices that refused the last grab. -/
structure Log (ι : Type) where
  devices : EvdevDevices.Log ι
  received : List InputEvent
  dropped : List InputEvent
  refused : Finset ι

section Record

variable [DecidableEq ι]

/-- What the devices take of a step. -/
def atDevices (s : DevicePath ι) : Label ι → Option (EvdevDevices.Input ι)
  | .device k => some k.input
  | .nextEvent => some .nextEvent
  | .call refused =>
    match s.loop.point with
    | .calling on => some (if on then .grabPointer refused else .ungrabPointer)
    | _ => none
  | _ => none

/-- What a step adds to the log. -/
def record (log : Log ι) (s : DevicePath ι) (label : Label ι) (s' : DevicePath ι) : Log ι where
  devices := (s.atDevices label).elim log.devices fun i ↦
    EvdevDevices.record log.devices s.devices i s'.devices
  received := log.received ++ match label with
    | .session _ =>
      s.session.channel.take (s.session.channel.length - s'.session.channel.length)
    | _ => []
  dropped := log.dropped ++ match label with
    | .send => if s.receiverOpen then [] else s.loop.inHand
    | .dropReceiver => s.session.channel
    | _ => []
  refused := match label with
    | .call refused => if s'.devices.grabbed then refused else log.refused
    | _ => log.refused

/-- The path with its history. -/
def recorded (cfg : SessionConfig) (set : DeviceSet ι) :
    DevicePath ι × Log ι → Label ι → Option (DevicePath ι × Log ι) :=
  withHistory (step cfg set) record

end Record

/-! ### What a step does -/

section Moves

variable [DecidableEq ι] {cfg : SessionConfig} {set : DeviceSet ι} {s s' : DevicePath ι}
  {label : Label ι}

/-- **Everything a step does.** -/
inductive Move (cfg : SessionConfig) (set : DeviceSet ι) (s : DevicePath ι) :
    Label ι → DevicePath ι → Prop
  | device (k : DeviceLabel ι) (d : EvdevDevices ι)
      (hd : d ∈ EvdevDevices.step set s.devices k.input)
      (hreturns : s.devices.returns k.input d = none) :
    Move cfg set s (.device k) { s with devices := d }
  | returned (k : DeviceLabel ι) (d : EvdevDevices ι) (result : Option InputEvent)
      (l : GrabLoop InputEvent) (hd : d ∈ EvdevDevices.step set s.devices k.input)
      (hreturns : s.devices.returns k.input d = some result)
      (hl : l ∈ GrabLoop.step s.loop (.nextEvent result)) :
    Move cfg set s (.device k) { s with devices := d, loop := l }
  | look (look : Look) (l : GrabLoop InputEvent) (hl : l ∈ GrabLoop.step s.loop look.input) :
    Move cfg set s (.look look) { s with loop := l }
  | call (on : Bool) (refused : Finset ι) (d : EvdevDevices ι) (l : GrabLoop InputEvent)
      (hpoint : s.loop.point = .calling on)
      (hd : d ∈ EvdevDevices.step set s.devices
        (if on then .grabPointer refused else .ungrabPointer))
      (hl : l ∈ GrabLoop.step s.loop (.call true)) :
    Move cfg set s (.call refused) { s with devices := d, loop := l }
  | nextEvent (d : EvdevDevices ι) (hpoint : s.loop.point = .reading)
      (hd : d ∈ EvdevDevices.step set s.devices .nextEvent) :
    Move cfg set s .nextEvent { s with devices := d }
  | sent (event : InputEvent) (l : GrabLoop InputEvent) (hopen : s.receiverOpen = true)
      (hroom : s.session.channel.length < captureChannelCapacity)
      (hpoint : s.loop.point = .sending event) (hl : l ∈ GrabLoop.step s.loop (.sent true)) :
    Move cfg set s .send
      { s with
        loop := l
        session := { s.session with channel := s.session.channel ++ [event] } }
  | unsent (event : InputEvent) (l : GrabLoop InputEvent) (hclosed : s.receiverOpen = false)
      (hpoint : s.loop.point = .sending event) (hl : l ∈ GrabLoop.step s.loop (.sent false)) :
    Move cfg set s .send { s with loop := l }
  | session (i : Input) (t : Session) (hpush : ∀ event, i ≠ .push event)
      (ht : t ∈ Session.step cfg s.session i) : Move cfg set s (.session i) (s.afterSession t)
  | dropReceiver (hopen : s.receiverOpen = true) (hended : s.session.Ended) :
    Move cfg set s .dropReceiver
      { s with session := { s.session with channel := [] }, receiverOpen := false }

/-- **A step is one of the moves.** -/
theorem move_of_step (hs' : s' ∈ step cfg set s label) : Move cfg set s label s' := by
  cases label with
  | device k =>
    obtain ⟨d, hd, hs'⟩ := Option.bind_eq_some_iff.1 hs'
    cases hreturns : s.devices.returns k.input d with
    | none =>
      rw [hreturns] at hs'
      cases hs'
      exact .device k d hd hreturns
    | some result =>
      rw [hreturns] at hs'
      obtain ⟨l, hl, rfl⟩ := Option.map_eq_some_iff.1 hs'
      exact .returned k d result l hd hreturns hl
  | look look =>
    obtain ⟨l, hl, rfl⟩ := Option.map_eq_some_iff.1 hs'
    exact .look look l hl
  | call refused =>
    simp only [step] at hs'
    split at hs'
    case h_1 on hpoint =>
      obtain ⟨d, hd, hs'⟩ := Option.bind_eq_some_iff.1 hs'
      obtain ⟨l, hl, rfl⟩ := Option.map_eq_some_iff.1 hs'
      exact .call on refused d l hpoint hd hl
    case h_2 => cases hs'
  | nextEvent =>
    simp only [step] at hs'
    split at hs'
    case h_1 hpoint =>
      obtain ⟨d, hd, rfl⟩ := Option.map_eq_some_iff.1 hs'
      exact .nextEvent d hpoint hd
    case h_2 => cases hs'
  | send =>
    simp only [step] at hs'
    split at hs'
    case h_1 event hpoint =>
      split_ifs at hs' with hopen hroom
      · obtain ⟨l, hl, rfl⟩ := Option.map_eq_some_iff.1 hs'
        exact .sent event l hopen hroom hpoint hl
      · cases hs'
      · obtain ⟨l, hl, rfl⟩ := Option.map_eq_some_iff.1 hs'
        exact .unsent event l (eq_false_of_ne_true hopen) hpoint hl
    case h_2 => cases hs'
  | session i =>
    simp only [step, Option.mem_def, Option.ite_none_right_eq_some] at hs'
    obtain ⟨hadmits, hs'⟩ := hs'
    obtain ⟨t, ht, rfl⟩ := Option.map_eq_some_iff.1 hs'
    refine .session i t (fun event hi ↦ ?_) ht
    rw [hi] at hadmits
    cases hadmits
  | dropReceiver =>
    simp only [step, Option.mem_def, Option.ite_none_right_eq_some] at hs'
    obtain ⟨⟨hopen, hended⟩, hs'⟩ := hs'
    cases hs'
    exact .dropReceiver hopen hended

end Moves

/-! ### The events -/

/-- What the calls have returned is what the session has received, what was dropped, what waits in
the channel and what the thread has in its hand, in this order. -/
structure Passed (sl : DevicePath ι × Log ι) : Prop where
  received : sl.2.devices.returned =
    sl.2.received ++ sl.2.dropped ++ sl.1.session.channel ++ sl.1.loop.inHand
  opened : sl.1.receiverOpen = true → sl.2.dropped = []
  closed : sl.1.receiverOpen = false → sl.1.session.channel = [] ∧ sl.1.session.Ended

/-- The empty history. -/
def Log.empty : Log ι := ⟨.empty, [], [], ∅⟩

section Events

variable {cfg : SessionConfig} {set : DeviceSet ι} {s s' : DevicePath ι} {log log' : Log ι}
  {label : Label ι} {l : GrabLoop InputEvent}

/-- Looking at the flag or at a request does not change what the thread has in its hand. -/
theorem inHand_of_look {look : Look} (hl : l ∈ GrabLoop.step s.loop look.input) :
    l.inHand = s.loop.inHand := by
  have hmove := GrabLoop.move_of_step hl
  generalize s.loop.deeds look.input = os at hmove
  generalize hi : look.input = i at hmove
  cases hmove with
  | send | call | event | failed | sent => cases look <;> cases hi
  | changed => rfl
  | testShutdown raised hpoint =>
    cases raised <;> simp [GrabLoop.inHand, GrabLoop.coarse, CaptureLoop.inHand, hpoint]
  | unchanged closed hpoint =>
    simp [GrabLoop.inHand, GrabLoop.coarse, CaptureLoop.inHand, hpoint]
  | borrowAndUpdate hpoint =>
    rcases @CaptureLoop.answer_cases InputEvent s.loop.grabbed s.loop.grabRx.value with
      hanswer | ⟨on, hanswer⟩ <;>
      simp [GrabLoop.inHand, GrabLoop.coarse, CaptureLoop.inHand, hpoint, hanswer]

/-- A call leaves the thread's hand as empty as it found it. -/
theorem inHand_of_call (hl : l ∈ GrabLoop.step s.loop (.call true)) :
    l.inHand = s.loop.inHand := by
  have hmove := GrabLoop.move_of_step hl
  generalize s.loop.deeds (.call true) = os at hmove
  cases hmove with
  | call on ok hpoint => simp [GrabLoop.inHand, GrabLoop.coarse, CaptureLoop.inHand, hpoint]

/-- What a call of `next_event` returns is in the thread's hand. -/
theorem inHand_of_nextEvent {result : Option InputEvent}
    (hl : l ∈ GrabLoop.step s.loop (.nextEvent result)) :
    s.loop.inHand = [] ∧ l.inHand = result.toList := by
  have hmove := GrabLoop.move_of_step hl
  generalize s.loop.deeds (.nextEvent result) = os at hmove
  cases hmove with
  | event event hpoint => simp [GrabLoop.inHand, GrabLoop.coarse, CaptureLoop.inHand, hpoint]
  | failed hpoint => simp [GrabLoop.inHand, GrabLoop.coarse, CaptureLoop.inHand, hpoint]

/-- `blocking_send` empties the thread's hand. -/
theorem inHand_of_sent {event : InputEvent} {ok : Bool} (hpoint : s.loop.point = .sending event)
    (hl : l ∈ GrabLoop.step s.loop (.sent ok)) :
    s.loop.inHand = [event] ∧ l.inHand = [] := by
  have hmove := GrabLoop.move_of_step hl
  generalize s.loop.deeds (.sent ok) = os at hmove
  cases hmove with
  | sent event' ok hpoint' =>
    refine ⟨by simp [GrabLoop.inHand, GrabLoop.coarse, CaptureLoop.inHand, hpoint], ?_⟩
    cases ok <;> simp [GrabLoop.inHand, GrabLoop.coarse, CaptureLoop.inHand]

/-- Nor do requests. -/
theorem inHand_foldl_request (requests : List Bool) (l : GrabLoop InputEvent) :
    (requests.foldl GrabLoop.request l).inHand = l.inHand := by
  simp [GrabLoop.inHand, GrabLoop.coarse, CaptureLoop.inHand, (GrabLoop.foldl_request requests l).1]

/-- A step of the session takes its events off the front of the channel. -/
theorem take_append_channel {t : Session} {i : Input} (hpush : ∀ event, i ≠ .push event)
    (ht : t ∈ Session.step cfg s.session i) :
    s.session.channel.take (s.session.channel.length - t.channel.length) ++ t.channel =
      s.session.channel := by
  rw [Session.channel_of_step ht hpush, List.length_drop]
  rcases le_total (s.session.takes i) s.session.channel.length with hle | hle
  · rw [Nat.sub_sub_self hle, List.take_append_drop]
  · rw [Nat.sub_eq_zero_of_le hle, Nat.sub_zero, List.take_length, List.drop_eq_nil_of_le hle,
      List.append_nil]

/-- At the start nothing was read, and nothing is to be passed on. -/
theorem passed_start (daemon : DaemonState) :
    Passed ((start daemon, .empty) : DevicePath ι × Log ι) where
  received := rfl
  opened _ := rfl
  closed h := by cases h

variable [DecidableEq ι]

/-- What the calls return in a step. -/
theorem returned_record (s' : DevicePath ι) :
    (record log s label s').devices.returned =
      log.devices.returned ++ (s.atDevices label).elim [] s.devices.made := by
  cases hat : s.atDevices label with
  | none => simp [record, hat]
  | some i => simp [record, hat, EvdevDevices.record, EvdevDevices.made]

/-- **Every step passes the events on.** -/
theorem Passed.step (h : Passed (s, log)) (hs' : s' ∈ DevicePath.step cfg set s label) :
    Passed (s', record log s label s') := by
  have hreceived : log.devices.returned =
    log.received ++ log.dropped ++ s.session.channel ++ s.loop.inHand := h.received
  cases move_of_step hs' with
  | device k d hd hreturns =>
    have hmade : s.devices.made k.input = [] := by
      rw [EvdevDevices.made_eq hd, hreturns]
      rfl
    refine ⟨?_, fun hopen ↦ ?_, h.closed⟩
    · rw [returned_record, hreceived]
      simp [record, atDevices, hmade]
    · simpa [record] using h.opened hopen
  | returned k d result l hd hreturns hl =>
    have hmade : s.devices.made k.input = result.toList := by
      rw [EvdevDevices.made_eq hd, hreturns]
      rfl
    obtain ⟨hempty, hhand⟩ := inHand_of_nextEvent hl
    refine ⟨?_, fun hopen ↦ ?_, h.closed⟩
    · rw [returned_record, hreceived, hempty]
      simp [record, atDevices, hmade, hhand]
    · simpa [record] using h.opened hopen
  | look look l hl =>
    refine ⟨?_, fun hopen ↦ ?_, h.closed⟩
    · rw [returned_record, hreceived]
      simp [record, atDevices, inHand_of_look hl]
    · simpa [record] using h.opened hopen
  | call on refused d l hpoint hd hl =>
    have hmade : s.devices.made (if on then .grabPointer refused else .ungrabPointer) = [] := by
      cases on <;> rfl
    refine ⟨?_, fun hopen ↦ ?_, h.closed⟩
    · rw [returned_record, hreceived]
      simp only [record, atDevices, hpoint, Option.elim_some, hmade, List.append_nil,
        inHand_of_call hl]
    · simpa [record] using h.opened hopen
  | nextEvent d hpoint hd =>
    refine ⟨?_, fun hopen ↦ ?_, h.closed⟩
    · rw [returned_record, hreceived]
      simp [record, atDevices, EvdevDevices.made, EvdevDevices.taken]
    · simpa [record] using h.opened hopen
  | sent event l hopen hroom hpoint hl =>
    obtain ⟨hhand, hempty⟩ := inHand_of_sent hpoint hl
    refine ⟨?_, fun _ ↦ ?_, fun hclosed ↦ ?_⟩
    · rw [returned_record, hreceived, hhand]
      simp [record, atDevices, hempty, hopen]
    · simpa [record, hopen] using h.opened hopen
    · exact absurd (hopen.symm.trans hclosed) (by decide)
  | unsent event l hclosed hpoint hl =>
    obtain ⟨hhand, hempty⟩ := inHand_of_sent hpoint hl
    obtain ⟨hchannel, hended⟩ := h.closed hclosed
    refine ⟨?_, fun hopen ↦ ?_, h.closed⟩
    · rw [returned_record, hreceived, hhand]
      simp [record, atDevices, hempty, hclosed, hhand, show s.session.channel = [] from hchannel]
    · exact absurd (hclosed.symm.trans hopen) (by decide)
  | session i t hpush ht =>
    have hopen : s.receiverOpen = true := by
      cases hopen : s.receiverOpen with
      | true => rfl
      | false => exact absurd (h.closed hopen).2 (Session.not_ended_of_step ht)
    refine ⟨?_, fun _ ↦ ?_, fun hclosed ↦ ?_⟩
    · rw [returned_record, hreceived, show log.dropped = [] from h.opened hopen]
      simp only [record, atDevices, afterSession, Option.elim_none, List.append_nil,
        inHand_foldl_request, show log.dropped = [] from h.opened hopen]
      rw [List.append_assoc log.received (List.take _ _), take_append_channel hpush ht]
    · simpa [record] using h.opened hopen
    · exact absurd (hopen.symm.trans hclosed) (by decide)
  | dropReceiver hopen hended =>
    refine ⟨?_, fun hopen' ↦ (by cases hopen'), fun _ ↦ ⟨rfl, hended⟩⟩
    rw [returned_record, hreceived]
    simp [record, atDevices]

end Events

/-! ### The grab -/

/-- The grab follows the last request, and that is the focus while the main loop runs. -/
structure Grabs (set : DeviceSet ι) [DecidableEq ι] (sl : DevicePath ι × Log ι) : Prop where
  follows : sl.1.loop.Follows
  grabbed : sl.1.devices.grabbed = sl.1.loop.grabbed
  exclusive : sl.1.devices.exclusive =
    if sl.1.devices.grabbed then set.opened \ sl.2.refused else ∅
  value : sl.1.loop.grabRx.value = sl.1.session.lastGrab
  focus : sl.1.session.phase = .mainLoop →
    sl.1.session.lastGrab = sl.1.session.daemon.focusIsRemote

section Grabs

variable {cfg : SessionConfig} {set : DeviceSet ι} {s s' : DevicePath ι} {log : Log ι}
  {label : Label ι} {l : GrabLoop InputEvent}

/-- What a step of the loop that calls nothing leaves as it was. -/
theorem grabbed_of_loop {i : GrabLoop.Input InputEvent} (hl : l ∈ GrabLoop.step s.loop i)
    (hcall : ∀ ok, i ≠ .call ok) (hsend : ∀ on, i ≠ .send on) :
    l.grabbed = s.loop.grabbed ∧ l.grabRx.value = s.loop.grabRx.value := by
  have hmove := GrabLoop.move_of_step hl
  generalize s.loop.deeds i = os at hmove
  cases hmove with
  | send on => exact absurd rfl (hsend on)
  | call on ok => exact absurd rfl (hcall ok)
  | testShutdown | changed | unchanged | borrowAndUpdate | event | failed | sent =>
    exact ⟨rfl, rfl⟩

/-- A call that succeeds leaves the variable as it was called for. -/
theorem grabbed_of_call {on : Bool} (hpoint : s.loop.point = .calling on)
    (hl : l ∈ GrabLoop.step s.loop (.call true)) :
    l.grabbed = on ∧ l.grabRx = s.loop.grabRx := by
  simp only [GrabLoop.step, hpoint, if_true] at hl
  cases hl
  exact ⟨rfl, rfl⟩

variable [DecidableEq ι]

/-- At the start nothing is grabbed and focus is local. -/
theorem grabs_start {daemon : DaemonState} (hfocus : daemon.focusIsRemote = false) :
    Grabs set ((start daemon, .empty) : DevicePath ι × Log ι) where
  follows := GrabLoop.follows_start
  grabbed := rfl
  exclusive := rfl
  value := rfl
  focus _ := hfocus.symm

/-- A step of the loop that calls nothing, with devices whose grab stays as it is. -/
theorem Grabs.of_loop {log' : Log ι} {i : GrabLoop.Input InputEvent} (h : Grabs set (s, log))
    (hl : l ∈ GrabLoop.step s.loop i) (hcall : ∀ ok, i ≠ .call ok) (hsend : ∀ on, i ≠ .send on)
    (hloop : s'.loop = l) (hgrabbed : s'.devices.grabbed = s.devices.grabbed)
    (hexclusive : s'.devices.exclusive = s.devices.exclusive)
    (hrefused : log'.refused = log.refused) (hphase : s'.session.phase = s.session.phase)
    (houtputs : s'.session.outputs = s.session.outputs)
    (hdaemon : s'.session.daemon = s.session.daemon) : Grabs set (s', log') := by
  obtain ⟨hgrabbed', hvalue'⟩ := grabbed_of_loop hl hcall hsend
  have hlast : s'.session.lastGrab = s.session.lastGrab := congrArg Output.lastGrab houtputs
  refine ⟨?_, ?_, ?_, ?_, ?_⟩
  · exact hloop ▸ h.follows.step (hcall false) hl
  · exact hgrabbed.trans (h.grabbed.trans (by rw [hloop, hgrabbed']))
  · dsimp only
    rw [hexclusive, hgrabbed, hrefused]
    exact h.exclusive
  · dsimp only
    rw [hloop, hvalue', hlast]
    exact h.value
  · intro hmain
    dsimp only
    rw [hlast, hdaemon]
    exact h.focus (hphase.symm.trans hmain)

/-- Devices whose grab stays as it is, and a loop that does nothing. -/
theorem Grabs.of_devices {log' : Log ι} {d : EvdevDevices ι} (h : Grabs set (s, log))
    (hgrab : d.grabbed = s.devices.grabbed ∧ d.exclusive = s.devices.exclusive)
    (hrefused : log'.refused = log.refused) : Grabs set ({ s with devices := d }, log') where
  follows := h.follows
  grabbed := hgrab.1.trans h.grabbed
  exclusive := by
    dsimp only
    rw [hgrab.1, hgrab.2, hrefused]
    exact h.exclusive
  value := h.value
  focus := h.focus

/-- What the kernel and the reads do has no part in the grabs. -/
theorem grab_of_device {k : DeviceLabel ι} {d : EvdevDevices ι}
    (hd : d ∈ EvdevDevices.step set s.devices k.input) :
    d.grabbed = s.devices.grabbed ∧ d.exclusive = s.devices.exclusive :=
  EvdevDevices.grab_of_step hd (fun refused h ↦ by cases k <;> cases h)
    (fun h ↦ by cases k <;> cases h)

/-- **Every step keeps the grab in line.** -/
theorem Grabs.step (h : Grabs set (s, log)) (hs' : s' ∈ DevicePath.step cfg set s label) :
    Grabs set (s', record log s label s') := by
  cases move_of_step hs' with
  | device k d hd hreturns => exact h.of_devices (grab_of_device hd) rfl
  | returned k d result l hd hreturns hl =>
    obtain ⟨hgrabbed, hexclusive⟩ := grab_of_device hd
    exact h.of_loop hl nofun nofun rfl hgrabbed hexclusive rfl rfl rfl rfl
  | look look l hl =>
    exact h.of_loop hl (fun ok hi ↦ by cases look <;> cases hi)
      (fun on hi ↦ by cases look <;> cases hi) rfl rfl rfl rfl rfl rfl rfl
  | call on refused d l hpoint hd hl =>
    obtain ⟨hgrabbed, hgrabRx⟩ := grabbed_of_call hpoint hl
    have hfollows : l.Follows := h.follows.step (fun hi ↦ by cases hi) hl
    have hdevices : s.devices.grabbed = !on := h.grabbed.trans (h.follows.calling on hpoint)
    have hvalue : l.grabRx.value = s.session.lastGrab := by
      rw [hgrabRx]
      exact h.value
    cases on with
    | true =>
      obtain ⟨-, rfl⟩ := EvdevDevices.grabPointer_eq hdevices hd
      exact ⟨hfollows, hgrabbed.symm, rfl, hvalue, h.focus⟩
    | false =>
      obtain ⟨-, rfl⟩ := EvdevDevices.ungrabPointer_eq hdevices hd
      exact ⟨hfollows, hgrabbed.symm, rfl, hvalue, h.focus⟩
  | nextEvent d hpoint hd => exact h.of_devices (EvdevDevices.grab_of_step hd nofun nofun) rfl
  | sent event l hopen hroom hpoint hl =>
    exact h.of_loop hl nofun nofun rfl rfl rfl rfl rfl rfl rfl
  | unsent event l hclosed hpoint hl =>
    exact h.of_loop hl nofun nofun rfl rfl rfl rfl rfl rfl rfl
  | session i t hpush ht =>
    obtain ⟨outs, houts⟩ := Session.exists_outputs ht
    obtain ⟨hpoint, hgrabbed, hvalue⟩ :=
      GrabLoop.foldl_request (grabsBetween s.session t) s.loop
    refine ⟨h.follows.requests _, h.grabbed.trans hgrabbed.symm, h.exclusive, ?_,
      Session.lastGrab_of_step h.focus ht⟩
    refine hvalue.trans ?_
    rw [show s.loop.grabRx.value = s.session.lastGrab from h.value, grabsBetween, houts,
      List.drop_left]
    show _ = Output.lastGrab t.outputs
    rw [houts, Output.lastGrab_append]
    rfl
  | dropReceiver hopen hended => exact ⟨h.follows, h.grabbed, h.exclusive, h.value, h.focus⟩

end Grabs

/-! ### Runs -/

/-- What the session has received comes from what was read of the devices. -/
structure Sound [DecidableEq ι] (set : DeviceSet ι) (sl : DevicePath ι × Log ι) : Prop where
  devices : EvdevDevices.Sound set (sl.1.devices, sl.2.devices)
  passed : Passed sl

section Sound

variable [DecidableEq ι] {cfg : SessionConfig} {set : DeviceSet ι} {daemon : DaemonState}
  {s s' : DevicePath ι} {log : Log ι} {label : Label ι}

/-- The capture of the path is a capture as it is by itself. -/
theorem devices_step (h : EvdevDevices.Sound set (s.devices, log.devices))
    (hs' : s' ∈ DevicePath.step cfg set s label) :
    EvdevDevices.Sound set (s'.devices, (record log s label s').devices) := by
  cases move_of_step hs' with
  | device k d hd => exact h.step (mem_withHistory.2 ⟨hd, rfl⟩)
  | returned k d result l hd => exact h.step (mem_withHistory.2 ⟨hd, rfl⟩)
  | call on refused d l hpoint hd =>
    have hrecord : (record log s (.call refused) { s with devices := d, loop := l }).devices =
        EvdevDevices.record log.devices s.devices
          (if on then .grabPointer refused else .ungrabPointer) d := by
      simp [record, atDevices, hpoint]
    rw [hrecord]
    exact h.step (mem_withHistory.2 ⟨hd, rfl⟩)
  | nextEvent d hpoint hd => exact h.step (mem_withHistory.2 ⟨hd, rfl⟩)
  | look | sent | unsent | session | dropReceiver => exact h

/-- What every step keeps holds throughout, whatever the state the session starts in. -/
theorem throughout_recorded {I : DevicePath ι × Log ι → Prop} (hstart : I (start daemon, .empty))
    (hstep : ∀ s log label s', I (s, log) → s' ∈ step cfg set s label →
      I (s', record log s label s')) (labels : List (Label ι)) :
    Throughout (recorded cfg set) I (start daemon, .empty) labels := by
  refine throughout_of_invariant (fun sl label h sl' hsl' ↦ ?_) hstart labels
  obtain ⟨s, log⟩ := sl
  obtain ⟨s', log'⟩ := sl'
  obtain ⟨hs', rfl⟩ : s' ∈ step cfg set s label ∧ log' = record log s label s' :=
    mem_withHistory.1 hsl'
  exact hstep s log label s' h hs'

/-- **What was read is passed on** in every run, whatever the focus is at first. -/
theorem sound_recorded (labels : List (Label ι)) :
    Throughout (recorded cfg set) (Sound set) (start daemon, .empty) labels :=
  throughout_recorded ⟨EvdevDevices.sound_start, passed_start daemon⟩
    (fun _ _ _ _ h hs' ↦ ⟨devices_step h.devices hs', h.passed.step hs'⟩) labels

/-- **The grabs follow the focus** in every run that starts with focus local. -/
theorem grabs_recorded (hfocus : daemon.focusIsRemote = false) (labels : List (Label ι)) :
    Throughout (recorded cfg set) (Grabs set) (start daemon, .empty) labels :=
  throughout_recorded (grabs_start hfocus) (fun _ _ _ _ h hs' ↦ h.step hs') labels

/-- **What the devices bring is passed on.** In every run, each device is read in order, with
`SYN_DROPPED` for what an overrun has dropped, and what a single capture makes of what was read is
what the session has received, what waits in its channel and what the thread has in its hand, in
this order. As long as the session's receiver is there nothing is dropped. -/
theorem received_of_run {labels : List (Label ι)}
    (hrun : (s, log) ∈ run (recorded cfg set) (start daemon, .empty) labels) :
    (∀ fd, Gapped EvdevCapture.synDropped (on fd log.devices.arrived)
        (on fd log.devices.read ++ s.devices.queue fd)) ∧
      (EvdevCapture.new.run (log.devices.read.map Prod.snd)).1 =
        log.received ++ log.dropped ++ s.session.channel ++ s.loop.inHand ∧
      (s.receiverOpen = true → log.dropped = []) := by
  have hsound : Sound set (s, log) := (sound_recorded labels).last hrun
  exact ⟨hsound.devices.conserved, hsound.devices.returned.symm.trans hsound.passed.received,
    hsound.passed.opened⟩

end Sound

/-- The mouse goes to the edge; the thread passes that on, and grabs, which one device refuses. -/
def edgeRun : List (Label Bool) :=
  [.look (.testShutdown false), .look (.hasChanged false), .nextEvent,
    .device (.arrive true ⟨⟨EvdevEmulator.evRel, EvdevEmulator.relX, 1000⟩, by decide⟩),
    .device (.arrive true (EvdevDevices.sampleRaw EvdevEmulator.evSyn 0 false)),
    .device (.epollWait (.ready [.device true])), .device (.read true), .device (.read true), .send,
    .session (.captured (.at 0) 0), .look (.testShutdown false), .look (.hasChanged false),
    .look .borrowAndUpdate, .call {false}]

/-- The motion is received, and the session goes on. -/
theorem edgeRun_received :
    (run (recorded .fallback EvdevDevices.samplePair) (start (.new .fallback 0), .empty)
      edgeRun).map (fun sl ↦ (sl.2.received, sl.1.receiverOpen)) =
      some ([.mouseMove (.finite 1000) (.finite 0)], true) := by
  decide +kernel

/-- The session has received the motion of the mouse. -/
theorem received_of_run_edgeRun :
    ∃ sl ∈ run (recorded .fallback EvdevDevices.samplePair) (start (.new .fallback 0), .empty)
        edgeRun,
      (EvdevCapture.new.run (sl.2.devices.read.map Prod.snd)).1 =
        [.mouseMove (.finite 1000) (.finite 0)] ++ sl.1.session.channel ++ sl.1.loop.inHand := by
  obtain ⟨⟨s, log⟩, hrun, hend⟩ := Option.map_eq_some_iff.1 edgeRun_received
  simp only [Prod.mk.injEq] at hend
  obtain ⟨hreceived, hopen⟩ := hend
  obtain ⟨-, hpassed, hdropped⟩ := received_of_run hrun
  rw [hreceived, hdropped hopen, List.append_nil] at hpassed
  exact ⟨(s, log), hrun, hpassed⟩

section Sound

variable [DecidableEq ι] {cfg : SessionConfig} {set : DeviceSet ι} {daemon : DaemonState}
  {s s' : DevicePath ι} {log : Log ι} {label : Label ι}

/-- **The devices are kept from the desktop just while the focus is remote.** In every run of a
session that starts with focus local, once the thread has seen the last request and is not about to
answer it, the devices that are kept in the main loop are all that were opened but for those that
refused, if the focus is remote, and none if it is local; and none are once the thread has ended. -/
theorem kept_of_run {labels : List (Label ι)} (hfocus : daemon.focusIsRemote = false)
    (hrun : (s, log) ∈ run (recorded cfg set) (start daemon, .empty) labels) :
    (s.loop.coarse.hasEnded = true → s.kept = ∅) ∧
      (s.loop.coarse.hasEnded = false → s.loop.grabRx.hasChanged = false →
        (∀ on, s.loop.point ≠ .calling on) → s.session.phase = .mainLoop →
          s.kept = if s.session.daemon.focusIsRemote then set.opened \ log.refused else ∅) := by
  have hgrabs : Grabs set (s, log) := (grabs_recorded hfocus labels).last hrun
  refine ⟨fun hended ↦ by rw [kept, if_pos hended], fun hrunning hseen hcalling hmain ↦ ?_⟩
  have hremote : s.devices.grabbed = s.session.daemon.focusIsRemote :=
    calc s.devices.grabbed
      _ = s.loop.grabbed := hgrabs.grabbed
      _ = s.loop.grabRx.value := hgrabs.follows.arrived hseen hcalling
      _ = s.session.lastGrab := hgrabs.value
      _ = s.session.daemon.focusIsRemote := hgrabs.focus hmain
  have hexclusive := hgrabs.exclusive
  dsimp only at hexclusive
  rw [kept, if_neg (by rw [hrunning]; decide), hexclusive, hremote]

end Sound

/-- The thread has answered the last request, and one of the devices has refused. -/
theorem edgeRun_kept :
    (run (recorded .fallback EvdevDevices.samplePair) (start (.new .fallback 0), .empty)
      edgeRun).map (fun sl ↦ (sl.1.loop.coarse.hasEnded || sl.1.loop.grabRx.hasChanged,
        (sl.1.loop.deeds (.call true)).length, decide (sl.1.session.phase = .mainLoop) &&
          sl.1.session.daemon.focusIsRemote, sl.2.refused)) = some (false, 0, true, {false}) := by
  decide +kernel

/-- The device that did not refuse is kept. -/
theorem kept_of_run_edgeRun :
    ∃ sl ∈ run (recorded .fallback EvdevDevices.samplePair) (start (.new .fallback 0), .empty)
        edgeRun,
      sl.1.kept = {true, false} \ {false} := by
  obtain ⟨⟨s, log⟩, hrun, hend⟩ := Option.map_eq_some_iff.1 edgeRun_kept
  simp only [Prod.mk.injEq, Bool.or_eq_false_iff, Bool.and_eq_true, decide_eq_true_eq] at hend
  obtain ⟨⟨hrunning, hseen⟩, hdeeds, ⟨hmain, hremote⟩, hrefused⟩ := hend
  have hcalling (on : Bool) : s.loop.point ≠ .calling on := fun hpoint ↦ by
    simp [GrabLoop.deeds, hpoint] at hdeeds
  have hkept := (kept_of_run rfl hrun).2 hrunning hseen hcalling hmain
  rw [hremote, if_pos rfl, hrefused] at hkept
  exact ⟨(s, log), hrun, hkept⟩

end DevicePath

end Kmflow
