import Kmflow.Daemon.State
import Kmflow.Foundation.Transition

/-!
# One peer session

The event loops of `Daemon::peer_session`, arm by arm, from the first head of the main loop to the
end of the cleanup. An arm is a function from the shared state (and what the arm received) to a
`Reaction`: the new shared state, what the arm handed to the outside world in order, and where
control goes next.

`step` is one step of the session. Its labels say which `select!` arm completes and carry
everything the arm cannot decide by itself: the message that arrived, the clock, the iteration order
of the two hash sets, how many more captured events `try_recv` finds, whether `send_datagram`
succeeds. Results of `send_control` are discarded by every arm, so no label carries one. A run of
the session is a list of labels, and every order of arms is some list.

Two arms of the source are one definition each for both loops (clipboard, shutdown). The network
arms are written once per loop, as in the source: the receive-only loop is a copy of the main loop
that has drifted, and the difference is what matters.
-/

namespace Kmflow

/-- `EVENT_BATCH_LIMIT`. -/
def eventBatchLimit : ℕ := 64

/-- `EDGE_COOLDOWN`, in nanoseconds. -/
def edgeCooldown : ℕ := 500000000

/-- The capacity of the channel between the capture thread and the loop. -/
def captureChannelCapacity : ℕ := 256

/-- What `peer_session` fixes before its loops start. -/
structure SessionConfig where
  localScreen : ScreenInfo
  targetEdge : Edge
  /-- Whether an emulator could be created. -/
  hasEmulator : Bool

/-- A session on the fallback screen, with the default edge. -/
def SessionConfig.fallback : SessionConfig where
  localScreen := .fallback
  targetEdge := .right
  hasEmulator := true

/-- The edge detector that the session makes. -/
def SessionConfig.edgeDetector (cfg : SessionConfig) : EdgeDetector :=
  .new cfg.localScreen cfg.targetEdge

/-- What the environment answers while one arm runs. -/
structure Env where
  /-- `Instant::now()`, in nanoseconds. -/
  now : ℕ
  /-- `now_us()`. -/
  nowUs : UInt64
  order : FlushOrder
  /-- Whether `send_datagram` succeeds. -/
  datagramOk : Bool

/-- A quiet environment at one instant, with the sends succeeding. -/
def Env.at (now : ℕ) : Env where
  now := now
  nowUs := 0
  order := .ascending
  datagramOk := true

/-- What an arm hands to the outside world. -/
inductive Output where
  /-- Handed to `send_datagram`. -/
  | datagram (frame : EventFrame)
  /-- Handed to `send_control`. -/
  | control (cmd : ControlCommand)
  /-- Given to the emulator. -/
  | emit (event : InputEvent)
  /-- Sent on `grab_tx`. -/
  | grab (on : Bool)
  /-- Written to a stream of its own, for the peer's clipboard. -/
  | clipboardToPeer (payload : ClipboardPayload)
  /-- Handed to the task that writes the local clipboard. -/
  | clipboardToDesktop (payload : ClipboardPayload)
  deriving DecidableEq

/-- Where control goes after an arm. -/
inductive Flow where
  /-- The next iteration of the same loop. -/
  | again
  /-- `break`, towards the cleanup. -/
  | leave
  /-- Into the receive-only loop. -/
  | receiveOnly
  /-- `clamp` panics when its bounds are crossed; the task ends without cleanup. -/
  | panic
  deriving DecidableEq

/-- What the handler of an arm comes to: the state, what it hands out, and how the loop goes on. -/
structure Reaction where
  state : DaemonState
  outputs : List Output
  flow : Flow

/-! ### Cursor tracking -/

/-- `Ord::clamp`, which panics when the bounds are crossed. -/
def clamp (x lo hi : ℤ) : Option ℤ :=
  if lo ≤ hi then some (max lo (min x hi)) else none

/-- `(pos + *d as i32).clamp(0, size as i32 - 1)`, on one axis. -/
def trackAxis (size : UInt32) (pos : ℤ) (d : F64) : Option ℤ :=
  clamp (wrapI32 (pos + d.asI32)) 0 (wrapI32 (u32AsI32 size - 1))

/-- The cursor update for one `MouseMove`. On a panic, the state as it was left. -/
def trackMove (screen : ScreenInfo) (dx dy : F64) (s : DaemonState) :
    Except DaemonState DaemonState :=
  match trackAxis screen.width s.cursorX dx with
  | none => .error s
  | some x =>
    match trackAxis screen.height s.cursorY dy with
    | none => .error { s with cursorX := x }
    | some y => .ok { s with cursorX := x, cursorY := y }

/-- The reset to the screen's centre. -/
def centerCursor (cfg : SessionConfig) (s : DaemonState) : DaemonState :=
  { s with
    cursorX := (u32AsI32 cfg.localScreen.width).tdiv 2
    cursorY := (u32AsI32 cfg.localScreen.height).tdiv 2 }

/-- The walk over a received frame's moves, up to the first edge hit. -/
def scanMoves (cfg : SessionConfig) (inCooldown : Bool) (s : DaemonState) :
    List InputEvent → Except DaemonState (DaemonState × Bool)
  | [] => .ok (s, false)
  | .mouseMove dx dy :: es =>
    match trackMove cfg.localScreen dx dy s with
    | .error s => .error s
    | .ok s =>
      if !inCooldown && cfg.edgeDetector.check s.cursorX s.cursorY != .none then .ok (s, true)
      else scanMoves cfg inCooldown s es
  | _ :: es => scanMoves cfg inCooldown s es

/-- `last_focus_switch.elapsed() < EDGE_COOLDOWN`; `elapsed` saturates at zero. -/
def inCooldown (env : Env) (s : DaemonState) : Bool :=
  decide (env.now - s.lastFocusSwitch < edgeCooldown)

/-! ### Arms shared by both loops -/

/-- `shutdown_rx.changed()`. -/
def shutdownArm (s : DaemonState) : Reaction := ⟨s, [], .leave⟩

/-- `sent`: the payload could be encoded and a stream could be opened. -/
def clipboardOutgoingArm (s : DaemonState) (payload : ClipboardPayload) (sent : Bool) : Reaction :=
  ⟨s, if sent then [.clipboardToPeer payload] else [], .again⟩

/-- `clip_recv_rx.recv()`: the payload goes to the incoming task. -/
def clipboardReceivedArm (s : DaemonState) (payload : ClipboardPayload) : Reaction :=
  ⟨s, [.clipboardToDesktop payload], .again⟩

/-! ### The captured-event arm of the main loop -/

/-- The batch loop: take further waiting events while the batch is short of the limit. Returns the
state, the batch and the events left in the channel. -/
def drain (s : DaemonState) (batch : List InputEvent) :
    List InputEvent → DaemonState × List InputEvent × List InputEvent
  | [] => (s, batch, [])
  | ev :: waiting =>
    if batch.length < eventBatchLimit then drain (trackKeyState s ev) (batch ++ [ev]) waiting
    else (s, batch, ev :: waiting)

/-- The emergency hotkey: release focus, flush what is held, tell the peer. -/
def emergencyRelease (env : Env) (s : DaemonState) : Reaction :=
  let s := { s with focusIsRemote := false }
  -- the flush releases what is tracked and leaves it tracked
  let releases := flushPressedKeys env.order s
  let (s, seq) := nextSeq s
  let flush := if releases.isEmpty then [] else [Output.datagram ⟨seq, env.nowUs, releases⟩]
  ⟨s, [.grab false] ++ flush ++ [.control .releaseFocus], .again⟩

/-- Focus is remote: forward the event, together with what else is waiting. -/
def forwardBatch (env : Env) (s : DaemonState) (event : InputEvent) (waiting : List InputEvent) :
    Reaction × List InputEvent :=
  let (s, batch, left) := drain s [event] waiting
  let (s, seq) := nextSeq s
  (⟨s, [.datagram ⟨seq, env.nowUs, batch⟩], if env.datagramOk then .again else .leave⟩, left)

/-- Focus is local: track the cursor, and hand focus to the peer at the edge. -/
def keepLocal (cfg : SessionConfig) (s : DaemonState) : InputEvent → Reaction
  | .mouseMove dx dy =>
    match trackMove cfg.localScreen dx dy s with
    | .error s => ⟨s, [], .panic⟩
    | .ok s =>
      if cfg.edgeDetector.check s.cursorX s.cursorY != .none then
        ⟨centerCursor cfg { s with focusIsRemote := true },
          [.grab true, .control (.switchFocus "remote")], .again⟩
      else ⟨s, [], .again⟩
  | _ => ⟨s, [], .again⟩

/-- With focus local, only moves do anything. -/
theorem keepLocal_of_not_move {cfg : SessionConfig} {s : DaemonState} {event : InputEvent}
    (h : ∀ dx dy, event ≠ .mouseMove dx dy) : keepLocal cfg s event = ⟨s, [], .again⟩ := by
  match event with
  | .mouseMove dx dy => exact absurd rfl (h dx dy)
  | .mouseButton _ _ | .scroll _ _ | .key _ _ => rfl

/-- One captured event, with the events `try_recv` would find waiting. Returns those it left. -/
def capturedArm (cfg : SessionConfig) (env : Env) (s : DaemonState) (event : InputEvent)
    (waiting : List InputEvent) : Reaction × List InputEvent :=
  let s := trackKeyState s event
  -- the hotkey is looked for here, and not among the events that the batch loop takes
  if checkEmergencyHotkey s && s.focusIsRemote then (emergencyRelease env s, waiting)
  else if s.focusIsRemote then forwardBatch env s event waiting
  else (keepLocal cfg s event, waiting)

/-! ### The network arms of the main loop -/

/-- `recv_datagram` in the main loop: with focus local the moves are gone over first, and then all
the events are emulated, or focus goes to the peer. -/
def frameArm (cfg : SessionConfig) (env : Env) (s : DaemonState) : Option EventFrame → Reaction
  | none => ⟨s, [], .leave⟩
  | some frame =>
    if !s.focusIsRemote then
      match scanMoves cfg (inCooldown env s) s frame.events with
      | .error s => ⟨s, [], .panic⟩
      | .ok (s, true) =>
        ⟨centerCursor cfg { s with focusIsRemote := true },
          [.grab true, .control (.switchFocus "remote")], .again⟩
      | .ok (s, false) => ⟨s, if cfg.hasEmulator then frame.events.map .emit else [], .again⟩
    else ⟨s, [], .again⟩

/-- `recv_control` in the main loop. -/
def controlArm (cfg : SessionConfig) (env : Env) (s : DaemonState) :
    Option ControlCommand → Reaction
  | some (.switchFocus _) =>
    ⟨{ centerCursor cfg { s with focusIsRemote := false } with lastFocusSwitch := env.now },
      [.grab false], .again⟩
  | some .releaseFocus =>
    ⟨{ centerCursor cfg { s with focusIsRemote := false } with lastFocusSwitch := env.now },
      [.grab false], .again⟩
  | some .peerDisconnecting => ⟨s, [], .leave⟩
  | some (.ping timestampUs) => ⟨s, [.control (.pong timestampUs)], .again⟩
  | some _ => ⟨s, [], .again⟩
  | none => ⟨s, [], .leave⟩

/-! ### The network arms of the receive-only loop -/

/-- `recv_datagram` in the receive-only loop, where nothing is sent on `grab_tx`. -/
def receiveOnlyFrameArm (cfg : SessionConfig) (env : Env) (s : DaemonState) :
    Option EventFrame → Reaction
  | none => ⟨s, [], .leave⟩
  | some frame =>
    if !s.focusIsRemote then
      match scanMoves cfg (inCooldown env s) s frame.events with
      | .error s => ⟨s, [], .panic⟩
      | .ok (s, true) =>
        ⟨centerCursor cfg { s with focusIsRemote := true },
          [.control (.switchFocus "remote")], .again⟩
      | .ok (s, false) => ⟨s, if cfg.hasEmulator then frame.events.map .emit else [], .again⟩
    else ⟨s, [], .again⟩

/-- `recv_control` in the receive-only loop. -/
def receiveOnlyControlArm (cfg : SessionConfig) (s : DaemonState) :
    Option ControlCommand → Reaction
  -- unlike in the main loop, `last_focus_switch` stays
  | some (.switchFocus _) => ⟨centerCursor cfg { s with focusIsRemote := false }, [], .again⟩
  | some .releaseFocus => ⟨centerCursor cfg { s with focusIsRemote := false }, [], .again⟩
  | some .peerDisconnecting => ⟨s, [], .leave⟩
  | some (.ping timestampUs) => ⟨s, [.control (.pong timestampUs)], .again⟩
  | none => ⟨s, [], .leave⟩
  | some _ => ⟨s, [], .again⟩

/-! ### Cleanup -/

/-- The flush at the end of the session, when focus is still remote. -/
def cleanupFlush (env : Env) (s : DaemonState) : DaemonState × List Output :=
  if s.focusIsRemote then
    let releases := flushPressedKeys env.order s
    if releases.isEmpty then (s, [])
    else
      let (s, seq) := nextSeq s
      (s, [.datagram ⟨seq, env.nowUs, releases⟩])
  else (s, [])

/-- The cleanup under the state lock. -/
def cleanup (env : Env) (s : DaemonState) : DaemonState × List Output :=
  let (s, flush) := cleanupFlush env s
  -- nothing is sent on `grab_tx` here
  ({ s with
      connectionState := s.connectionState.transitionOrStay .disconnected
      remoteScreen := none
      focusIsRemote := false
      pressedKeys := ∅
      pressedButtons := ∅ }, flush)

/-! ### The session as a transition system -/

/-- Where the session task is. -/
inductive Phase where
  /-- At the head of the main loop. -/
  | mainLoop
  /-- At the head of the receive-only loop. -/
  | receiveOnly
  /-- Past the loops, before the cleanup. -/
  | left
  | cleanedUp
  | panicked
  deriving DecidableEq

/-- A `peer_session` between two iterations, with what it has handed out. -/
structure Session where
  daemon : DaemonState
  /-- The captured events the thread has sent and the loop has not yet received. -/
  channel : List InputEvent
  phase : Phase
  /-- Everything the session has handed to the outside world, oldest first. -/
  outputs : List Output

/-- The labels: which arm completes, and with what. -/
inductive Input where
  /-- The capture thread sends an event. -/
  | push (event : InputEvent)
  | shutdown
  | clipboardOutgoing (payload : ClipboardPayload) (sent : Bool)
  | clipboardReceived (payload : ClipboardPayload)
  /-- The captured-event arm; `ready` bounds how many more events `try_recv` finds. -/
  | captured (env : Env) (ready : ℕ)
  /-- The captured-event arm, on a channel that is empty and closed. -/
  | captureClosed
  /-- `recv_datagram` completes, with an error when `none`. -/
  | frame (env : Env) (result : Option EventFrame)
  /-- `recv_control` completes, with an error when `none`. -/
  | control (env : Env) (result : Option ControlCommand)
  | cleanup (env : Env)

namespace Session

/-- A session at the first head of the main loop. -/
def start (daemon : DaemonState) : Session where
  daemon := daemon
  channel := []
  phase := .mainLoop
  outputs := []

/-- Carry out an arm's reaction. -/
def absorb (s : Session) (r : Reaction) (channel : List InputEvent) : Session where
  daemon := r.state
  channel := channel
  phase := match r.flow with
    | .again => s.phase
    | .leave => .left
    | .receiveOnly => .receiveOnly
    | .panic => .panicked
  outputs := s.outputs ++ r.outputs

/-- The loop goes on. -/
@[simp] theorem absorb_again (s : Session) (d : DaemonState) (outs : List Output)
    (channel : List InputEvent) :
    s.absorb ⟨d, outs, .again⟩ channel = ⟨d, channel, s.phase, s.outputs ++ outs⟩ := rfl

/-- The loop is left. -/
@[simp] theorem absorb_leave (s : Session) (d : DaemonState) (outs : List Output)
    (channel : List InputEvent) :
    s.absorb ⟨d, outs, .leave⟩ channel = ⟨d, channel, .left, s.outputs ++ outs⟩ := rfl

/-- The task panics. -/
@[simp] theorem absorb_panic (s : Session) (d : DaemonState) (outs : List Output)
    (channel : List InputEvent) :
    s.absorb ⟨d, outs, .panic⟩ channel = ⟨d, channel, .panicked, s.outputs ++ outs⟩ := rfl

/-- The receive-only loop begins. -/
@[simp] theorem absorb_receiveOnly (s : Session) (d : DaemonState) (outs : List Output)
    (channel : List InputEvent) :
    s.absorb ⟨d, outs, .receiveOnly⟩ channel = ⟨d, channel, .receiveOnly, s.outputs ++ outs⟩ := rfl

/-- One step of the session; `none` when the label is not enabled. -/
def step (cfg : SessionConfig) (s : Session) (i : Input) : Option Session :=
  match s.phase, i with
  | .mainLoop, .push event =>
    if s.channel.length < captureChannelCapacity then
      some { s with channel := s.channel ++ [event] }
    else none
  | .mainLoop, .captured env ready =>
    match s.channel with
    | [] => none
    | event :: rest =>
      -- the batch loop sees the first `ready` events of what is waiting
      let (r, left) := capturedArm cfg env s.daemon event (rest.take ready)
      some (s.absorb r (left ++ rest.drop ready))
  | .mainLoop, .captureClosed =>
    if s.channel = [] then some (s.absorb ⟨s.daemon, [], .receiveOnly⟩ []) else none
  | .mainLoop, .frame env result => some (s.absorb (frameArm cfg env s.daemon result) s.channel)
  | .mainLoop, .control env result => some (s.absorb (controlArm cfg env s.daemon result) s.channel)
  | .receiveOnly, .frame env result =>
    some (s.absorb (receiveOnlyFrameArm cfg env s.daemon result) s.channel)
  | .receiveOnly, .control _ result =>
    some (s.absorb (receiveOnlyControlArm cfg s.daemon result) s.channel)
  | .mainLoop, .shutdown | .receiveOnly, .shutdown =>
    some (s.absorb (shutdownArm s.daemon) s.channel)
  | .mainLoop, .clipboardOutgoing payload sent | .receiveOnly, .clipboardOutgoing payload sent =>
    some (s.absorb (clipboardOutgoingArm s.daemon payload sent) s.channel)
  | .mainLoop, .clipboardReceived payload | .receiveOnly, .clipboardReceived payload =>
    some (s.absorb (clipboardReceivedArm s.daemon payload) s.channel)
  | .left, .cleanup env =>
    let (daemon, flush) := Kmflow.cleanup env s.daemon
    some { s with daemon := daemon, phase := .cleanedUp, outputs := s.outputs ++ flush }
  | _, _ => none

end Session

/-! ### What a list of outputs sent -/

namespace Output

/-- The frame handed to `send_datagram`. -/
def frame? : Output → Option EventFrame
  | datagram f => some f
  | _ => none

/-- The command handed to `send_control`. -/
def control? : Output → Option ControlCommand
  | control c => some c
  | _ => none

/-- The event given to the emulator. -/
def emit? : Output → Option InputEvent
  | emit e => some e
  | _ => none

/-- The value sent on `grab_tx`. -/
def grab? : Output → Option Bool
  | grab on => some on
  | _ => none

/-- The events of the frames handed to `send_datagram`, in order. -/
def forwarded (outs : List Output) : List InputEvent :=
  (outs.filterMap frame?).flatMap EventFrame.events

/-- The commands handed to `send_control`, in order. -/
def controls (outs : List Output) : List ControlCommand :=
  outs.filterMap control?

/-- The events given to the emulator, in order. -/
def emitted (outs : List Output) : List InputEvent :=
  outs.filterMap emit?

/-- The last value sent on `grab_tx`, which starts as `false`. -/
def lastGrab (outs : List Output) : Bool :=
  (outs.filterMap grab?).getLast?.getD false

@[simp] theorem forwarded_nil : forwarded [] = [] := rfl

/-- A frame forwards its events. -/
@[simp] theorem forwarded_datagram (f : EventFrame) (outs : List Output) :
    forwarded (datagram f :: outs) = f.events ++ forwarded outs := rfl

@[simp] theorem forwarded_control (c : ControlCommand) (outs : List Output) :
    forwarded (control c :: outs) = forwarded outs := rfl

@[simp] theorem forwarded_grab (on : Bool) (outs : List Output) :
    forwarded (grab on :: outs) = forwarded outs := rfl

@[simp] theorem controls_nil : controls [] = [] := rfl

@[simp] theorem controls_datagram (f : EventFrame) (outs : List Output) :
    controls (datagram f :: outs) = controls outs := rfl

/-- The command of a control output is one of them. -/
@[simp] theorem controls_control (c : ControlCommand) (outs : List Output) :
    controls (control c :: outs) = c :: controls outs := rfl

@[simp] theorem controls_grab (on : Bool) (outs : List Output) :
    controls (grab on :: outs) = controls outs := rfl

/-- What is forwarded is so piece by piece. -/
@[simp] theorem forwarded_append (outs outs' : List Output) :
    forwarded (outs ++ outs') = forwarded outs ++ forwarded outs' := by
  simp [forwarded]

/-- The commands are handed out piece by piece. -/
@[simp] theorem controls_append (outs outs' : List Output) :
    controls (outs ++ outs') = controls outs ++ controls outs' := by
  simp [controls]

/-- The last request is that of the later outputs, if they have one. -/
theorem lastGrab_append (outs outs' : List Output) :
    lastGrab (outs ++ outs') = ((outs'.filterMap grab?).getLast?).getD (lastGrab outs) := by
  rw [lastGrab, lastGrab, List.filterMap_append, List.getLast?_append]
  cases (outs'.filterMap grab?).getLast? <;> rfl

/-- What is emulated is so piece by piece. -/
@[simp] theorem emitted_append (outs outs' : List Output) :
    emitted (outs ++ outs') = emitted outs ++ emitted outs' := by
  simp [emitted]

end Output

namespace Session

/-- The events of the frames the session handed to `send_datagram`. -/
def forwarded (s : Session) : List InputEvent := Output.forwarded s.outputs

/-- The commands the session handed to `send_control`. -/
def controls (s : Session) : List ControlCommand := Output.controls s.outputs

/-- The events the session gave to its emulator. -/
def emitted (s : Session) : List InputEvent := Output.emitted s.outputs

/-- The last value the session sent on `grab_tx`. -/
def lastGrab (s : Session) : Bool := Output.lastGrab s.outputs

end Session

end Kmflow
