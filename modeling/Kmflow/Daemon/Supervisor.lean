import Kmflow.Daemon.Session

/-!
# The run loop and its session tasks

`Daemon::run`, with `handle_accepted_peer` and `connect_to` taken apart at their awaits, and the
`peer_session` tasks it spawns: handshake, loops, cleanup. They share the daemon's state and the map
of peers, each behind its own lock, and every step here is what happens under the locks between two
awaits.

The run loop is one task: while it is inside `connect_to`, dialing or sleeping, it accepts nothing.
The session tasks run beside it and beside each other. A task's loops are those of `Session`,
stepping the shared state. The cleanup takes the two locks one after the other, so it is two steps;
the handshake holds the first while it takes the second, so it is one.

Whether an attempt, a handshake or a send succeeds is in the labels. The store of known fingerprints
is consulted between two awaits and changes nothing else, so it is not part of the state.
-/

namespace Kmflow

/-! ### Connections and peers -/

/-- A QUIC connection, as far as the daemon looks at it. -/
structure Connection where
  remoteAddr : String
  deriving DecidableEq

/-- `ipc::PeerStatus`; `screen` is kept as the screen it renders. -/
structure PeerStatus where
  hostname : String
  addr : String
  state : String
  rttMs : F64
  screen : ScreenInfo
  deriving DecidableEq

/-- What a handshake message tells about the peer. -/
structure Greeting where
  hostname : String
  screenInfo : ScreenInfo
  edge : Option Edge
  deriving DecidableEq

/-- How the handshake fails. -/
inductive HandshakeError where
  | stream
  | versionMismatch (remote : UInt32)
  | unexpectedReply
  | unexpectedFirst
  deriving DecidableEq

/-- The error text; stream errors carry the text of the layer below. -/
def HandshakeError.text : HandshakeError → String
  | stream => ""
  | versionMismatch remote =>
    s!"protocol version mismatch: local={protocolVersion.toNat}, remote={remote.toNat}"
  | unexpectedReply => "unexpected handshake reply"
  | unexpectedFirst => "unexpected first control message"

/-- The initiator's check of the reply. -/
def readAck : Option ControlCommand → Except HandshakeError Greeting
  | some (.handshakeAck version hostname screenInfo edge) =>
    if version ≠ protocolVersion then .error (.versionMismatch version)
    else .ok ⟨hostname, screenInfo, edge⟩
  | some _ => .error .unexpectedReply
  | none => .error .stream

/-- The acceptor's check of the first message. -/
def readHandshake : Option ControlCommand → Except HandshakeError Greeting
  | some (.handshake version hostname screenInfo edge) =>
    if version ≠ protocolVersion then .error (.versionMismatch version)
    else .ok ⟨hostname, screenInfo, edge⟩
  | some _ => .error .unexpectedFirst
  | none => .error .stream

/-- `opposite_edge`. -/
def oppositeEdge : Edge → Edge
  | .left => .right
  | .right => .left
  | .top => .bottom
  | .bottom => .top

/-- The edge towards the peer: the configured one, the opposite of the peer's, or the right. -/
def targetEdge (configured peer : Option Edge) : Edge :=
  match configured, peer with
  | some e, _ => e
  | none, some e => oppositeEdge e
  | none, none => .right

/-! ### The tasks -/

/-- What a session task keeps to itself while it is in its loops. -/
structure Loop where
  channel : List InputEvent
  phase : Phase
  outputs : List Output

namespace Loop

/-- A task at the head of its main loop. -/
def fresh : Loop where
  channel := []
  phase := .mainLoop
  outputs := []

/-- The session that the loop is, on the shared state. -/
def on (l : Loop) (daemon : DaemonState) : Session where
  daemon := daemon
  channel := l.channel
  phase := l.phase
  outputs := l.outputs

/-- What is left of a session when the shared state is taken away. -/
def of (s : Session) : Loop where
  channel := s.channel
  phase := s.phase
  outputs := s.outputs

end Loop

/-- A `peer_session` task. -/
inductive Task where
  /-- Waiting for the peer's handshake message. -/
  | greeting (conn : Connection) (isInitiator : Bool)
  /-- The acceptor, sending its `HandshakeAck`. -/
  | acking (conn : Connection) (greeting : Greeting)
  /-- Past the transition to `Active`, and before the cleanup. -/
  | live (hostname : String) (cfg : SessionConfig) (loop : Loop)
  /-- In the cleanup, between the shared state and the map of peers. -/
  | clearing
  | ended

namespace Task

/-- The peer a live session serves. -/
def hostname? : Task → Option String
  | live hostname _ _ => some hostname
  | _ => none

end Task

/-! ### The run loop -/

/-- `RECONNECT_BASE_DELAY`, in seconds. -/
def reconnectBaseDelay : ℕ := 1

/-- `RECONNECT_MAX_DELAY`, in seconds. -/
def reconnectMaxDelay : ℕ := 30

/-- `RECONNECT_MAX_ATTEMPTS`. -/
def reconnectMaxAttempts : ℕ := 10

/-- Where the run loop is. -/
inductive RunLoop where
  /-- At its `select!`. -/
  | select
  /-- In `handle_accepted_peer`, consulting the known fingerprints. -/
  | trustingAccepted (conn : Connection)
  /-- In `connect_to`, before the test for `Active`. -/
  | testing (addr : String)
  /-- Dialing. -/
  | dialing (addr : String) (attempt delay : ℕ)
  /-- Dialing has failed; before `Reconnecting` is recorded. -/
  | recording (addr : String) (attempt delay : ℕ)
  /-- Asleep before the next attempt. -/
  | sleeping (addr : String) (attempt delay : ℕ)
  /-- In `connect_to`, consulting the known fingerprints. -/
  | trustingDialed (conn : Connection)
  | stopped
  deriving DecidableEq

/-- What the daemon is configured with. -/
structure DaemonConfig where
  configuredEdge : Option Edge
  hasEmulator : Bool

/-- The run loop with all the session tasks, and what they share. -/
structure Supervisor where
  daemon : DaemonState
  peers : String → Option PeerStatus
  runLoop : RunLoop
  /-- Every task spawned so far, oldest first. -/
  tasks : List Task

/-- The labels of the daemon. -/
inductive DaemonInput where
  | shutdown
  /-- `transport.accept` completes, with an error when `none`. -/
  | accepted (conn : Option Connection)
  /-- An address arrives from discovery or over IPC. -/
  | address (addr : String)
  /-- `connect_to` tests the connection state. -/
  | tested
  /-- `transport.connect` completes, with an error when `none`. -/
  | dialed (conn : Option Connection)
  | recorded
  | slept
  /-- The known fingerprints have been consulted; the session task is spawned. -/
  | trusted
  /-- Task `k` receives the peer's handshake message, or an error. -/
  | greeted (k : ℕ) (msg : Option ControlCommand) (rttMs : F64)
  /-- Task `k` has sent its `HandshakeAck`, or failed to. -/
  | acked (k : ℕ) (sent : Bool) (rttMs : F64)
  /-- A step of task `k`'s loops, or the first half of its cleanup. -/
  | session (k : ℕ) (i : Input)
  /-- The second half of task `k`'s cleanup. -/
  | cleared (k : ℕ)

namespace Supervisor

/-- The daemon as `run` starts it. -/
def start (daemon : DaemonState) : Supervisor where
  daemon := daemon
  peers _ := none
  runLoop := .select
  tasks := []

/-- A task goes on to its next stage. -/
def setTask (s : Supervisor) (k : ℕ) (t : Task) : Supervisor := { s with tasks := s.tasks.set k t }

/-- The end of either handshake: the session becomes active and the peer is registered. -/
def complete (cfg : DaemonConfig) (s : Supervisor) (k : ℕ) (conn : Connection) (g : Greeting)
    (rttMs : F64) : Supervisor where
  daemon := { s.daemon with
    remoteScreen := some g.screenInfo
    connectionState := s.daemon.connectionState.transitionOrStay .active }
  peers := Function.update s.peers g.hostname
    (some ⟨g.hostname, conn.remoteAddr, "active", rttMs, g.screenInfo⟩)
  runLoop := s.runLoop
  tasks := s.tasks.set k (.live g.hostname
    ⟨s.daemon.localScreen, targetEdge cfg.configuredEdge g.edge, cfg.hasEmulator⟩ .fresh)

/-- A step of the run loop. -/
def stepRun (s : Supervisor) : DaemonInput → Option Supervisor
  | .shutdown => if s.runLoop = .select then some { s with runLoop := .stopped } else none
  | .accepted conn =>
    if s.runLoop = .select then
      some { s with runLoop := match conn with
        | some conn => .trustingAccepted conn
        | none => .select }
    else none
  | .address addr =>
    if s.runLoop = .select then some { s with runLoop := .testing addr } else none
  | .tested =>
    match s.runLoop with
    | .testing addr =>
      -- the one test for a session that is already active
      some { s with runLoop :=
        if s.daemon.connectionState = .active then .select
        else .dialing addr 1 reconnectBaseDelay }
    | _ => none
  | .dialed conn =>
    match s.runLoop with
    | .dialing addr attempt delay =>
      some { s with runLoop := match conn with
        | some conn => .trustingDialed conn
        | none =>
          if attempt = reconnectMaxAttempts then .select else .recording addr attempt delay }
    | _ => none
  | .recorded =>
    match s.runLoop with
    | .recording addr attempt delay =>
      -- whatever has become of the state since the test
      some { s with
        daemon := { s.daemon with
          connectionState := s.daemon.connectionState.transitionOrStay .reconnecting }
        runLoop := .sleeping addr attempt delay }
    | _ => none
  | .slept =>
    match s.runLoop with
    | .sleeping addr attempt delay =>
      some { s with runLoop := .dialing addr (attempt + 1) (min (delay * 2) reconnectMaxDelay) }
    | _ => none
  | .trusted =>
    match s.runLoop with
    | .trustingAccepted conn =>
      some { s with runLoop := .select, tasks := s.tasks ++ [.greeting conn false] }
    | .trustingDialed conn =>
      some { s with runLoop := .select, tasks := s.tasks ++ [.greeting conn true] }
    | _ => none
  | _ => none

/-- A step of task `k`. -/
def stepTask (cfg : DaemonConfig) (s : Supervisor) : DaemonInput → Option Supervisor
  | .greeted k msg rttMs =>
    match s.tasks[k]? with
    | some (.greeting conn true) =>
      match readAck msg with
      | .ok g => some (s.complete cfg k conn g rttMs)
      | .error _ => some (s.setTask k .ended)
    | some (.greeting conn false) =>
      match readHandshake msg with
      | .ok g => some (s.setTask k (.acking conn g))
      | .error _ => some (s.setTask k .ended)
    | _ => none
  | .acked k sent rttMs =>
    match s.tasks[k]? with
    | some (.acking conn g) =>
      some (if sent then s.complete cfg k conn g rttMs else s.setTask k .ended)
    | _ => none
  | .session k i =>
    match s.tasks[k]? with
    | some (.live hostname scfg loop) =>
      (Session.step scfg (loop.on s.daemon) i).map fun s' ↦
        { s with
          daemon := s'.daemon
          tasks := s.tasks.set k
            (if s'.phase = .cleanedUp then .clearing else .live hostname scfg (.of s')) }
    | _ => none
  | .cleared k =>
    match s.tasks[k]? with
    -- `peers.clear()`: the other sessions' peers too
    | some .clearing => some { s with peers := fun _ ↦ none, tasks := s.tasks.set k .ended }
    | _ => none
  | _ => none

/-- One step of the daemon; `none` when the label is not enabled. -/
def step (cfg : DaemonConfig) (s : Supervisor) (e : DaemonInput) : Option Supervisor :=
  match e with
  | .greeted _ _ _ | .acked _ _ _ | .session _ _ | .cleared _ => s.stepTask cfg e
  | .shutdown | .accepted _ | .address _ | .tested | .dialed _ | .recorded | .slept | .trusted =>
    s.stepRun e

/-- The peers of the sessions between their transition to `Active` and their cleanup, one for each
session. -/
def liveHosts (s : Supervisor) : List String := s.tasks.filterMap Task.hostname?

end Supervisor

end Kmflow
