import Kmflow.Daemon.State
import Kmflow.Foundation.JsonLine
import Kmflow.Net.Discovery
import Kmflow.Proto.Codec

/-!
# Requests to the daemon and its answers

The messages of `ipc.rs`, how they are written, and `handle_ipc_request`. A request is a string or
an object, so it stands for nothing once it is cut short (`IpcRequest.closed`). An answer that is
read at all is the one that was written (`IpcResponse.eq_of_decode`): a round trip time that is not
finite keeps it from being read.

`handle_ipc_request` looks at the daemon in up to two places, one lock after the other, and waits
for room in the channel that takes the addresses; so a request is `begin` and, for `Status`,
`finish`.

How socket addresses are parsed and displayed is a parameter.
-/

namespace Kmflow

open Json Serde

/-! ### Messages -/

/-- `IpcRequest`. -/
inductive IpcRequest where
  | status
  | pair (addr : String)
  | layout (peer edge : String)
  | stop
  | setupFirewall
  deriving DecidableEq

/-- `PeerStatus`, with the screen as it is displayed. -/
structure IpcPeerStatus where
  hostname : String
  addr : String
  state : String
  rttMs : F64
  screen : String
  deriving DecidableEq

/-- `IpcResponse`. -/
inductive IpcResponse where
  | ok (message : String)
  | error (message : String)
  | status (state : String) (peers : List IpcPeerStatus)
  deriving DecidableEq

/-- As it is derived: a request without fields is a string, one with fields an object. -/
def IpcRequest.serde : Serde IpcRequest where
  encode
    | .status => .string "Status"
    | .pair addr => .object [("Pair", .object [("addr", Serde.string.encode addr)])]
    | .layout peer edge =>
      .object [("Layout", .object
        [("peer", Serde.string.encode peer), ("edge", Serde.string.encode edge)])]
    | .stop => .string "Stop"
    | .setupFirewall => .string "SetupFirewall"
  decode j :=
    match variant j with
    | some ("Status", content) => if noContent content then some .status else none
    | some ("Pair", some content) => do
      let get ← fields ["addr"] content
      some (.pair (← field Serde.string get "addr"))
    | some ("Layout", some content) => do
      let get ← fields ["peer", "edge"] content
      some (.layout (← field Serde.string get "peer") (← field Serde.string get "edge"))
    | some ("Stop", content) => if noContent content then some .stop else none
    | some ("SetupFirewall", content) => if noContent content then some .setupFirewall else none
    | _ => none

/-- As it is derived for `PeerStatus`. -/
def IpcPeerStatus.serde (fmt : FloatFormat) : Serde IpcPeerStatus where
  encode peer := .object
    [("hostname", Serde.string.encode peer.hostname), ("addr", Serde.string.encode peer.addr),
      ("state", Serde.string.encode peer.state), ("rtt_ms", (F64.serde fmt).encode peer.rttMs),
      ("screen", Serde.string.encode peer.screen)]
  decode j := do
    let get ← fields ["hostname", "addr", "state", "rtt_ms", "screen"] j
    some ⟨← field Serde.string get "hostname", ← field Serde.string get "addr",
      ← field Serde.string get "state", ← field (F64.serde fmt) get "rtt_ms",
      ← field Serde.string get "screen"⟩

/-- As it is derived for `IpcResponse`. -/
def IpcResponse.serde (fmt : FloatFormat) : Serde IpcResponse where
  encode
    | .ok message => .object [("Ok", .object [("message", Serde.string.encode message)])]
    | .error message => .object [("Error", .object [("message", Serde.string.encode message)])]
    | .status state peers =>
      .object [("Status", .object
        [("state", Serde.string.encode state),
          ("peers", (IpcPeerStatus.serde fmt).list.encode peers)])]
  decode j :=
    match variant j with
    | some ("Ok", some content) => do
      let get ← fields ["message"] content
      some (.ok (← field Serde.string get "message"))
    | some ("Error", some content) => do
      let get ← fields ["message"] content
      some (.error (← field Serde.string get "message"))
    | some ("Status", some content) => do
      let get ← fields ["state", "peers"] content
      some (.status (← field Serde.string get "state")
        (← field (IpcPeerStatus.serde fmt).list get "peers"))
    | _ => none

/-- Every request comes back. -/
theorem IpcRequest.keeps (req : IpcRequest) : serde.Keeps req := by
  cases req with
  | status => rfl
  | stop => rfl
  | setupFirewall => rfl
  | pair addr =>
    simp [Keeps, IpcRequest.serde, variant, fields_object, (keeps_string addr).decode_encode]
  | layout peer edge =>
    simp [Keeps, IpcRequest.serde, variant, fields_object, (keeps_string peer).decode_encode,
      (keeps_string edge).decode_encode]

/-- **A request that is cut short is none.** -/
theorem IpcRequest.closed (req : IpcRequest) : Closed (serde.encode req) := by
  cases req with
  | status => exact closed_string _
  | stop => exact closed_string _
  | setupFirewall => exact closed_string _
  | pair addr => exact closed_object _
  | layout peer edge => exact closed_object _

/-- So is an answer that is cut short. -/
theorem IpcResponse.closed (fmt : FloatFormat) (resp : IpcResponse) :
    Closed ((serde fmt).encode resp) := by
  cases resp <;> exact closed_object _

section Decode

variable {fmt : FloatFormat}

/-- What is read of a peer with an exact round-trip time is the peer. -/
theorem IpcPeerStatus.eq_of_decode {peer peer' : IpcPeerStatus}
    (hexact : ∀ q, peer.rttMs = .finite q → fmt.Exact q)
    (h : (serde fmt).decode ((serde fmt).encode peer) = some peer') : peer' = peer := by
  obtain ⟨hostname, addr, state, rttMs, screen⟩ := peer
  simp [serde, fields_object, (keeps_string hostname).decode_encode,
    (keeps_string addr).decode_encode, (keeps_string state).decode_encode,
    (keeps_string screen).decode_encode, Option.bind_eq_some_iff] at h
  obtain ⟨rttMs', hrtt, rfl⟩ := h
  rw [F64.eq_of_decode hexact hrtt]

/-- The floats of an answer. -/
def IpcResponse.floats : IpcResponse → List F64
  | .status _ peers => peers.map IpcPeerStatus.rttMs
  | _ => []

/-- **An answer that is read is the one that was written.** -/
theorem IpcResponse.eq_of_decode {resp resp' : IpcResponse}
    (hexact : ∀ q, .finite q ∈ resp.floats → fmt.Exact q)
    (h : (serde fmt).decode ((serde fmt).encode resp) = some resp') : resp' = resp := by
  cases resp with
  | ok message =>
    simp [serde, variant, fields_object, (keeps_string message).decode_encode] at h
    exact h.symm
  | error message =>
    simp [serde, variant, fields_object, (keeps_string message).decode_encode] at h
    exact h.symm
  | status state peers =>
    simp [serde, variant, fields_object, (keeps_string state).decode_encode,
      Option.bind_eq_some_iff] at h
    obtain ⟨peers', hpeers, rfl⟩ := h
    have hpeer : ∀ peer ∈ peers, ∀ peer', (IpcPeerStatus.serde fmt).decode
        ((IpcPeerStatus.serde fmt).encode peer) = some peer' → peer' = peer :=
      fun peer hpeer peer' ↦ IpcPeerStatus.eq_of_decode fun q hq ↦
        hexact q (hq ▸ List.mem_map_of_mem hpeer)
    rw [eq_of_decode_list hpeer hpeers]

end Decode

/-! ### The handler -/

/-- `DEFAULT_PORT`. -/
def defaultPort : UInt16 := 4242

/-- How many addresses the channel to the run loop holds. -/
def connectCapacity : ℕ := 8

/-- How a socket address is parsed, or the text of the error, and how it is displayed. -/
structure AddrText where
  parse : String → Except String SocketAddr
  display : SocketAddr → String

/-- What the handler reads and writes of the daemon. -/
structure IpcDaemon where
  connectionState : ConnectionState
  peers : List IpcPeerStatus
  shutdown : Bool
  /-- The addresses in the channel to the run loop, oldest first. -/
  connect : List SocketAddr
  connectClosed : Bool
  deriving DecidableEq

/-- How far a request gets at once. -/
inductive IpcBegun where
  | answered (resp : IpcResponse) (d : IpcDaemon)
  /-- The peers are yet to be looked at. -/
  | stateRead (state : String)
  /-- The channel is full. -/
  | waiting

namespace IpcDaemon

variable (text : AddrText) (d : IpcDaemon)

/-- The address to pair with. -/
def pairAddr (addr : String) : Except String SocketAddr :=
  if addr.toList.contains ':' then text.parse addr
  else text.parse (addr ++ ":" ++ toString defaultPort.toNat)

/-- `handle_ipc_request`, up to the second lock. -/
def begin : IpcRequest → IpcBegun
  | .status => .stateRead d.connectionState.toString
  | .stop => .answered (.ok "daemon stopping") { d with shutdown := true }
  | .pair addr =>
    match pairAddr text addr with
    | .ok sa =>
      if d.connectClosed then .answered (.error "daemon channel closed") d
      else if d.connect.length < connectCapacity then
        .answered (.ok s!"connecting to {text.display sa}...")
          { d with connect := d.connect ++ [sa] }
      else .waiting
    | .error e => .answered (.error s!"invalid address '{addr}': {e}") d
  | .layout peer edge => .answered (.ok s!"layout set: {peer} on {edge}") d
  | .setupFirewall => .answered (.ok "use \x60kmflow setup-firewall\x60 directly") d

/-- `handle_ipc_request`, with the second lock. -/
def finish (state : String) : IpcResponse := .status state d.peers

/-- The addresses that a request puts into the channel when it is answered so. -/
def connects : IpcRequest → IpcResponse → List SocketAddr
  | .pair addr, .ok _ => (pairAddr text addr).toOption.toList
  | _, _ => []

variable {text d}

/-- **What a request changes**: `Stop` raises the shutdown, `Pair` hands on the address it answers
for, and there is nothing else. -/
theorem begin_answered {req : IpcRequest} {resp : IpcResponse} {d' : IpcDaemon}
    (h : d.begin text req = .answered resp d') :
    d' = { d with
      shutdown := d.shutdown || decide (req = .stop)
      connect := d.connect ++ connects text req resp } := by
  have hsame {req : IpcRequest} {resp : IpcResponse} (hstop : req ≠ .stop)
      (hconnects : connects text req resp = []) : d = { d with
        shutdown := d.shutdown || decide (req = .stop)
        connect := d.connect ++ connects text req resp } := by
    rw [hconnects, decide_eq_false hstop, Bool.or_false, List.append_nil]
  cases req with
  | status => cases h
  | stop =>
    obtain ⟨rfl, rfl⟩ := IpcBegun.answered.inj h
    simp [connects]
  | layout peer edge =>
    obtain ⟨rfl, rfl⟩ := IpcBegun.answered.inj h
    exact hsame (by simp) rfl
  | setupFirewall =>
    obtain ⟨rfl, rfl⟩ := IpcBegun.answered.inj h
    exact hsame (by decide) rfl
  | pair addr =>
    have hstop : IpcRequest.pair addr ≠ .stop := by simp
    simp only [begin] at h
    split at h
    · rename_i sa hsa
      split_ifs at h
      · obtain ⟨rfl, rfl⟩ := IpcBegun.answered.inj h
        exact hsame hstop rfl
      · obtain ⟨rfl, rfl⟩ := IpcBegun.answered.inj h
        simp [connects, hsa, Except.toOption]
    · obtain ⟨rfl, rfl⟩ := IpcBegun.answered.inj h
      exact hsame hstop rfl

/-- The connection state is all that a first lock is for. -/
theorem begin_stateRead {req : IpcRequest} {state : String}
    (h : d.begin text req = .stateRead state) :
    req = .status ∧ state = d.connectionState.toString := by
  cases req with
  | status => exact ⟨rfl, (IpcBegun.stateRead.inj h).symm⟩
  | pair addr =>
    simp only [begin] at h
    split at h
    · split_ifs at h
    · cases h
  | stop => cases h
  | layout peer edge => cases h
  | setupFirewall => cases h

end IpcDaemon

end Kmflow
