import Kmflow.Daemon.Ipc
import Kmflow.Foundation.LinePipe
import Kmflow.Foundation.Transition
import Mathlib.Data.Prod.Lex

/-!
# Clients of the daemon

Any number of `IpcClient::send`s and the tasks that serve them, one task for each connection, over
sockets that deliver in parts of any size. A client may be killed and a task may end at any time,
and the daemon goes on in between: its state and its peers change, the run loop takes addresses, and
discovery sends it some too.

However all that is interleaved, a client that gets an answer gets the one to its own request
(`answered_of_returned`), each request is carried out at most once and only when no more than its
line feed was missing, and the shutdown and the addresses come from the requests that asked for them
(`effects_of_run`). An exchange that neither end leaves never gets stuck, but for a `Pair` that
waits for room in the channel (`exists_answer_of_waiting`).
-/

namespace Kmflow

open Json Transition

/-- Where the task that serves a connection is. -/
inductive IpcServerStage where
  | reading
  | handling (req : IpcRequest)
  /-- The connection state was taken down, the peers are next. -/
  | stateRead (state : String)
  | replying
  /-- The task has ended, and with it the connection. -/
  | done
  deriving DecidableEq

/-- Where `IpcClient::send` is. -/
inductive IpcClientStage where
  | waiting
  /-- `send` has returned, `none` being an error; or the client was killed. -/
  | returned (result : Option IpcResponse)
  deriving DecidableEq

/-- One call of `IpcClient::send` and the task that serves it. -/
structure IpcConn where
  request : IpcRequest
  up : LinePipe UInt8
  server : IpcServerStage
  down : LinePipe UInt8
  client : IpcClientStage
  deriving DecidableEq

namespace IpcConn

/-- The labels of a connection: which end moves, and how many bytes it gets through. -/
inductive Input where
  | clientWrite (n : ℕ)
  | serverRead (n : ℕ)
  | serverEof
  | serverWrite (n : ℕ)
  | clientRead (n : ℕ)
  | clientEof
  /-- The client is killed, or its socket fails. -/
  | clientFail
  /-- The task ends early, because its socket fails or the daemon exits. -/
  | serverFail
  deriving DecidableEq

/-- `send` with the request. -/
def new (request : IpcRequest) : IpcConn where
  request := request
  up := .start (toLine (IpcRequest.serde.encode request))
  server := .reading
  down := .start []
  client := .waiting

/-- The client is still there. -/
def ClientOpen (conn : IpcConn) : Prop := conn.client = .waiting

instance (conn : IpcConn) : Decidable conn.ClientOpen := inferInstanceAs (Decidable (_ = _))

/-- What the task makes of the line it has read. Without a request it ends. -/
def parse (line : List UInt8) : IpcServerStage :=
  match IpcRequest.serde.fromSlice line with
  | some req => .handling req
  | none => .done

/-- The request is answered. -/
def reply (fmt : FloatFormat) (conn : IpcConn) (resp : IpcResponse) : IpcConn :=
  { conn with
    server := .replying
    down := .start (toLine ((IpcResponse.serde fmt).encode resp)) }

section Step

variable (fmt : FloatFormat) (conn : IpcConn)

/-- One step of the connection; `none` when the label is not enabled. -/
def step : Input → Option IpcConn
  | .clientWrite n =>
    if conn.ClientOpen ∧ 0 < n ∧ conn.up.unsent ≠ [] then
      some { conn with up := conn.up.write n }
    else none
  | .serverRead n =>
    if conn.server = .reading ∧ 0 < n ∧ conn.up.flight ≠ [] then
      let up := conn.up.recv n
      some { conn with
        up := up
        server := if newline ∈ up.line then parse (LinePipe.firstLine newline up.line)
          else .reading }
    else none
  | .serverEof =>
    if conn.server = .reading ∧ ¬ conn.ClientOpen ∧ conn.up.flight = [] then
      some { conn with server := parse conn.up.line }
    else none
  | .serverWrite n =>
    if conn.server = .replying ∧ 0 < n then
      let down := conn.down.write n
      some { conn with
        down := down
        server := if down.unsent = [] then .done else .replying }
    else none
  | .clientRead n =>
    if conn.ClientOpen ∧ conn.up.unsent = [] ∧ 0 < n ∧ conn.down.flight ≠ [] then
      let down := conn.down.recv n
      some { conn with
        down := down
        client := if newline ∈ down.line then
            .returned ((IpcResponse.serde fmt).fromSlice (LinePipe.firstLine newline down.line))
          else .waiting }
    else none
  | .clientEof =>
    if conn.ClientOpen ∧ conn.up.unsent = [] ∧ conn.server = .done ∧ conn.down.flight = [] then
      some { conn with client := .returned ((IpcResponse.serde fmt).fromSlice conn.down.line) }
    else none
  | .clientFail => if conn.ClientOpen then some { conn with client := .returned none } else none
  | .serverFail => if conn.server ≠ .done then some { conn with server := .done } else none

end Step

end IpcConn

/-- The daemon and the connections that were made, by number. -/
structure IpcSystem where
  daemon : IpcDaemon
  conns : ℕ → Option IpcConn

namespace IpcSystem

/-- The labels of the whole system. -/
inductive Input where
  | connect (c : ℕ) (req : IpcRequest)
  | conn (c : ℕ) (i : IpcConn.Input)
  /-- The task looks at the daemon. -/
  | handle (c : ℕ)
  /-- The rest of the daemon goes on. -/
  | world (connectionState : ConnectionState) (peers : List IpcPeerStatus)
  /-- `Daemon::shutdown`. -/
  | shutdown
  /-- The run loop takes an address. -/
  | take
  /-- Discovery has found a peer. -/
  | discovered (sa : SocketAddr)
  /-- The run loop has ended. -/
  | closeChannel

/-- A daemon that nobody has talked to. -/
def start (connectionState : ConnectionState) : IpcSystem where
  daemon := ⟨connectionState, [], false, [], false⟩
  conns := fun _ ↦ none

section Step

variable (text : AddrText) (fmt : FloatFormat) (s : IpcSystem)

/-- What the task of a connection does with the daemon: the answer, if it comes to one. -/
def handled (conn : IpcConn) : Option (Option IpcResponse × IpcConn × IpcDaemon) :=
  match conn.server with
  | .handling req =>
    match s.daemon.begin text req with
    | .answered resp d => some (some resp, conn.reply fmt resp, d)
    | .stateRead state => some (none, { conn with server := .stateRead state }, s.daemon)
    | .waiting => none
  | .stateRead state =>
    let resp := s.daemon.finish state
    some (some resp, conn.reply fmt resp, s.daemon)
  | _ => none

/-- One step of the system; `none` when the label is not enabled. -/
def step : Input → Option IpcSystem
  | .connect c req =>
    match s.conns c with
    | none => some { s with conns := Function.update s.conns c (some (.new req)) }
    | some _ => none
  | .conn c i =>
    ((s.conns c).bind (·.step fmt i)).map fun conn ↦
      { s with conns := Function.update s.conns c (some conn) }
  | .handle c =>
    ((s.conns c).bind (handled text fmt s)).map fun (_, conn, daemon) ↦
      { daemon := daemon, conns := Function.update s.conns c (some conn) }
  | .world connectionState peers =>
    some { s with daemon := { s.daemon with connectionState, peers } }
  | .shutdown => some { s with daemon := { s.daemon with shutdown := true } }
  | .take =>
    match s.daemon.connect with
    | _ :: connect => some { s with daemon := { s.daemon with connect } }
    | [] => none
  | .discovered sa =>
    if s.daemon.connect.length < connectCapacity ∧ s.daemon.connectClosed = false then
      some { s with daemon := { s.daemon with connect := s.daemon.connect ++ [sa] } }
    else none
  | .closeChannel => some { s with daemon := { s.daemon with connectClosed := true } }

end Step

/-! ### What has happened -/

/-- The request that a task is carrying out. -/
def serving : IpcServerStage → Option IpcRequest
  | .handling req => some req
  | .stateRead _ => some .status
  | _ => none

/-- A request that a task has carried out, and the answer. -/
structure Answer where
  client : ℕ
  request : IpcRequest
  response : IpcResponse
  deriving DecidableEq

/-- What has been answered, and what came of it, oldest first. -/
structure Log where
  answered : List Answer
  /-- The addresses that were put into the channel, each with the client it is for, if any. -/
  put : List (Option ℕ × SocketAddr)
  taken : List SocketAddr
  /-- `Daemon::shutdown` was called. -/
  interrupted : Bool

/-- Before the first connection. -/
def Log.empty : Log := ⟨[], [], [], false⟩

section History

variable (text : AddrText) (fmt : FloatFormat)

/-- The answer that the task of a connection comes to. -/
def answerOf (s : IpcSystem) (c : ℕ) (conn : IpcConn) : Option Answer := do
  let req ← serving conn.server
  let (resp, _, _) ← handled text fmt s conn
  resp.map fun resp ↦ ⟨c, req, resp⟩

/-- The answer that a step gives: a task answers when it looks at the daemon. -/
def answers (s : IpcSystem) : Input → List Answer
  | .handle c => ((s.conns c).bind (answerOf text fmt s c)).toList
  | _ => []

/-- The addresses that an answer promises to connect to. -/
def Answer.puts (answer : Answer) : List (Option ℕ × SocketAddr) :=
  (IpcDaemon.connects text answer.request answer.response).map fun sa ↦ (some answer.client, sa)

/-- The addresses that discovery sends. -/
def discoveries : Input → List (Option ℕ × SocketAddr)
  | .discovered sa => [(none, sa)]
  | _ => []

/-- The address that the run loop takes in a step. -/
def takes (s : IpcSystem) : Input → List SocketAddr
  | .take => s.daemon.connect.head?.toList
  | _ => []

/-- The daemon itself is told to shut down. -/
def interrupts : Input → Bool
  | .shutdown => true
  | _ => false

/-- What a step adds to the log. -/
def record (log : Log) (s : IpcSystem) (i : Input) (_ : IpcSystem) : Log where
  answered := log.answered ++ answers text fmt s i
  put := log.put ++ ((answers text fmt s i).flatMap (·.puts text) ++ discoveries i)
  taken := log.taken ++ takes s i
  interrupted := log.interrupted || interrupts i

/-- The system with its history. -/
def recorded : IpcSystem × Log → Input → Option (IpcSystem × Log) :=
  withHistory (step text fmt) (record text fmt)

end History

/-! ### One exchange -/

/-- What is known of an exchange, from the answers so far. -/
structure ConnSound (fmt : FloatFormat) (log : List Answer) (c : ℕ) (conn : IpcConn) : Prop where
  up : conn.up.data = toLine (IpcRequest.serde.encode conn.request)
  /-- The request that is carried out is the one that was sent, and at most its line feed is
  missing. -/
  served : ∀ req, serving conn.server = some req →
    req = conn.request ∧ conn.up.unsent.length ≤ 1
  /-- There is no answer before the task has come to one. -/
  unanswered : conn.server = .reading ∨ (serving conn.server).isSome →
    ∀ answer ∈ log, answer.client ≠ c
  /-- An answer is to that request, and its line is what is sent. -/
  answered : ∀ answer ∈ log, answer.client = c → answer.request = conn.request ∧
    conn.up.unsent.length ≤ 1 ∧
    conn.down.data = toLine ((IpcResponse.serde fmt).encode answer.response)
  /-- Nothing else is ever sent. -/
  silent : (∀ answer ∈ log, answer.client ≠ c) → conn.down.data = []
  /-- A client that has an answer has that one. -/
  returned : ∀ resp, conn.client = .returned (some resp) → ∃ answer ∈ log, answer.client = c ∧
    (IpcResponse.serde fmt).decode ((IpcResponse.serde fmt).encode answer.response) = some resp

/-- A front of a line that is read as something is read as what the line is, and lacks the line feed
at most. -/
theorem eq_of_fromSlice {α : Type} {serde : Serde α} {j : Json} (hclosed : Closed j)
    {bytes : List UInt8} (hbytes : bytes <+: toLine j) {a : α}
    (h : serde.fromSlice bytes = some a) :
    serde.decode j = some a ∧ (toLine j).length ≤ bytes.length + 1 := by
  obtain ⟨j', hj', ha⟩ := Option.bind_eq_some_iff.1 h
  rcases hclosed.ofBytes_line hbytes with ⟨hj, hlength⟩ | hnone
  · obtain rfl := Option.some.inj (hj.symm.trans hj')
    refine ⟨ha, ?_⟩
    rw [toLine, List.length_append, List.length_singleton]
    omega
  · cases hnone.symm.trans hj'

section Conn

variable {fmt : FloatFormat} {log : List Answer} {c : ℕ} {conn conn' : IpcConn}

/-- What the task has read is the request, if it is one. -/
theorem ConnSound.parse (h : ConnSound fmt log c conn) {up : LinePipe UInt8}
    (hdata : up.data = conn.up.data) {bytes : List UInt8} (hbytes : bytes <+: up.line)
    {req : IpcRequest} (hreq : serving (IpcConn.parse bytes) = some req) :
    req = conn.request ∧ up.unsent.length ≤ 1 := by
  have hline : up.line <+: toLine (IpcRequest.serde.encode conn.request) := by
    rw [← h.up, ← hdata]
    exact up.line_prefix
  rw [IpcConn.parse] at hreq
  split at hreq
  · rename_i req' hslice
    obtain rfl := Option.some.inj hreq
    obtain ⟨hdecode, hlength⟩ :=
      eq_of_fromSlice (IpcRequest.closed _) (hbytes.trans hline) hslice
    have hsum := up.length_line_add_length_unsent_le
    rw [hdata, h.up] at hsum
    have hle := hbytes.length_le
    exact ⟨Option.some.inj (hdecode.symm.trans conn.request.keeps), by omega⟩
  · cases hreq

/-- What the client has read is the answer, if it is one. -/
theorem ConnSound.returned_of_fromSlice (h : ConnSound fmt log c conn) {down : LinePipe UInt8}
    (hdata : down.data = conn.down.data) {bytes : List UInt8} (hbytes : bytes <+: down.line)
    {resp : IpcResponse} (hresp : (IpcResponse.serde fmt).fromSlice bytes = some resp) :
    ∃ answer ∈ log, answer.client = c ∧
      (IpcResponse.serde fmt).decode ((IpcResponse.serde fmt).encode answer.response) =
        some resp := by
  have hprefix : bytes <+: conn.down.data := hdata ▸ hbytes.trans down.line_prefix
  by_cases hanswer : ∃ answer ∈ log, answer.client = c
  · obtain ⟨answer, hmem, hc⟩ := hanswer
    rw [(h.answered answer hmem hc).2.2] at hprefix
    exact ⟨answer, hmem, hc, (eq_of_fromSlice (IpcResponse.closed fmt _) hprefix hresp).1⟩
  · push Not at hanswer
    rw [h.silent hanswer] at hprefix
    obtain rfl := List.prefix_nil.1 hprefix
    exact nomatch hresp

/-- **Every step of an exchange keeps what is known of it.** -/
theorem ConnSound.step (h : ConnSound fmt log c conn) {i : IpcConn.Input}
    (hconn' : conn' ∈ conn.step fmt i) : ConnSound fmt log c conn' := by
  cases i with
  | clientWrite n =>
    simp only [IpcConn.step, Option.mem_def, Option.ite_none_right_eq_some] at hconn'
    obtain ⟨-, hconn'⟩ := hconn'
    cases hconn'
    have hle := conn.up.length_unsent_write_le n
    refine ⟨by rw [LinePipe.data_write, h.up], fun req hreq ↦ ?_, h.unanswered,
      fun answer hmem hc ↦ ?_, h.silent, h.returned⟩
    · exact ⟨(h.served req hreq).1, hle.trans (h.served req hreq).2⟩
    · obtain ⟨hreq, hunsent, hdown⟩ := h.answered answer hmem hc
      exact ⟨hreq, hle.trans hunsent, hdown⟩
  | serverRead n =>
    simp only [IpcConn.step, Option.mem_def, Option.ite_none_right_eq_some] at hconn'
    obtain ⟨⟨hreading, -, -⟩, hconn'⟩ := hconn'
    cases hconn'
    have hnone := h.unanswered (.inl hreading)
    refine ⟨by rw [LinePipe.data_recv, h.up], fun req hreq ↦ ?_, fun _ ↦ hnone,
      fun answer hmem hc ↦ absurd hc (hnone answer hmem), h.silent, h.returned⟩
    dsimp only at hreq
    split_ifs at hreq
    · exact h.parse (conn.up.data_recv n) (LinePipe.firstLine_prefix _ _) hreq
    · cases hreq
  | serverEof =>
    simp only [IpcConn.step, Option.mem_def, Option.ite_none_right_eq_some] at hconn'
    obtain ⟨⟨hreading, -, -⟩, hconn'⟩ := hconn'
    cases hconn'
    have hnone := h.unanswered (.inl hreading)
    exact ⟨h.up, fun req hreq ↦ h.parse rfl (List.prefix_refl _) hreq, fun _ ↦ hnone,
      fun answer hmem hc ↦ absurd hc (hnone answer hmem), h.silent, h.returned⟩
  | serverWrite n =>
    simp only [IpcConn.step, Option.mem_def, Option.ite_none_right_eq_some] at hconn'
    obtain ⟨-, hconn'⟩ := hconn'
    cases hconn'
    refine ⟨h.up, fun req hreq ↦ ?_, fun hstage ↦ ?_, fun answer hmem hc ↦ ?_, fun hnone ↦ ?_,
      h.returned⟩
    · dsimp only at hreq
      split_ifs at hreq <;> cases hreq
    · dsimp only at hstage
      split_ifs at hstage <;> simp [serving] at hstage
    · obtain ⟨hreq, hunsent, hdown⟩ := h.answered answer hmem hc
      exact ⟨hreq, hunsent, by rw [LinePipe.data_write, hdown]⟩
    · rw [LinePipe.data_write, h.silent hnone]
  | clientRead n =>
    simp only [IpcConn.step, Option.mem_def, Option.ite_none_right_eq_some] at hconn'
    obtain ⟨-, hconn'⟩ := hconn'
    cases hconn'
    refine ⟨h.up, h.served, h.unanswered, fun answer hmem hc ↦ ?_, fun hnone ↦ ?_,
      fun resp hresp ↦ ?_⟩
    · obtain ⟨hreq, hunsent, hdown⟩ := h.answered answer hmem hc
      exact ⟨hreq, hunsent, by rw [LinePipe.data_recv, hdown]⟩
    · rw [LinePipe.data_recv, h.silent hnone]
    · dsimp only at hresp
      split_ifs at hresp
      exact h.returned_of_fromSlice (conn.down.data_recv n) (LinePipe.firstLine_prefix _ _)
        (IpcClientStage.returned.inj hresp)
  | clientEof =>
    simp only [IpcConn.step, Option.mem_def, Option.ite_none_right_eq_some] at hconn'
    obtain ⟨-, hconn'⟩ := hconn'
    cases hconn'
    exact ⟨h.up, h.served, h.unanswered, h.answered, h.silent, fun resp hresp ↦
      h.returned_of_fromSlice rfl (List.prefix_refl _) (IpcClientStage.returned.inj hresp)⟩
  | clientFail =>
    simp only [IpcConn.step, Option.mem_def, Option.ite_none_right_eq_some] at hconn'
    obtain ⟨-, hconn'⟩ := hconn'
    cases hconn'
    exact ⟨h.up, h.served, h.unanswered, h.answered, h.silent, fun resp hresp ↦ by cases hresp⟩
  | serverFail =>
    simp only [IpcConn.step, Option.mem_def, Option.ite_none_right_eq_some] at hconn'
    obtain ⟨-, hconn'⟩ := hconn'
    cases hconn'
    refine ⟨h.up, fun req hreq ↦ ?_, fun hstage ↦ ?_, h.answered, h.silent, h.returned⟩
    · cases hreq
    · simp [serving] at hstage

end Conn

/-! ### The system -/

section Handle

variable {text : AddrText} {fmt : FloatFormat} {s : IpcSystem} {log : List Answer} {c : ℕ}
  {conn conn' : IpcConn} {d : IpcDaemon}

/-- What a task does with the daemon: it answers what it is carrying out, or it takes down the
connection state. -/
theorem handled_cases {r : Option IpcResponse} (h : handled text fmt s conn = some (r, conn', d)) :
    (∃ req resp, r = some resp ∧ serving conn.server = some req ∧ conn' = conn.reply fmt resp ∧
      d = { s.daemon with
        shutdown := s.daemon.shutdown || decide (req = .stop)
        connect := s.daemon.connect ++ IpcDaemon.connects text req resp }) ∨
    ∃ state, r = none ∧ conn.server = .handling .status ∧
      conn' = { conn with server := .stateRead state } ∧ d = s.daemon := by
  rw [handled] at h
  split at h
  · rename_i req hserver
    split at h
    · rename_i resp d' hbegin
      cases h
      exact .inl ⟨req, resp, rfl, by rw [hserver]; rfl, rfl, IpcDaemon.begin_answered hbegin⟩
    · rename_i state hbegin
      cases h
      obtain ⟨rfl, -⟩ := IpcDaemon.begin_stateRead hbegin
      exact .inr ⟨state, rfl, hserver, rfl, rfl⟩
    · cases h
  · rename_i state hserver
    cases h
    refine .inl ⟨.status, _, rfl, by rw [hserver]; rfl, rfl, ?_⟩
    rw [IpcDaemon.connects, List.append_nil, decide_eq_false (by decide), Bool.or_false]
    · simp
  · cases h

/-- A step of the task: an answer is come to, or the connection state is taken down. -/
theorem handle_cases {s' : IpcSystem} (hs' : s' ∈ step text fmt s (.handle c)) :
    ∃ conn, s.conns c = some conn ∧
      ((∃ req resp, serving conn.server = some req ∧
        answers text fmt s (.handle c) = [⟨c, req, resp⟩] ∧
        s' = {
          daemon := { s.daemon with
            shutdown := s.daemon.shutdown || decide (req = .stop)
            connect := s.daemon.connect ++ IpcDaemon.connects text req resp }
          conns := Function.update s.conns c (some (conn.reply fmt resp)) }) ∨
      ∃ state, conn.server = .handling .status ∧ answers text fmt s (.handle c) = [] ∧
        s' = { s with
          conns := Function.update s.conns c
            (some { conn with server := .stateRead state }) }) := by
  obtain ⟨⟨r, conn', d⟩, hbind, rfl⟩ := Option.map_eq_some_iff.1 hs'
  obtain ⟨conn, hconn, hhandled⟩ := Option.bind_eq_some_iff.1 hbind
  refine ⟨conn, hconn, ?_⟩
  obtain ⟨req, resp, rfl, hserving, rfl, rfl⟩ | ⟨state, rfl, hserver, rfl, rfl⟩ :=
    handled_cases hhandled
  · refine .inl ⟨req, resp, hserving, ?_, rfl⟩
    simp [answers, hconn, answerOf, hserving, hhandled]
  · refine .inr ⟨state, hserver, ?_, rfl⟩
    simp [answers, hconn, answerOf, hserver, serving, hhandled]

/-- An exchange does not notice the answers to others. -/
theorem ConnSound.append (h : ConnSound fmt log c conn) {answer : Answer}
    (hclient : answer.client ≠ c) : ConnSound fmt (log ++ [answer]) c conn where
  up := h.up
  served := h.served
  unanswered hstage answer' hmem := by
    rcases List.mem_append.1 hmem with hmem | hmem
    · exact h.unanswered hstage answer' hmem
    · rwa [List.mem_singleton.1 hmem]
  answered answer' hmem hc := by
    rcases List.mem_append.1 hmem with hmem | hmem
    · exact h.answered answer' hmem hc
    · rw [List.mem_singleton.1 hmem] at hc
      exact absurd hc hclient
  silent hnone := h.silent fun answer' hmem ↦ hnone answer' (List.mem_append_left _ hmem)
  returned resp hresp := by
    obtain ⟨answer', hmem, hdecode⟩ := h.returned resp hresp
    exact ⟨answer', List.mem_append_left _ hmem, hdecode⟩

/-- The task comes to an answer. -/
theorem ConnSound.reply (h : ConnSound fmt log c conn) {req : IpcRequest} (resp : IpcResponse)
    (hserving : serving conn.server = some req) :
    ConnSound fmt (log ++ [⟨c, req, resp⟩]) c (conn.reply fmt resp) := by
  obtain ⟨rfl, hunsent⟩ := h.served req hserving
  have hnone := h.unanswered (.inr (by rw [hserving]; rfl))
  refine ⟨h.up, fun req hreq ↦ ?_, fun hstage ↦ ?_, fun answer hmem hc ↦ ?_, fun hsilent ↦ ?_,
    fun resp' hresp ↦ ?_⟩
  · cases hreq
  · simp [IpcConn.reply, serving] at hstage
  · rcases List.mem_append.1 hmem with hmem | hmem
    · exact absurd hc (hnone answer hmem)
    · obtain rfl := List.mem_singleton.1 hmem
      exact ⟨rfl, hunsent, rfl⟩
  · exact absurd rfl (hsilent _ (List.mem_append_right _ (List.mem_singleton_self _)))
  · obtain ⟨answer, hmem, hdecode⟩ := h.returned resp' hresp
    exact ⟨answer, List.mem_append_left _ hmem, hdecode⟩

/-- The task takes down the connection state. -/
theorem ConnSound.stateRead (h : ConnSound fmt log c conn) (state : String)
    (hserver : conn.server = .handling .status) :
    ConnSound fmt log c { conn with server := .stateRead state } := by
  have hserved := h.served .status (by rw [hserver]; rfl)
  refine ⟨h.up, fun req hreq ↦ ?_, fun _ ↦ h.unanswered (.inr (by rw [hserver]; rfl)),
    h.answered, h.silent, h.returned⟩
  obtain rfl := Option.some.inj hreq
  exact hserved

/-- A new exchange. -/
theorem connSound_new (req : IpcRequest) (hnone : ∀ answer ∈ log, answer.client ≠ c) :
    ConnSound fmt log c (.new req) where
  up := rfl
  served _ hreq := by cases hreq
  unanswered _ := hnone
  answered answer hmem hc := absurd hc (hnone answer hmem)
  silent _ := rfl
  returned _ hresp := by cases hresp

end Handle

/-- What holds of the system and its history. -/
structure Sound (text : AddrText) (fmt : FloatFormat) (s : IpcSystem) (log : Log) : Prop where
  conns : ∀ c conn, s.conns c = some conn → ConnSound fmt log.answered c conn
  /-- Who was answered had asked. -/
  known : ∀ answer ∈ log.answered, (s.conns answer.client).isSome
  nodup : (log.answered.map Answer.client).Nodup
  /-- The channel loses nothing. -/
  channel : log.put.map Prod.snd = log.taken ++ s.daemon.connect
  /-- What clients put into it are the addresses they were told of. -/
  asked : log.put.filter (fun entry ↦ entry.1.isSome) = log.answered.flatMap (·.puts text)
  shutdown : s.daemon.shutdown =
    (log.interrupted || log.answered.any fun answer ↦ decide (answer.request = .stop))

section Sound

variable {text : AddrText} {fmt : FloatFormat}

/-- At the start there is no connection. -/
theorem sound_start (connectionState : ConnectionState) :
    Sound text fmt (start connectionState) .empty where
  conns _ _ h := nomatch h
  known _ hanswer := absurd hanswer List.not_mem_nil
  nodup := List.nodup_nil
  channel := rfl
  asked := rfl
  shutdown := rfl

variable {s s' : IpcSystem} {log : Log}

/-- A step that comes to no answer and leaves the channel and the shutdown as they are. -/
theorem Sound.of_conns (h : Sound text fmt s log)
    (hconns : ∀ c conn, s'.conns c = some conn → ConnSound fmt log.answered c conn)
    (hknown : ∀ c, (s.conns c).isSome → (s'.conns c).isSome)
    (hconnect : s'.daemon.connect = s.daemon.connect)
    (hshutdown : s'.daemon.shutdown = s.daemon.shutdown) : Sound text fmt s' log where
  conns := hconns
  known answer hmem := hknown _ (h.known answer hmem)
  nodup := h.nodup
  channel := by rw [hconnect, h.channel]
  asked := h.asked
  shutdown := by rw [hshutdown, h.shutdown]

/-- Replacing one exchange. -/
theorem conns_update {P : ℕ → IpcConn → Prop} {c : ℕ} {conn' : IpcConn}
    (hothers : ∀ c' conn, c' ≠ c → s.conns c' = some conn → P c' conn) (hconn' : P c conn')
    (c' : ℕ) (conn : IpcConn) (h : Function.update s.conns c (some conn') c' = some conn) :
    P c' conn := by
  rcases eq_or_ne c' c with rfl | hne
  · rw [Function.update_self] at h
    exact Option.some.inj h ▸ hconn'
  · rw [Function.update_of_ne hne] at h
    exact hothers c' conn hne h

/-- No connection is forgotten. -/
theorem isSome_update {c : ℕ} (conn : IpcConn) (c' : ℕ) (h : (s.conns c').isSome) :
    (Function.update s.conns c (some conn) c').isSome := by
  rcases eq_or_ne c' c with rfl | hne
  · rw [Function.update_self]
    rfl
  · rwa [Function.update_of_ne hne]

/-- The task of a connection comes to an answer. -/
theorem Sound.reply {c : ℕ} {conn : IpcConn} (h : Sound text fmt s log)
    (hconn : s.conns c = some conn) {req : IpcRequest} (resp : IpcResponse)
    (hserving : serving conn.server = some req) :
    Sound text fmt
      { daemon := { s.daemon with
          shutdown := s.daemon.shutdown || decide (req = .stop)
          connect := s.daemon.connect ++ IpcDaemon.connects text req resp }
        conns := Function.update s.conns c (some (conn.reply fmt resp)) }
      { log with
        answered := log.answered ++ [⟨c, req, resp⟩]
        put := log.put ++ (⟨c, req, resp⟩ : Answer).puts text } where
  conns := conns_update
    (fun c' conn' hne hconn' ↦ (h.conns c' conn' hconn').append hne.symm)
    ((h.conns c conn hconn).reply resp hserving)
  known answer hmem := by
    rcases List.mem_append.1 hmem with hmem | hmem
    · exact isSome_update _ _ (h.known answer hmem)
    · obtain rfl := List.mem_singleton.1 hmem
      exact isSome_update _ _ (by rw [hconn]; rfl)
  nodup := by
    have hnew := (h.conns c conn hconn).unanswered (.inr (by rw [hserving]; rfl))
    rw [List.map_append, List.map_singleton, List.nodup_append]
    refine ⟨h.nodup, List.nodup_singleton _, fun a ha b hb ↦ ?_⟩
    obtain ⟨answer, hmem, rfl⟩ := List.mem_map.1 ha
    rw [List.mem_singleton.1 hb]
    exact hnew answer hmem
  channel := by
    rw [List.map_append, h.channel, List.append_assoc, Answer.puts, List.map_map]
    exact congrArg _ (congrArg _ (List.map_id _))
  asked := by
    rw [List.filter_append, h.asked, List.flatMap_append, List.flatMap_singleton]
    refine congrArg _ (List.filter_eq_self.2 fun entry hentry ↦ ?_)
    obtain ⟨sa, -, rfl⟩ := List.mem_map.1 hentry
    rfl
  shutdown := by
    rw [h.shutdown, List.any_append, Bool.or_assoc, List.any_cons, List.any_nil, Bool.or_false]

/-- **Every step keeps what holds of the system.** -/
theorem Sound.step {i : Input} (h : Sound text fmt s log) (hs' : s' ∈ step text fmt s i) :
    Sound text fmt s' (record text fmt log s i s') := by
  have hquiet (hanswers : answers text fmt s i = []) (hput : discoveries i = [])
      (htaken : takes s i = []) (hinterrupts : interrupts i = false) :
      record text fmt log s i s' = log := by
    simp [record, hanswers, hput, htaken, hinterrupts]
  cases i with
  | connect c req =>
    simp only [IpcSystem.step] at hs'
    split at hs'
    · rename_i hnone
      cases hs'
      rw [hquiet rfl rfl rfl rfl]
      have hnew : ∀ answer ∈ log.answered, answer.client ≠ c := by
        rintro answer hmem rfl
        have hknown := h.known answer hmem
        rw [hnone] at hknown
        cases hknown
      exact h.of_conns (conns_update (fun c' conn _ ↦ h.conns c' conn) (connSound_new req hnew))
        (isSome_update _) rfl rfl
    · cases hs'
  | conn c i =>
    obtain ⟨conn', hbind, rfl⟩ := Option.map_eq_some_iff.1 hs'
    obtain ⟨conn, hconn, hstep⟩ := Option.bind_eq_some_iff.1 hbind
    rw [hquiet rfl rfl rfl rfl]
    exact h.of_conns
      (conns_update (fun c' conn _ ↦ h.conns c' conn) ((h.conns c conn hconn).step hstep))
      (isSome_update _) rfl rfl
  | handle c =>
    obtain ⟨conn, hconn, ⟨req, resp, hserving, hanswers, rfl⟩ |
      ⟨state, hserver, hanswers, rfl⟩⟩ := handle_cases hs'
    · have hreply := h.reply hconn resp hserving
      simpa [record, hanswers, discoveries, takes, interrupts] using hreply
    · rw [hquiet hanswers rfl rfl rfl]
      exact h.of_conns (conns_update (fun c' conn _ ↦ h.conns c' conn)
        ((h.conns c conn hconn).stateRead _ hserver)) (isSome_update _) rfl rfl
  | world connectionState peers =>
    cases hs'
    rw [hquiet rfl rfl rfl rfl]
    exact h.of_conns h.conns (fun _ h ↦ h) rfl rfl
  | shutdown =>
    cases hs'
    refine ⟨?_, ?_, ?_, ?_, ?_, ?_⟩
    · simpa [record, answers] using h.conns
    · simpa [record, answers] using h.known
    · simpa [record, answers] using h.nodup
    · simpa [record, answers, discoveries, takes] using h.channel
    · simpa [record, answers, discoveries] using h.asked
    · simp [record, interrupts]
  | take =>
    simp only [IpcSystem.step] at hs'
    split at hs'
    · rename_i sa connect hconnect
      cases hs'
      have hchannel := h.channel
      rw [hconnect] at hchannel
      refine ⟨?_, ?_, ?_, ?_, ?_, ?_⟩
      · simpa [record, answers] using h.conns
      · simpa [record, answers] using h.known
      · simpa [record, answers] using h.nodup
      · simpa [record, answers, discoveries, takes, hconnect] using hchannel
      · simpa [record, answers, discoveries] using h.asked
      · simpa [record, answers, interrupts] using h.shutdown
    · cases hs'
  | discovered sa =>
    simp only [IpcSystem.step, Option.mem_def, Option.ite_none_right_eq_some] at hs'
    obtain ⟨-, hs'⟩ := hs'
    cases hs'
    refine ⟨?_, ?_, ?_, ?_, ?_, ?_⟩
    · simpa [record, answers] using h.conns
    · simpa [record, answers] using h.known
    · simpa [record, answers] using h.nodup
    · simp [record, answers, discoveries, takes, h.channel]
    · simpa [record, answers, discoveries] using h.asked
    · simpa [record, answers, interrupts] using h.shutdown
  | closeChannel =>
    cases hs'
    rw [hquiet rfl rfl rfl rfl]
    exact h.of_conns h.conns (fun _ h ↦ h) rfl rfl

/-- **Answers are to the requests that were made**, in every run. -/
theorem sound_recorded (connectionState : ConnectionState) (is : List Input) :
    Throughout (recorded text fmt) (fun sl ↦ Sound text fmt sl.1 sl.2)
      (start connectionState, .empty) is := by
  refine throughout_of_invariant (I := fun sl : IpcSystem × Log ↦ Sound text fmt sl.1 sl.2)
    (fun sl i h sl' hsl' ↦ ?_) (sound_start connectionState) is
  obtain ⟨hs', hlog⟩ := mem_withHistory.1 hsl'
  rw [hlog]
  exact h.step hs'

end Sound

/-- Socket addresses as one address needs them. -/
def sampleAddrText : AddrText where
  parse addr :=
    if addr = "10.0.0.2:4242" then .ok ⟨.v4 0x0A000002, 4242⟩
    else .error "invalid socket address syntax"
  display _ := "10.0.0.2:4242"

/-- Two clients at the same time: the first one is killed in the middle of its request, and the
second one pairs, while discovery has found the peer as well. -/
def sampleIpc : List Input :=
  [.connect 0 .stop, .connect 1 (.pair "10.0.0.2"), .conn 0 (.clientWrite 5),
    .conn 1 (.clientWrite 100), .conn 1 (.serverRead 3), .conn 0 .clientFail,
    .conn 0 (.serverRead 5), .conn 0 .serverEof, .conn 1 (.serverRead 100),
    .discovered ⟨.v4 0x0A000002, 4242⟩, .handle 1, .conn 1 (.serverWrite 30), .take,
    .conn 1 (.clientRead 9), .conn 1 (.serverWrite 100), .conn 1 (.clientRead 100)]

/-- The one answer. -/
def sampleAnswer : Answer := ⟨1, .pair "10.0.0.2", .ok "connecting to 10.0.0.2:4242..."⟩

/-- Where that leads: the second client has its answer, and there is no other. -/
theorem sampleIpc_end :
    (run (recorded sampleAddrText .tenths) (start .disconnected, .empty) sampleIpc).map
      (fun sl ↦ (sl.2.answered, sl.2.put.map Prod.fst,
        (sl.1.conns 1).map fun conn ↦ (conn.request, conn.client))) =
      some ([sampleAnswer], [none, some 1],
        some (sampleAnswer.request, .returned (some sampleAnswer.response))) := by
  decide +kernel

section Sound

variable {text : AddrText} {fmt : FloatFormat} {s s' : IpcSystem} {log : Log}

/-- **The answer is the one to the client's own request.** A request is answered at most once, by
whatever number of clients at the same time, and one that was cut short by more than its line feed
is not carried out at all. -/
theorem answered_of_returned {connectionState : ConnectionState} {is : List Input}
    (hrun : (s, log) ∈ run (recorded text fmt) (start connectionState, .empty) is)
    (hexact : ∀ answer ∈ log.answered, ∀ q, .finite q ∈ answer.response.floats → fmt.Exact q) :
    (log.answered.map Answer.client).Nodup ∧
    (∀ answer ∈ log.answered, ∃ conn, s.conns answer.client = some conn ∧
      answer.request = conn.request ∧ conn.up.unsent.length ≤ 1) ∧
    ∀ c conn resp, s.conns c = some conn → conn.client = .returned (some resp) →
      ⟨c, conn.request, resp⟩ ∈ log.answered := by
  have hsound : Sound text fmt s log := (sound_recorded connectionState is).last hrun
  refine ⟨hsound.nodup, fun answer hmem ↦ ?_, fun c conn resp hconn hresp ↦ ?_⟩
  · obtain ⟨conn, hconn⟩ := Option.isSome_iff_exists.1 (hsound.known answer hmem)
    obtain ⟨hreq, hunsent, -⟩ := (hsound.conns _ conn hconn).answered answer hmem rfl
    exact ⟨conn, hconn, hreq, hunsent⟩
  · have hconnSound := hsound.conns c conn hconn
    obtain ⟨answer, hmem, rfl, hdecode⟩ := hconnSound.returned resp hresp
    obtain ⟨hreq, -, -⟩ := hconnSound.answered answer hmem rfl
    rw [IpcResponse.eq_of_decode (hexact answer hmem) hdecode, ← hreq]
    exact hmem

end Sound

/-- What the second client has is the answer to its request. -/
theorem answered_of_returned_sampleIpc :
    ∃ sl ∈ run (recorded sampleAddrText .tenths) (start .disconnected, .empty) sampleIpc,
      (sl.2.answered.map Answer.client).Nodup ∧ sampleAnswer ∈ sl.2.answered := by
  obtain ⟨⟨s, log⟩, hrun, hend⟩ := Option.map_eq_some_iff.1 sampleIpc_end
  obtain ⟨hanswered, hend⟩ := Prod.mk.inj hend
  obtain ⟨-, hconn⟩ := Prod.mk.inj hend
  obtain ⟨conn, hconn, hrequest⟩ := Option.map_eq_some_iff.1 hconn
  obtain ⟨hreq, hresp⟩ := Prod.mk.inj hrequest
  have hall := answered_of_returned hrun (by
    intro answer hmem q hq
    rw [hanswered] at hmem
    rw [List.mem_singleton.1 hmem] at hq
    exact absurd hq List.not_mem_nil)
  have hmem := hall.2.2 1 conn _ hconn hresp
  rw [hreq] at hmem
  exact ⟨(s, log), hrun, hall.1, hmem⟩

section Sound

variable {text : AddrText} {fmt : FloatFormat} {s s' : IpcSystem} {log : Log}

/-- **The effects are those of the requests that were answered**: the run loop has been given, in
order and once each, the addresses that clients were told of and those that discovery found, and the
shutdown is raised exactly when a `Stop` was answered or the daemon itself raised it. -/
theorem effects_of_run {connectionState : ConnectionState} {is : List Input}
    (hrun : (s, log) ∈ run (recorded text fmt) (start connectionState, .empty) is) :
    log.put.map Prod.snd = log.taken ++ s.daemon.connect ∧
    log.put.filter (fun entry ↦ entry.1.isSome) = log.answered.flatMap (·.puts text) ∧
    (s.daemon.shutdown = true ↔
      log.interrupted = true ∨ ∃ answer ∈ log.answered, answer.request = .stop) := by
  have hsound : Sound text fmt s log := (sound_recorded connectionState is).last hrun
  refine ⟨hsound.channel, hsound.asked, ?_⟩
  rw [hsound.shutdown, Bool.or_eq_true, List.any_eq_true]
  simp only [decide_eq_true_eq]

end Sound

/-- The run loop has been given the address by discovery, and the client's is in the channel. -/
theorem effects_of_run_sampleIpc :
    ∃ sl ∈ run (recorded sampleAddrText .tenths) (start .disconnected, .empty) sampleIpc,
      sl.2.put.map Prod.snd = sl.2.taken ++ sl.1.daemon.connect ∧
        sl.2.put.map Prod.fst = [none, some 1] := by
  obtain ⟨⟨s, log⟩, hrun, hend⟩ := Option.map_eq_some_iff.1 sampleIpc_end
  exact ⟨(s, log), hrun, (effects_of_run hrun).1, (Prod.mk.inj (Prod.mk.inj hend).2).1⟩

/-! ### An exchange that is left alone -/

/-- The two labels with which an end leaves. -/
def Leaves : IpcConn.Input → Prop
  | .clientFail | .serverFail => True
  | _ => False

/-- What is known of an exchange that neither end has left. -/
structure Alive (fmt : FloatFormat) (log : List Answer) (c : ℕ) (conn : IpcConn) : Prop where
  reading : conn.server = .reading → newline ∉ conn.up.line ∧ conn.ClientOpen
  replied : conn.server = .replying ∨ conn.server = .done → ∃ answer ∈ log, answer.client = c
  done : conn.server = .done → conn.down.unsent = []
  waiting : conn.ClientOpen → newline ∉ conn.down.line
  returned : ∀ r, conn.client = .returned r → ∃ answer ∈ log, answer.client = c ∧
    r = (IpcResponse.serde fmt).decode ((IpcResponse.serde fmt).encode answer.response)

section Alive

variable {text : AddrText} {fmt : FloatFormat} {log : List Answer} {c : ℕ} {conn conn' : IpcConn}

/-- A line that was received with its line feed is the whole line. -/
theorem fromSlice_firstLine {α : Type} {serde : Serde α} {j : Json} {p : LinePipe UInt8}
    (hdata : p.data = toLine j) (hline : newline ∈ p.line) :
    serde.fromSlice (LinePipe.firstLine newline p.line) = serde.decode j := by
  have hnewline := newline_notMem_toBytes j
  rw [LinePipe.line_eq_of_mem hdata hnewline hline, LinePipe.firstLine_concat hnewline]
  exact (congrArg (·.bind serde.decode) (ofBytes_toLine j)).trans (Option.bind_some ..)

/-- A line that has nothing left to deliver was received with its line feed. -/
theorem newline_mem_line {j : Json} {p : LinePipe UInt8} (hdata : p.data = toLine j)
    (hunsent : p.unsent = []) (hflight : p.flight = []) : newline ∈ p.line := by
  rw [LinePipe.data, hunsent, hflight, List.append_nil, List.append_nil] at hdata
  rw [hdata, toLine]
  exact List.mem_append_right _ (List.mem_singleton_self _)

/-- **Every step but those of an end that leaves keeps what is known.** -/
theorem Alive.step (h : Alive fmt log c conn) (hsound : ConnSound fmt log c conn)
    {i : IpcConn.Input} (hi : ¬ Leaves i) (hconn' : conn' ∈ conn.step fmt i) :
    Alive fmt log c conn' := by
  cases i with
  | clientFail => exact absurd trivial hi
  | serverFail => exact absurd trivial hi
  | clientWrite n =>
    simp only [IpcConn.step, Option.mem_def, Option.ite_none_right_eq_some] at hconn'
    obtain ⟨-, hconn'⟩ := hconn'
    cases hconn'
    exact ⟨h.reading, h.replied, h.done, h.waiting, h.returned⟩
  | serverRead n =>
    simp only [IpcConn.step, Option.mem_def, Option.ite_none_right_eq_some] at hconn'
    obtain ⟨⟨hreading, -, -⟩, hconn'⟩ := hconn'
    cases hconn'
    have hopen := (h.reading hreading).2
    by_cases hline : newline ∈ (conn.up.recv n).line
    · have hparse : IpcConn.parse (LinePipe.firstLine newline (conn.up.recv n).line) =
          .handling conn.request := by
        have hslice : IpcRequest.serde.fromSlice
            (LinePipe.firstLine newline (conn.up.recv n).line) =
              IpcRequest.serde.decode (IpcRequest.serde.encode conn.request) :=
          fromSlice_firstLine ((conn.up.data_recv n).trans hsound.up) hline
        rw [conn.request.keeps.decode_encode] at hslice
        rw [IpcConn.parse, hslice]
      simp only [hline, if_true, hparse]
      refine ⟨fun hstage ↦ ?_, fun hstage ↦ ?_, fun hstage ↦ ?_, h.waiting, h.returned⟩
      · cases hstage
      · rcases hstage with hstage | hstage <;> cases hstage
      · cases hstage
    · simp only [hline, if_false]
      refine ⟨fun _ ↦ ⟨hline, hopen⟩, fun hstage ↦ ?_, fun hstage ↦ ?_, h.waiting, h.returned⟩
      · rcases hstage with hstage | hstage <;> cases hstage
      · cases hstage
  | serverEof =>
    simp only [IpcConn.step, Option.mem_def, Option.ite_none_right_eq_some] at hconn'
    obtain ⟨⟨hreading, hclosed, -⟩, -⟩ := hconn'
    exact absurd (h.reading hreading).2 hclosed
  | serverWrite n =>
    simp only [IpcConn.step, Option.mem_def, Option.ite_none_right_eq_some] at hconn'
    obtain ⟨⟨hreplying, -⟩, hconn'⟩ := hconn'
    cases hconn'
    have hreplied := h.replied (.inl hreplying)
    refine ⟨fun hstage ↦ ?_, fun _ ↦ hreplied, fun hstage ↦ ?_, h.waiting, h.returned⟩
    · dsimp only at hstage
      split_ifs at hstage
    · dsimp only at hstage ⊢
      split_ifs at hstage with hunsent
      exact hunsent
  | clientRead n =>
    simp only [IpcConn.step, Option.mem_def, Option.ite_none_right_eq_some] at hconn'
    obtain ⟨⟨hopen, -, -, hflight⟩, hconn'⟩ := hconn'
    cases hconn'
    -- something is in flight, so there is an answer
    obtain ⟨answer, hmem, hc⟩ : ∃ answer ∈ log, answer.client = c := by
      by_contra hnone
      push Not at hnone
      have hdata := hsound.silent hnone
      rw [LinePipe.data] at hdata
      exact hflight (List.append_eq_nil_iff.1 (List.append_eq_nil_iff.1 hdata).2).1
    have hdown := (hsound.answered answer hmem hc).2.2
    refine ⟨fun hstage ↦ ?_, h.replied, h.done, fun hstage ↦ ?_, fun r hr ↦ ?_⟩
    · exact absurd hc (hsound.unanswered (.inl hstage) answer hmem)
    · dsimp only [IpcConn.ClientOpen] at hstage ⊢
      split_ifs at hstage with hline
      exact hline
    · dsimp only at hr
      split_ifs at hr with hline
      obtain rfl := IpcClientStage.returned.inj hr
      exact ⟨answer, hmem, hc, fromSlice_firstLine ((conn.down.data_recv n).trans hdown) hline⟩
  | clientEof =>
    simp only [IpcConn.step, Option.mem_def, Option.ite_none_right_eq_some] at hconn'
    obtain ⟨⟨hopen, -, hdone, hflight⟩, -⟩ := hconn'
    obtain ⟨answer, hmem, hc⟩ := h.replied (.inr hdone)
    have hdown := (hsound.answered answer hmem hc).2.2
    exact absurd (newline_mem_line hdown (h.done hdone) hflight) (h.waiting hopen)

/-- Answers to others do no harm. -/
theorem Alive.append (h : Alive fmt log c conn) (answer : Answer) :
    Alive fmt (log ++ [answer]) c conn where
  reading := h.reading
  replied hstage := by
    obtain ⟨answer', hmem, hc⟩ := h.replied hstage
    exact ⟨answer', List.mem_append_left _ hmem, hc⟩
  done := h.done
  waiting := h.waiting
  returned r hr := by
    obtain ⟨answer', hmem, hc⟩ := h.returned r hr
    exact ⟨answer', List.mem_append_left _ hmem, hc⟩

/-- The task comes to an answer. -/
theorem Alive.reply (h : Alive fmt log c conn) (hsound : ConnSound fmt log c conn)
    {req : IpcRequest} (resp : IpcResponse) (hserving : serving conn.server = some req) :
    Alive fmt (log ++ [⟨c, req, resp⟩]) c (conn.reply fmt resp) := by
  refine ⟨fun hstage ↦ ?_, fun _ ↦ ?_, fun hstage ↦ ?_, fun _ ↦ List.not_mem_nil, fun r hr ↦ ?_⟩
  · cases hstage
  · exact ⟨_, List.mem_append_right _ (List.mem_singleton_self _), rfl⟩
  · cases hstage
  · obtain ⟨answer, hmem, hc, -⟩ := h.returned r hr
    exact absurd hc (hsound.unanswered (.inr (by rw [hserving]; rfl)) answer hmem)

/-- Taking down the connection state does no harm. -/
theorem Alive.stateRead (h : Alive fmt log c conn) (state : String) :
    Alive fmt log c { conn with server := .stateRead state } := by
  refine ⟨fun hstage ↦ ?_, fun hstage ↦ ?_, fun hstage ↦ ?_, h.waiting, h.returned⟩
  · cases hstage
  · rcases hstage with hstage | hstage <;> cases hstage
  · cases hstage

/-- A new exchange is alive. -/
theorem alive_new (req : IpcRequest) : Alive fmt log c (.new req) where
  reading _ := ⟨List.not_mem_nil, rfl⟩
  replied hstage := by rcases hstage with hstage | hstage <;> cases hstage
  done hstage := by cases hstage
  waiting _ := List.not_mem_nil
  returned r hr := by cases hr

/-- The channel has room, or it is closed. -/
def Room (s : IpcSystem) : Prop :=
  s.daemon.connect.length < connectCapacity ∨ s.daemon.connectClosed = true

/-- With room in the channel no request has to wait. -/
theorem isSome_handled {s : IpcSystem} (hroom : Room s) (hserving : (serving conn.server).isSome) :
    (handled text fmt s conn).isSome := by
  cases hserver : conn.server with
  | reading => simp [hserver, serving] at hserving
  | replying => simp [hserver, serving] at hserving
  | done => simp [hserver, serving] at hserving
  | stateRead state => simp [handled, hserver]
  | handling req =>
    simp only [handled, hserver]
    cases hbegin : s.daemon.begin text req with
    | answered resp d => rfl
    | stateRead state => rfl
    | waiting =>
      exfalso
      cases req with
      | status => cases hbegin
      | stop => cases hbegin
      | layout peer edge => cases hbegin
      | setupFirewall => cases hbegin
      | pair addr =>
        simp only [IpcDaemon.begin] at hbegin
        split at hbegin
        · split_ifs at hbegin with hclosed hlength
          exact hroom.elim hlength hclosed
        · cases hbegin

/-- **A client that waits does not wait for nothing**: some step of its exchange can be taken. -/
theorem Alive.exists_step (h : Alive fmt log c conn)
    (hsound : ConnSound fmt log c conn) (hopen : conn.ClientOpen) :
    (∃ i, ¬ Leaves i ∧ (conn.step fmt i).isSome) ∨ (serving conn.server).isSome := by
  by_cases hunsent : conn.up.unsent = []
  swap
  · exact .inl ⟨.clientWrite 1, id, by simp [IpcConn.step, hopen, hunsent]⟩
  cases hserver : conn.server with
  | handling req => exact .inr rfl
  | stateRead state => exact .inr rfl
  | reading =>
    by_cases hflight : conn.up.flight = []
    · exact absurd (newline_mem_line hsound.up hunsent hflight) (h.reading hserver).1
    · exact .inl ⟨.serverRead 1, id, by simp [IpcConn.step, hserver, hflight]⟩
  | replying => exact .inl ⟨.serverWrite 1, id, by simp [IpcConn.step, hserver]⟩
  | done =>
    by_cases hflight : conn.down.flight = []
    · obtain ⟨answer, hmem, hc⟩ := h.replied (.inr hserver)
      have hdown := (hsound.answered answer hmem hc).2.2
      exact absurd (newline_mem_line hdown (h.done hserver) hflight) (h.waiting hopen)
    · exact .inl ⟨.clientRead 1, id, by simp [IpcConn.step, hopen, hunsent, hflight]⟩

end Alive

/-- How far the task has got, counted down. -/
def stageRank : IpcServerStage → ℕ
  | .reading => 4
  | .handling _ => 3
  | .stateRead _ => 2
  | .replying => 1
  | .done => 0

/-- How many steps of its own a client is away from its end. -/
def clientRank : IpcClientStage → ℕ
  | .waiting => 1
  | .returned _ => 0

/-- How much of an exchange is to come: the stages of the two ends, and the bytes on their way. -/
def rank (conn : IpcConn) : ℕ ×ₗ ℕ :=
  toLex (stageRank conn.server + clientRank conn.client,
    2 * conn.up.unsent.length + conn.up.flight.length +
      (2 * conn.down.unsent.length + conn.down.flight.length))

section Rank

variable {text : AddrText} {fmt : FloatFormat} {conn conn' : IpcConn}

/-- A stage further on, whatever happens to the bytes. -/
theorem rank_lt_of_stage (h : stageRank conn'.server + clientRank conn'.client <
    stageRank conn.server + clientRank conn.client) : rank conn' < rank conn :=
  Prod.Lex.toLex_lt_toLex.2 (.inl h)

/-- Bytes further on, at the same stage. -/
theorem rank_lt_of_bytes (hserver : conn'.server = conn.server)
    (hclient : conn'.client = conn.client)
    (h : 2 * conn'.up.unsent.length + conn'.up.flight.length +
        (2 * conn'.down.unsent.length + conn'.down.flight.length) <
      2 * conn.up.unsent.length + conn.up.flight.length +
        (2 * conn.down.unsent.length + conn.down.flight.length)) : rank conn' < rank conn := by
  exact Prod.Lex.toLex_lt_toLex.2 (.inr ⟨by rw [hserver, hclient], h⟩)

/-- A part that is written or received is a part less to come. -/
theorem write_lt {p : LinePipe UInt8} {n : ℕ} (hn : 0 < n) (hunsent : p.unsent ≠ []) :
    2 * (p.write n).unsent.length + (p.write n).flight.length <
      2 * p.unsent.length + p.flight.length := by
  have hpos := List.length_pos_iff.2 hunsent
  simp only [LinePipe.write, List.length_drop, List.length_append, List.length_take]
  omega

/-- What is received is no longer on its way. -/
theorem recv_lt {p : LinePipe UInt8} {n : ℕ} (hn : 0 < n) (hflight : p.flight ≠ []) :
    (p.recv n).flight.length < p.flight.length := by
  have hpos := List.length_pos_iff.2 hflight
  simp only [LinePipe.recv, List.length_drop]
  omega

/-- A line that was read is done with, or handled next. -/
theorem stageRank_parse_lt (line : List UInt8) : stageRank (IpcConn.parse line) < 4 := by
  rw [IpcConn.parse]
  split
  · exact Nat.lt_succ_self 3
  · exact Nat.zero_lt_succ 3

/-- **No exchange goes on for ever**: each of its steps leaves less to come. -/
theorem rank_lt_of_step {i : IpcConn.Input} (hconn' : conn' ∈ conn.step fmt i) :
    rank conn' < rank conn := by
  cases i with
  | clientWrite n =>
    simp only [IpcConn.step, Option.mem_def, Option.ite_none_right_eq_some] at hconn'
    obtain ⟨⟨-, hn, hunsent⟩, hconn'⟩ := hconn'
    cases hconn'
    exact rank_lt_of_bytes rfl rfl (Nat.add_lt_add_right (write_lt hn hunsent) _)
  | serverRead n =>
    simp only [IpcConn.step, Option.mem_def, Option.ite_none_right_eq_some] at hconn'
    obtain ⟨⟨hreading, hn, hflight⟩, hconn'⟩ := hconn'
    cases hconn'
    by_cases hline : newline ∈ (conn.up.recv n).line
    · refine rank_lt_of_stage (Nat.add_lt_add_right ?_ _)
      simp only [hline, if_true, hreading]
      exact stageRank_parse_lt _
    · refine rank_lt_of_bytes (by simp only [hline, if_false, hreading]) rfl ?_
      have hlt := recv_lt hn hflight
      dsimp only
      rw [LinePipe.unsent_recv]
      omega
  | serverEof =>
    simp only [IpcConn.step, Option.mem_def, Option.ite_none_right_eq_some] at hconn'
    obtain ⟨⟨hreading, -⟩, hconn'⟩ := hconn'
    cases hconn'
    refine rank_lt_of_stage (Nat.add_lt_add_right ?_ _)
    rw [hreading]
    exact stageRank_parse_lt _
  | serverWrite n =>
    simp only [IpcConn.step, Option.mem_def, Option.ite_none_right_eq_some] at hconn'
    obtain ⟨⟨hreplying, hn⟩, hconn'⟩ := hconn'
    cases hconn'
    by_cases hunsent : (conn.down.write n).unsent = []
    · refine rank_lt_of_stage (Nat.add_lt_add_right ?_ _)
      simp only [hunsent, if_true, hreplying]
      decide
    · refine rank_lt_of_bytes (by simp only [hunsent, if_false, hreplying]) rfl
        (Nat.add_lt_add_left (write_lt hn fun hnil ↦ hunsent ?_) _)
      rw [LinePipe.write, hnil, List.drop_nil]
  | clientRead n =>
    simp only [IpcConn.step, Option.mem_def, Option.ite_none_right_eq_some] at hconn'
    obtain ⟨⟨hopen, -, hn, hflight⟩, hconn'⟩ := hconn'
    cases hconn'
    by_cases hline : newline ∈ (conn.down.recv n).line
    · refine rank_lt_of_stage (Nat.add_lt_add_left ?_ _)
      rw [show conn.client = .waiting from hopen]
      simp only [hline, if_true]
      exact Nat.zero_lt_one
    · refine rank_lt_of_bytes rfl ?_ ?_
      · simp only [hline, if_false]
        exact hopen.symm
      · have hlt := recv_lt hn hflight
        dsimp only
        rw [LinePipe.unsent_recv]
        omega
  | clientEof =>
    simp only [IpcConn.step, Option.mem_def, Option.ite_none_right_eq_some] at hconn'
    obtain ⟨⟨hopen, -⟩, hconn'⟩ := hconn'
    cases hconn'
    refine rank_lt_of_stage (Nat.add_lt_add_left ?_ _)
    rw [show conn.client = .waiting from hopen]
    exact Nat.zero_lt_one
  | clientFail =>
    simp only [IpcConn.step, Option.mem_def, Option.ite_none_right_eq_some] at hconn'
    obtain ⟨hopen, hconn'⟩ := hconn'
    cases hconn'
    refine rank_lt_of_stage (Nat.add_lt_add_left ?_ _)
    rw [show conn.client = .waiting from hopen]
    exact Nat.zero_lt_one
  | serverFail =>
    simp only [IpcConn.step, Option.mem_def, Option.ite_none_right_eq_some] at hconn'
    obtain ⟨hdone, hconn'⟩ := hconn'
    cases hconn'
    refine rank_lt_of_stage (Nat.add_lt_add_right ?_ _)
    cases hserver : conn.server with
    | done => exact absurd hserver hdone
    | reading => exact Nat.zero_lt_succ 3
    | handling req => exact Nat.zero_lt_succ 2
    | stateRead state => exact Nat.zero_lt_succ 1
    | replying => exact Nat.zero_lt_succ 0

/-- A task that answers is a stage further on. -/
theorem rank_reply_lt (resp : IpcResponse) (hserving : (serving conn.server).isSome) :
    rank (conn.reply fmt resp) < rank conn := by
  refine rank_lt_of_stage (Nat.add_lt_add_right ?_ _)
  cases hserver : conn.server with
  | reading => simp [hserver, serving] at hserving
  | replying => simp [hserver, serving] at hserving
  | done => simp [hserver, serving] at hserving
  | handling req => exact (by decide : 1 < 3)
  | stateRead state => exact (by decide : 1 < 2)

/-- The task does not go back. -/
theorem stageRank_le_of_step {i : IpcConn.Input} (hconn' : conn' ∈ conn.step fmt i) :
    stageRank conn'.server ≤ stageRank conn.server := by
  cases i with
  | clientWrite n | clientRead n =>
    simp only [IpcConn.step, Option.mem_def, Option.ite_none_right_eq_some] at hconn'
    obtain ⟨-, hconn'⟩ := hconn'
    cases hconn'
    exact le_rfl
  | clientEof | clientFail =>
    simp only [IpcConn.step, Option.mem_def, Option.ite_none_right_eq_some] at hconn'
    obtain ⟨-, hconn'⟩ := hconn'
    cases hconn'
    exact le_rfl
  | serverRead n =>
    simp only [IpcConn.step, Option.mem_def, Option.ite_none_right_eq_some] at hconn'
    obtain ⟨⟨hreading, -⟩, hconn'⟩ := hconn'
    cases hconn'
    rw [hreading]
    dsimp only
    split_ifs
    · exact (stageRank_parse_lt _).le
    · exact le_rfl
  | serverEof =>
    simp only [IpcConn.step, Option.mem_def, Option.ite_none_right_eq_some] at hconn'
    obtain ⟨⟨hreading, -⟩, hconn'⟩ := hconn'
    cases hconn'
    rw [hreading]
    exact (stageRank_parse_lt _).le
  | serverWrite n =>
    simp only [IpcConn.step, Option.mem_def, Option.ite_none_right_eq_some] at hconn'
    obtain ⟨⟨hreplying, -⟩, hconn'⟩ := hconn'
    cases hconn'
    rw [hreplying]
    dsimp only
    split_ifs <;> decide
  | serverFail =>
    simp only [IpcConn.step, Option.mem_def, Option.ite_none_right_eq_some] at hconn'
    obtain ⟨-, hconn'⟩ := hconn'
    cases hconn'
    exact Nat.zero_le _

end Rank

/-- The labels of one exchange, but for those with which an end leaves it. -/
def Own (c : ℕ) : Input → Prop
  | .handle c' => c' = c
  | .conn c' i => c' = c ∧ ¬ Leaves i
  | _ => False

/-- Neither end of an exchange leaves it. -/
def Stays (c : ℕ) : Input → Prop
  | .conn c' i => c' = c → ¬ Leaves i
  | _ => True

section Progress

variable {text : AddrText} {fmt : FloatFormat} {s s' : IpcSystem} {log : Log} {c : ℕ}

/-- An exchange that neither end has left, in a sound system. -/
structure Going (text : AddrText) (fmt : FloatFormat) (c : ℕ) (s : IpcSystem) (log : Log) :
    Prop where
  sound : Sound text fmt s log
  alive : ∀ c' conn, s.conns c' = some conn → c' = c → Alive fmt log.answered c' conn

/-- **An exchange that nobody leaves goes on**, whatever the others do. -/
theorem Going.step {i : Input} (h : Going text fmt c s log) (hi : Stays c i)
    (hs' : s' ∈ step text fmt s i) : Going text fmt c s' (record text fmt log s i s') := by
  refine ⟨h.sound.step hs', ?_⟩
  have hlog : (record text fmt log s i s').answered = log.answered ++ answers text fmt s i := rfl
  rw [hlog]
  cases i with
  | connect c' req =>
    simp only [IpcSystem.step] at hs'
    split at hs' <;> cases hs'
    simp only [answers, List.append_nil]
    exact conns_update (fun c₂ conn _ ↦ h.alive c₂ conn) fun _ ↦ alive_new req
  | conn c' i =>
    obtain ⟨conn', hbind, rfl⟩ := Option.map_eq_some_iff.1 hs'
    obtain ⟨conn, hconn, hstep⟩ := Option.bind_eq_some_iff.1 hbind
    simp only [answers, List.append_nil]
    exact conns_update (fun c₂ conn _ ↦ h.alive c₂ conn) fun hc ↦
      (h.alive c' conn hconn hc).step (h.sound.conns c' conn hconn) (hi hc) hstep
  | handle c' =>
    obtain ⟨conn, hconn, ⟨req, resp, hserving, hanswers, rfl⟩ |
      ⟨state, hserver, hanswers, rfl⟩⟩ := handle_cases hs'
    · rw [hanswers]
      exact conns_update (fun c₂ conn _ hconn hc ↦ (h.alive c₂ conn hconn hc).append _) fun hc ↦
        (h.alive c' conn hconn hc).reply (h.sound.conns c' conn hconn) resp hserving
    · rw [hanswers, List.append_nil]
      exact conns_update (fun c₂ conn _ ↦ h.alive c₂ conn) fun hc ↦
        (h.alive c' conn hconn hc).stateRead state
  | world connectionState peers =>
    cases hs'
    simp only [answers, List.append_nil]
    exact h.alive
  | shutdown =>
    cases hs'
    simp only [answers, List.append_nil]
    exact h.alive
  | closeChannel =>
    cases hs'
    simp only [answers, List.append_nil]
    exact h.alive
  | take =>
    simp only [IpcSystem.step] at hs'
    split at hs' <;> cases hs'
    simp only [answers, List.append_nil]
    exact h.alive
  | discovered sa =>
    simp only [IpcSystem.step, Option.mem_def, Option.ite_none_right_eq_some] at hs'
    obtain ⟨-, hs'⟩ := hs'
    cases hs'
    simp only [answers, List.append_nil]
    exact h.alive

/-- The same over a run. -/
theorem going_recorded {connectionState : ConnectionState} {is : List Input}
    (hstays : ∀ i ∈ is, Stays c i) :
    Throughout (recorded text fmt) (fun sl ↦ Going text fmt c sl.1 sl.2)
      (start connectionState, .empty) is := by
  refine throughout_of_forall (I := fun sl : IpcSystem × Log ↦ Going text fmt c sl.1 sl.2)
    (fun sl i h hi sl' hsl' ↦ ?_) ⟨sound_start connectionState, fun _ _ h ↦ by cases h⟩ hstays
  obtain ⟨hs', hlog⟩ := mem_withHistory.1 hsl'
  rw [hlog]
  exact h.step hi hs'

/-- Who waits can be served to the end, by induction on what is to come. -/
theorem Going.exists_run {conn : IpcConn} (h : Going text fmt c s log)
    (hconn : s.conns c = some conn) (hroom : 3 ≤ stageRank conn.server → Room s) :
    ∃ js, (∀ j ∈ js, Own c j) ∧ ∃ sl' ∈ run (recorded text fmt) (s, log) js,
      ∃ conn' answer, sl'.1.conns c = some conn' ∧ answer ∈ sl'.2.answered ∧
        answer.client = c ∧ conn'.client = .returned
          ((IpcResponse.serde fmt).decode ((IpcResponse.serde fmt).encode answer.response)) := by
  obtain ⟨r, hr⟩ : ∃ r, r = rank conn := ⟨_, rfl⟩
  induction r using WellFoundedLT.induction generalizing s log conn with
  | ind r ih =>
    have halive := h.alive c conn hconn rfl
    have hsound := h.sound.conns c conn hconn
    -- a step of the exchange, and the run that there is after it
    have hstep {i : Input} {s' : IpcSystem} {conn' : IpcConn} (hown : Own c i) (hstays : Stays c i)
        (hs' : s' ∈ IpcSystem.step text fmt s i) (hconn' : s'.conns c = some conn')
        (hlt : rank conn' < rank conn) (hroom' : 3 ≤ stageRank conn'.server → Room s') :
        ∃ js, (∀ j ∈ js, Own c j) ∧ ∃ sl' ∈ run (recorded text fmt) (s, log) js,
          ∃ conn' answer, sl'.1.conns c = some conn' ∧ answer ∈ sl'.2.answered ∧
            answer.client = c ∧ conn'.client = .returned ((IpcResponse.serde fmt).decode
              ((IpcResponse.serde fmt).encode answer.response)) := by
      obtain ⟨js, hjs, sl', hsl', hend⟩ :=
        ih (rank conn') (hr ▸ hlt) (h.step hstays hs') hconn' hroom' rfl
      refine ⟨i :: js, List.forall_mem_cons.2 ⟨hown, hjs⟩, sl', ?_, hend⟩
      exact Option.bind_eq_some_iff.2 ⟨_, mem_withHistory.2 ⟨hs', rfl⟩, hsl'⟩
    cases hclient : conn.client with
    | returned r =>
      obtain ⟨answer, hmem, hc, rfl⟩ := halive.returned r hclient
      exact ⟨[], fun j hj ↦ absurd hj List.not_mem_nil, (s, log), rfl, conn, answer, hconn, hmem,
        hc, hclient⟩
    | waiting =>
      rcases halive.exists_step hsound hclient with ⟨i, hi, hsome⟩ | hserving
      · obtain ⟨conn', hconn'⟩ := Option.isSome_iff_exists.1 hsome
        have hs' : ({ s with conns := Function.update s.conns c (some conn') } : IpcSystem) ∈
            IpcSystem.step text fmt s (.conn c i) := by
          simp [IpcSystem.step, hconn, hconn']
        exact hstep (i := .conn c i) ⟨rfl, hi⟩ (fun _ ↦ hi) hs' (Function.update_self ..)
          (rank_lt_of_step hconn') fun hstage ↦ hroom (hstage.trans (stageRank_le_of_step hconn'))
      · have hstage : 3 ≤ stageRank conn.server → (handled text fmt s conn).isSome :=
          fun hstage ↦ isSome_handled (hroom hstage) hserving
        have hhandled : (handled text fmt s conn).isSome := by
          cases hserver : conn.server with
          | reading => simp [hserver, serving] at hserving
          | replying => simp [hserver, serving] at hserving
          | done => simp [hserver, serving] at hserving
          | handling req => exact hstage (by rw [hserver]; exact le_rfl)
          | stateRead state => simp [handled, hserver]
        obtain ⟨⟨r', conn', d⟩, hhandled⟩ := Option.isSome_iff_exists.1 hhandled
        have hs' : ({ daemon := d, conns := Function.update s.conns c (some conn') } : IpcSystem) ∈
            IpcSystem.step text fmt s (.handle c) := by
          simp [IpcSystem.step, hconn, hhandled]
        refine hstep (i := .handle c) rfl trivial hs' (Function.update_self ..) ?_ ?_
        · obtain ⟨req, resp, -, -, rfl, -⟩ | ⟨state, -, hserver, rfl, -⟩ := handled_cases hhandled
          · exact rank_reply_lt resp hserving
          · refine rank_lt_of_stage (Nat.add_lt_add_right ?_ _)
            rw [hserver]
            exact Nat.lt_succ_self 2
        · obtain ⟨req, resp, -, -, rfl, -⟩ | ⟨state, -, hserver, rfl, -⟩ := handled_cases hhandled
          · exact fun hstage ↦ absurd hstage (by decide : ¬ 3 ≤ 1)
          · exact fun hstage ↦ absurd hstage (by decide : ¬ 3 ≤ 2)

/-- **A client that neither end has left can always be answered** by the steps of its own exchange,
whatever the others do or fail to do, as long as there is room for an address in the channel. What
it then returns is what is read of the answer to its request. -/
theorem exists_answer_of_waiting {connectionState : ConnectionState} {is : List Input}
    (hstays : ∀ i ∈ is, Stays c i)
    (hrun : (s, log) ∈ run (recorded text fmt) (start connectionState, .empty) is)
    {conn : IpcConn} (hconn : s.conns c = some conn) (hroom : Room s) :
    ∃ js, (∀ j ∈ js, Own c j) ∧ ∃ sl' ∈ run (recorded text fmt) (s, log) js,
      ∃ conn' answer, sl'.1.conns c = some conn' ∧ answer ∈ sl'.2.answered ∧
        answer.client = c ∧ conn'.client = .returned
          ((IpcResponse.serde fmt).decode ((IpcResponse.serde fmt).encode answer.response)) := by
  have hgoing : Going text fmt c s log := (going_recorded hstays).last hrun
  exact hgoing.exists_run hconn fun _ ↦ hroom

end Progress

/-- In the middle of the second client's request, with the first one killed. -/
theorem exists_answer_of_waiting_sampleIpc :
    ∃ sl ∈ run (recorded sampleAddrText .tenths) (start .disconnected, .empty) (sampleIpc.take 8),
      ∃ js, (∀ j ∈ js, Own 1 j) ∧ ∃ sl' ∈ run (recorded sampleAddrText .tenths) sl js,
        ∃ conn' answer, sl'.1.conns 1 = some conn' ∧ answer ∈ sl'.2.answered ∧
          answer.client = 1 ∧ conn'.client = .returned ((IpcResponse.serde .tenths).decode
            ((IpcResponse.serde .tenths).encode answer.response)) := by
  have hend : (run (recorded sampleAddrText .tenths) (start .disconnected, .empty)
      (sampleIpc.take 8)).map (fun sl ↦ ((sl.1.conns 1).isSome, sl.1.daemon.connect)) =
        some (true, []) := by
    decide +kernel
  obtain ⟨⟨s, log⟩, hrun, hend⟩ := Option.map_eq_some_iff.1 hend
  obtain ⟨hsome, hconnect⟩ := Prod.mk.inj hend
  obtain ⟨conn, hconn⟩ := Option.isSome_iff_exists.1 hsome
  have hstays : ∀ i ∈ sampleIpc.take 8, Stays 1 i := by
    simp [sampleIpc, Stays, Leaves]
  have hroom : Room s := .inl (by
    dsimp only at hconnect
    rw [hconnect]
    decide)
  exact ⟨(s, log), hrun, exists_answer_of_waiting hstays hrun hconn hroom⟩

end IpcSystem

end Kmflow
