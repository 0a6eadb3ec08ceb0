import Kmflow.Daemon.Outcome
import Kmflow.Net.Control

/-!
# The control stream of a session

The session's `select!` loops together with the stream they read control messages from. The state
adds to a `Session` what the peer has written and the network has not yet delivered, what it has
delivered and nobody has read, and the `recv_control` future of the current iteration.

The peer writes whole messages; the network delivers bytes in order, any number at a time; a poll of
the `recv_control` future takes what is there. When it completes, the control arm runs with its
result. When any other arm of `select!` completes, the future is dropped, and the bytes it had taken
are gone: `read_exact` is not cancel safe.

So the results are a prefix of what was sent as long as no other arm completes in the middle of a
message and goes on with the loop (`intact_of_undisturbed`); one that leaves the loop does no harm,
as nothing is read after it. Without that the stream loses bytes, and with them commands
(`not_intact_interruptedRun`).
-/

namespace Kmflow

open Transition Framing

/-- An arm of `select!` other than the control arm completes. -/
def Input.isOtherArm : Input → Bool
  | shutdown | clipboardOutgoing _ _ | clipboardReceived _ | captured _ _ | captureClosed
  | frame _ _ => true
  | push _ | control _ _ | cleanup _ => false

/-- The session and the stream it reads control messages from. -/
structure ControlStream where
  session : Session
  /-- Written by the peer, and on the way. -/
  inFlight : List UInt8
  /-- Delivered, and not yet read. -/
  arrived : List UInt8
  /-- The `recv_control` future of the current iteration. -/
  reader : ControlReader
  /-- What the peer has sent, oldest first. -/
  sent : List ControlCommand
  /-- What `recv_control` has handed to the loop, oldest first. -/
  results : List (Except RecvError ControlCommand)

/-- The labels of the session with its stream. -/
inductive StreamInput where
  /-- The peer calls `send_control`. -/
  | send (cmd : ControlCommand)
  /-- The next `n` bytes arrive. -/
  | arrive (n : ℕ)
  /-- `select!` polls the `recv_control` future. -/
  | poll (env : Env)
  /-- The stream fails under the `recv_control` future. -/
  | fail (env : Env)
  /-- Anything else the session does. -/
  | session (i : Input)

namespace ControlStream

/-- A session at the first head of the main loop, on a stream whose handshake messages are read. -/
def start (daemon : DaemonState) : ControlStream where
  session := .start daemon
  inFlight := []
  arrived := []
  reader := .fresh
  sent := []
  results := []

/-- The control arm completes with a result: its handler runs and the next iteration starts afresh,
with `arrived` left on the stream. -/
def complete (cfg : SessionConfig) (l : ControlStream) (env : Env) (arrived : List UInt8)
    (result : Except RecvError ControlCommand) : Option ControlStream :=
  (Session.step cfg l.session (.control env result.toOption)).map fun s ↦
    { l with
      session := s
      arrived := arrived
      reader := .fresh
      results := l.results ++ [result] }

/-- One step of the session with its stream; `none` when the label is not enabled. -/
def step (codec : ControlCodec) (cfg : SessionConfig) (l : ControlStream) :
    StreamInput → Option ControlStream
  | .send cmd =>
    some { l with inFlight := l.inFlight ++ sendControl codec cmd, sent := l.sent ++ [cmd] }
  | .arrive n =>
    some { l with arrived := l.arrived ++ l.inFlight.take n, inFlight := l.inFlight.drop n }
  | .poll env =>
    if l.session.phase = .mainLoop ∨ l.session.phase = .receiveOnly then
      match l.reader.poll l.arrived with
      | .pending reader => some { l with reader := reader, arrived := [] }
      | .ready body rest => complete cfg l env rest (recvControl codec body)
    else none
  | .fail env => complete cfg l env l.arrived (.error l.reader.readError)
  | .session (.control _ _) => none
  | .session i =>
    (Session.step cfg l.session i).map fun s ↦
      -- the futures of the arms that did not win are dropped
      { l with session := s, reader := if i.isOtherArm then .fresh else l.reader }

/-- The results are a prefix of what was sent, in order, up to a failure of the stream itself. -/
def Intact (l : ControlStream) : Prop :=
  ∃ handed rest, l.sent = handed ++ rest ∧
    (l.results = handed.map .ok ∨
      ∃ e, e ≠ .decodeControl ∧ l.results = handed.map .ok ++ [.error e])

/-- The handler of the arm goes on with a loop: it neither breaks off nor panics. -/
def GoesOn (cfg : SessionConfig) (s : Session) (i : Input) : Bool :=
  (Session.step cfg s i).any fun s' ↦ s'.phase = .mainLoop ∨ s'.phase = .receiveOnly

/-- The condition on a step: no other arm completes and goes on with its loop while `recv_control`
is in the middle of a message, and what the peer sends has a length that fits. -/
def Undisturbed (codec : ControlCodec) (cfg : SessionConfig) (l : ControlStream) :
    StreamInput → Prop
  | .session i => i.isOtherArm = true → GoesOn cfg l.session i = true → l.reader.taken = []
  | .send cmd => (codec.encode cmd).length < 2 ^ 32
  | _ => True

instance (codec : ControlCodec) (cfg : SessionConfig) (l : ControlStream) :
    DecidablePred (Undisturbed codec cfg l)
  | .session i =>
    inferInstanceAs (Decidable (i.isOtherArm = true → GoesOn cfg l.session i = true →
      l.reader.taken = []))
  | .send cmd => inferInstanceAs (Decidable ((codec.encode cmd).length < 2 ^ 32))
  | .arrive _ | .poll _ | .fail _ => instDecidableTrue

/-! ### Conservation of bytes -/

/-- The session is in one of its two loops. -/
def Running (s : Session) : Prop := s.phase = .mainLoop ∨ s.phase = .receiveOnly

/-- The invariant: what was sent is what was handed over and what is still owed. While a loop is
running, the results are what was handed over, and the bytes still on the way, those taken by the
future included, are the messages owed. -/
structure Conserved (codec : ControlCodec) (l : ControlStream) (handed owed : List ControlCommand) :
    Prop where
  sent : l.sent = handed ++ owed
  faithful : ∀ cmd ∈ owed, codec.Faithful cmd
  results : l.results = handed.map .ok ∨
    ∃ e, e ≠ .decodeControl ∧ l.results = handed.map .ok ++ [.error e]
  running : Running l.session → l.results = handed.map .ok ∧
    l.reader.taken ++ l.arrived ++ l.inFlight = frames (owed.map codec.encode)

/-- The invariant says that the results are a prefix of what was sent. -/
theorem Conserved.intact {codec : ControlCodec} {l : ControlStream}
    {handed owed : List ControlCommand} (h : Conserved codec l handed owed) : Intact l :=
  ⟨handed, owed, h.sent, h.results⟩

/-- An arm after which a loop is running has gone on with it. -/
theorem goesOn_of_running {cfg : SessionConfig} {s s' : Session} {i : Input}
    (hstep : s' ∈ Session.step cfg s i) (h : Running s') : GoesOn cfg s i = true := by
  rw [GoesOn, Option.mem_def.1 hstep, Option.any_some]
  exact decide_eq_true h

/-- A session past its loops stays past them. -/
theorem running_of_step {cfg : SessionConfig} {s s' : Session} {i : Input}
    (hstep : s' ∈ Session.step cfg s i) (h : Running s') : Running s := by
  cases outcome_of_step hstep with
  | cleanup _ _ => obtain h | h := h <;> cases h
  | idle _ _ _ hrun => exact hrun
  | push _ hphase | captureClosed hphase | keep _ _ _ _ hphase | edgeHit _ _ _ hphase
  | emergency _ _ hphase | forward _ _ hphase | frameHit _ hphase | handBack _ hphase =>
    exact .inl hphase
  | receiveOnlyFrameHit _ hphase | receiveOnlyHandBack _ hphase => exact .inr hphase

/-- The control arm only runs in a loop, and an error there leaves it. -/
theorem running_of_step_control {cfg : SessionConfig} {s s' : Session} {env : Env}
    {result : Option ControlCommand} (hstep : s' ∈ Session.step cfg s (.control env result)) :
    Running s ∧ (result = none → ¬ Running s') := by
  cases armStep_of_step hstep with
  | control _ _ hphase =>
    refine ⟨.inl hphase, ?_⟩
    rintro rfl (h | h) <;> cases h
  | receiveOnlyControl _ _ hphase =>
    refine ⟨.inr hphase, ?_⟩
    rintro rfl (h | h) <;> cases h

/-! ### One step -/

/-- The control arm completing with a result. -/
theorem mem_complete {cfg : SessionConfig} {l l' : ControlStream} {env : Env}
    {arrived : List UInt8} {result : Except RecvError ControlCommand}
    (h : l' ∈ complete cfg l env arrived result) :
    Running l.session ∧ (result.toOption = none → ¬ Running l'.session) ∧
      l' = { l with
        session := l'.session
        arrived := arrived
        reader := .fresh
        results := l.results ++ [result] } := by
  obtain ⟨s, hs, rfl⟩ := Option.map_eq_some_iff.1 h
  exact ⟨(running_of_step_control hs).1, (running_of_step_control hs).2, rfl⟩

/-- **A step that disturbs nothing conserves the stream.** -/
theorem conserved_step {codec : ControlCodec} {cfg : SessionConfig} {l l' : ControlStream}
    {e : StreamInput} (h : ∃ handed owed, Conserved codec l handed owed)
    (hC : Undisturbed codec cfg l e)
    (hcodec : ∀ cmd, e = .send cmd → codec.decode (codec.encode cmd) = some cmd)
    (hstep : l' ∈ step codec cfg l e) : ∃ handed owed, Conserved codec l' handed owed := by
  obtain ⟨handed, owed, h⟩ := h
  match e with
  | .send cmd =>
    obtain rfl := Option.some.inj hstep
    refine ⟨handed, owed ++ [cmd], ?_, ?_, h.results, fun hrun ↦ ⟨(h.running hrun).1, ?_⟩⟩
    · rw [← List.append_assoc, ← h.sent]
    · intro c hc
      rcases List.mem_append.1 hc with hc | hc
      · exact h.faithful c hc
      · rw [List.mem_singleton.1 hc]
        exact ⟨hcodec cmd rfl, hC⟩
    · rw [← List.append_assoc, (h.running hrun).2, List.map_append, frames_append,
        List.map_singleton, frames_singleton, sendControl]
  | .arrive n =>
    obtain rfl := Option.some.inj hstep
    refine ⟨handed, owed, h.sent, h.faithful, h.results, fun hrun ↦ ⟨(h.running hrun).1, ?_⟩⟩
    rw [List.append_assoc, List.append_assoc, List.take_append_drop, ← List.append_assoc,
      (h.running hrun).2]
  | .poll env =>
    simp only [step] at hstep
    split_ifs at hstep with hrun
    · have hpoll := Reader.poll_frames
        (List.forall_mem_map.2 fun c hc ↦ (h.faithful c hc).short) (h.running hrun).2
      cases hreader : l.reader.poll l.arrived with
      | pending reader =>
        rw [hreader] at hstep hpoll
        obtain rfl := Option.some.inj hstep
        refine ⟨handed, owed, h.sent, h.faithful, h.results, fun _ ↦ ⟨(h.running hrun).1, ?_⟩⟩
        rw [List.append_nil, hpoll]
      | ready body left =>
        rw [hreader] at hstep hpoll
        obtain ⟨bodies, hbodies, hleft⟩ := hpoll
        obtain ⟨cmd, owed, rfl, rfl, rfl⟩ := List.map_eq_cons_iff.1 hbodies
        have hcmd := h.faithful cmd (List.mem_cons_self ..)
        obtain ⟨-, -, hl'⟩ := mem_complete hstep
        rw [hcmd.recvControl, (h.running hrun).1] at hl'
        have hresults : l'.results = (handed ++ [cmd]).map .ok := by
          rw [hl', List.map_append]
          rfl
        refine ⟨handed ++ [cmd], owed, ?_, fun c hc ↦ h.faithful c (.tail _ hc), .inl hresults,
          fun _ ↦ ⟨hresults, ?_⟩⟩
        · rw [hl', List.append_assoc]
          exact h.sent
        · rw [hl']
          exact hleft
    · cases hstep
  | .fail env =>
    obtain ⟨hrun, hstop, hl'⟩ := mem_complete hstep
    refine ⟨handed, owed, ?_, h.faithful, .inr ⟨l.reader.readError, ?_, ?_⟩,
      fun hrun' ↦ absurd hrun' (hstop rfl)⟩
    · rw [hl']
      exact h.sent
    · cases l.reader <;> nofun
    · rw [hl', (h.running hrun).1]
  | .session i =>
    have hs : ∃ s ∈ Session.step cfg l.session i,
        l' = { l with session := s, reader := if i.isOtherArm then .fresh else l.reader } := by
      match i with
      | .control _ _ => cases hstep
      | .push _ | .shutdown | .clipboardOutgoing _ _ | .clipboardReceived _ | .captured _ _
      | .captureClosed | .frame _ _ | .cleanup _ =>
        obtain ⟨s, hs, rfl⟩ := Option.map_eq_some_iff.1 hstep
        exact ⟨s, hs, rfl⟩
    obtain ⟨s, hs, rfl⟩ := hs
    refine ⟨handed, owed, h.sent, h.faithful, h.results, fun hrun ↦ ?_⟩
    obtain ⟨hresults, hbytes⟩ := h.running (running_of_step hs hrun)
    refine ⟨hresults, ?_⟩
    -- dropping a future that has taken nothing loses nothing
    have htaken : (if i.isOtherArm then Reader.fresh else l.reader).taken = l.reader.taken := by
      split_ifs with harm
      · exact (hC harm (goesOn_of_running hs hrun)).symm
      · rfl
    dsimp only
    rw [htaken, hbytes]

/-- **Control messages arrive whole and in order while nothing interrupts their reading.** For every
run in which no other arm of `select!` completes and goes on with its loop while `recv_control` is
in the middle of a message, and in which every message sent has a length below `2 ^ 32`: in every
state the results of `recv_control` are a prefix of what was sent, in order. -/
theorem intact_of_undisturbed (codec : ControlCodec) (cfg : SessionConfig) (d : DaemonState)
    (is : List StreamInput)
    (hcodec : ∀ cmd, .send cmd ∈ is → codec.decode (codec.encode cmd) = some cmd)
    (hC : EachStep (step codec cfg) (Undisturbed codec cfg) (start d) is) :
    Throughout (step codec cfg) Intact (start d) is := by
  have hstart : Conserved codec (start d) [] [] :=
    ⟨rfl, by simp, .inl rfl, fun _ ↦ ⟨rfl, rfl⟩⟩
  have hguard : EachStep (step codec cfg)
      (fun l e ↦ Undisturbed codec cfg l e ∧
        ∀ cmd, e = .send cmd → codec.decode (codec.encode cmd) = some cmd) (start d) is :=
    hC.and_mem fun e he cmd hcmd ↦ hcodec cmd (hcmd ▸ he)
  refine (throughout_of_guarded (I := fun l ↦ ∃ handed owed, Conserved codec l handed owed)
    (fun l e h hC l' hl' ↦ conserved_step h hC.1 hC.2 hl') ⟨[], [], hstart⟩ hguard).mono ?_
  rintro l ⟨handed, owed, h⟩
  exact h.intact

/-! ### An interrupted message -/

/-- The serialisation of the two commands without fields, `"ReleaseFocus"` and
`"PeerDisconnecting"`. -/
def jsonCodec : ControlCodec where
  encode
    | .releaseFocus => [34, 82, 101, 108, 101, 97, 115, 101, 70, 111, 99, 117, 115, 34]
    | .peerDisconnecting =>
      [34, 80, 101, 101, 114, 68, 105, 115, 99, 111, 110, 110, 101, 99, 116, 105, 110, 103, 34]
    | _ => []
  decode bytes :=
    if bytes = [34, 82, 101, 108, 101, 97, 115, 101, 70, 111, 99, 117, 115, 34] then
      some .releaseFocus
    else if bytes =
        [34, 80, 101, 101, 114, 68, 105, 115, 99, 111, 110, 110, 101, 99, 116, 105, 110, 103, 34]
      then some .peerDisconnecting
    else none

/-- A message read in one piece, a frame, and a shutdown in the middle of the next message. -/
def quietRun : List StreamInput :=
  [.send .releaseFocus, .arrive 18, .poll (.at 0), .session (.frame (.at 0) (some ⟨0, 0, []⟩)),
    .send .peerDisconnecting, .arrive 2, .poll (.at 0), .session .shutdown]

/-- The run that fails: a frame arrives in the middle of the first message's length, and another one
while `recv_control` is filling what it takes for a body. -/
def interruptedRun : List StreamInput :=
  [.send .releaseFocus, .send .peerDisconnecting,
    .arrive 2, .poll (.at 0), .session (.frame (.at 0) (some ⟨0, 0, []⟩)),
    .arrive 16, .poll (.at 0), .session (.frame (.at 0) (some ⟨0, 0, []⟩)),
    .arrive 23, .poll (.at 0)]

/-- The first command is handed over, and the shutdown costs none. -/
theorem intact_of_undisturbed_quietRun :
    EachStep (step jsonCodec .fallback) (Undisturbed jsonCodec .fallback)
        (start (.new .fallback 0)) quietRun ∧
      Throughout (step jsonCodec .fallback) Intact (start (.new .fallback 0)) quietRun := by
  have hC : EachStep (step jsonCodec .fallback) (Undisturbed jsonCodec .fallback)
      (start (.new .fallback 0)) quietRun := by
    decide +kernel
  refine ⟨hC, intact_of_undisturbed jsonCodec .fallback (.new .fallback 0) quietRun ?_ hC⟩
  intro cmd hcmd
  simp only [quietRun, List.mem_cons, StreamInput.send.injEq, reduceCtorEq, List.not_mem_nil,
    or_false, false_or] at hcmd
  rcases hcmd with rfl | rfl <;> rfl

/-- The first command is lost and the second one is handed over. -/
theorem not_intact_interruptedRun :
    ¬ Throughout (step jsonCodec .fallback) Intact (start (.new .fallback 0)) interruptedRun := by
  have hview : (run (step jsonCodec .fallback) (start (.new .fallback 0)) interruptedRun).map
      (fun l ↦ (l.sent.head?, l.results.head?.map Except.toOption)) =
        some (some .releaseFocus, some (some .peerDisconnecting)) := by
    decide +kernel
  obtain ⟨t, ht, hview⟩ := Option.map_eq_some_iff.1 hview
  simp only [Prod.mk.injEq] at hview
  refine not_throughout_of_run ht ?_
  rintro ⟨handed, rest, hsent, hresults⟩
  rw [hsent] at hview
  obtain hresults | ⟨e, -, hresults⟩ := hresults <;> rw [hresults] at hview <;>
    cases handed with
    | nil => simp [Except.toOption] at hview
    | cons c handed =>
      simp only [List.map_cons, List.cons_append, List.head?_cons, Option.map_some,
        Except.toOption, Option.some.injEq] at hview
      rw [hview.1] at hview
      cases hview.2

end ControlStream

end Kmflow
