import Kmflow.Daemon.Supervisor
import Kmflow.Foundation.Transition
import Kmflow.Net.Control

/-!
# The handshake of two daemons

The beginning of `peer_session` on both ends of one connection: the initiator sends its `Handshake`
and waits for the `HandshakeAck`, the acceptor waits for the one and sends the other. Each message
is on the stream or it is not, and an end becomes active some time after its last message, when it
has locked the daemon's state. Either end may fail at any time, also after its message has gone out.
The two daemons may be of different builds.

What the two ends then hold fits together (`agree_of_run`): each has the other's name and screen,
and the two edges face each other unless both were configured and do not. The initiator becomes
active only after the acceptor has accepted it and let its answer go, but the acceptor need not be
active at that time, nor ever become it; and an acceptor may be active alone.

Whether the handshake can be completed at all is a matter of the two configurations
(`exists_run_iff`): the versions must be the same, and both scale factors must be finite, since one
that is not goes over the wire as `null` and is not read back.
-/

namespace Kmflow

open Transition

/-- A daemon, as its peer gets to know it, and the edge it is configured with. -/
structure Host where
  version : UInt32
  hostname : String
  screen : ScreenInfo
  edge : Option Edge
  deriving DecidableEq

namespace Host

/-- The initiator's first message. -/
def handshake (host : Host) : ControlCommand :=
  .handshake host.version host.hostname host.screen host.edge

/-- The acceptor's answer tells the edge it has settled on. -/
def handshakeAck (host : Host) (target : Edge) : ControlCommand :=
  .handshakeAck host.version host.hostname host.screen (some target)

/-- The initiator's check of the reply. -/
def readAck (host : Host) : Option ControlCommand → Except HandshakeError Greeting
  | some (.handshakeAck version hostname screenInfo edge) =>
    if version ≠ host.version then .error (.versionMismatch version)
    else .ok ⟨hostname, screenInfo, edge⟩
  | some _ => .error .unexpectedReply
  | none => .error .stream

/-- The acceptor's check of the first message. -/
def readHandshake (host : Host) : Option ControlCommand → Except HandshakeError Greeting
  | some (.handshake version hostname screenInfo edge) =>
    if version ≠ host.version then .error (.versionMismatch version)
    else .ok ⟨hostname, screenInfo, edge⟩
  | some _ => .error .unexpectedFirst
  | none => .error .stream

/-- In this build the checks are those of the session tasks. -/
theorem readAck_eq {host : Host} (h : host.version = protocolVersion) :
    host.readAck = Kmflow.readAck := by
  funext msg
  rw [readAck.eq_def, h]
  rfl

/-- The same for the acceptor. -/
theorem readHandshake_eq {host : Host} (h : host.version = protocolVersion) :
    host.readHandshake = Kmflow.readHandshake := by
  funext msg
  rw [readHandshake.eq_def, h]
  rfl

end Host

section Wire

variable {fmt : FloatFormat} {screen : ScreenInfo}

/-- A scale factor as it is read on the other end. -/
def F64.readBack (fmt : FloatFormat) (x : F64) : Option F64 :=
  (F64.serde fmt).decode ((F64.serde fmt).encode x)

/-- A screen as it is read on the other end. -/
def ScreenInfo.readBack (fmt : FloatFormat) (screen : ScreenInfo) : Option ScreenInfo :=
  (screen.scaleFactor.readBack fmt).map fun scale ↦ { screen with scaleFactor := scale }

/-- With literals that are read back as they were written, a screen is read back as it is. -/
theorem ScreenInfo.eq_of_readBack {screen' : ScreenInfo}
    (hexact : ∀ q, screen.scaleFactor = .finite q → fmt.Exact q)
    (h : screen' ∈ screen.readBack fmt) : screen' = screen := by
  obtain ⟨scale, hscale, rfl⟩ := Option.map_eq_some_iff.1 h
  rw [F64.eq_of_decode hexact hscale]

/-- If literals can be read at all, a screen can be whose scale factor is finite. -/
theorem ScreenInfo.isSome_readBack_iff
    (hreads : ∀ q, screen.scaleFactor = .finite q → (fmt.read (fmt.write q)).isSome) :
    (screen.readBack fmt).isSome ↔ screen.scaleFactor.isFinite = true := by
  rw [ScreenInfo.readBack, Option.isSome_map]
  cases hscale : screen.scaleFactor with
  | finite q => simpa [F64.readBack, F64.serde, F64.isFinite] using hreads q hscale
  | nan | inf negative => simp [F64.readBack, F64.serde, F64.isFinite]

/-- What comes of a screen depends on its scale factor alone. -/
theorem decode_encode_screen (fmt : FloatFormat) (screen : ScreenInfo) :
    (ScreenInfo.serde fmt).decode ((ScreenInfo.serde fmt).encode screen) = screen.readBack fmt := by
  obtain ⟨width, height, scaleFactor, position⟩ := screen
  simp [ScreenInfo.serde, Serde.fields_object, ScreenInfo.readBack, F64.readBack,
    (Serde.keeps_u32 width).decode_encode, (Serde.keeps_u32 height).decode_encode,
    position.keeps.decode_encode, Option.map_eq_bind]

/-- What a handshake message says is read but for the scale factor, which is read back. -/
theorem decodeHandshake_encodeHandshake (fmt : FloatFormat)
    (make : UInt32 → String → ScreenInfo → Option Edge → ControlCommand) (v : UInt32)
    (hostname : String) (screen : ScreenInfo) (edge : Option Edge) :
    decodeHandshake fmt make (encodeHandshake fmt v hostname screen edge) =
      (screen.readBack fmt).map fun screen ↦ make v hostname screen edge := by
  simp only [decodeHandshake, encodeHandshake, Serde.fields_object (show (List.map Prod.fst
    [("protocol_version", Serde.u32.encode v), ("hostname", Serde.string.encode hostname),
      ("screen_info", (ScreenInfo.serde fmt).encode screen),
      ("edge", Edge.serde.option.encode edge)]).Nodup by simp)]
  simp [(Serde.keeps_u32 v).decode_encode, (Serde.keeps_string hostname).decode_encode,
    (Edge.keeps_option edge).decode_encode, decode_encode_screen, Option.map_eq_bind]

/-- What the acceptor reads of the initiator's message. -/
theorem decode_handshake (fmt : FloatFormat) (host : Host) :
    decodeControl fmt (encodeControl fmt host.handshake) =
      (host.screen.readBack fmt).map fun screen ↦
        .handshake host.version host.hostname screen host.edge := by
  rw [decodeControl, encodeControl, Serde.fromSlice_toVec]
  exact decodeHandshake_encodeHandshake fmt .handshake _ _ _ _

/-- What the initiator reads of the acceptor's answer. -/
theorem decode_handshakeAck (fmt : FloatFormat) (host : Host) (target : Edge) :
    decodeControl fmt (encodeControl fmt (host.handshakeAck target)) =
      (host.screen.readBack fmt).map fun screen ↦
        .handshakeAck host.version host.hostname screen (some target) := by
  rw [decodeControl, encodeControl, Serde.fromSlice_toVec]
  exact decodeHandshake_encodeHandshake fmt .handshakeAck _ _ _ _

end Wire

/-! ### The two ends -/

/-- Where the initiator stands. -/
inductive InitiatorStage where
  | starting
  /-- The message is on the stream. -/
  | waiting
  /-- Past the checks, and waiting for the lock. -/
  | accepted (g : Greeting) (target : Edge)
  | active (g : Greeting) (target : Edge)
  | ended
  deriving DecidableEq

/-- Where the acceptor stands. -/
inductive AcceptorStage where
  | waiting
  /-- Past the checks, with the answer to send. -/
  | acking (g : Greeting) (target : Edge)
  /-- The answer is on the stream; `send_control` has not returned, or the lock is waited for. -/
  | acked (g : Greeting) (target : Edge)
  | active (g : Greeting) (target : Edge)
  | ended
  deriving DecidableEq

/-- What an acceptor past its checks holds. -/
def AcceptorStage.holds? : AcceptorStage → Option (Greeting × Edge)
  | acking g target | acked g target | active g target => some (g, target)
  | waiting | ended => none

/-- What an initiator past its checks holds. -/
def InitiatorStage.holds? : InitiatorStage → Option (Greeting × Edge)
  | accepted g target | active g target => some (g, target)
  | starting | waiting | ended => none

/-- The answer is on the stream, or may have been put there. -/
def AcceptorStage.HasAcked : AcceptorStage → Prop
  | acked _ _ | active _ _ | ended => True
  | waiting | acking _ _ => False

/-- Both ends, and what each has on the stream to the other. -/
structure Handshake where
  initiator : InitiatorStage
  acceptor : AcceptorStage
  request : Option (List UInt8)
  reply : Option (List UInt8)
  deriving DecidableEq

namespace Handshake

/-- The labels: what an end completes. A call that fails ends it. -/
inductive Input where
  /-- The initiator's message is on the stream. -/
  | sent
  /-- `recv_control` of the acceptor, with the message or with an error. -/
  | greeted (arrived : Bool)
  /-- The acceptor's answer is on the stream. -/
  | acked
  /-- The acceptor has the lock. -/
  | acceptorActive
  /-- `recv_control` of the initiator. -/
  | answered (arrived : Bool)
  /-- The initiator has the lock. -/
  | initiatorActive
  | initiatorEnds
  | acceptorEnds
  deriving DecidableEq

/-- Nothing has been sent. -/
def start : Handshake where
  initiator := .starting
  acceptor := .waiting
  request := none
  reply := none

section Step

variable (fmt : FloatFormat) (initiator acceptor : Host) (s : Handshake)

/-- What `recv_control` gives: what the message is read as, or nothing. -/
def recv (stream : Option (List UInt8)) (arrived : Bool) : Option ControlCommand :=
  if arrived then stream.bind (decodeControl fmt) else none

/-- The acceptor goes on with what it has received. -/
def greet (msg : Option ControlCommand) : AcceptorStage :=
  match acceptor.readHandshake msg with
  | .ok g => .acking g (targetEdge acceptor.edge g.edge)
  | .error _ => .ended

/-- The initiator goes on with what it has received. -/
def answer (msg : Option ControlCommand) : InitiatorStage :=
  match initiator.readAck msg with
  | .ok g => .accepted g (targetEdge initiator.edge g.edge)
  | .error _ => .ended

/-- A step of either end; `none` when the end is not there. -/
def step : Input → Option Handshake
  | .sent =>
    match s.initiator with
    | .starting =>
      some { s with
        initiator := .waiting
        request := some (encodeControl fmt initiator.handshake) }
    | _ => none
  | .greeted arrived =>
    if s.acceptor = .waiting ∧ (arrived → s.request.isSome) then
      some { s with acceptor := greet acceptor (recv fmt s.request arrived) }
    else none
  | .acked =>
    match s.acceptor with
    | .acking g target =>
      some { s with
        acceptor := .acked g target
        reply := some (encodeControl fmt (acceptor.handshakeAck target)) }
    | _ => none
  | .acceptorActive =>
    match s.acceptor with
    | .acked g target => some { s with acceptor := .active g target }
    | _ => none
  | .answered arrived =>
    if s.initiator = .waiting ∧ (arrived → s.reply.isSome) then
      some { s with initiator := answer initiator (recv fmt s.reply arrived) }
    else none
  | .initiatorActive =>
    match s.initiator with
    | .accepted g target => some { s with initiator := .active g target }
    | _ => none
  | .initiatorEnds =>
    if s.initiator = .ended then none else some { s with initiator := .ended }
  | .acceptorEnds => if s.acceptor = .ended then none else some { s with acceptor := .ended }

end Step

/-- The edge that the acceptor settles on. -/
def acceptorEdge (initiator acceptor : Host) : Edge := targetEdge acceptor.edge initiator.edge

/-- The edge that the initiator settles on. -/
def initiatorEdge (initiator acceptor : Host) : Edge :=
  targetEdge initiator.edge (some (acceptorEdge initiator acceptor))

/-- What an end has been told: the other's name, its screen as it is read, and an edge. -/
def Knows (fmt : FloatFormat) (host : Host) (edge : Option Edge) (g : Greeting) : Prop :=
  ∃ screen ∈ host.screen.readBack fmt, g = ⟨host.hostname, screen, edge⟩

/-- The acceptor could read the initiator's message, and has accepted it. -/
def Greets (fmt : FloatFormat) (initiator acceptor : Host) : Prop :=
  initiator.version = acceptor.version ∧ (initiator.screen.readBack fmt).isSome

/-- What holds of the two ends, whatever has failed. -/
structure Sound (fmt : FloatFormat) (initiator acceptor : Host) (s : Handshake) : Prop where
  request : ∀ body ∈ s.request, body = encodeControl fmt initiator.handshake
  /-- The answer is on the stream only for an initiator that was accepted. -/
  reply : ∀ body ∈ s.reply, Greets fmt initiator acceptor ∧ s.acceptor.HasAcked ∧
    body = encodeControl fmt (acceptor.handshakeAck (acceptorEdge initiator acceptor))
  /-- The acceptor has what the initiator sent. -/
  greeted : ∀ g target, s.acceptor.holds? = some (g, target) → Greets fmt initiator acceptor ∧
    Knows fmt initiator initiator.edge g ∧ target = acceptorEdge initiator acceptor
  /-- The initiator has the acceptor's answer. -/
  answered : ∀ g target, s.initiator.holds? = some (g, target) → s.reply.isSome ∧
    Knows fmt acceptor (some (acceptorEdge initiator acceptor)) g ∧
    target = initiatorEdge initiator acceptor

section Run

variable {fmt : FloatFormat} {initiator acceptor : Host} {s s' : Handshake}

/-- At the start nothing was sent. -/
theorem sound_start : Sound fmt initiator acceptor start where
  request _ h := by cases h
  reply _ h := by cases h
  greeted _ _ h := by cases h
  answered _ _ h := by cases h

/-- The acceptor goes on only with the message that was sent. -/
theorem greet_recv (h : Sound fmt initiator acceptor s) {arrived : Bool} {g : Greeting}
    {target : Edge}
    (hg : (greet acceptor (recv fmt s.request arrived)).holds? = some (g, target)) :
    Greets fmt initiator acceptor ∧ Knows fmt initiator initiator.edge g ∧
      target = acceptorEdge initiator acceptor := by
  rw [greet] at hg
  rcases hrequest : s.request with _ | body
  · cases arrived <;> simp [recv, hrequest, Host.readHandshake, AcceptorStage.holds?] at hg
  rcases arrived with _ | _
  · simp [recv, Host.readHandshake, AcceptorStage.holds?] at hg
  rw [hrequest, recv, if_pos rfl, Option.bind_some, h.request body hrequest,
    decode_handshake] at hg
  rcases hscreen : initiator.screen.readBack fmt with _ | screen
  · simp [hscreen, Host.readHandshake, AcceptorStage.holds?] at hg
  rw [hscreen] at hg
  simp only [Option.map_some, Host.readHandshake] at hg
  split_ifs at hg with hversion
  · cases hg
  · obtain ⟨rfl, rfl⟩ := Prod.mk.inj (Option.some.inj hg)
    exact ⟨⟨not_not.1 hversion, by rw [hscreen]; rfl⟩, ⟨screen, hscreen, rfl⟩, rfl⟩

/-- The initiator goes on only with the acceptor's answer. -/
theorem answer_recv (h : Sound fmt initiator acceptor s) {arrived : Bool} {g : Greeting}
    {target : Edge}
    (hg : (answer initiator (recv fmt s.reply arrived)).holds? = some (g, target)) :
    s.reply.isSome ∧ Knows fmt acceptor (some (acceptorEdge initiator acceptor)) g ∧
      target = initiatorEdge initiator acceptor := by
  rw [answer] at hg
  rcases hreply : s.reply with _ | body
  · cases arrived <;> simp [recv, hreply, Host.readAck, InitiatorStage.holds?] at hg
  rcases arrived with _ | _
  · simp [recv, Host.readAck, InitiatorStage.holds?] at hg
  rw [hreply, recv, if_pos rfl, Option.bind_some, (h.reply body hreply).2.2,
    decode_handshakeAck] at hg
  rcases hscreen : acceptor.screen.readBack fmt with _ | screen
  · simp [hscreen, Host.readAck, InitiatorStage.holds?] at hg
  rw [hscreen] at hg
  simp only [Option.map_some, Host.readAck] at hg
  split_ifs at hg with hversion
  · cases hg
  · obtain ⟨rfl, rfl⟩ := Prod.mk.inj (Option.some.inj hg)
    exact ⟨rfl, ⟨screen, hscreen, rfl⟩, rfl⟩

/-- As long as the acceptor has not sent its answer there is none. -/
theorem Sound.reply_eq_none (h : Sound fmt initiator acceptor s)
    (hearly : ¬ s.acceptor.HasAcked) : s.reply = none :=
  Option.eq_none_iff_forall_not_mem.2 fun body hbody ↦ hearly (h.reply body hbody).2.1

/-- **Every step keeps what the ends hold in line.** -/
theorem Sound.step {i : Input} (h : Sound fmt initiator acceptor s)
    (hs' : s' ∈ step fmt initiator acceptor s i) : Sound fmt initiator acceptor s' := by
  rcases i with _ | arrived | _ | _ | arrived | _ | _ | _
  case sent =>
    rcases hstage : s.initiator with _ | _ | _ | _ | _ <;>
      simp only [Handshake.step, hstage] at hs' <;> cases hs'
    exact ⟨fun body hbody ↦ (Option.some.inj hbody).symm, h.reply, h.greeted,
      fun g target hg ↦ by cases hg⟩
  case greeted =>
    obtain ⟨⟨hwaiting, -⟩, hs'⟩ := Option.ite_none_right_eq_some.1 hs'
    obtain rfl := Option.some.inj hs'
    have hnone : s.reply = none := h.reply_eq_none (by simp [hwaiting, AcceptorStage.HasAcked])
    refine ⟨h.request, fun body hbody ↦ ?_, fun g target hg ↦ greet_recv h hg, h.answered⟩
    cases hnone.symm.trans hbody
  case acked =>
    rcases hstage : s.acceptor with _ | ⟨g, target⟩ | _ | _ | _ <;>
      simp only [Handshake.step, hstage] at hs' <;> cases hs'
    have hheld : s.acceptor.holds? = some (g, target) := by rw [hstage]; rfl
    obtain ⟨hgreets, hknows, htarget⟩ := h.greeted g target hheld
    refine ⟨h.request, fun body hbody ↦ ⟨hgreets, trivial, ?_⟩, fun g' target' hg' ↦ ?_,
      fun g' target' hg' ↦ ⟨rfl, (h.answered g' target' hg').2⟩⟩
    · rw [← htarget]
      exact (Option.some.inj hbody).symm
    · exact h.greeted g' target' (hheld.trans hg')
  case acceptorActive =>
    rcases hstage : s.acceptor with _ | _ | ⟨g, target⟩ | _ | _ <;>
      simp only [Handshake.step, hstage] at hs' <;> cases hs'
    have hheld : s.acceptor.holds? = some (g, target) := by rw [hstage]; rfl
    refine ⟨h.request, fun body hbody ↦ ?_, fun g' target' hg' ↦ ?_, h.answered⟩
    · obtain ⟨hgreets, -, hbody⟩ := h.reply body hbody
      exact ⟨hgreets, trivial, hbody⟩
    · exact h.greeted g' target' (hheld.trans hg')
  case answered =>
    obtain ⟨-, hs'⟩ := Option.ite_none_right_eq_some.1 hs'
    obtain rfl := Option.some.inj hs'
    exact ⟨h.request, h.reply, h.greeted, fun g target hg ↦ answer_recv h hg⟩
  case initiatorActive =>
    rcases hstage : s.initiator with _ | _ | ⟨g, target⟩ | _ | _ <;>
      simp only [Handshake.step, hstage] at hs' <;> cases hs'
    have hheld : s.initiator.holds? = some (g, target) := by rw [hstage]; rfl
    exact ⟨h.request, h.reply, h.greeted,
      fun g' target' hg' ↦ h.answered g' target' (hheld.trans hg')⟩
  case initiatorEnds =>
    obtain ⟨-, hs'⟩ := Option.ite_none_left_eq_some.1 hs'
    obtain rfl := Option.some.inj hs'
    exact ⟨h.request, h.reply, h.greeted, fun g target hg ↦ by cases hg⟩
  case acceptorEnds =>
    obtain ⟨-, hs'⟩ := Option.ite_none_left_eq_some.1 hs'
    obtain rfl := Option.some.inj hs'
    refine ⟨h.request, fun body hbody ↦ ?_, fun g target hg ↦ (by cases hg), h.answered⟩
    obtain ⟨hgreets, -, hbody⟩ := h.reply body hbody
    exact ⟨hgreets, trivial, hbody⟩

/-- **What a side knows, it was told** in every run. -/
theorem sound_run (is : List Input) :
    Throughout (step fmt initiator acceptor) (Sound fmt initiator acceptor) start is :=
  throughout_of_invariant (fun _ _ h _ hs' ↦ h.step hs') sound_start is

/-- An initiator past its checks has been accepted, and the acceptor has let its answer go. -/
theorem Sound.accepted (h : Sound fmt initiator acceptor s) {g : Greeting} {target : Edge}
    (hg : s.initiator.holds? = some (g, target)) :
    Greets fmt initiator acceptor ∧ s.acceptor.HasAcked ∧
      s.reply =
        some (encodeControl fmt (acceptor.handshakeAck (acceptorEdge initiator acceptor))) := by
  obtain ⟨body, hbody⟩ := Option.isSome_iff_exists.1 (h.answered g target hg).1
  obtain ⟨hgreets, hacked, hanswer⟩ := h.reply body hbody
  exact ⟨hgreets, hacked, hbody.trans (congrArg some hanswer)⟩

/-- The edges face each other unless both were configured and do not. -/
theorem initiatorEdge_eq_iff : initiatorEdge initiator acceptor =
    oppositeEdge (acceptorEdge initiator acceptor) ↔
      ∀ e e', initiator.edge = some e → acceptor.edge = some e' → e = oppositeEdge e' := by
  rw [initiatorEdge, acceptorEdge]
  cases initiator.edge with
  | none => simp [targetEdge]
  | some e =>
    cases acceptor.edge with
    | none =>
      have hopposite : e = oppositeEdge (oppositeEdge e) := by cases e <;> rfl
      simpa [targetEdge] using hopposite
    | some e' => simp [targetEdge]

/-- What was read of an exact screen is the screen. -/
theorem Knows.eq {host : Host} {edge : Option Edge} {g : Greeting} (h : Knows fmt host edge g)
    (hexact : ∀ q, host.screen.scaleFactor = .finite q → fmt.Exact q) :
    g = ⟨host.hostname, host.screen, edge⟩ := by
  obtain ⟨screen, hscreen, rfl⟩ := h
  rw [ScreenInfo.eq_of_readBack hexact hscreen]

/-- **What the two ends hold fits together**, in every run and whatever has failed in it. An active
acceptor is of the initiator's version and knows it as it is. An active
initiator is of the acceptor's version and knows it as it is, and the acceptor has sent its answer
and, unless it has ended, holds what an active one holds. The edges of two active ends
face each other unless both were configured and do not. -/
theorem agree_of_run (hinitiator : ∀ q, initiator.screen.scaleFactor = .finite q → fmt.Exact q)
    (hacceptor : ∀ q, acceptor.screen.scaleFactor = .finite q → fmt.Exact q) {is : List Input}
    (hrun : s ∈ run (step fmt initiator acceptor) start is) :
    (∀ g target, s.acceptor = .active g target → initiator.version = acceptor.version ∧
      g = ⟨initiator.hostname, initiator.screen, initiator.edge⟩ ∧
      target = acceptorEdge initiator acceptor) ∧
    (∀ g target, s.initiator = .active g target → initiator.version = acceptor.version ∧
      g = ⟨acceptor.hostname, acceptor.screen, some (acceptorEdge initiator acceptor)⟩ ∧
      target = initiatorEdge initiator acceptor ∧
      s.reply =
        some (encodeControl fmt (acceptor.handshakeAck (acceptorEdge initiator acceptor))) ∧
      (s.acceptor = .ended ∨ ∃ g' target',
        (s.acceptor = .acked g' target' ∨ s.acceptor = .active g' target') ∧
        g' = ⟨initiator.hostname, initiator.screen, initiator.edge⟩ ∧
        target' = acceptorEdge initiator acceptor)) ∧
    ∀ g target g' target', s.initiator = .active g target → s.acceptor = .active g' target' →
      (target = oppositeEdge target' ↔
        ∀ e e', initiator.edge = some e → acceptor.edge = some e' → e = oppositeEdge e') := by
  have h : Sound fmt initiator acceptor s := (sound_run is).last hrun
  have hacceptorHolds {g target} (hg : s.acceptor.holds? = some (g, target)) :
      initiator.version = acceptor.version ∧
        g = ⟨initiator.hostname, initiator.screen, initiator.edge⟩ ∧
        target = acceptorEdge initiator acceptor := by
    obtain ⟨hgreets, hknows, htarget⟩ := h.greeted g target hg
    exact ⟨hgreets.1, hknows.eq hinitiator, htarget⟩
  refine ⟨fun g target hg ↦ hacceptorHolds (by rw [hg]; rfl), fun g target hg ↦ ?_,
    fun g target g' target' hg hg' ↦ ?_⟩
  · have hheld : s.initiator.holds? = some (g, target) := by rw [hg]; rfl
    obtain ⟨-, hknows, htarget⟩ := h.answered g target hheld
    obtain ⟨hgreets, hacked, hreply⟩ := h.accepted hheld
    refine ⟨hgreets.1, hknows.eq hacceptor, htarget, hreply, ?_⟩
    rcases hstage : s.acceptor with _ | _ | ⟨g', target'⟩ | ⟨g', target'⟩ | _
    case waiting | acking => simp [hstage, AcceptorStage.HasAcked] at hacked
    case acked => exact .inr ⟨g', target', .inl rfl, (hacceptorHolds (by rw [hstage]; rfl)).2⟩
    case active => exact .inr ⟨g', target', .inr rfl, (hacceptorHolds (by rw [hstage]; rfl)).2⟩
    case ended => exact .inl rfl
  · obtain ⟨-, -, rfl⟩ := h.answered g target (by rw [hg]; rfl)
    obtain ⟨-, -, rfl⟩ := h.greeted g' target' (by rw [hg']; rfl)
    exact initiatorEdge_eq_iff

/-- The messages arrive, and they are taken. -/
theorem run_complete (hversion : initiator.version = acceptor.version) {screen screen' : ScreenInfo}
    (hinitiator : screen ∈ initiator.screen.readBack fmt)
    (hacceptor : screen' ∈ acceptor.screen.readBack fmt) :
    ∃ s ∈ run (step fmt initiator acceptor) start
        [.sent, .greeted true, .acked, .answered true, .initiatorActive, .acceptorActive],
      s.initiator = .active
        ⟨acceptor.hostname, screen', some (acceptorEdge initiator acceptor)⟩
        (initiatorEdge initiator acceptor) ∧
      s.acceptor = .active ⟨initiator.hostname, screen, initiator.edge⟩
        (acceptorEdge initiator acceptor) := by
  have hgreet : greet acceptor (recv fmt (some (encodeControl fmt initiator.handshake)) true) =
      .acking ⟨initiator.hostname, screen, initiator.edge⟩ (acceptorEdge initiator acceptor) := by
    rw [recv, if_pos rfl, Option.bind_some, decode_handshake, Option.mem_def.1 hinitiator]
    simp [greet, Host.readHandshake, hversion, acceptorEdge]
  have hanswer : answer initiator (recv fmt (some (encodeControl fmt
      (acceptor.handshakeAck (acceptorEdge initiator acceptor)))) true) =
      .accepted ⟨acceptor.hostname, screen', some (acceptorEdge initiator acceptor)⟩
        (initiatorEdge initiator acceptor) := by
    rw [recv, if_pos rfl, Option.bind_some, decode_handshakeAck, Option.mem_def.1 hacceptor]
    simp [answer, Host.readAck, hversion, initiatorEdge]
  refine ⟨⟨.active _ _, .active _ _, some (encodeControl fmt initiator.handshake),
    some (encodeControl fmt (acceptor.handshakeAck (acceptorEdge initiator acceptor)))⟩, ?_, rfl,
    rfl⟩
  simp [run, step, start, hgreet, hanswer]

end Run

/-- A host that leaves the edge to its peer, and one that is configured. -/
def sampleInitiator : Host := ⟨protocolVersion, "my-pc", .fallback, none⟩

/-- One whose peer is to its left. -/
def sampleAcceptor : Host := ⟨protocolVersion, "laptop", .fallback, some .left⟩

/-- The literal of the assumed scale factor is exact. -/
theorem exact_fallback (q : ℚ) (h : ScreenInfo.fallback.scaleFactor = .finite q) :
    FloatFormat.tenths.Exact q := by
  obtain rfl : 1 = q := F64.finite.inj h
  decide +kernel

/-- The assumed screen is read back as it is. -/
theorem readBack_fallback : ScreenInfo.fallback ∈ ScreenInfo.fallback.readBack .tenths := by
  decide +kernel

/-- The initiator settles on the edge that faces the configured one. -/
theorem agree_of_run_sample :
    ∃ is, ∃ s ∈ run (step .tenths sampleInitiator sampleAcceptor) start is,
      s.initiator = .active ⟨"laptop", .fallback, some .left⟩ .right ∧ Edge.right =
        oppositeEdge .left := by
  obtain ⟨s, hrun, hinitiator, hacceptor⟩ :=
    @run_complete .tenths sampleInitiator sampleAcceptor rfl _ _ readBack_fallback
      readBack_fallback
  have hagree := (agree_of_run exact_fallback exact_fallback hrun).2.2 _ _ _ _ hinitiator hacceptor
  exact ⟨_, s, hrun, hinitiator, hagree.2 fun e _ he ↦ by cases he⟩

section Run

variable {fmt : FloatFormat} {initiator acceptor : Host} {s s' : Handshake}

/-- **Whether a handshake can be completed**: exactly when the builds are of one version and both
scale factors are finite, as long as what is written of a finite one can be read. -/
theorem exists_run_iff
    (hinitiator : ∀ q, initiator.screen.scaleFactor = .finite q → (fmt.read (fmt.write q)).isSome)
    (hacceptor : ∀ q, acceptor.screen.scaleFactor = .finite q → (fmt.read (fmt.write q)).isSome) :
    (∃ is, ∃ s ∈ run (step fmt initiator acceptor) start is,
      (∃ g target, s.initiator = .active g target) ∧ ∃ g target, s.acceptor = .active g target) ↔
    initiator.version = acceptor.version ∧ initiator.screen.scaleFactor.isFinite = true ∧
      acceptor.screen.scaleFactor.isFinite = true := by
  rw [← ScreenInfo.isSome_readBack_iff hinitiator, ← ScreenInfo.isSome_readBack_iff hacceptor]
  constructor
  · rintro ⟨is, s, hrun, ⟨g, target, hg⟩, -⟩
    have h : Sound fmt initiator acceptor s := (sound_run is).last hrun
    have hheld : s.initiator.holds? = some (g, target) := by rw [hg]; rfl
    obtain ⟨-, ⟨screen, hscreen, -⟩, -⟩ := h.answered g target hheld
    obtain ⟨⟨hversion, hread⟩, -⟩ := h.accepted hheld
    exact ⟨hversion, hread, Option.isSome_of_mem hscreen⟩
  · rintro ⟨hversion, hread, hread'⟩
    obtain ⟨s, hrun, hactive, hactive'⟩ :=
      run_complete hversion (Option.get_mem hread) (Option.get_mem hread')
    exact ⟨_, s, hrun, ⟨_, _, hactive⟩, _, _, hactive'⟩

end Run

/-- The literal of the assumed scale factor can be read. -/
theorem isSome_read_fallback (q : ℚ) (h : ScreenInfo.fallback.scaleFactor = .finite q) :
    (FloatFormat.tenths.read (FloatFormat.tenths.write q)).isSome := by
  rw [exact_fallback q h]
  rfl

/-- Two daemons of one build can, and one that scales by an infinite factor cannot. -/
theorem exists_run_iff_sample :
    (∃ is, ∃ s ∈ run (step .tenths sampleInitiator sampleAcceptor) start is,
      (∃ g target, s.initiator = .active g target) ∧ ∃ g target, s.acceptor = .active g target) ∧
    ¬ ∃ is, ∃ s ∈ run (step .tenths sampleInitiator { sampleAcceptor with
        screen := { ScreenInfo.fallback with scaleFactor := .inf false } }) start is,
      (∃ g target, s.initiator = .active g target) ∧ ∃ g target, s.acceptor = .active g target := by
  refine ⟨(exists_run_iff isSome_read_fallback isSome_read_fallback).2 ⟨rfl, rfl, rfl⟩, fun h ↦ ?_⟩
  have hfinite := (exists_run_iff isSome_read_fallback fun q hq ↦ by cases hq).1 h
  exact Bool.false_ne_true hfinite.2.2

end Handshake

end Kmflow
