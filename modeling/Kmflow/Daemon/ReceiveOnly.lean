import Kmflow.Daemon.Session

/-!
# The receive-only loop against the main loop

When the capture channel is closed the session goes on in a second `select!` loop, a copy of the
main loop without the captured-event arm. Seen from the network the copy should be the original, and
arm by arm it nearly is: the frame arms differ in the grab request only (`frameArm_agree`). The
handlers of `SwitchFocus` and `ReleaseFocus` differ in one field: the main loop stamps
`last_focus_switch`, which starts the edge cooldown, and the copy does not
(`receiveOnlyControlArm_stamped`).

`LoopPair` runs both loops in lock step on the same timed messages. They agree throughout exactly
when every message that hands focus back is handled at the instant the stamp already holds
(`agree_iff`).
-/

namespace Kmflow

open Transition

/-- What comes from the network: a datagram or a control message, or an error of either. -/
def Input.isNetwork : Input → Bool
  | frame _ _ | control _ _ => true
  | _ => false

/-- The two loops, started from the same shared state. -/
structure LoopPair where
  main : Session
  receiveOnly : Session

namespace LoopPair

/-- The same state at the head of either loop. -/
def start (d : DaemonState) : LoopPair where
  main := .start d
  receiveOnly := { Session.start d with phase := .receiveOnly }

/-- Both loops handle the same message at the same time. -/
def step (cfg : SessionConfig) (p : LoopPair) (i : Input) : Option LoopPair :=
  if i.isNetwork then
    (Session.step cfg p.main i).bind fun m ↦
      (Session.step cfg p.receiveOnly i).map fun r ↦ ⟨m, r⟩
  else none

/-- Towards the network and the emulator the two loops have done the same, and they are in the same
place with the same focus, cursor and stamp. -/
structure Agree (p : LoopPair) : Prop where
  controls : p.receiveOnly.controls = p.main.controls
  emitted : p.receiveOnly.emitted = p.main.emitted
  running : p.receiveOnly.phase = .receiveOnly ↔ p.main.phase = .mainLoop
  focusIsRemote : p.receiveOnly.daemon.focusIsRemote = p.main.daemon.focusIsRemote
  cursorX : p.receiveOnly.daemon.cursorX = p.main.daemon.cursorX
  cursorY : p.receiveOnly.daemon.cursorY = p.main.daemon.cursorY
  lastFocusSwitch : p.receiveOnly.daemon.lastFocusSwitch = p.main.daemon.lastFocusSwitch

/-- The condition on a message: if it hands focus back, the stamp holds the present instant. -/
def StampStands (p : LoopPair) : Input → Prop
  | .control env (some (.switchFocus _)) | .control env (some .releaseFocus) =>
    env.now = p.main.daemon.lastFocusSwitch
  | _ => True

/-! ### The arms side by side -/

/-- Two reactions with the same state and flow that say the same to the peer and the emulator. -/
structure SameTowardsNetwork (r r' : Reaction) : Prop where
  state : r.state = r'.state
  flow : r.flow = r'.flow
  controls : Output.controls r.outputs = Output.controls r'.outputs
  emitted : Output.emitted r.outputs = Output.emitted r'.outputs

theorem SameTowardsNetwork.refl (r : Reaction) : SameTowardsNetwork r r := ⟨rfl, rfl, rfl, rfl⟩

/-- **The frame arms differ in the grab request only.** -/
theorem frameArm_agree (cfg : SessionConfig) (env : Env) (d : DaemonState)
    (result : Option EventFrame) :
    SameTowardsNetwork (receiveOnlyFrameArm cfg env d result) (frameArm cfg env d result) := by
  cases result with
  | none => exact .refl _
  | some frame =>
    simp only [receiveOnlyFrameArm, frameArm]
    by_cases hlocal : (!d.focusIsRemote) = true
    · rw [if_pos hlocal, if_pos hlocal]
      rcases scanMoves cfg (inCooldown env d) d frame.events with t | ⟨t, _ | _⟩
      · exact .refl _
      · exact .refl _
      · exact ⟨rfl, rfl, rfl, rfl⟩
    · rw [if_neg hlocal, if_neg hlocal]
      exact .refl _

/-- **The control arms differ in the grab request and the stamp.** -/
theorem receiveOnlyControlArm_stamped (cfg : SessionConfig) (env : Env) (d : DaemonState)
    (result : Option ControlCommand)
    (hstamp : ∀ c, result = some c → (c = .releaseFocus ∨ ∃ toPeer, c = .switchFocus toPeer) →
      env.now = d.lastFocusSwitch) :
    SameTowardsNetwork (receiveOnlyControlArm cfg d result) (controlArm cfg env d result) := by
  match result with
  | none | some .peerDisconnecting | some (.ping _) | some (.pong _) | some (.handshake _ _ _ _)
  | some (.handshakeAck _ _ _ _) => exact .refl _
  | some (.switchFocus toPeer) =>
    have hnow := hstamp _ rfl (.inr ⟨toPeer, rfl⟩)
    refine ⟨?_, rfl, rfl, rfl⟩
    simp only [receiveOnlyControlArm, controlArm, hnow]
    rfl
  | some .releaseFocus =>
    have hnow := hstamp _ rfl (.inl rfl)
    refine ⟨?_, rfl, rfl, rfl⟩
    simp only [receiveOnlyControlArm, controlArm, hnow]
    rfl

/-! ### The two loops in lock step -/

/-- The invariant: the shared states are the same as a whole, the phases correspond, and so do the
outputs towards the network. -/
structure InStep (p : LoopPair) : Prop where
  daemon : p.receiveOnly.daemon = p.main.daemon
  phase : p.main.phase = .mainLoop ∧ p.receiveOnly.phase = .receiveOnly ∨
    p.main.phase = p.receiveOnly.phase ∧ p.main.phase ≠ .mainLoop ∧ p.main.phase ≠ .receiveOnly
  controls : p.receiveOnly.controls = p.main.controls
  emitted : p.receiveOnly.emitted = p.main.emitted

/-- The invariant says that the loops agree. -/
theorem InStep.agree {p : LoopPair} (h : InStep p) : Agree p where
  controls := h.controls
  emitted := h.emitted
  running := by
    rcases h.phase with ⟨hm, hr⟩ | ⟨heq, hm, hr⟩
    · simp [hm, hr]
    · rw [← heq]
      exact ⟨fun h ↦ absurd h hr, fun h ↦ absurd h hm⟩
  focusIsRemote := congrArg DaemonState.focusIsRemote h.daemon
  cursorX := congrArg DaemonState.cursorX h.daemon
  cursorY := congrArg DaemonState.cursorY h.daemon
  lastFocusSwitch := congrArg DaemonState.lastFocusSwitch h.daemon

/-- Reactions that are the same towards the network keep the loops in step. -/
theorem InStep.absorb {p : LoopPair} {r r' : Reaction} (h : InStep p)
    (hm : p.main.phase = .mainLoop) (hr : p.receiveOnly.phase = .receiveOnly)
    (hflow : r'.flow ≠ .receiveOnly) (hsame : SameTowardsNetwork r r')
    (channel channel' : List InputEvent) :
    InStep ⟨p.main.absorb r' channel', p.receiveOnly.absorb r channel⟩ := by
  obtain ⟨state, outputs, flow⟩ := r
  obtain ⟨state', outputs', flow'⟩ := r'
  obtain ⟨hstate, hsameflow, hcontrols, hemitted⟩ := hsame
  dsimp only at hstate hsameflow hcontrols hemitted
  subst hstate hsameflow
  refine ⟨rfl, ?_, ?_, ?_⟩
  · cases flow with
    | again => exact .inl ⟨hm, hr⟩
    | leave | panic => exact .inr ⟨rfl, nofun, nofun⟩
    | receiveOnly => exact absurd rfl hflow
  · have hbefore := h.controls
    simp only [Session.controls] at hbefore ⊢
    simp only [Session.absorb, Output.controls_append, hbefore, hcontrols]
  · have hbefore := h.emitted
    simp only [Session.emitted] at hbefore ⊢
    simp only [Session.absorb, Output.emitted_append, hbefore, hemitted]

/-- No network arm of the main loop goes on in the receive-only loop. -/
theorem frameArm_flow_ne (cfg : SessionConfig) (env : Env) (d : DaemonState)
    (result : Option EventFrame) : (frameArm cfg env d result).flow ≠ .receiveOnly := by
  cases result with
  | none => nofun
  | some frame =>
    simp only [frameArm]
    by_cases hlocal : (!d.focusIsRemote) = true
    · rw [if_pos hlocal]
      rcases scanMoves cfg (inCooldown env d) d frame.events with t | ⟨t, _ | _⟩ <;> nofun
    · rw [if_neg hlocal]
      nofun

/-- No control message leads to the receive-only loop. -/
theorem controlArm_flow_ne (cfg : SessionConfig) (env : Env) (d : DaemonState)
    (result : Option ControlCommand) : (controlArm cfg env d result).flow ≠ .receiveOnly := by
  match result with
  | none | some .peerDisconnecting | some (.ping _) | some (.pong _) | some (.handshake _ _ _ _)
  | some (.handshakeAck _ _ _ _) | some (.switchFocus _) | some .releaseFocus => nofun

/-- What a step of the pair is: both loops run their arm for the message. -/
inductive Handles (cfg : SessionConfig) (p : LoopPair) : Input → LoopPair → Prop
  | frame (env : Env) (result : Option EventFrame) : Handles cfg p (.frame env result)
    ⟨p.main.absorb (frameArm cfg env p.main.daemon result) p.main.channel,
      p.receiveOnly.absorb (receiveOnlyFrameArm cfg env p.main.daemon result)
        p.receiveOnly.channel⟩
  | control (env : Env) (result : Option ControlCommand) : Handles cfg p (.control env result)
    ⟨p.main.absorb (controlArm cfg env p.main.daemon result) p.main.channel,
      p.receiveOnly.absorb (receiveOnlyControlArm cfg p.main.daemon result)
        p.receiveOnly.channel⟩

/-- Past the loops nothing from the network is handled. -/
theorem step_network_of_left {cfg : SessionConfig} {s : Session} {i : Input}
    (hi : i.isNetwork = true) (hm : s.phase ≠ .mainLoop) (hr : s.phase ≠ .receiveOnly) :
    Session.step cfg s i = none := by
  cases i <;> cases hi <;> cases hp : s.phase <;>
    first | exact absurd hp hm | exact absurd hp hr | simp only [Session.step, hp]

/-- **Loops in step handle a message alike.** -/
theorem handles_of_step {cfg : SessionConfig} {p p' : LoopPair} {i : Input} (h : InStep p)
    (hstep : p' ∈ step cfg p i) :
    (p.main.phase = .mainLoop ∧ p.receiveOnly.phase = .receiveOnly) ∧ Handles cfg p i p' := by
  have hnetwork : i.isNetwork = true := by
    by_contra hnot
    rw [step, if_neg hnot] at hstep
    cases hstep
  rw [step, if_pos hnetwork] at hstep
  obtain ⟨m, hm, hstep⟩ := Option.bind_eq_some_iff.1 hstep
  obtain ⟨r, hr, rfl⟩ := Option.map_eq_some_iff.1 hstep
  rcases h.phase with ⟨hmain, hreceive⟩ | ⟨-, hnm, hnr⟩
  · refine ⟨⟨hmain, hreceive⟩, ?_⟩
    match i with
    | .frame env result =>
      simp only [Session.step, hmain, Option.some.injEq] at hm
      simp only [Session.step, hreceive, h.daemon, Option.some.injEq] at hr
      subst hm hr
      exact .frame env result
    | .control env result =>
      simp only [Session.step, hmain, Option.some.injEq] at hm
      simp only [Session.step, hreceive, h.daemon, Option.some.injEq] at hr
      subst hm hr
      exact .control env result
  · rw [step_network_of_left hnetwork hnm hnr] at hm
    cases hm

/-- **A message under a standing stamp keeps the loops in step.** -/
theorem inStep_step {cfg : SessionConfig} {p p' : LoopPair} {i : Input} (h : InStep p)
    (hC : StampStands p i) (hstep : p' ∈ step cfg p i) : InStep p' := by
  obtain ⟨⟨hmain, hreceive⟩, hhandles⟩ := handles_of_step h hstep
  cases hhandles with
  | frame env result =>
    exact h.absorb hmain hreceive (frameArm_flow_ne _ _ _ _) (frameArm_agree _ _ _ _) _ _
  | control env result =>
    refine h.absorb hmain hreceive (controlArm_flow_ne _ _ _ _)
      (receiveOnlyControlArm_stamped _ _ _ _ ?_) _ _
    rintro c rfl (rfl | ⟨toPeer, rfl⟩)
    · exact hC
    · exact hC

/-- **A message that hands focus back at another instant parts them.** -/
theorem not_agree_step {cfg : SessionConfig} {p p' : LoopPair} {i : Input} (h : InStep p)
    (hC : ¬ StampStands p i) (hstep : p' ∈ step cfg p i) : ¬ Agree p' := by
  obtain ⟨-, hhandles⟩ := handles_of_step h hstep
  intro hagree
  cases hhandles with
  | frame env result => exact hC trivial
  | control env result =>
    have hstamp := hagree.lastFocusSwitch
    match result with
    | none | some .peerDisconnecting | some (.ping _) | some (.pong _) | some (.handshake _ _ _ _)
    | some (.handshakeAck _ _ _ _) => exact hC trivial
    | some (.switchFocus _) | some .releaseFocus => exact hC hstamp.symm

/-- **The receive-only loop behaves like the main loop exactly under a standing stamp.** For every
shared state to start from and every sequence of timed messages: the two loops agree after every
message, if and only if each message that hands focus back is handled at the instant that
`last_focus_switch` already holds. -/
theorem agree_iff (cfg : SessionConfig) (d : DaemonState) (is : List Input) :
    Throughout (step cfg) Agree (start d) is ↔ EachStep (step cfg) StampStands (start d) is := by
  have hstart : InStep (start d) := ⟨rfl, .inl ⟨rfl, rfl⟩, rfl, rfl⟩
  exact throughout_iff_eachStep (I := InStep) (fun _ h ↦ h.agree)
    (fun _ _ h hC _ hstep ↦ inStep_step h hC hstep)
    (fun _ _ h hC _ hstep ↦ not_agree_step h hC hstep) hstart is

/-- The messages that fail: the peer gives focus back, and a tenth of a second later its mouse
reaches the edge again. -/
def quickReturn : List Input :=
  [.control (.at 1000000000) (some .releaseFocus),
    .frame (.at 1100000000) (some ⟨1, 0, [.mouseMove (.finite 1000) (.finite 0)]⟩)]

/-- The main loop is in its cooldown and replays the move; the receive-only loop takes the focus. -/
theorem not_agree_quickReturn :
    ¬ Throughout (step .fallback) Agree (start (.new .fallback 0)) quickReturn := by
  have hview : (run (step .fallback) (start (.new .fallback 0)) quickReturn).map
      (fun p ↦ (p.main.controls, p.receiveOnly.controls)) = some ([], [.switchFocus "remote"]) := by
    decide +kernel
  obtain ⟨t, ht, hview⟩ := Option.map_eq_some_iff.1 hview
  simp only [Prod.mk.injEq] at hview
  refine not_throughout_of_run ht fun hagree ↦ ?_
  have hcontrols := hagree.controls
  rw [hview.1, hview.2] at hcontrols
  cases hcontrols

end LoopPair

end Kmflow
