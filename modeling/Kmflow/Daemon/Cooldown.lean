import Kmflow.Daemon.Outcome
import Kmflow.Daemon.ReceiveOnly
import Kmflow.Daemon.Scan

/-!
# The cooldown after focus came back

When the peer hands focus back, a move that is still under way could take it straight to the peer
again. `EDGE_COOLDOWN` is there to prevent that: the handlers of the main loop put the time into
`last_focus_switch`, and a frame that arrives less than the cooldown later may not hit the edge.

Three places hand focus to the peer, and the stamp protects one of them. A frame in the main loop
keeps the cooldown whatever it holds. A captured move does not look at the stamp at all, and the
receive-only loop looks at it and never sets it. So a session keeps the cooldown exactly when the
other two happen to come late enough (`keepsCooldown_iff`).
-/

namespace Kmflow

open Transition

/-! ### Which steps hand focus to the peer -/

/-- The clock a step reads. -/
def Input.now? : Input → Option ℕ
  | captured env _ | frame env _ | control env _ | cleanup env => some env.now
  | push _ | shutdown | clipboardOutgoing _ _ | clipboardReceived _ | captureClosed => none

/-- The move, or one of the moves, that the step looks at takes the cursor to the edge. -/
def ReachesEdge (cfg : SessionConfig) (s : Session) : Input → Prop
  | .captured _ _ => ∃ event ∈ s.channel.head?, Reaches cfg false s.daemon [event]
  | .frame env (some frame) => Reaches cfg (inCooldown env s.daemon) s.daemon frame.events
  | _ => False

section Arms

variable {cfg : SessionConfig} {env : Env} {d : DaemonState}

/-- A frame with one event reaches the edge exactly when the event is a move to it. -/
theorem reaches_singleton_iff {event : InputEvent} :
    Reaches cfg false d [event] ↔
      ∃ dx dy t, event = .mouseMove dx dy ∧ trackMove cfg.localScreen dx dy d = .ok t ∧
        cfg.edgeDetector.check t.cursorX t.cursorY ≠ .none := by
  match event with
  | .mouseButton _ _ | .scroll _ _ | .key _ _ =>
    rw [reaches_cons_of_not_move rfl]
    exact ⟨fun h ↦ absurd h not_reaches_nil, fun ⟨_, _, _, h, _⟩ ↦ by cases h⟩
  | .mouseMove dx dy =>
    rw [reaches_cons_move]
    constructor
    · rintro ⟨t, hmove, ⟨_, hedge⟩ | h⟩
      · exact ⟨dx, dy, t, rfl, hmove, hedge⟩
      · exact absurd h not_reaches_nil
    · rintro ⟨_, _, t, h, hmove, hedge⟩
      obtain ⟨rfl, rfl⟩ := InputEvent.mouseMove.inj h
      exact ⟨t, hmove, .inl ⟨rfl, hedge⟩⟩

/-- A captured event hands focus to the peer when it is a move that reaches the edge. -/
theorem keepLocal_focusIsRemote_iff {event : InputEvent} (hd : d.focusIsRemote = false) :
    (keepLocal cfg (trackKeyState d event) event).state.focusIsRemote = true ↔
      Reaches cfg false d [event] := by
  rw [reaches_singleton_iff]
  match event with
  | .mouseButton _ _ | .scroll _ _ | .key _ _ =>
    simp [keepLocal, hd]
  | .mouseMove dx dy =>
    have hkept {t : DaemonState}
        (h : trackMove cfg.localScreen dx dy d = .ok t ∨
          trackMove cfg.localScreen dx dy d = .error t) : t.focusIsRemote = false :=
      (trackMove_movesCursor h).focusIsRemote.trans hd
    show (keepLocal cfg d (.mouseMove dx dy)).state.focusIsRemote = true ↔ _
    cases hmove : trackMove cfg.localScreen dx dy d with
    | error t => simp [keepLocal, hmove, hkept (.inr hmove)]
    | ok t =>
      by_cases hedge : cfg.edgeDetector.check t.cursorX t.cursorY = .none
      · simp [keepLocal, hmove, hedge, hkept (.inl hmove)]
      · simp [keepLocal, hmove, hedge, centerCursor]

/-- A frame hands focus to the peer when a move of it reaches the edge. -/
theorem frameArm_focusIsRemote_iff {frame : EventFrame} (hd : d.focusIsRemote = false) :
    (frameArm cfg env d (some frame)).state.focusIsRemote = true ↔
      Reaches cfg (inCooldown env d) d frame.events := by
  rw [reaches_iff_scanMoves]
  rcases hscan : scanMoves cfg (inCooldown env d) d frame.events with t | ⟨t, _ | _⟩
  · have ht := (scanMoves_movesCursor (.inr hscan)).focusIsRemote
    simp [frameArm, hd, hscan, ht]
  · have ht := (scanMoves_movesCursor (.inl ⟨_, hscan⟩)).focusIsRemote
    simp [frameArm, hd, hscan, ht]
  · simp [frameArm, hd, hscan, centerCursor]

end Arms

/-- **What raises the flag.** A step hands focus to the peer exactly when a move it looks at reaches
the edge. -/
theorem focusIsRemote_iff_of_step {cfg : SessionConfig} {s s' : Session} {i : Input}
    (hs' : s' ∈ Session.step cfg s i) (hfocus : s.daemon.focusIsRemote = false) :
    s'.daemon.focusIsRemote = true ↔ ReachesEdge cfg s i := by
  have hlowered (h : s'.daemon.focusIsRemote = false) : s'.daemon.focusIsRemote = true ↔ False := by
    simp [h]
  cases armStep_of_step hs' with
  | captured env ready event rest _ hch =>
    have harm : (capturedArm cfg env s.daemon event (rest.take ready)).1 =
        keepLocal cfg (trackKeyState s.daemon event) event := by
      simp [capturedArm, hfocus]
    have hreach : ReachesEdge cfg s (.captured env ready) ↔ Reaches cfg false s.daemon [event] := by
      simp [ReachesEdge, hch]
    show (capturedArm cfg env s.daemon event (rest.take ready)).1.state.focusIsRemote = true ↔ _
    rw [harm, hreach]
    exact keepLocal_focusIsRemote_iff hfocus
  | frame env result =>
    cases result with
    | none => exact hlowered hfocus
    | some frame => exact frameArm_focusIsRemote_iff hfocus
  | receiveOnlyFrame env result =>
    cases result with
    | none => exact hlowered hfocus
    | some frame =>
      have hstate := (LoopPair.frameArm_agree cfg env s.daemon (some frame)).state
      show (receiveOnlyFrameArm cfg env s.daemon (some frame)).state.focusIsRemote = true ↔ _
      rw [hstate]
      exact frameArm_focusIsRemote_iff hfocus
  | control => exact hlowered (by unfold controlArm; split <;> first | rfl | exact hfocus)
  | receiveOnlyControl =>
    exact hlowered (by unfold receiveOnlyControlArm; split <;> first | rfl | exact hfocus)
  | push | captureClosed | shutdown | clipboardOutgoing | clipboardReceived =>
    exact hlowered hfocus
  | cleanup => exact hlowered rfl

/-- Tracking an event is no switch of focus. -/
theorem trackKeyState_lastFocusSwitch (d : DaemonState) (e : InputEvent) :
    (trackKeyState d e).lastFocusSwitch = d.lastFocusSwitch := by
  rw [trackKeyState_eq]

/-- Nor is tracking any number of them. -/
theorem tracked_lastFocusSwitch (d : DaemonState) (es : List InputEvent) :
    (tracked d es).lastFocusSwitch = d.lastFocusSwitch := by
  induction es generalizing d with
  | nil => rfl
  | cons e es ih =>
    show (tracked (trackKeyState d e) es).lastFocusSwitch = _
    rw [ih, trackKeyState_lastFocusSwitch]

/-- Nor is moving the cursor. -/
theorem MovesCursor.lastFocusSwitch {d d' : DaemonState} (h : MovesCursor d d') :
    d'.lastFocusSwitch = d.lastFocusSwitch := by
  obtain ⟨x, y, rfl⟩ := h
  rfl

/-- **Who writes the stamp.** In the main loop the stamp is the time of a hand-back that the step
handles, and otherwise stays. -/
theorem lastFocusSwitch_of_step {cfg : SessionConfig} {s s' : Session} {i : Input}
    (hs' : s' ∈ Session.step cfg s i) (hphase' : s'.phase = .mainLoop) :
    s.phase = .mainLoop ∧
      ((∃ env c, i = .control env (some c) ∧ s'.daemon.lastFocusSwitch = env.now) ∨
        (∀ env c, i = .control env (some c) → c.handsBack = false) ∧
          s'.daemon.lastFocusSwitch = s.daemon.lastFocusSwitch) := by
  cases outcome_of_step hs' with
  | push _ hphase => exact ⟨hphase, .inr ⟨(fun _ _ h ↦ by cases h), rfl⟩⟩
  | idle d outs phase hrun hd houts hphase hpush hcapt hclean hctrl =>
    obtain rfl : phase = .mainLoop := hphase'
    refine ⟨?_, .inr ⟨hctrl, hd.lastFocusSwitch⟩⟩
    rcases hphase with h | h | h
    · exact h.symm
    · cases h
    · cases h.1
  | keep _ _ _ _ hphase _ _ hd _ =>
    exact ⟨hphase, .inr ⟨(fun _ _ h ↦ by cases h),
      hd.lastFocusSwitch.trans (trackKeyState_lastFocusSwitch _ _)⟩⟩
  | edgeHit _ _ _ hphase _ _ hd =>
    exact ⟨hphase, .inr ⟨(fun _ _ h ↦ by cases h),
      hd.lastFocusSwitch.trans (trackKeyState_lastFocusSwitch _ _)⟩⟩
  | emergency _ _ hphase =>
    exact ⟨hphase, .inr ⟨(fun _ _ h ↦ by cases h), trackKeyState_lastFocusSwitch _ _⟩⟩
  | forward _ _ hphase =>
    exact ⟨hphase, .inr ⟨(fun _ _ h ↦ by cases h), tracked_lastFocusSwitch _ _⟩⟩
  | frameHit _ hphase _ hd =>
    exact ⟨hphase, .inr ⟨(fun _ _ h ↦ by cases h), hd.lastFocusSwitch⟩⟩
  | handBack _ hphase => exact ⟨hphase, .inl ⟨_, _, rfl, rfl⟩⟩
  | captureClosed | receiveOnlyFrameHit | receiveOnlyHandBack | cleanup => cases hphase'

/-- A frame is received in one of the loops. -/
theorem phase_of_frame_step {cfg : SessionConfig} {s s' : Session} {env : Env}
    {result : Option EventFrame} (hs' : s' ∈ Session.step cfg s (.frame env result)) :
    s.phase = .mainLoop ∨ s.phase = .receiveOnly := by
  cases hphase : s.phase <;> simp [Session.step, hphase] at hs' ⊢

/-! ### The session against the clock -/

/-- A session, the clock it last read, and when it has handled messages that hand focus back. -/
structure TimedSession where
  session : Session
  clock : ℕ
  handBacks : List ℕ

namespace TimedSession

/-- A session at its first head, with nothing switched yet. -/
def start (d : DaemonState) (clock : ℕ) : TimedSession := ⟨.start d, clock, []⟩

/-- The times of hand-backs, after one more step. -/
def record (handBacks : List ℕ) : Input → List ℕ
  | .control env (some c) => if c.handsBack then env.now :: handBacks else handBacks
  | _ => handBacks

/-- A step of the session, under a clock that does not go back. -/
def step (cfg : SessionConfig) (s : TimedSession) (i : Input) : Option TimedSession :=
  let now := i.now?.getD s.clock
  if s.clock ≤ now then
    (Session.step cfg s.session i).map fun session ↦ ⟨session, now, record s.handBacks i⟩
  else none

/-- The cooldown of every hand-back is over. -/
def Cooled (s : TimedSession) (now : ℕ) : Prop := ∀ t ∈ s.handBacks, t + edgeCooldown ≤ now

/-- The step does not raise the flag within the cooldown of a hand-back. -/
def KeepsCooldown (cfg : SessionConfig) (s : TimedSession) (i : Input) : Prop :=
  ∀ s' ∈ step cfg s i, s.session.daemon.focusIsRemote = false →
    s'.session.daemon.focusIsRemote = true → s.Cooled s'.clock

/-- The condition: a captured move, or in the receive-only loop a received one, that reaches the
edge while focus is local does so when the cooldown of every hand-back is over. -/
def ReachesLate (cfg : SessionConfig) (s : TimedSession) : Input → Prop
  | .captured env ready => s.session.daemon.focusIsRemote = false →
    ReachesEdge cfg s.session (.captured env ready) → s.Cooled env.now
  | .frame env (some frame) => s.session.phase = .receiveOnly →
    s.session.daemon.focusIsRemote = false →
      ReachesEdge cfg s.session (.frame env (some frame)) → s.Cooled env.now
  | _ => True

/-- The invariant: no hand-back lies ahead of the clock, and in the main loop none is later than the
stamp. -/
structure Stamped (s : TimedSession) : Prop where
  past : ∀ t ∈ s.handBacks, t ≤ s.clock
  stamped : s.session.phase = .mainLoop → ∀ t ∈ s.handBacks, t ≤ s.session.daemon.lastFocusSwitch

/-- What a step does: time goes on, the session takes its step, and a hand-back is written down. -/
theorem mem_step {cfg : SessionConfig} {s s' : TimedSession} {i : Input}
    (hs' : s' ∈ step cfg s i) :
    s.clock ≤ i.now?.getD s.clock ∧ s'.session ∈ Session.step cfg s.session i ∧
      s'.clock = i.now?.getD s.clock ∧ s'.handBacks = record s.handBacks i := by
  simp only [step] at hs'
  split_ifs at hs' with hclock
  · obtain ⟨session, hsession, rfl⟩ := Option.map_eq_some_iff.1 hs'
    exact ⟨hclock, hsession, rfl, rfl⟩
  · cases hs'

/-- At the start focus has not been handed back. -/
theorem stamped_start (d : DaemonState) (clock : ℕ) : Stamped (start d clock) := ⟨nofun, nofun⟩

/-- What hands nothing back is not written down. -/
theorem record_of_not_handsBack {handBacks : List ℕ} {i : Input}
    (hi : ∀ env c, i = .control env (some c) → c.handsBack = false) :
    record handBacks i = handBacks := by
  match i with
  | .control env (some c) => simp [record, hi env c rfl]
  | .control _ none | .push _ | .shutdown | .clipboardOutgoing _ _ | .clipboardReceived _
  | .captured _ _ | .captureClosed | .frame _ _ | .cleanup _ => rfl

/-- **The stamps are right after every step.** -/
theorem stamped_step {cfg : SessionConfig} {s s' : TimedSession} {i : Input} (hs : Stamped s)
    (hs' : s' ∈ step cfg s i) : Stamped s' := by
  obtain ⟨hle, hsession, hclock, hhandBacks⟩ := mem_step hs'
  have hpast : ∀ t ∈ s'.handBacks, t ≤ s'.clock := by
    intro t ht
    rw [hhandBacks] at ht
    rw [hclock]
    by_cases hi : ∀ env c, i = .control env (some c) → c.handsBack = false
    · rw [record_of_not_handsBack hi] at ht
      exact (hs.past t ht).trans hle
    · simp only [not_forall] at hi
      obtain ⟨env, c, rfl, hc⟩ := hi
      simp only [record, eq_true_of_ne_false hc, if_true] at ht
      rcases List.mem_cons.1 ht with rfl | ht
      · exact le_rfl
      · exact (hs.past t ht).trans hle
  refine ⟨hpast, fun hphase' t ht ↦ ?_⟩
  obtain ⟨hphase, ⟨env, c, rfl, hlast⟩ | ⟨hi, hlast⟩⟩ := lastFocusSwitch_of_step hsession hphase'
  · rw [hlast]
    exact (hpast t ht).trans hclock.le
  · rw [hhandBacks, record_of_not_handsBack hi] at ht
    rw [hlast]
    exact hs.stamped hphase t ht

/-- A frame in the main loop keeps the cooldown, whatever it holds. -/
theorem cooled_of_reachesEdge {cfg : SessionConfig} {s : TimedSession} (hs : Stamped s)
    (hphase : s.session.phase = .mainLoop) {env : Env} {frame : EventFrame}
    (hreach : ReachesEdge cfg s.session (.frame env (some frame))) : s.Cooled env.now := by
  intro t ht
  have hcool : ¬ env.now - s.session.daemon.lastFocusSwitch < edgeCooldown :=
    of_decide_eq_false hreach.1
  have hlast := hs.stamped hphase t ht
  have hpos : 0 < edgeCooldown := by decide
  omega

/-- A step keeps the cooldown exactly when the edge it reaches, if it does, is reached late enough;
in the main loop frames always do. -/
theorem keepsCooldown_iff_reachesLate {cfg : SessionConfig} {s s' : TimedSession} {i : Input}
    (hs : Stamped s) (hs' : s' ∈ step cfg s i) :
    KeepsCooldown cfg s i ↔ ReachesLate cfg s i := by
  obtain ⟨_, hsession, hclock, _⟩ := mem_step hs'
  have hkeeps : KeepsCooldown cfg s i ↔ (s.session.daemon.focusIsRemote = false →
      ReachesEdge cfg s.session i → s.Cooled (i.now?.getD s.clock)) := by
    constructor
    · intro h hfocus hreach
      exact hclock ▸ h s' hs' hfocus ((focusIsRemote_iff_of_step hsession hfocus).2 hreach)
    · intro h t ht hfocus hraised
      obtain ⟨_, hsession, hclock, _⟩ := mem_step ht
      exact hclock ▸ h hfocus ((focusIsRemote_iff_of_step hsession hfocus).1 hraised)
  rw [hkeeps]
  match i with
  | .captured env ready => exact Iff.rfl
  | .frame env (some frame) =>
    refine ⟨fun h _ ↦ h, fun h hfocus hreach ↦ ?_⟩
    rcases phase_of_frame_step hsession with hphase | hphase
    · exact cooled_of_reachesEdge hs hphase hreach
    · exact h hphase hfocus hreach
  | .frame _ none | .push _ | .shutdown | .clipboardOutgoing _ _ | .clipboardReceived _
  | .captureClosed | .control _ _ | .cleanup _ =>
    exact ⟨fun _ ↦ trivial, fun _ _ h ↦ h.elim⟩

/-- **The cooldown holds exactly when the two unguarded moves are late.** In every run of a
session, under a clock that does not go back, no edge hit comes within the cooldown of a hand-back
if and only if no captured move, and in the receive-only loop no received one, reaches the edge that
early. -/
theorem keepsCooldown_iff (cfg : SessionConfig) (d : DaemonState) (clock : ℕ) (is : List Input) :
    EachStep (step cfg) (KeepsCooldown cfg) (start d clock) is ↔
      EachStep (step cfg) (ReachesLate cfg) (start d clock) is := by
  constructor
  · exact EachStep.of_invariant (I := Stamped) (fun s i hs hi s' hs' ↦
      ⟨(keepsCooldown_iff_reachesLate hs hs').1 hi, stamped_step hs hs'⟩) (stamped_start d clock)
  · exact EachStep.of_invariant (I := Stamped) (fun s i hs hi s' hs' ↦
      ⟨(keepsCooldown_iff_reachesLate hs hs').2 hi, stamped_step hs hs'⟩) (stamped_start d clock)

/-- A move to the right edge is captured while the peer hands focus back, ten nanoseconds later it
is handled. -/
def bounceRun : List Input :=
  [.push (.mouseMove (.finite 2000) (.finite 0)), .control (.at 10) (some .releaseFocus)]

/-- The captured move takes focus to the peer ten nanoseconds after the peer has given it back. -/
theorem not_keepsCooldown_bounceRun :
    ¬ EachStep (step .fallback) (KeepsCooldown .fallback) (start (.new .fallback 0) 0)
      (bounceRun ++ [.captured (.at 20) 0]) := by
  have hview : ((run (step .fallback) (start (.new .fallback 0) 0) bounceRun).bind fun s ↦
      (step .fallback s (.captured (.at 20) 0)).map fun s' ↦
        (s.session.daemon.focusIsRemote, s.handBacks, s'.session.daemon.focusIsRemote, s'.clock)) =
      some (false, [10], true, 20) := by
    decide +kernel
  obtain ⟨s, hs, hview⟩ := Option.bind_eq_some_iff.1 hview
  obtain ⟨s', hs', hview⟩ := Option.map_eq_some_iff.1 hview
  simp only [Prod.mk.injEq] at hview
  obtain ⟨hfocus, hhandBacks, hraised, hclock⟩ := hview
  intro h
  have hcooled := h.of_run hs hs' s' hs' hfocus hraised 10 (by rw [hhandBacks]; exact .head _)
  rw [hclock] at hcooled
  exact absurd hcooled (by decide)

end TimedSession

end Kmflow
