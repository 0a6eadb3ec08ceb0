import Kmflow.Daemon.Session

/-!
# What one step of a session can do

`armStep_of_step` takes `peer_session` apart once: a step of a session is one of the arms of
`ArmStep`, with the guard of the arm and the reaction it leads to. `outcome_of_step` takes the arms
apart in turn: every step is one of the cases of `Outcome`, each with its guard and the whole state
after it. Later arguments about runs are case analyses over `Outcome`, or over `ArmStep` where they
are about what an arm reacts with; none of them unfolds the step again. The frame arms of the two
loops react alike but for a hit, which `FrameReaction` says of both.

Most arms are `idle` for the purposes of those arguments: they may move the cursor, answer a ping,
feed the emulator or leave the loop, but they change neither focus nor what is tracked as held, and
they hand nothing to the peer's input stream and nothing to the capture thread. The other cases are
the ones the sources write by hand, one by one.
-/

namespace Kmflow

/-- The peer gives focus back: `SwitchFocus` or `ReleaseFocus`. -/
def ControlCommand.handsBack : ControlCommand → Bool
  | switchFocus _ => true
  | releaseFocus => true
  | _ => false

/-! ### States that differ in the cursor only -/

/-- The second state is the first with the cursor moved. -/
def MovesCursor (s s' : DaemonState) : Prop :=
  ∃ x y, s' = { s with cursorX := x, cursorY := y }

theorem MovesCursor.refl (s : DaemonState) : MovesCursor s s := ⟨s.cursorX, s.cursorY, rfl⟩

/-- The cursor may move more than once. -/
theorem MovesCursor.trans {s t u : DaemonState} (hst : MovesCursor s t) (htu : MovesCursor t u) :
    MovesCursor s u := by
  obtain ⟨x, y, rfl⟩ := hst
  obtain ⟨x', y', rfl⟩ := htu
  exact ⟨x', y', rfl⟩

theorem MovesCursor.focusIsRemote {s s' : DaemonState} (h : MovesCursor s s') :
    s'.focusIsRemote = s.focusIsRemote := by
  obtain ⟨x, y, rfl⟩ := h
  rfl

theorem MovesCursor.pressed {s s' : DaemonState} (h : MovesCursor s s') :
    s'.pressed = s.pressed := by
  obtain ⟨x, y, rfl⟩ := h
  rfl

theorem MovesCursor.connectionState {s s' : DaemonState} (h : MovesCursor s s') :
    s'.connectionState = s.connectionState := by
  obtain ⟨x, y, rfl⟩ := h
  rfl

/-- Tracking a move touches the cursor only, even where it panics half way. -/
theorem trackMove_movesCursor {screen : ScreenInfo} {dx dy : F64} {s s' : DaemonState}
    (h : trackMove screen dx dy s = .ok s' ∨ trackMove screen dx dy s = .error s') :
    MovesCursor s s' := by
  rw [trackMove] at h
  cases hx : trackAxis screen.width s.cursorX dx with
  | none =>
    -- the clamp of the first side panics before anything is written
    rw [hx] at h
    rcases h with h | h
    · cases h
    · cases h; exact .refl _
  | some x =>
    rw [hx] at h
    cases hy : trackAxis screen.height s.cursorY dy with
    | none =>
      -- that of the second one, after the first coordinate was written
      rw [hy] at h
      rcases h with h | h
      · cases h
      · cases h; exact ⟨x, s.cursorY, rfl⟩
    | some y =>
      rw [hy] at h
      rcases h with h | h
      · cases h; exact ⟨x, y, rfl⟩
      · cases h

/-- So does going over the moves of a frame, wherever that ends. -/
theorem scanMoves_movesCursor {cfg : SessionConfig} {cooldown : Bool} {es : List InputEvent}
    {s s' : DaemonState}
    (h : (∃ hit, scanMoves cfg cooldown s es = .ok (s', hit)) ∨
      scanMoves cfg cooldown s es = .error s') :
    MovesCursor s s' := by
  induction es generalizing s with
  | nil =>
    rcases h with ⟨hit, h⟩ | h
    · cases h; exact .refl _
    · cases h
  | cons e es ih =>
    match e with
    | .mouseButton _ _ | .scroll _ _ | .key _ _ => exact ih h
    | .mouseMove dx dy =>
      simp only [scanMoves] at h
      cases hmove : trackMove cfg.localScreen dx dy s with
      | error t =>
        rw [hmove] at h
        rcases h with ⟨hit, h⟩ | h
        · cases h
        · cases h; exact trackMove_movesCursor (.inr hmove)
      | ok t =>
        rw [hmove] at h
        have hst : MovesCursor s t := trackMove_movesCursor (.inl hmove)
        dsimp only at h
        split at h
        · rcases h with ⟨hit, h⟩ | h
          · cases h; exact hst
          · cases h
        · exact hst.trans (ih h)

/-! ### The batch loop -/

/-- The batch loop takes what is waiting, up to the limit, and tracks each event it takes. -/
theorem drain_eq (s : DaemonState) (batch waiting : List InputEvent) :
    drain s batch waiting =
      ((waiting.take (eventBatchLimit - batch.length)).foldl trackKeyState s,
        batch ++ waiting.take (eventBatchLimit - batch.length),
        waiting.drop (eventBatchLimit - batch.length)) := by
  induction waiting generalizing s batch with
  | nil => simp [drain]
  | cons ev waiting ih =>
    rw [drain]
    split_ifs with hlt
    · -- there is room for one more, so what is left of the limit goes down by one
      obtain ⟨k, hk⟩ : ∃ k, eventBatchLimit - batch.length = k + 1 :=
        ⟨eventBatchLimit - batch.length - 1, by omega⟩
      have hk' : eventBatchLimit - (batch ++ [ev]).length = k := by
        rw [List.length_append, List.length_singleton]
        omega
      rw [ih, hk', hk]
      simp
    · rw [Nat.sub_eq_zero_of_le (Nat.not_lt.1 hlt)]
      simp

/-- How many events the batch loop takes after the first. -/
def drained (ready : ℕ) : ℕ := min ready (eventBatchLimit - 1)

/-- What the emergency hotkey hands to the peer's input stream is its flush. -/
theorem forwarded_emergencyRelease (env : Env) (d : DaemonState) :
    Output.forwarded (emergencyRelease env d).outputs = flushPressedKeys env.order d := by
  have h : flushPressedKeys env.order { d with focusIsRemote := false } =
    flushPressedKeys env.order d := rfl
  simp only [emergencyRelease, h]
  cases flushPressedKeys env.order d <;> simp

/-! ### Arms -/

/-- **Which arm a step is**, with its guard and the state the arm leads to. -/
inductive ArmStep (cfg : SessionConfig) (s : Session) : Input → Session → Prop
  | push (event : InputEvent) (hphase : s.phase = .mainLoop) :
    ArmStep cfg s (.push event) { s with channel := s.channel ++ [event] }
  | captured (env : Env) (ready : ℕ) (event : InputEvent) (rest : List InputEvent)
      (hphase : s.phase = .mainLoop) (hch : s.channel = event :: rest) :
    ArmStep cfg s (.captured env ready)
      (s.absorb (capturedArm cfg env s.daemon event (rest.take ready)).1
        ((capturedArm cfg env s.daemon event (rest.take ready)).2 ++ rest.drop ready))
  | captureClosed (hphase : s.phase = .mainLoop) (hch : s.channel = []) :
    ArmStep cfg s .captureClosed (s.absorb ⟨s.daemon, [], .receiveOnly⟩ [])
  | frame (env : Env) (result : Option EventFrame) (hphase : s.phase = .mainLoop) :
    ArmStep cfg s (.frame env result) (s.absorb (frameArm cfg env s.daemon result) s.channel)
  | control (env : Env) (result : Option ControlCommand) (hphase : s.phase = .mainLoop) :
    ArmStep cfg s (.control env result) (s.absorb (controlArm cfg env s.daemon result) s.channel)
  | receiveOnlyFrame (env : Env) (result : Option EventFrame) (hphase : s.phase = .receiveOnly) :
    ArmStep cfg s (.frame env result)
      (s.absorb (receiveOnlyFrameArm cfg env s.daemon result) s.channel)
  | receiveOnlyControl (env : Env) (result : Option ControlCommand)
      (hphase : s.phase = .receiveOnly) :
    ArmStep cfg s (.control env result)
      (s.absorb (receiveOnlyControlArm cfg s.daemon result) s.channel)
  | shutdown (hrun : s.phase = .mainLoop ∨ s.phase = .receiveOnly) :
    ArmStep cfg s .shutdown (s.absorb (shutdownArm s.daemon) s.channel)
  | clipboardOutgoing (payload : ClipboardPayload) (sent : Bool)
      (hrun : s.phase = .mainLoop ∨ s.phase = .receiveOnly) :
    ArmStep cfg s (.clipboardOutgoing payload sent)
      (s.absorb (clipboardOutgoingArm s.daemon payload sent) s.channel)
  | clipboardReceived (payload : ClipboardPayload)
      (hrun : s.phase = .mainLoop ∨ s.phase = .receiveOnly) :
    ArmStep cfg s (.clipboardReceived payload)
      (s.absorb (clipboardReceivedArm s.daemon payload) s.channel)
  | cleanup (env : Env) (hphase : s.phase = .left) :
    ArmStep cfg s (.cleanup env) ⟨(Kmflow.cleanup env s.daemon).1, s.channel, .cleanedUp,
      s.outputs ++ (Kmflow.cleanup env s.daemon).2⟩

/-- **A step is one of the arms.** This is the one place where the step is taken apart. -/
theorem armStep_of_step {cfg : SessionConfig} {s s' : Session} {i : Input}
    (h : s' ∈ Session.step cfg s i) : ArmStep cfg s i s' := by
  unfold Session.step at h
  split at h
  case h_1 hphase =>
    split_ifs at h
    · obtain rfl := Option.some.inj h
      exact .push _ hphase
    · cases h
  case h_2 hphase =>
    cases hch : s.channel with
    | nil => rw [hch] at h; cases h
    | cons event rest =>
      rw [hch] at h
      obtain rfl := Option.some.inj h
      exact .captured _ _ event rest hphase hch
  case h_3 hphase =>
    split_ifs at h with hch
    · obtain rfl := Option.some.inj h
      exact .captureClosed hphase hch
    · cases h
  case h_4 hphase => obtain rfl := Option.some.inj h; exact .frame _ _ hphase
  case h_5 hphase => obtain rfl := Option.some.inj h; exact .control _ _ hphase
  case h_6 hphase => obtain rfl := Option.some.inj h; exact .receiveOnlyFrame _ _ hphase
  case h_7 hphase => obtain rfl := Option.some.inj h; exact .receiveOnlyControl _ _ hphase
  case h_8 hphase => obtain rfl := Option.some.inj h; exact .shutdown (.inl hphase)
  case h_9 hphase => obtain rfl := Option.some.inj h; exact .shutdown (.inr hphase)
  case h_10 hphase => obtain rfl := Option.some.inj h; exact .clipboardOutgoing _ _ (.inl hphase)
  case h_11 hphase => obtain rfl := Option.some.inj h; exact .clipboardOutgoing _ _ (.inr hphase)
  case h_12 hphase => obtain rfl := Option.some.inj h; exact .clipboardReceived _ (.inl hphase)
  case h_13 hphase => obtain rfl := Option.some.inj h; exact .clipboardReceived _ (.inr hphase)
  case h_14 hphase => obtain rfl := Option.some.inj h; exact .cleanup _ hphase
  case h_15 => cases h

/-! ### What the arms hand out -/

/-- For the peer's streams or the capture thread, neither for the emulator nor for a clipboard. -/
def Output.isPlain : Output → Bool
  | datagram _ | control _ | grab _ => true
  | emit _ | clipboardToPeer _ | clipboardToDesktop _ => false

/-- What is not looked for in plain outputs is not there. -/
theorem filterMap_eq_nil_of_isPlain {α : Type*} {f : Output → Option α}
    (hf : ∀ o, o.isPlain = true → f o = none) {outs : List Output}
    (h : outs.all Output.isPlain = true) : outs.filterMap f = [] :=
  List.filterMap_eq_nil_iff.2 fun o ho ↦ hf o (List.all_eq_true.1 h o ho)

/-- The captured-event arm feeds neither the emulator nor a clipboard. -/
theorem isPlain_capturedArm (cfg : SessionConfig) (env : Env) (d : DaemonState)
    (event : InputEvent) (waiting : List InputEvent) :
    (capturedArm cfg env d event waiting).1.outputs.all Output.isPlain = true := by
  simp only [capturedArm]
  split
  · -- the hotkey
    simp only [emergencyRelease]
    split <;> rfl
  · split
    · -- focus is remote: one datagram
      rfl
    · unfold keepLocal
      split
      · split
        · rfl
        · split <;> rfl
      · rfl

/-- Nor does the control arm of the main loop. -/
theorem isPlain_controlArm (cfg : SessionConfig) (env : Env) (d : DaemonState)
    (result : Option ControlCommand) :
    (controlArm cfg env d result).outputs.all Output.isPlain = true := by
  unfold controlArm
  split <;> rfl

/-- Nor does that of the receive-only loop. -/
theorem isPlain_receiveOnlyControlArm (cfg : SessionConfig) (d : DaemonState)
    (result : Option ControlCommand) :
    (receiveOnlyControlArm cfg d result).outputs.all Output.isPlain = true := by
  unfold receiveOnlyControlArm
  split <;> rfl

/-- Nor does the cleanup, whose only output is a frame. -/
theorem isPlain_cleanup (env : Env) (d : DaemonState) :
    (cleanup env d).2.all Output.isPlain = true := by
  simp only [cleanup, cleanupFlush]
  split
  · split <;> rfl
  · rfl

/-- **What a frame arm reacts with**, in either loop. They differ in `onHit`, the outputs when a
move of the frame hits the edge. -/
inductive FrameReaction (cfg : SessionConfig) (env : Env) (d : DaemonState) (onHit : List Output) :
    Option EventFrame → Reaction → Prop
  | failed : FrameReaction cfg env d onHit none ⟨d, [], .leave⟩
  | ignored (frame : EventFrame) (hfocus : d.focusIsRemote = true) :
    FrameReaction cfg env d onHit (some frame) ⟨d, [], .again⟩
  | panicked (frame : EventFrame) (t : DaemonState) (hfocus : d.focusIsRemote = false)
      (hscan : scanMoves cfg (inCooldown env d) d frame.events = .error t) :
    FrameReaction cfg env d onHit (some frame) ⟨t, [], .panic⟩
  | hit (frame : EventFrame) (t : DaemonState) (hfocus : d.focusIsRemote = false)
      (hscan : scanMoves cfg (inCooldown env d) d frame.events = .ok (t, true)) :
    FrameReaction cfg env d onHit (some frame)
      ⟨centerCursor cfg { t with focusIsRemote := true }, onHit, .again⟩
  | passed (frame : EventFrame) (t : DaemonState) (hfocus : d.focusIsRemote = false)
      (hscan : scanMoves cfg (inCooldown env d) d frame.events = .ok (t, false)) :
    FrameReaction cfg env d onHit (some frame)
      ⟨t, if cfg.hasEmulator then frame.events.map .emit else [], .again⟩

/-- The frame arms of the two loops differ in what they hand out at a hit, and in nothing else. -/
theorem frameReaction_arms (cfg : SessionConfig) (env : Env) (d : DaemonState)
    (result : Option EventFrame) :
    FrameReaction cfg env d [.grab true, .control (.switchFocus "remote")] result
        (frameArm cfg env d result) ∧
      FrameReaction cfg env d [.control (.switchFocus "remote")] result
        (receiveOnlyFrameArm cfg env d result) := by
  cases result with
  | none => exact ⟨.failed, .failed⟩
  | some frame =>
    simp only [frameArm, receiveOnlyFrameArm]
    cases hfocus : d.focusIsRemote with
    | true => exact ⟨.ignored frame hfocus, .ignored frame hfocus⟩
    | false =>
      rw [Bool.not_false, if_pos rfl, if_pos rfl]
      rcases hscan : scanMoves cfg (inCooldown env d) d frame.events with t | ⟨t, _ | _⟩
      · exact ⟨.panicked frame t hfocus hscan, .panicked frame t hfocus hscan⟩
      · exact ⟨.passed frame t hfocus hscan, .passed frame t hfocus hscan⟩
      · exact ⟨.hit frame t hfocus hscan, .hit frame t hfocus hscan⟩

/-! ### Outcomes -/

/-- Outputs that touch neither the peer's input stream nor the grab, and hand nobody the focus. -/
structure Inert (outs : List Output) : Prop where
  frames : outs.filterMap Output.frame? = []
  grabs : outs.filterMap Output.grab? = []
  controls : ∀ c ∈ Output.controls outs, ∃ t, c = .pong t

/-- Inert outputs carry no input events to the peer. -/
theorem Inert.forwarded {outs : List Output} (h : Inert outs) : Output.forwarded outs = [] := by
  rw [Output.forwarded, h.frames, List.flatMap_nil]

theorem inert_nil : Inert [] := ⟨rfl, rfl, by simp [Output.controls]⟩

/-- What goes to the emulator goes neither to the peer nor to the capture thread. -/
theorem inert_emits (es : List InputEvent) : Inert (es.map .emit) := by
  constructor <;> simp [Output.controls, List.filterMap_map, Function.comp_def, Output.frame?,
    Output.grab?, Output.control?]

/-- The tracked state after the first event and the events the batch loop takes. -/
def tracked (d : DaemonState) (es : List InputEvent) : DaemonState := es.foldl trackKeyState d

/-- Tracking events leaves the focus as it is. -/
theorem tracked_focusIsRemote (d : DaemonState) (es : List InputEvent) :
    (tracked d es).focusIsRemote = d.focusIsRemote := by
  induction es generalizing d with
  | nil => rfl
  | cons e es ih =>
    show (tracked (trackKeyState d e) es).focusIsRemote = _
    rw [ih, trackKeyState_focusIsRemote]

/-- Tracking events leaves the connection state as it is. -/
theorem tracked_connectionState (d : DaemonState) (es : List InputEvent) :
    (tracked d es).connectionState = d.connectionState := by
  induction es generalizing d with
  | nil => rfl
  | cons e es ih =>
    show (tracked (trackKeyState d e) es).connectionState = _
    rw [ih, trackKeyState_connectionState]

/-- **Everything a step of a session can do**, with the state it leads to. -/
inductive Outcome (cfg : SessionConfig) (s : Session) : Input → Session → Prop
  | push (event : InputEvent) (hphase : s.phase = .mainLoop) :
    Outcome cfg s (.push event) { s with channel := s.channel ++ [event] }
  | idle {i : Input} (d : DaemonState) (outs : List Output) (phase : Phase)
      (hrun : s.phase = .mainLoop ∨ s.phase = .receiveOnly) (hd : MovesCursor s.daemon d)
      (houts : Inert outs)
      (hphase : phase = s.phase ∨ phase = .left ∨
        phase = .panicked ∧ s.daemon.focusIsRemote = false)
      (hpush : ∀ event, i ≠ .push event) (hcapt : ∀ env ready, i ≠ .captured env ready)
      (hclean : ∀ env, i ≠ .cleanup env)
      (hctrl : ∀ env c, i = .control env (some c) → c.handsBack = false) :
    Outcome cfg s i ⟨d, s.channel, phase, s.outputs ++ outs⟩
  | captureClosed (hphase : s.phase = .mainLoop) (hch : s.channel = []) :
    Outcome cfg s .captureClosed ⟨s.daemon, [], .receiveOnly, s.outputs⟩
  | keep {env : Env} {ready : ℕ} (event : InputEvent) (rest : List InputEvent) (d : DaemonState)
      (phase : Phase) (hphase : s.phase = .mainLoop) (hch : s.channel = event :: rest)
      (hfocus : s.daemon.focusIsRemote = false) (hd : MovesCursor (trackKeyState s.daemon event) d)
      (hp : phase = .mainLoop ∨ phase = .panicked) :
    Outcome cfg s (.captured env ready) ⟨d, rest, phase, s.outputs⟩
  | edgeHit {env : Env} {ready : ℕ} (event : InputEvent) (rest : List InputEvent) (d : DaemonState)
      (hphase : s.phase = .mainLoop) (hch : s.channel = event :: rest)
      (hfocus : s.daemon.focusIsRemote = false)
      (hd : MovesCursor { trackKeyState s.daemon event with focusIsRemote := true } d) :
    Outcome cfg s (.captured env ready) ⟨d, rest, .mainLoop,
      s.outputs ++ [.grab true, .control (.switchFocus "remote")]⟩
  | emergency {env : Env} {ready : ℕ} (event : InputEvent) (rest : List InputEvent)
      (hphase : s.phase = .mainLoop) (hch : s.channel = event :: rest)
      (hfocus : s.daemon.focusIsRemote = true)
      (hkey : checkEmergencyHotkey (trackKeyState s.daemon event) = true) :
    Outcome cfg s (.captured env ready)
      ⟨(emergencyRelease env (trackKeyState s.daemon event)).state, rest, .mainLoop,
        s.outputs ++ (emergencyRelease env (trackKeyState s.daemon event)).outputs⟩
  | forward {env : Env} {ready : ℕ} (event : InputEvent) (rest : List InputEvent)
      (hphase : s.phase = .mainLoop) (hch : s.channel = event :: rest)
      (hfocus : s.daemon.focusIsRemote = true)
      (hkey : checkEmergencyHotkey (trackKeyState s.daemon event) = false) :
    Outcome cfg s (.captured env ready)
      ⟨(nextSeq (tracked s.daemon (event :: rest.take (drained ready)))).1,
        rest.drop (drained ready), if env.datagramOk then .mainLoop else .left,
        s.outputs ++
          [.datagram ⟨(nextSeq (tracked s.daemon (event :: rest.take (drained ready)))).2,
            env.nowUs, event :: rest.take (drained ready)⟩]⟩
  | frameHit {env : Env} {frame : EventFrame} (d : DaemonState) (hphase : s.phase = .mainLoop)
      (hfocus : s.daemon.focusIsRemote = false)
      (hd : MovesCursor { s.daemon with focusIsRemote := true } d) :
    Outcome cfg s (.frame env (some frame)) ⟨d, s.channel, .mainLoop,
      s.outputs ++ [.grab true, .control (.switchFocus "remote")]⟩
  | receiveOnlyFrameHit {env : Env} {frame : EventFrame} (d : DaemonState)
      (hphase : s.phase = .receiveOnly) (hfocus : s.daemon.focusIsRemote = false)
      (hd : MovesCursor { s.daemon with focusIsRemote := true } d) :
    Outcome cfg s (.frame env (some frame)) ⟨d, s.channel, .receiveOnly,
      s.outputs ++ [.control (.switchFocus "remote")]⟩
  | handBack {env : Env} {c : ControlCommand} (hc : c.handsBack = true)
      (hphase : s.phase = .mainLoop) :
    Outcome cfg s (.control env (some c))
      ⟨{ centerCursor cfg { s.daemon with focusIsRemote := false } with
          lastFocusSwitch := env.now },
        s.channel, .mainLoop, s.outputs ++ [.grab false]⟩
  | receiveOnlyHandBack {env : Env} {c : ControlCommand} (hc : c.handsBack = true)
      (hphase : s.phase = .receiveOnly) :
    Outcome cfg s (.control env (some c))
      ⟨centerCursor cfg { s.daemon with focusIsRemote := false }, s.channel, .receiveOnly,
        s.outputs⟩
  | cleanup (env : Env) (hphase : s.phase = .left) :
    Outcome cfg s (.cleanup env) ⟨(Kmflow.cleanup env s.daemon).1, s.channel, .cleanedUp,
      s.outputs ++ (Kmflow.cleanup env s.daemon).2⟩

/-! ### The arms, one by one -/

section Arms

variable {cfg : SessionConfig} {s : Session} {env : Env}

/-- An arm that changes nothing but the cursor and has inert outputs is idle. -/
private theorem outcome_absorb_idle {i : Input} {r : Reaction}
    (hrun : s.phase = .mainLoop ∨ s.phase = .receiveOnly) (hd : MovesCursor s.daemon r.state)
    (houts : Inert r.outputs) (hflow : r.flow ≠ .receiveOnly)
    (hpanic : r.flow = .panic → s.daemon.focusIsRemote = false)
    (hpush : ∀ event, i ≠ .push event) (hcapt : ∀ env ready, i ≠ .captured env ready)
    (hclean : ∀ env, i ≠ .cleanup env)
    (hctrl : ∀ env c, i = .control env (some c) → c.handsBack = false) :
    Outcome cfg s i (s.absorb r s.channel) := by
  refine .idle r.state r.outputs _ hrun hd houts ?_ hpush hcapt hclean hctrl
  cases hf : r.flow with
  | again => exact .inl rfl
  | leave => exact .inr (.inl rfl)
  | panic => exact .inr (.inr ⟨rfl, hpanic hf⟩)
  | receiveOnly => exact absurd hf hflow

/-- Focus is local: the event is kept, or its move hits the edge. -/
private theorem outcome_keepLocal {ready : ℕ} {event : InputEvent} {rest : List InputEvent}
    (hphase : s.phase = .mainLoop) (hch : s.channel = event :: rest)
    (hfocus : s.daemon.focusIsRemote = false) :
    Outcome cfg s (.captured env ready)
      (s.absorb (keepLocal cfg (trackKeyState s.daemon event) event) rest) := by
  by_cases hevent : ∃ dx dy, event = .mouseMove dx dy
  · obtain ⟨dx, dy, rfl⟩ := hevent
    rw [keepLocal]
    cases hmove : trackMove cfg.localScreen dx dy (trackKeyState s.daemon (.mouseMove dx dy)) with
    | error t =>
      rw [Session.absorb_panic, List.append_nil]
      exact .keep _ _ _ _ hphase hch hfocus (trackMove_movesCursor (.inr hmove)) (.inr rfl)
    | ok t =>
      obtain ⟨x, y, rfl⟩ : MovesCursor _ t := trackMove_movesCursor (.inl hmove)
      dsimp only
      split_ifs
      · rw [Session.absorb_again, hphase]
        exact .edgeHit _ _ _ hphase hch hfocus ⟨_, _, rfl⟩
      · rw [Session.absorb_again, hphase, List.append_nil]
        exact .keep _ _ _ _ hphase hch hfocus ⟨_, _, rfl⟩ (.inl rfl)
  · rw [keepLocal_of_not_move fun dx dy h ↦ hevent ⟨dx, dy, h⟩, Session.absorb_again, hphase,
      List.append_nil]
    exact .keep _ _ _ _ hphase hch hfocus (.refl _) (.inl rfl)

/-- Focus is remote and the chord is not held: the batch is forwarded. -/
private theorem outcome_forwardBatch {ready : ℕ} {event : InputEvent} {rest : List InputEvent}
    (hphase : s.phase = .mainLoop) (hch : s.channel = event :: rest)
    (hfocus : s.daemon.focusIsRemote = true)
    (hkey : checkEmergencyHotkey (trackKeyState s.daemon event) = false) :
    Outcome cfg s (.captured env ready)
      (s.absorb (forwardBatch env (trackKeyState s.daemon event) event (rest.take ready)).1
        ((forwardBatch env (trackKeyState s.daemon event) event (rest.take ready)).2 ++
          rest.drop ready)) := by
  have hleft : (rest.take ready).drop (eventBatchLimit - 1) ++ rest.drop ready =
      rest.drop (drained ready) := by
    rw [List.drop_take, drained]
    rcases le_total ready (eventBatchLimit - 1) with hle | hle
    · rw [Nat.sub_eq_zero_of_le hle, List.take_zero, List.nil_append, Nat.min_eq_left hle]
    · rw [Nat.min_eq_right hle]
      conv_rhs => rw [← List.take_append_drop (ready - (eventBatchLimit - 1))
        (rest.drop (eventBatchLimit - 1)), List.drop_drop, Nat.add_sub_cancel' hle]
  have hbatch : (rest.take ready).take (eventBatchLimit - 1) = rest.take (drained ready) := by
    rw [List.take_take, Nat.min_comm, drained]
  simp only [forwardBatch, drain_eq, List.length_singleton, List.singleton_append, hleft, hbatch]
  have h : Outcome cfg s (.captured env ready) _ := .forward _ _ hphase hch hfocus hkey
  cases hok : env.datagramOk with
  | true => simpa [hok, hphase, tracked] using h
  | false => simpa [hok, tracked] using h

/-- A captured event: the hotkey, a batch for the peer, or a move that may hit the edge. -/
theorem outcome_capturedArm {ready : ℕ} {event : InputEvent} {rest : List InputEvent}
    (hphase : s.phase = .mainLoop) (hch : s.channel = event :: rest) :
    Outcome cfg s (.captured env ready)
      (s.absorb (capturedArm cfg env s.daemon event (rest.take ready)).1
        ((capturedArm cfg env s.daemon event (rest.take ready)).2 ++ rest.drop ready)) := by
  simp only [capturedArm, trackKeyState_focusIsRemote]
  cases hfocus : s.daemon.focusIsRemote with
  | false =>
    simp only [Bool.and_false, Bool.false_eq_true, if_false, List.take_append_drop]
    exact outcome_keepLocal hphase hch hfocus
  | true =>
    cases hkey : checkEmergencyHotkey (trackKeyState s.daemon event) with
    | false =>
      simp only [Bool.and_true, Bool.false_eq_true, if_false, if_true]
      exact outcome_forwardBatch hphase hch hfocus hkey
    | true =>
      simp only [Bool.and_true, if_true, List.take_append_drop]
      have h : Outcome cfg s (.captured env ready) _ := .emergency _ _ hphase hch hfocus hkey
      rwa [← hphase] at h

/-- The frame arm of either loop, when the frame is not a hit. -/
private theorem outcome_frame_idle {result : Option EventFrame} {r : Reaction}
    (hrun : s.phase = .mainLoop ∨ s.phase = .receiveOnly) (hd : MovesCursor s.daemon r.state)
    (houts : Inert r.outputs) (hflow : r.flow ≠ .receiveOnly)
    (hpanic : r.flow = .panic → s.daemon.focusIsRemote = false) :
    Outcome cfg s (.frame env result) (s.absorb r s.channel) :=
  outcome_absorb_idle hrun hd houts hflow hpanic nofun nofun nofun fun _ _ h ↦ by cases h

/-- The frame arm of either loop, given what becomes of a hit. -/
private theorem outcome_frame {onHit : List Output} {result : Option EventFrame} {r : Reaction}
    (hrun : s.phase = .mainLoop ∨ s.phase = .receiveOnly)
    (hreaction : FrameReaction cfg env s.daemon onHit result r)
    (hhit : ∀ frame x y, s.daemon.focusIsRemote = false →
      Outcome cfg s (.frame env (some frame)) (s.absorb ⟨centerCursor cfg
        { s.daemon with cursorX := x, cursorY := y, focusIsRemote := true }, onHit, .again⟩
        s.channel)) :
    Outcome cfg s (.frame env result) (s.absorb r s.channel) := by
  cases hreaction with
  | failed => exact outcome_frame_idle hrun (.refl _) inert_nil nofun nofun
  | ignored frame hfocus => exact outcome_frame_idle hrun (.refl _) inert_nil nofun nofun
  | panicked frame t hfocus hscan =>
    exact outcome_frame_idle hrun (scanMoves_movesCursor (.inr hscan)) inert_nil nofun
      fun _ ↦ hfocus
  | hit frame t hfocus hscan =>
    obtain ⟨x, y, rfl⟩ := scanMoves_movesCursor (.inl ⟨true, hscan⟩)
    exact hhit frame x y hfocus
  | passed frame t hfocus hscan =>
    refine outcome_frame_idle hrun (scanMoves_movesCursor (.inl ⟨false, hscan⟩)) ?_ nofun nofun
    dsimp only
    split_ifs
    · exact inert_emits _
    · exact inert_nil

/-- A frame in the main loop. -/
theorem outcome_frameArm {result : Option EventFrame} (hphase : s.phase = .mainLoop) :
    Outcome cfg s (.frame env result) (s.absorb (frameArm cfg env s.daemon result) s.channel) := by
  refine outcome_frame (.inl hphase) (frameReaction_arms cfg env s.daemon result).1
    fun frame x y hfocus ↦ ?_
  rw [Session.absorb_again, hphase]
  exact .frameHit _ hphase hfocus ⟨_, _, rfl⟩

/-- A frame in the receive-only loop. -/
theorem outcome_receiveOnlyFrameArm {result : Option EventFrame} (hphase : s.phase = .receiveOnly) :
    Outcome cfg s (.frame env result)
      (s.absorb (receiveOnlyFrameArm cfg env s.daemon result) s.channel) := by
  refine outcome_frame (.inr hphase) (frameReaction_arms cfg env s.daemon result).2
    fun frame x y hfocus ↦ ?_
  rw [Session.absorb_again, hphase]
  exact .receiveOnlyFrameHit _ hphase hfocus ⟨_, _, rfl⟩

/-- An answer to a ping says nothing about focus. -/
private theorem inert_pong (t : UInt64) : Inert [.control (.pong t)] :=
  ⟨rfl, rfl, by simp [Output.controls, Output.control?]⟩

/-- The control arm of either loop, on a message that does not hand focus back. -/
private theorem outcome_control_idle {result : Option ControlCommand} {r : Reaction}
    (hrun : s.phase = .mainLoop ∨ s.phase = .receiveOnly) (hd : r.state = s.daemon)
    (houts : Inert r.outputs) (hflow : r.flow ≠ .receiveOnly) (hpanic : r.flow ≠ .panic)
    (hctrl : ∀ c ∈ result, c.handsBack = false) :
    Outcome cfg s (.control env result) (s.absorb r s.channel) := by
  refine outcome_absorb_idle hrun (hd ▸ .refl _) houts hflow (absurd · hpanic) nofun nofun nofun
    fun env' c h ↦ ?_
  injection h with _ hc
  exact hctrl c hc

/-- A control message in the main loop: focus is handed back, or nothing comes of it. -/
theorem outcome_controlArm {result : Option ControlCommand} (hphase : s.phase = .mainLoop) :
    Outcome cfg s (.control env result)
      (s.absorb (controlArm cfg env s.daemon result) s.channel) := by
  match result with
  | some (.switchFocus _) | some .releaseFocus =>
    simp only [controlArm, Session.absorb_again, hphase]
    exact .handBack rfl hphase
  | some (.ping t) =>
    exact outcome_control_idle (.inl hphase) rfl (inert_pong t) nofun nofun (by simp; rfl)
  | none => exact outcome_control_idle (.inl hphase) rfl inert_nil nofun nofun fun _ h ↦ by cases h
  | some .peerDisconnecting | some (.pong _) | some (.handshake ..) | some (.handshakeAck ..) =>
    exact outcome_control_idle (.inl hphase) rfl inert_nil nofun nofun (by simp; rfl)

/-- The same in the receive-only loop. -/
theorem outcome_receiveOnlyControlArm {result : Option ControlCommand}
    (hphase : s.phase = .receiveOnly) :
    Outcome cfg s (.control env result)
      (s.absorb (receiveOnlyControlArm cfg s.daemon result) s.channel) := by
  match result with
  | some (.switchFocus _) | some .releaseFocus =>
    simp only [receiveOnlyControlArm, Session.absorb_again, hphase, List.append_nil]
    exact .receiveOnlyHandBack rfl hphase
  | some (.ping t) =>
    exact outcome_control_idle (.inr hphase) rfl (inert_pong t) nofun nofun (by simp; rfl)
  | none => exact outcome_control_idle (.inr hphase) rfl inert_nil nofun nofun fun _ h ↦ by cases h
  | some .peerDisconnecting | some (.pong _) | some (.handshake ..) | some (.handshakeAck ..) =>
    exact outcome_control_idle (.inr hphase) rfl inert_nil nofun nofun (by simp; rfl)

/-- A clipboard payload for the peer concerns nothing else. -/
private theorem outcome_clipboardOutgoing {payload : ClipboardPayload} {sent : Bool}
    (hrun : s.phase = .mainLoop ∨ s.phase = .receiveOnly) :
    Outcome cfg s (.clipboardOutgoing payload sent)
      (s.absorb (clipboardOutgoingArm s.daemon payload sent) s.channel) := by
  refine outcome_absorb_idle hrun (.refl _) ?_ nofun nofun nofun nofun nofun fun _ _ h ↦ by cases h
  cases sent
  · exact inert_nil
  · exact ⟨rfl, rfl, by simp [clipboardOutgoingArm, Output.controls, Output.control?]⟩

/-- Nor does one from the peer. -/
private theorem outcome_clipboardReceived {payload : ClipboardPayload}
    (hrun : s.phase = .mainLoop ∨ s.phase = .receiveOnly) :
    Outcome cfg s (.clipboardReceived payload)
      (s.absorb (clipboardReceivedArm s.daemon payload) s.channel) :=
  outcome_absorb_idle hrun (.refl _)
    ⟨rfl, rfl, by simp [clipboardReceivedArm, Output.controls, Output.control?]⟩
    nofun nofun nofun nofun nofun fun _ _ h ↦ by cases h

end Arms

/-- **Every step of a session is one of the outcomes.** -/
theorem outcome_of_step {cfg : SessionConfig} {s s' : Session} {i : Input}
    (h : s' ∈ Session.step cfg s i) : Outcome cfg s i s' := by
  cases armStep_of_step h with
  | push event hphase => exact .push event hphase
  | captured env ready event rest hphase hch => exact outcome_capturedArm hphase hch
  | captureClosed hphase hch =>
    rw [Session.absorb_receiveOnly, List.append_nil]
    exact .captureClosed hphase hch
  | frame env result hphase => exact outcome_frameArm hphase
  | control env result hphase => exact outcome_controlArm hphase
  | receiveOnlyFrame env result hphase => exact outcome_receiveOnlyFrameArm hphase
  | receiveOnlyControl env result hphase => exact outcome_receiveOnlyControlArm hphase
  | shutdown hrun =>
    exact outcome_absorb_idle hrun (.refl _) inert_nil (fun h ↦ by cases h) (fun h ↦ by cases h)
      (fun _ h ↦ by cases h) (fun _ _ h ↦ by cases h) (fun _ h ↦ by cases h)
      fun _ _ h ↦ by cases h
  | clipboardOutgoing payload sent hrun => exact outcome_clipboardOutgoing hrun
  | clipboardReceived payload hrun => exact outcome_clipboardReceived hrun
  | cleanup env hphase => exact .cleanup env hphase

end Kmflow
