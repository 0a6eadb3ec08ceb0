import Kmflow.Daemon.Outcome

/-!
# Batches and single events

The captured-event arm takes one event, and while focus is remote it takes whatever else is waiting
and forwards it in the same datagram. The events it takes that way are tracked, but only the first
one is tested for the emergency hotkey.

`view` is what a session shows up to the sequence counter, which counts datagrams and not events. A
batch in which no event after the first leaves the chord held shows the same as its events taken one
at a time (`run_singles_forward`). A batch in which one does forwards that event, where single
events would have flushed, and what has been forwarded stays forwarded. So batching is transparent
exactly when no such event is ever taken in a batch (`transparent_iff`).
-/

namespace Kmflow

open Transition

/-! ### The sequence counter -/

/-- The state with another sequence counter. -/
def DaemonState.withSeq (d : DaemonState) (q : UInt32) : DaemonState := { d with seqCounter := q }

/-- Tracking does not look at the counter of the frames. -/
theorem trackKeyState_withSeq (d : DaemonState) (q : UInt32) (e : InputEvent) :
    trackKeyState (d.withSeq q) e = (trackKeyState d e).withSeq q := by
  match e with
  | .mouseMove _ _ | .scroll _ _ => rfl
  | .key _ .pressed | .key _ .released | .mouseButton _ .pressed | .mouseButton _ .released => rfl

/-- Nor does tracking any number of events. -/
theorem tracked_withSeq (d : DaemonState) (q : UInt32) (es : List InputEvent) :
    tracked (d.withSeq q) es = (tracked d es).withSeq q := by
  induction es generalizing d with
  | nil => rfl
  | cons e es ih =>
    show tracked (trackKeyState (d.withSeq q) e) es = _
    rw [trackKeyState_withSeq, ih]
    rfl

/-- Events are tracked one after the other. -/
theorem tracked_append (d : DaemonState) (es fs : List InputEvent) :
    tracked d (es ++ fs) = tracked (tracked d es) fs :=
  List.foldl_append

/-- Nor does tracking a move, which moves the cursor. -/
theorem trackMove_withSeq (screen : ScreenInfo) (dx dy : F64) (d : DaemonState) (q : UInt32) :
    trackMove screen dx dy (d.withSeq q) =
      match trackMove screen dx dy d with
      | .ok s => .ok (s.withSeq q)
      | .error s => .error (s.withSeq q) := by
  simp only [trackMove, DaemonState.withSeq]
  cases trackAxis screen.width d.cursorX dx with
  | none => rfl
  | some x => cases trackAxis screen.height d.cursorY dy <;> rfl

@[simp] theorem checkEmergencyHotkey_withSeq (d : DaemonState) (q : UInt32) :
    checkEmergencyHotkey (d.withSeq q) = checkEmergencyHotkey d := rfl

@[simp] theorem withSeq_focusIsRemote (d : DaemonState) (q : UInt32) :
    (d.withSeq q).focusIsRemote = d.focusIsRemote := rfl

@[simp] theorem withSeq_withSeq (d : DaemonState) (q q' : UInt32) :
    (d.withSeq q).withSeq q' = d.withSeq q' := rfl

@[simp] theorem nextSeq_withSeq (d : DaemonState) (q : UInt32) :
    (nextSeq d).1.withSeq q = d.withSeq q := rfl

/-! ### What the flush releases -/

/-- The event that was just tracked is not one that the flush releases. -/
theorem ne_of_mem_flushPressedKeys {order : FlushOrder} {d : DaemonState} {e e' : InputEvent}
    (h : e' ∈ flushPressedKeys order (trackKeyState d e)) : e' ≠ e := by
  rintro rfl
  rw [flushPressedKeys, List.mem_append, List.mem_map, List.mem_map] at h
  rcases h with ⟨c, hc, rfl⟩ | ⟨b, hb, rfl⟩
  · rw [IterOrder.mem_iter] at hc
    exact Finset.notMem_erase c d.pressedKeys hc
  · rw [IterOrder.mem_iter] at hb
    exact Finset.notMem_erase b d.pressedButtons hb

/-- When the chord is held there is something to release. -/
theorem flushPressedKeys_ne_nil (order : FlushOrder) {d : DaemonState}
    (h : checkEmergencyHotkey d = true) : flushPressedKeys order d ≠ [] := by
  intro hnil
  have hesc : emergencyHotkeyEsc ∈ d.pressedKeys :=
    DaemonState.key_mem_pressed.1 (checkEmergencyHotkey_iff.1 h).2.2
  have hmem : InputEvent.key emergencyHotkeyEsc .released ∈ flushPressedKeys order d :=
    List.mem_append_left _ (List.mem_map.2 ⟨_, (order.keys.mem_iter _ _).2 hesc, rfl⟩)
  rw [hnil] at hmem
  cases hmem

namespace Session

/-! ### What a session shows -/

/-- A session up to the sequence counter and to the cut of what it forwarded into datagrams. -/
structure View where
  daemon : DaemonState
  channel : List InputEvent
  phase : Phase
  forwarded : List InputEvent
  controls : List ControlCommand
  lastGrab : Bool

/-- What can be told of a session, whatever the numbers of its frames. -/
def view (s : Session) : View where
  daemon := s.daemon.withSeq 0
  channel := s.channel
  phase := s.phase
  forwarded := s.forwarded
  controls := s.controls
  lastGrab := s.lastGrab

/-- What batching must not change. -/
structure Observation where
  focusIsRemote : Bool
  pressedKeys : Finset UInt32
  pressedButtons : Finset MouseButton
  lastGrab : Bool
  controls : List ControlCommand
  forwarded : List InputEvent
  deriving DecidableEq

/-- What batching must not change: the focus, what is tracked, the last request and what the peer
was sent. -/
def observation (s : Session) : Observation where
  focusIsRemote := s.daemon.focusIsRemote
  pressedKeys := s.daemon.pressedKeys
  pressedButtons := s.daemon.pressedButtons
  lastGrab := s.lastGrab
  controls := s.controls
  forwarded := s.forwarded

/-- The observation is part of the view. -/
theorem observation_eq_of_view {s t : Session} (h : s.view = t.view) :
    s.observation = t.observation := by
  have hd : s.daemon.withSeq 0 = t.daemon.withSeq 0 := congrArg View.daemon h
  have hfocus : s.daemon.focusIsRemote = t.daemon.focusIsRemote :=
    (congrArg DaemonState.focusIsRemote hd :)
  have hkeys : s.daemon.pressedKeys = t.daemon.pressedKeys :=
    (congrArg DaemonState.pressedKeys hd :)
  have hbuttons : s.daemon.pressedButtons = t.daemon.pressedButtons :=
    (congrArg DaemonState.pressedButtons hd :)
  have hgrab : s.lastGrab = t.lastGrab := congrArg View.lastGrab h
  have hcontrols : s.controls = t.controls := congrArg View.controls h
  have hforwarded : s.forwarded = t.forwarded := congrArg View.forwarded h
  simp only [observation, hfocus, hkeys, hbuttons, hgrab, hcontrols, hforwarded]

/-- No captured event is left, or none is taken any more. -/
def Finished (s : Session) : Prop := s.channel = [] ∨ s.phase ≠ .mainLoop

/-- Taking the same events one at a time ends with the same observation. -/
def Transparent (cfg : SessionConfig) (env : Env) (s t : Session) : Prop :=
  ∃ k, ∃ u ∈ run (Session.step cfg) s (List.replicate k (.captured env 0)),
    u.Finished ∧ u.observation = t.observation

/-- The condition on one step: no event taken after the first leaves the chord held. -/
def ChordNotDrained (s : Session) : Input → Prop
  | .captured _ ready => s.daemon.focusIsRemote = true →
      checkEmergencyHotkey (tracked s.daemon (s.channel.take 1)) = false →
        ∀ m, 0 < m → m ≤ drained ready + 1 →
          checkEmergencyHotkey (tracked s.daemon (s.channel.take m)) = false
  | _ => True

/-! ### Equal views step to equal views -/

/-- What an arm's reaction shows. -/
def shown (r : Reaction) :
    DaemonState × Flow × List InputEvent × List ControlCommand × List Bool :=
  (r.state.withSeq 0, r.flow, Output.forwarded r.outputs, Output.controls r.outputs,
    r.outputs.filterMap Output.grab?)

/-- Sessions that look alike, and reactions that do, lead to sessions that look alike. -/
theorem view_absorb {s t : Session} {r r' : Reaction} (hst : s.view = t.view)
    (hr : shown r = shown r') (channel : List InputEvent) :
    (s.absorb r channel).view = (t.absorb r' channel).view := by
  obtain ⟨state, outputs, flow⟩ := r
  obtain ⟨state', outputs', flow'⟩ := r'
  simp only [shown, Prod.mk.injEq] at hr
  obtain ⟨hstate, rfl, hforwarded, hcontrols, hgrabs⟩ := hr
  have hs : s.phase = t.phase ∧ s.forwarded = t.forwarded ∧ s.controls = t.controls ∧
      s.lastGrab = t.lastGrab :=
    ⟨congrArg View.phase hst, congrArg View.forwarded hst, congrArg View.controls hst,
      congrArg View.lastGrab hst⟩
  obtain ⟨hphase, hf, hc, hg⟩ := hs
  simp only [Session.forwarded, Session.controls, Session.lastGrab] at hf hc hg
  simp only [view, absorb, Session.forwarded, Session.controls, Session.lastGrab, hstate, hphase,
    Output.forwarded_append, Output.controls_append, Output.lastGrab_append, hforwarded, hcontrols,
    hgrabs, hf, hc, hg]

/-- The arm for a kept event does not look at the sequence counter. -/
theorem shown_keepLocal_withSeq (cfg : SessionConfig) (d : DaemonState) (q : UInt32)
    (e : InputEvent) :
    shown (keepLocal cfg (d.withSeq q) e) = shown (keepLocal cfg d e) := by
  match e with
  | .mouseButton _ _ | .scroll _ _ | .key _ _ => rfl
  | .mouseMove dx dy =>
    simp only [keepLocal, trackMove_withSeq]
    cases trackMove cfg.localScreen dx dy d with
    | error t => rfl
    | ok t =>
      have hx : (t.withSeq q).cursorX = t.cursorX := rfl
      have hy : (t.withSeq q).cursorY = t.cursorY := rfl
      dsimp only
      rw [hx, hy]
      split_ifs <;> rfl

/-- The emergency hotkey shows the flush and the `ReleaseFocus`. -/
theorem shown_emergencyRelease (env : Env) (d : DaemonState) :
    shown (emergencyRelease env d) = (({ d with focusIsRemote := false } : DaemonState).withSeq 0,
      .again, flushPressedKeys env.order d, [.releaseFocus], [false]) := by
  have hflush : flushPressedKeys env.order { d with focusIsRemote := false } =
      flushPressedKeys env.order d := rfl
  simp only [emergencyRelease, hflush]
  cases flushPressedKeys env.order d with
  | nil => rfl
  | cons e es => simp [shown, List.filterMap_cons, Output.grab?]

/-- Forwarding shows the batch. -/
theorem shown_forwardBatch (env : Env) (d : DaemonState) (e : InputEvent)
    (waiting : List InputEvent) :
    shown (forwardBatch env (trackKeyState d e) e waiting).1 =
      ((tracked d (e :: waiting.take (eventBatchLimit - 1))).withSeq 0,
        if env.datagramOk then .again else .leave, e :: waiting.take (eventBatchLimit - 1), [],
        []) := by
  simp only [forwardBatch, drain_eq, List.length_singleton, List.singleton_append]
  simp [shown, tracked, List.filterMap_cons, Output.grab?]

/-- The captured-event arm does not look at the sequence counter. -/
theorem shown_capturedArm_withSeq (cfg : SessionConfig) (env : Env) (d : DaemonState) (q : UInt32)
    (e : InputEvent) (waiting : List InputEvent) :
    shown (capturedArm cfg env (d.withSeq q) e waiting).1 =
        shown (capturedArm cfg env d e waiting).1 ∧
      (capturedArm cfg env (d.withSeq q) e waiting).2 = (capturedArm cfg env d e waiting).2 := by
  simp only [capturedArm, trackKeyState_withSeq, checkEmergencyHotkey_withSeq,
    withSeq_focusIsRemote]
  split_ifs
  · rw [shown_emergencyRelease, shown_emergencyRelease]
    exact ⟨rfl, rfl⟩
  · rw [← trackKeyState_withSeq, shown_forwardBatch, shown_forwardBatch, tracked_withSeq]
    exact ⟨rfl, by simp only [forwardBatch, drain_eq]⟩
  · exact ⟨shown_keepLocal_withSeq .., rfl⟩

/-- A view determines the state up to the sequence counter. -/
theorem daemon_eq_of_view {s : Session} {d : DaemonState} {channel : List InputEvent}
    {phase : Phase} {forwarded : List InputEvent} {controls : List ControlCommand} {lastGrab : Bool}
    (h : s.view = ⟨d.withSeq 0, channel, phase, forwarded, controls, lastGrab⟩) :
    s.daemon = d.withSeq s.daemon.seqCounter := by
  have hd : s.daemon.withSeq 0 = d.withSeq 0 := congrArg View.daemon h
  exact (congrArg (fun d' : DaemonState ↦ d'.withSeq s.daemon.seqCounter) hd :)

/-- **Sessions that show the same go on showing the same**, event by event. -/
theorem view_step_captured {cfg : SessionConfig} {env : Env} {ready : ℕ} {s t s' : Session}
    (hst : s.view = t.view) (hs' : s' ∈ Session.step cfg s (.captured env ready)) :
    ∃ t' ∈ Session.step cfg t (.captured env ready), s'.view = t'.view := by
  have hphase : s.phase = t.phase := congrArg View.phase hst
  have hchannel : s.channel = t.channel := congrArg View.channel hst
  have hdaemon : t.daemon = s.daemon.withSeq t.daemon.seqCounter := daemon_eq_of_view hst.symm
  cases armStep_of_step hs' with
  | captured _ _ event rest hp hch =>
    rw [hphase] at hp
    rw [hchannel] at hch
    simp only [Session.step, hp, hch]
    refine ⟨_, rfl, ?_⟩
    obtain ⟨hshown, hleft⟩ :=
      shown_capturedArm_withSeq cfg env s.daemon t.daemon.seqCounter event (rest.take ready)
    rw [← hdaemon] at hshown hleft
    rw [hleft]
    exact view_absorb hst hshown.symm _

/-- The same for a run of captured events. -/
theorem view_run_captured {cfg : SessionConfig} {env : Env} {ns : List ℕ} {s t s' : Session}
    (hst : s.view = t.view) (hs' : s' ∈ run (Session.step cfg) s (ns.map (.captured env))) :
    ∃ t' ∈ run (Session.step cfg) t (ns.map (.captured env)), s'.view = t'.view := by
  refine run_of_simulation (R := fun s t : Session ↦ s.view = t.view)
    (fun s t hst i hi s' hs' ↦ ?_) hst hs'
  obtain ⟨n, -, rfl⟩ := List.mem_map.1 hi
  exact view_step_captured hst hs'

/-! ### A batch, event by event -/

section Singles

variable {cfg : SessionConfig} {env : Env}

/-- A captured event that is forwarded, with what the batch loop takes. -/
theorem step_forward {s : Session} {event : InputEvent} {rest : List InputEvent} (ready : ℕ)
    (hphase : s.phase = .mainLoop) (hch : s.channel = event :: rest)
    (hfocus : s.daemon.focusIsRemote = true) (henv : env.datagramOk = true)
    (hchord : checkEmergencyHotkey (trackKeyState s.daemon event) = false) :
    ∃ t ∈ Session.step cfg s (.captured env ready), t.view =
      ⟨(tracked s.daemon (event :: rest.take (drained ready))).withSeq 0,
        rest.drop (drained ready), .mainLoop,
        s.forwarded ++ event :: rest.take (drained ready), s.controls, s.lastGrab⟩ := by
  obtain ⟨t, ht⟩ : ∃ t, t ∈ Session.step cfg s (.captured env ready) := by
    simp only [Session.step, hphase, hch]
    exact ⟨_, rfl⟩
  refine ⟨t, ht, ?_⟩
  cases outcome_of_step ht with
  | forward event' rest' _ hch' _ _ =>
    cases hch.symm.trans hch'
    simp only [view, henv, if_true, nextSeq_withSeq, Session.forwarded, Session.controls,
      Session.lastGrab, Output.forwarded_append, Output.controls_append, Output.lastGrab_append]
    simp [List.filterMap_cons, Output.grab?]
  | idle _ _ _ _ _ _ _ _ hcapt => exact absurd rfl (hcapt _ _)
  | keep _ _ _ _ _ _ hlocal | edgeHit _ _ _ _ _ hlocal =>
    exact absurd (hlocal.symm.trans hfocus) Bool.false_ne_true
  | emergency _ _ _ hch' _ hkey =>
    cases hch.symm.trans hch'
    exact absurd (hchord.symm.trans hkey) Bool.false_ne_true

/-- **Events taken one at a time are forwarded one at a time**, as long as none of them leaves the
chord held. -/
theorem run_singles_forward {s : Session} (es : List InputEvent) {left : List InputEvent}
    (hphase : s.phase = .mainLoop) (hch : s.channel = es ++ left)
    (hfocus : s.daemon.focusIsRemote = true) (henv : env.datagramOk = true)
    (hchord : ∀ m, 0 < m → m ≤ es.length →
      checkEmergencyHotkey (tracked s.daemon (es.take m)) = false) :
    ∃ t ∈ run (Session.step cfg) s (List.replicate es.length (.captured env 0)), t.view =
      ⟨(tracked s.daemon es).withSeq 0, left, .mainLoop, s.forwarded ++ es, s.controls,
        s.lastGrab⟩ := by
  induction es generalizing s with
  | nil =>
    refine ⟨s, rfl, ?_⟩
    simp only [view, hch, hphase, List.append_nil, List.nil_append]
    rfl
  | cons e es ih =>
    obtain ⟨u, hu, huview⟩ : ∃ u ∈ Session.step cfg s (.captured env 0), u.view = _ :=
      step_forward 0 hphase hch hfocus henv (hchord 1 Nat.one_pos (by simp))
    have hdaemon := daemon_eq_of_view huview
    -- only the sequence counter tells the two states apart, and the chord does not look at it
    have htracked : ∀ fs, tracked u.daemon fs =
        (tracked s.daemon (e :: fs)).withSeq u.daemon.seqCounter := fun fs ↦ by
      rw [hdaemon, tracked_withSeq]
      rfl
    have huchord : ∀ m, 0 < m → m ≤ es.length →
        checkEmergencyHotkey (tracked u.daemon (es.take m)) = false := fun m _ hm ↦ by
      rw [htracked, checkEmergencyHotkey_withSeq]
      exact hchord (m + 1) m.succ_pos (by simpa using hm)
    have hufocus : u.daemon.focusIsRemote = true := by
      rw [hdaemon, withSeq_focusIsRemote, tracked_focusIsRemote, hfocus]
    obtain ⟨t, ht, htview⟩ := ih (congrArg View.phase huview) (congrArg View.channel huview) hufocus
      huchord
    refine ⟨t, Option.bind_eq_some_iff.2 ⟨u, hu, ht⟩, ?_⟩
    have hforwarded : u.forwarded = s.forwarded ++ [e] := congrArg View.forwarded huview
    have hcontrols : u.controls = s.controls := congrArg View.controls huview
    have hgrab : u.lastGrab = s.lastGrab := congrArg View.lastGrab huview
    rw [htview, htracked, withSeq_withSeq, hforwarded, hcontrols, hgrab, List.append_assoc]
    rfl

/-- A captured event that leaves the chord held while focus is remote: the flush is forwarded. -/
theorem step_emergency {s : Session} {event : InputEvent} {rest : List InputEvent}
    (hphase : s.phase = .mainLoop) (hch : s.channel = event :: rest)
    (hfocus : s.daemon.focusIsRemote = true)
    (hchord : checkEmergencyHotkey (trackKeyState s.daemon event) = true) :
    ∃ t ∈ Session.step cfg s (.captured env 0),
      t.forwarded = s.forwarded ++ flushPressedKeys env.order (trackKeyState s.daemon event) := by
  obtain ⟨t, ht⟩ : ∃ t, t ∈ Session.step cfg s (.captured env 0) := by
    simp only [Session.step, hphase, hch]
    exact ⟨_, rfl⟩
  refine ⟨t, ht, ?_⟩
  cases outcome_of_step ht with
  | emergency event' rest' _ hch' _ _ =>
    cases hch.symm.trans hch'
    have hshown := congrArg (fun v ↦ v.2.2.1)
      (shown_emergencyRelease env (trackKeyState s.daemon event))
    simp only [shown] at hshown
    rw [Session.forwarded, Output.forwarded_append, hshown]
    rfl
  | idle _ _ _ _ _ _ _ _ hcapt => exact absurd rfl (hcapt _ _)
  | keep _ _ _ _ _ _ hlocal | edgeHit _ _ _ _ _ hlocal =>
    exact absurd (hlocal.symm.trans hfocus) Bool.false_ne_true
  | forward _ _ _ hch' _ hkey =>
    cases hch.symm.trans hch'
    exact absurd (hkey.symm.trans hchord) Bool.false_ne_true

/-- What an enabled captured-event arm finds. -/
theorem captured_enabled {s s' : Session} {ready : ℕ}
    (hs' : s' ∈ Session.step cfg s (.captured env ready)) :
    s.phase = .mainLoop ∧ ∃ event rest, s.channel = event :: rest := by
  cases outcome_of_step hs' with
  | idle _ _ _ _ _ _ _ _ hcapt => exact absurd rfl (hcapt _ _)
  | keep _ _ _ _ hphase hch | edgeHit _ _ _ hphase hch | emergency _ _ hphase hch
  | forward _ _ hphase hch => exact ⟨hphase, _, _, hch⟩

/-- An arm that does not forward leaves alone whatever else is waiting. -/
theorem step_captured_of_not_forward {s : Session} {event : InputEvent} {rest : List InputEvent}
    (ready : ℕ) (hphase : s.phase = .mainLoop) (hch : s.channel = event :: rest)
    (hkeep : s.daemon.focusIsRemote = true →
      checkEmergencyHotkey (trackKeyState s.daemon event) = true) :
    Session.step cfg s (.captured env ready) = Session.step cfg s (.captured env 0) := by
  simp only [Session.step, hphase, hch, capturedArm, trackKeyState_focusIsRemote]
  cases hfocus : s.daemon.focusIsRemote with
  | false => simp
  | true => simp [hkeep hfocus]

/-- **A batch that meets the condition shows what its events show one at a time.** -/
theorem exists_singles_of_step {s s' : Session} {ready : ℕ} (henv : env.datagramOk = true)
    (hC : ChordNotDrained s (.captured env ready))
    (hs' : s' ∈ Session.step cfg s (.captured env ready)) :
    ∃ k, ∃ u ∈ run (Session.step cfg) s (List.replicate k (.captured env 0)),
      u.view = s'.view := by
  obtain ⟨hphase, event, rest, hch⟩ := captured_enabled hs'
  by_cases hforward : s.daemon.focusIsRemote = true ∧
      checkEmergencyHotkey (trackKeyState s.daemon event) = false
  · obtain ⟨hfocus, hhead⟩ := hforward
    obtain ⟨t, ht, htview⟩ := step_forward ready hphase hch hfocus henv hhead
    cases hs'.symm.trans ht
    have hchannel :
        s.channel = (event :: rest.take (drained ready)) ++ rest.drop (drained ready) := by
      rw [List.cons_append, List.take_append_drop, hch]
    have hchord : ∀ m, 0 < m → m ≤ (event :: rest.take (drained ready)).length →
        checkEmergencyHotkey (tracked s.daemon ((event :: rest.take (drained ready)).take m)) =
          false := by
      intro m hm hle
      have hlen : m ≤ drained ready + 1 := by
        rw [List.length_cons, List.length_take] at hle
        omega
      have htake : (event :: rest.take (drained ready)).take m = s.channel.take m := by
        rw [hchannel, List.take_append_of_le_length hle]
      have hfirst : checkEmergencyHotkey (tracked s.daemon (s.channel.take 1)) = false := by
        rw [hch]
        exact hhead
      rw [htake]
      exact hC hfocus hfirst m hm hlen
    obtain ⟨u, hu, huview⟩ := run_singles_forward _ hphase hchannel hfocus henv hchord
    exact ⟨_, u, hu, huview.trans htview.symm⟩
  · have hkeep : s.daemon.focusIsRemote = true →
        checkEmergencyHotkey (trackKeyState s.daemon event) = true := by
      intro hfocus
      exact Bool.of_not_eq_false fun hhead ↦ hforward ⟨hfocus, hhead⟩
    rw [step_captured_of_not_forward ready hphase hch hkeep] at hs'
    exact ⟨1, s', Option.bind_eq_some_iff.2 ⟨s', hs', rfl⟩, rfl⟩

/-- A run of batches that all meet the condition shows what its events show one at a time. -/
theorem exists_singles_of_run {s t : Session} {ns : List ℕ} (henv : env.datagramOk = true)
    (hC : EachStep (Session.step cfg) ChordNotDrained s (ns.map (.captured env)))
    (ht : t ∈ run (Session.step cfg) s (ns.map (.captured env))) :
    ∃ k, ∃ u ∈ run (Session.step cfg) s (List.replicate k (.captured env 0)), u.view = t.view := by
  induction ns generalizing s with
  | nil => exact ⟨0, s, rfl, congrArg view (Option.some.inj ht)⟩
  | cons n ns ih =>
    obtain ⟨s₁, hs₁, ht⟩ := Option.bind_eq_some_iff.1 ht
    obtain ⟨hCs, hC⟩ := hC s₁ hs₁
    obtain ⟨k₁, u₁, hu₁, hview₁⟩ := exists_singles_of_step henv hCs hs₁
    obtain ⟨k₂, u₂, hu₂, hview₂⟩ := ih hC ht
    -- the single events after the batch, from the state the single events of the batch reach
    rw [← List.map_replicate] at hu₂
    obtain ⟨u₃, hu₃, hview₃⟩ := view_run_captured hview₁.symm hu₂
    rw [List.map_replicate] at hu₃
    refine ⟨k₁ + k₂, u₃, ?_, hview₃.symm.trans hview₂⟩
    rw [List.replicate_add, run_append]
    exact Option.bind_eq_some_iff.2 ⟨u₁, hu₁, hu₃⟩

/-! ### A batch that takes the chord -/

/-- What is forwarded stays forwarded. -/
theorem forwarded_prefix_of_run {s t : Session} {is : List Input}
    (ht : t ∈ run (Session.step cfg) s is) : s.forwarded <+: t.forwarded := by
  refine run_of_step (R := fun s t : Session ↦ s.forwarded <+: t.forwarded)
    (fun _ ↦ List.prefix_rfl) (fun _ _ _ ↦ List.IsPrefix.trans) (fun s i s' hs' ↦ ?_) ht
  have grow {d : DaemonState} {channel : List InputEvent} {phase : Phase} (outs : List Output) :
      s.forwarded <+: Session.forwarded ⟨d, channel, phase, s.outputs ++ outs⟩ := by
    rw [Session.forwarded, Session.forwarded, Output.forwarded_append]
    exact List.prefix_append _ _
  cases outcome_of_step hs' with
  | push _ _ | captureClosed _ _ | keep _ _ _ _ _ _ _ _ _ | receiveOnlyHandBack _ _ =>
    exact List.prefix_rfl
  | idle | edgeHit | emergency | forward | frameHit | receiveOnlyFrameHit | handBack | cleanup =>
    exact grow _

/-- Two lists that continue one prefix differently are not prefixes of the same list. -/
theorem eq_of_prefix_concat {α : Type*} {pre suf l : List α} {a b : α}
    (ha : pre ++ [a] <+: l) (hb : pre ++ b :: suf <+: l) : a = b := by
  obtain ⟨as, rfl⟩ := ha
  obtain ⟨bs, hb⟩ := hb
  rw [List.append_assoc, List.append_assoc, List.append_cancel_left_eq] at hb
  exact (List.cons.inj hb).1.symm

/-- The first event of a batch that leaves the chord held, with what comes before it. -/
theorem exists_first_chord {d : DaemonState} {channel : List InputEvent} {n : ℕ}
    (hfirst : checkEmergencyHotkey (tracked d (channel.take 1)) = false)
    (hchord : ∃ m, 0 < m ∧ m ≤ n ∧ checkEmergencyHotkey (tracked d (channel.take m)) = true) :
    ∃ pre x left, channel = pre ++ x :: left ∧ pre ≠ [] ∧ pre ++ [x] <+: channel.take n ∧
      checkEmergencyHotkey (tracked d (pre ++ [x])) = true ∧
        ∀ m, 0 < m → m ≤ pre.length → checkEmergencyHotkey (tracked d (pre.take m)) = false := by
  classical
  obtain ⟨hpos, hle, hm⟩ := Nat.find_spec hchord
  have hbefore : ∀ k, 0 < k → k < Nat.find hchord →
      checkEmergencyHotkey (tracked d (channel.take k)) = false := by
    intro k hk hlt
    have hnot := Nat.find_min hchord hlt
    exact Bool.eq_false_iff.2 fun h ↦ hnot ⟨hk, by omega, h⟩
  generalize Nat.find hchord = m at hpos hle hm hbefore
  -- the chord is completed by the event at `j`, which is not the first
  obtain ⟨j, rfl⟩ : ∃ j, m = j + 1 := ⟨m - 1, by omega⟩
  have hj : 0 < j := by
    rcases Nat.eq_zero_or_pos j with rfl | hj
    · exact absurd (hfirst.symm.trans hm) Bool.false_ne_true
    · exact hj
  have hlen : j < channel.length := by
    by_contra hlen
    have hsame : channel.take (j + 1) = channel.take j := by
      rw [List.take_of_length_le (by omega), List.take_of_length_le (by omega)]
    rw [hsame, hbefore j hj j.lt_succ_self] at hm
    cases hm
  have htake : channel.take (j + 1) = channel.take j ++ [channel[j]] :=
    List.take_succ_eq_append_getElem hlen
  refine ⟨channel.take j, channel[j], channel.drop (j + 1), ?_, ?_, ?_, htake ▸ hm, ?_⟩
  · rw [← List.drop_eq_getElem_cons hlen, List.take_append_drop]
  · exact List.ne_nil_of_length_pos (by rw [List.length_take]; omega)
  · rw [← htake]
    exact List.take_prefix_take_left hle
  · intro k hk hkj
    rw [List.length_take] at hkj
    rw [List.take_take, Nat.min_eq_left (by omega)]
    exact hbefore k hk (by omega)

/-- **A batch that takes the chord forwards what single events flush instead.** -/
theorem exists_singles_of_chord {s s' : Session} {ready : ℕ} (henv : env.datagramOk = true)
    (hC : ¬ ChordNotDrained s (.captured env ready))
    (hs' : s' ∈ Session.step cfg s (.captured env ready)) :
    ∃ k, ∃ u ∈ run (Session.step cfg) s (List.replicate k (.captured env 0)),
      ∀ t t' : Session, s'.forwarded <+: t.forwarded → u.forwarded <+: t'.forwarded →
        t.forwarded ≠ t'.forwarded := by
  simp only [ChordNotDrained, Classical.not_imp, not_forall, Bool.not_eq_false] at hC
  obtain ⟨hfocus, hfirst, m, hm, hle, hchord⟩ := hC
  obtain ⟨hphase, event, rest, hch⟩ := captured_enabled hs'
  obtain ⟨pre, x, left, hchannel, hpre, hbatch, hx, hbefore⟩ :=
    exists_first_chord hfirst ⟨m, hm, hle, hchord⟩
  -- the batch forwards `pre` and then `x`
  have hhead : checkEmergencyHotkey (trackKeyState s.daemon event) = false := by
    rw [hch] at hfirst
    exact hfirst
  obtain ⟨t₀, ht₀, hview₀⟩ := step_forward ready hphase hch hfocus henv hhead
  cases hs'.symm.trans ht₀
  have hforwarded : s'.forwarded = s.forwarded ++ event :: rest.take (drained ready) :=
    congrArg View.forwarded hview₀
  have hx' : s.forwarded ++ pre ++ [x] <+: s'.forwarded := by
    rw [hforwarded, List.append_assoc, List.prefix_append_right_inj]
    rwa [hch] at hbatch
  -- one at a time, `pre` is forwarded and then `x` makes the session flush
  obtain ⟨u, hu, huview⟩ := run_singles_forward pre hphase hchannel hfocus henv hbefore
  have hdaemon := daemon_eq_of_view huview
  have hutrack : trackKeyState u.daemon x =
      (trackKeyState (tracked s.daemon pre) x).withSeq u.daemon.seqCounter := by
    rw [hdaemon, trackKeyState_withSeq]
    rfl
  have huchord : checkEmergencyHotkey (trackKeyState u.daemon x) = true := by
    rw [hutrack, checkEmergencyHotkey_withSeq]
    rwa [tracked_append] at hx
  have hufocus : u.daemon.focusIsRemote = true := by
    rw [hdaemon, withSeq_focusIsRemote, tracked_focusIsRemote, hfocus]
  obtain ⟨v, hv, hvforwarded⟩ : ∃ v ∈ Session.step cfg u (.captured env 0), v.forwarded = _ :=
    step_emergency (congrArg View.phase huview) (congrArg View.channel huview) hufocus huchord
  refine ⟨pre.length + 1, v, ?_, fun t t' ht ht' heq ↦ ?_⟩
  · rw [List.replicate_add, run_append]
    exact Option.bind_eq_some_iff.2 ⟨u, hu, Option.bind_eq_some_iff.2 ⟨v, hv, rfl⟩⟩
  · obtain ⟨y, ys, hflush⟩ := List.exists_cons_of_ne_nil
      (flushPressedKeys_ne_nil env.order huchord)
    have huforwarded : u.forwarded = s.forwarded ++ pre := congrArg View.forwarded huview
    have hy : s.forwarded ++ pre ++ y :: ys <+: t.forwarded := by
      rw [heq]
      rwa [hvforwarded, hflush, huforwarded] at ht'
    have hxy : x = y := eq_of_prefix_concat (hx'.trans ht) hy
    have hmem : y ∈ flushPressedKeys env.order (trackKeyState u.daemon x) := by
      rw [hflush]
      exact List.mem_cons_self ..
    exact ne_of_mem_flushPressedKeys hmem hxy.symm

/-! ### Transparency -/

/-- A session that is finished takes no more captured events. -/
theorem step_captured_of_finished {s : Session} (h : s.Finished) :
    Session.step cfg s (.captured env 0) = none := by
  rw [Option.eq_none_iff_forall_not_mem]
  intro s' hs'
  obtain ⟨hphase, event, rest, hch⟩ := captured_enabled hs'
  rcases h with h | h
  · rw [hch] at h
    cases h
  · exact h hphase

/-- Taking the events one at a time ends in one state. -/
theorem singles_unique {s u v : Session} {k m : ℕ}
    (hu : u ∈ run (Session.step cfg) s (List.replicate k (.captured env 0))) (hufin : u.Finished)
    (hv : v ∈ run (Session.step cfg) s (List.replicate m (.captured env 0))) (hvfin : v.Finished) :
    u = v := by
  obtain ⟨j, hj⟩ := run_replicate_of_halted hu (step_captured_of_finished hufin) hv
  cases j with
  | zero => exact (Option.some.inj hj).symm
  | succ j =>
    rw [List.replicate_succ, run_cons, step_captured_of_finished hvfin] at hj
    cases hj

/-- A run of batches that forwards what single events forward meets the condition at each step. -/
theorem eachStep_of_forwarded_eq {s t : Session} {ns : List ℕ} (henv : env.datagramOk = true)
    (ht : t ∈ run (Session.step cfg) s (ns.map (.captured env)))
    (hsingles : ∃ k, ∃ u ∈ run (Session.step cfg) s (List.replicate k (.captured env 0)),
      u.Finished ∧ u.forwarded = t.forwarded) :
    EachStep (Session.step cfg) ChordNotDrained s (ns.map (.captured env)) := by
  induction ns generalizing s with
  | nil => trivial
  | cons n ns ih =>
    intro s' hs'
    obtain ⟨s₁, hs₁, ht⟩ := Option.bind_eq_some_iff.1 ht
    cases hs'.symm.trans hs₁
    obtain ⟨k, u, hu, hfinished, hforwarded⟩ := hsingles
    have hhalt : Session.step cfg u (.captured env 0) = none := step_captured_of_finished hfinished
    have hC : ChordNotDrained s (.captured env n) := by
      by_contra hC
      obtain ⟨m, v, hv, hdiffer⟩ := exists_singles_of_chord henv hC hs'
      obtain ⟨j, hj⟩ := run_replicate_of_halted hu hhalt hv
      have hne := hdiffer t u (forwarded_prefix_of_run ht) (forwarded_prefix_of_run hj)
      exact hne hforwarded.symm
    refine ⟨hC, ih ht ?_⟩
    obtain ⟨m, v, hv, hview⟩ := exists_singles_of_step henv hC hs'
    obtain ⟨j, hj⟩ := run_replicate_of_halted hu hhalt hv
    rw [← List.map_replicate] at hj
    obtain ⟨w, hw, hwview⟩ := view_run_captured hview hj
    rw [List.map_replicate] at hw
    have hchannel : u.channel = w.channel := congrArg View.channel hwview
    have hphase : u.phase = w.phase := congrArg View.phase hwview
    have hwforwarded : u.forwarded = w.forwarded := congrArg View.forwarded hwview
    refine ⟨j, w, hw, ?_, hwforwarded.symm.trans hforwarded⟩
    rwa [Finished, hchannel, hphase] at hfinished

end Singles

/-- **Batching is transparent exactly when no batch takes the chord.** For every state, every
sequence of captured events and every division of it into batches, with the datagrams sent: the
events taken one at a time end with the same focus, held keys and buttons, last grab request,
control messages and forwarded events, if and only if no event taken after the first of its batch
leaves the chord held. -/
theorem transparent_iff (cfg : SessionConfig) (env : Env) (s t : Session) (ns : List ℕ)
    (henv : env.datagramOk = true) (hrun : t ∈ run (Session.step cfg) s (ns.map (.captured env)))
    (hdone : t.Finished) :
    Transparent cfg env s t ↔
      EachStep (Session.step cfg) ChordNotDrained s (ns.map (.captured env)) := by
  constructor
  · rintro ⟨k, u, hu, hfinished, hobservation⟩
    have hforwarded : u.forwarded = t.forwarded := congrArg Observation.forwarded hobservation
    exact eachStep_of_forwarded_eq henv hrun ⟨k, u, hu, hfinished, hforwarded⟩
  · intro hC
    obtain ⟨k, u, hu, hview⟩ := exists_singles_of_run henv hC hrun
    have hchannel : u.channel = t.channel := congrArg View.channel hview
    have hphase : u.phase = t.phase := congrArg View.phase hview
    refine ⟨k, u, hu, ?_, observation_eq_of_view hview⟩
    rwa [Finished, hchannel, hphase]

/-- The cursor reaches the edge, and then the user presses the chord and releases Escape. -/
def chordPrefix : List Input :=
  [.push (.mouseMove (.finite 1000) (.finite 0)), .captured (.at 0) 0,
    .push (.key 29 .pressed), .push (.key 56 .pressed), .push (.key 1 .pressed),
    .push (.key 1 .released)]

/-- The chord can be pressed but for its last key. -/
theorem isSome_chordPrefix :
    (run (Session.step .fallback) (start (.new .fallback 0)) chordPrefix).isSome = true := by
  decide +kernel

/-- The session with the four keystrokes waiting. -/
def chordSession : Session := Option.get _ isSome_chordPrefix

/-- The rest can be taken in one batch. -/
theorem isSome_chordBatched :
    (run (Session.step .fallback) chordSession ([3].map (.captured (.at 0)))).isSome = true := by
  decide +kernel

/-- The session after the four keystrokes have been taken in one batch. -/
def chordBatched : Session := Option.get _ isSome_chordBatched

/-- It can also be taken one by one. -/
theorem isSome_chordSingles :
    (run (Session.step .fallback) chordSession
      (List.replicate 4 (.captured (.at 0) 0))).isSome = true := by
  decide +kernel

/-- The session after the four keystrokes have been taken one at a time. -/
def chordSingles : Session := Option.get _ isSome_chordSingles

/-- The batch shows exactly because the chord is completed behind its first event. -/
theorem transparent_iff_chordBatched :
    Transparent .fallback (.at 0) chordSession chordBatched ↔
      EachStep (Session.step .fallback) ChordNotDrained chordSession
        ([3].map (.captured (.at 0))) :=
  transparent_iff .fallback (.at 0) chordSession chordBatched [3] rfl (Option.get_mem _)
    (.inl (by decide +kernel))

/-- One at a time the keystrokes release focus, in one batch they do not. -/
theorem not_transparent_chordBatched :
    chordSession ∈ run (Session.step .fallback) (start (.new .fallback 0)) chordPrefix ∧
      chordSession.daemon.focusIsRemote = true ∧
      chordBatched ∈ run (Session.step .fallback) chordSession ([3].map (.captured (.at 0))) ∧
      chordBatched.Finished ∧ ¬ Transparent .fallback (.at 0) chordSession chordBatched := by
  refine ⟨Option.get_mem _, by decide +kernel, Option.get_mem _, .inl (by decide +kernel), ?_⟩
  rintro ⟨k, u, hu, hfinished, hobservation⟩
  have hsingles : chordSingles.Finished := .inl (by decide +kernel)
  have hu' : u = chordSingles := singles_unique hu hfinished (Option.get_mem _) hsingles
  have hfocus : u.daemon.focusIsRemote = chordBatched.daemon.focusIsRemote :=
    congrArg Observation.focusIsRemote hobservation
  have hreleased : chordSingles.daemon.focusIsRemote = false := by decide +kernel
  have hkept : chordBatched.daemon.focusIsRemote = true := by decide +kernel
  rw [hu', hreleased, hkept] at hfocus
  exact Bool.false_ne_true hfocus

end Session

end Kmflow
