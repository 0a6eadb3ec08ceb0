import Kmflow.Daemon.Outcome

/-!
# What the peer is left holding

A key whose press was forwarded and whose release never was stays down on the peer. The session
prevents this by tracking what is held (`pressed`) and, when it gives focus up, flushing it. Three
places give focus up: the emergency hotkey and the cleanup flush, the two handlers of the peer's
`SwitchFocus` and `ReleaseFocus` do not.

The set the peer holds is read off the run itself: `peerHolds` replays the events of every frame
handed to `send_datagram`. While focus is remote it is the replay of the events captured since focus
last became remote, the *stretch*, which the run carries as a history variable; and it stays inside
the tracked set, so a flush empties it. That gives the exact condition under which nothing is ever
stuck (`nothingStuck_iff`): when the peer hands focus back, the stretch has released what it
pressed, and the hotkey is not fired by a release that the stretch still owes the peer.

The second half of the condition is reachable: the batch loop tracks events without testing the
chord, so the chord can be complete before the event that fires the hotkey, and that event is not
forwarded.
-/

namespace Kmflow

open Transition

namespace Session

/-! ### What the arms forward -/

/-- The cleanup forwards the releases if focus is remote. -/
theorem forwarded_cleanup (env : Env) (d : DaemonState) :
    Output.forwarded (Kmflow.cleanup env d).2 =
      if d.focusIsRemote then flushPressedKeys env.order d else [] := by
  simp only [Kmflow.cleanup, cleanupFlush]
  cases d.focusIsRemote with
  | false => rfl
  | true => cases flushPressedKeys env.order d <;> simp

/-- **A batch is tracked event by event**: the tracked set after it is its replay. -/
theorem pressed_tracked (d : DaemonState) (es : List InputEvent) :
    (tracked d es).pressed = replayEvents d.pressed es := by
  induction es generalizing d with
  | nil => rfl
  | cons e es ih =>
    show (tracked (trackKeyState d e) es).pressed = _
    rw [ih, pressed_trackKeyState, ← replayEvents_append]
    rfl

/-! ### What the peer holds -/

/-- The switches the peer holds after replaying every frame handed to `send_datagram`. -/
def peerHolds (s : Session) : Finset Switch := replayEvents ∅ s.forwarded

/-- What the peer holds changes with what is forwarded. -/
theorem peerHolds_append (d : DaemonState) (channel : List InputEvent) (phase : Phase)
    (outs outs' : List Output) :
    peerHolds ⟨d, channel, phase, outs ++ outs'⟩ =
      replayEvents (replayEvents ∅ (Output.forwarded outs)) (Output.forwarded outs') := by
  rw [peerHolds, Session.forwarded, Output.forwarded_append, replayEvents_append]

/-- Outputs that forward nothing leave the peer holding what it held. -/
theorem peerHolds_eq_of_outputs {s s' : Session} {outs : List Output}
    (hout : s'.outputs = s.outputs ++ outs) (houts : Output.forwarded outs = []) :
    s'.peerHolds = s.peerHolds := by
  rw [peerHolds, peerHolds, Session.forwarded, Session.forwarded, hout, Output.forwarded_append,
    houts, List.append_nil]

/-- At a loop head or after the cleanup, with focus local, the peer holds nothing. -/
def NothingStuck (s : Session) : Prop :=
  s.phase = .mainLoop ∨ s.phase = .receiveOnly ∨ s.phase = .cleanedUp →
    s.daemon.focusIsRemote = false → s.peerHolds = ∅

/-! ### The stretch -/

/-- The events a step takes out of the capture channel. -/
def taken (s s' : Session) : Input → List InputEvent
  | .captured _ _ => s.channel.take (s.channel.length - s'.channel.length)
  | _ => []

/-- The history variable: the events captured since focus last became remote. -/
def recordStretch (stretch : List InputEvent) (s : Session) (i : Input) (s' : Session) :
    List InputEvent :=
  if s.daemon.focusIsRemote then stretch ++ taken s s' i else []

/-- The session, with the stretch recorded. -/
def stretchStep (cfg : SessionConfig) :
    Session × List InputEvent → Input → Option (Session × List InputEvent) :=
  withHistory (Session.step cfg) recordStretch

/-- The condition on a step taken while focus is remote. When the peer hands focus back, every
switch pressed in the stretch has been released in it; and the event that fires the emergency hotkey
does not release a switch that the stretch pressed and did not yet release. -/
def GivesUpCleanly (st : Session × List InputEvent) (i : Input) : Prop :=
  st.1.daemon.focusIsRemote = true →
    match i with
    | .control _ (some c) => c.handsBack = true → replayEvents ∅ st.2 = ∅
    | .captured _ _ => ∀ event ∈ st.1.channel.head?,
        checkEmergencyHotkey (trackKeyState st.1.daemon event) = true →
          ∀ a, event.toggle? = some (.up a) → a ∉ replayEvents ∅ st.2
    | _ => True

/-- The invariant: while focus is remote the peer holds exactly what the stretch left down, all of
it tracked; while focus is local it holds nothing. -/
def Accounted (st : Session × List InputEvent) : Prop :=
  (st.1.daemon.focusIsRemote = true →
    st.1.peerHolds = replayEvents ∅ st.2 ∧ st.1.peerHolds ⊆ st.1.daemon.pressed) ∧
  (st.1.daemon.focusIsRemote = false → st.1.peerHolds = ∅)

/-- The invariant says that nothing is stuck. -/
theorem Accounted.nothingStuck {st : Session × List InputEvent} (h : Accounted st) :
    NothingStuck st.1 :=
  fun _ hfocus ↦ h.2 hfocus

/-- What the emergency hotkey leaves held: at most the switch whose release fired it. -/
theorem peerHolds_emergency {s : Session} {env : Env} {event : InputEvent}
    {rest : List InputEvent} :
    peerHolds ⟨(emergencyRelease env (trackKeyState s.daemon event)).state, rest, .mainLoop,
        s.outputs ++ (emergencyRelease env (trackKeyState s.daemon event)).outputs⟩ =
      s.peerHolds \ replayEvents s.daemon.pressed [event] := by
  rw [peerHolds_append, forwarded_emergencyRelease, replayEvents_flushPressedKeys,
    pressed_trackKeyState]
  rfl

/-- An event leaves nothing behind unless it releases what the peer holds. -/
theorem sdiff_replayEvents_singleton {held pressed : Finset Switch} (hsub : held ⊆ pressed)
    (event : InputEvent) :
    held \ replayEvents pressed [event] = ∅ ↔ ∀ a, event.toggle? = some (.up a) → a ∉ held := by
  rw [Finset.sdiff_eq_empty_iff_subset]
  cases htoggle : event.toggle? with
  | none => simpa [replayEvents, htoggle] using hsub
  | some t =>
    cases t with
    | down a =>
      have : held ⊆ insert a pressed := hsub.trans (Finset.subset_insert a pressed)
      simpa [replayEvents, htoggle, Toggle.apply] using this
    | up a =>
      simp only [replayEvents, List.filterMap_cons, htoggle, List.filterMap_nil,
        Toggle.replay_cons, Toggle.replay_nil, Toggle.apply, Option.some.injEq, Toggle.up.injEq,
        forall_eq']
      refine ⟨fun h ha ↦ (Finset.mem_erase.1 (h ha)).1 rfl, fun ha x hx ↦ ?_⟩
      exact Finset.mem_erase.2 ⟨fun hxa ↦ ha (hxa ▸ hx), hsub hx⟩

/-! ### The stretch, step by step -/

/-- Only the captured-event arm takes events. -/
theorem taken_eq_nil {s s' : Session} {i : Input} (h : ∀ env ready, i ≠ .captured env ready) :
    taken s s' i = [] := by
  cases i with
  | captured env ready => exact absurd rfl (h env ready)
  | _ => rfl

/-- A step that forwards a batch takes exactly the batch out of the channel. -/
theorem taken_forward {event : InputEvent} {rest : List InputEvent} (n : ℕ) :
    (event :: rest).take ((event :: rest).length - (rest.drop n).length) =
      event :: rest.take n := by
  rw [List.length_cons, List.length_drop]
  rcases le_total n rest.length with hle | hle
  · rw [show rest.length + 1 - (rest.length - n) = n + 1 by omega, List.take_succ_cons]
  · rw [Nat.sub_eq_zero_of_le hle, Nat.sub_zero, List.take_succ_cons, List.take_length,
      List.take_of_length_le hle]

/-- A step that forwards nothing and keeps focus and the tracked switches keeps the account. -/
theorem Accounted.of_quiet {s s' : Session} {stretch : List InputEvent}
    (h : Accounted (s, stretch)) {i : Input} {outs : List Output}
    (hfocus : s'.daemon.focusIsRemote = s.daemon.focusIsRemote)
    (hpressed : s'.daemon.pressed = s.daemon.pressed) (hout : s'.outputs = s.outputs ++ outs)
    (houts : Output.forwarded outs = []) (hi : ∀ env ready, i ≠ .captured env ready) :
    Accounted (s', recordStretch stretch s i s') := by
  have hholds : s'.peerHolds = s.peerHolds := peerHolds_eq_of_outputs hout houts
  refine ⟨fun hremote ↦ ?_, fun hlocal ↦ ?_⟩
  · have hs : s.daemon.focusIsRemote = true := hfocus ▸ hremote
    dsimp only
    rw [hholds, recordStretch, if_pos hs, taken_eq_nil hi, List.append_nil]
    exact ⟨(h.1 hs).1, hpressed ▸ (h.1 hs).2⟩
  · exact hholds.trans (h.2 (hfocus ▸ hlocal))

/-- A step from local focus that forwards nothing keeps the account. -/
theorem Accounted.of_local {s s' : Session} {stretch : List InputEvent}
    (h : Accounted (s, stretch)) {i : Input} {outs : List Output}
    (hs : s.daemon.focusIsRemote = false) (hout : s'.outputs = s.outputs ++ outs)
    (houts : Output.forwarded outs = []) : Accounted (s', recordStretch stretch s i s') := by
  have hholds : s'.peerHolds = ∅ := (peerHolds_eq_of_outputs hout houts).trans (h.2 hs)
  refine ⟨fun _ ↦ ?_, fun _ ↦ hholds⟩
  dsimp only
  rw [hholds, recordStretch, if_neg (by simp [hs])]
  exact ⟨rfl, Finset.empty_subset _⟩

/-- **A step that gives focus up cleanly keeps the account.** -/
theorem accounted_step {cfg : SessionConfig} {st st' : Session × List InputEvent} {i : Input}
    (h : Accounted st) (hC : GivesUpCleanly st i) (hst : st' ∈ stretchStep cfg st i) :
    Accounted st' := by
  obtain ⟨s, stretch⟩ := st
  obtain ⟨s', stretch'⟩ := st'
  obtain ⟨hstep, hstretch⟩ := mem_withHistory.1 hst
  dsimp only at hstep hstretch
  subst hstretch
  cases outcome_of_step hstep with
  | push event _ => exact h.of_quiet rfl rfl (List.append_nil _).symm rfl nofun
  | idle d outs phase _ hd houts _ _ hcapt _ _ =>
    exact h.of_quiet hd.focusIsRemote hd.pressed rfl houts.forwarded hcapt
  | captureClosed _ _ => exact h.of_quiet rfl rfl (List.append_nil _).symm rfl nofun
  | keep event rest d phase _ _ hfocus _ _ => exact h.of_local hfocus (List.append_nil _).symm rfl
  | edgeHit event rest d _ _ hfocus _ => exact h.of_local hfocus rfl rfl
  | frameHit d _ hfocus _ => exact h.of_local hfocus rfl rfl
  | receiveOnlyFrameHit d _ hfocus _ => exact h.of_local hfocus rfl rfl
  | emergency event rest _ hch hfocus hkey =>
    refine ⟨fun hremote ↦ absurd hremote (by simp [emergencyRelease, nextSeq]), fun _ ↦ ?_⟩
    have hacc := h.1 hfocus
    -- the event itself was tracked before the flush and is not forwarded
    rw [peerHolds_emergency, sdiff_replayEvents_singleton hacc.2, hacc.1]
    exact hC hfocus event (by simp [hch]) hkey
  | forward event rest _ hch hfocus _ =>
    have hacc := h.1 hfocus
    refine ⟨fun _ ↦ ?_, fun hlocal ↦ ?_⟩
    · rw [recordStretch, if_pos hfocus, taken, hch, taken_forward, peerHolds_append]
      simp only [Output.forwarded_datagram, Output.forwarded_nil, List.append_nil]
      refine ⟨?_, ?_⟩
      · rw [replayEvents_append, ← hacc.1]
        rfl
      · show _ ⊆ (tracked s.daemon _).pressed
        rw [pressed_tracked]
        exact replayEvents_subset hacc.2 _
    · exact absurd hlocal (by simp [nextSeq, tracked_focusIsRemote, hfocus])
  | handBack hc _ =>
    refine ⟨fun hremote ↦ absurd hremote (by simp [centerCursor]), fun _ ↦ ?_⟩
    refine (peerHolds_eq_of_outputs (s := s) rfl rfl).trans ?_
    cases hs : s.daemon.focusIsRemote with
    | false => exact h.2 hs
    | true => exact (h.1 hs).1.trans (hC hs hc)
  | receiveOnlyHandBack hc _ =>
    refine ⟨fun hremote ↦ absurd hremote (by simp [centerCursor]), fun _ ↦ ?_⟩
    cases hs : s.daemon.focusIsRemote with
    | false => exact h.2 hs
    | true => exact (h.1 hs).1.trans (hC hs hc)
  | cleanup env _ =>
    refine ⟨fun hremote ↦ absurd hremote (by simp [Kmflow.cleanup]), fun _ ↦ ?_⟩
    rw [peerHolds_append, forwarded_cleanup]
    cases hs : s.daemon.focusIsRemote with
    | false => exact h.2 hs
    | true =>
      -- the flush covers what the peer holds, because all of that is tracked
      rw [if_pos rfl, replayEvents_flushPressedKeys]
      exact Finset.sdiff_eq_empty_iff_subset.2 (h.1 hs).2

/-- **A step that gives focus up otherwise leaves something stuck.** -/
theorem not_nothingStuck_step {cfg : SessionConfig} {st st' : Session × List InputEvent}
    {i : Input} (h : Accounted st) (hC : ¬ GivesUpCleanly st i)
    (hst : st' ∈ stretchStep cfg st i) : ¬ NothingStuck st'.1 := by
  obtain ⟨s, stretch⟩ := st
  obtain ⟨s', stretch'⟩ := st'
  obtain ⟨hstep, -⟩ := mem_withHistory.1 hst
  dsimp only at hstep ⊢
  obtain ⟨hfocus, hC⟩ := Classical.not_imp.1 hC
  have hacc := h.1 hfocus
  dsimp only at hfocus hC hacc
  cases outcome_of_step hstep with
  | idle d outs phase _ _ _ _ _ hcapt _ hctrl =>
    exfalso
    split at hC
    · exact hC fun hc ↦ by simp [hctrl _ _ rfl] at hc
    · exact hcapt _ _ rfl
    · exact hC trivial
  | keep _ _ _ _ _ _ hlocal _ _ => exact absurd (hlocal.symm.trans hfocus) Bool.false_ne_true
  | edgeHit _ _ _ _ _ hlocal _ => exact absurd (hlocal.symm.trans hfocus) Bool.false_ne_true
  | frameHit _ _ hlocal _ => exact absurd (hlocal.symm.trans hfocus) Bool.false_ne_true
  | receiveOnlyFrameHit _ _ hlocal _ =>
    exact absurd (hlocal.symm.trans hfocus) Bool.false_ne_true
  | push _ _ => exact absurd trivial hC
  | captureClosed _ _ => exact absurd trivial hC
  | cleanup _ _ => exact absurd trivial hC
  | forward event rest _ hch _ hkey =>
    refine absurd (fun e he hkey' ↦ ?_) hC
    rw [hch] at he
    obtain rfl := Option.some.inj he
    exact absurd (hkey.symm.trans hkey') Bool.false_ne_true
  | emergency event rest hphase hch _ hkey =>
    intro hnothing
    have hempty := hnothing (.inl rfl) rfl
    rw [peerHolds_emergency, sdiff_replayEvents_singleton hacc.2, hacc.1] at hempty
    refine hC fun e he _ ↦ ?_
    rw [hch] at he
    obtain rfl := Option.some.inj he
    exact hempty
  | handBack hc hphase =>
    intro hnothing
    have hempty := (peerHolds_eq_of_outputs (s := s) rfl rfl).symm.trans (hnothing (.inl rfl) rfl)
    exact hC fun _ ↦ hacc.1.symm.trans hempty
  | receiveOnlyHandBack hc hphase =>
    intro hnothing
    exact hC fun _ ↦ hacc.1.symm.trans (hnothing (.inr (.inl rfl)) rfl)

/-- **Nothing is ever stuck on the peer exactly when focus is always given up cleanly.** For every
run of a session that starts with nothing tracked as held: in every loop-head or post-cleanup state
with local focus the peer holds nothing, if and only if, whenever the peer hands focus back, the
switches pressed since focus became remote have been released again, and the emergency hotkey is
never fired by the release of such a switch. -/
theorem nothingStuck_iff (cfg : SessionConfig) (d : DaemonState) (is : List Input)
    (hkeys : d.pressedKeys = ∅) (hbuttons : d.pressedButtons = ∅) :
    Throughout (Session.step cfg) NothingStuck (start d) is ↔
      EachStep (stretchStep cfg) GivesUpCleanly (start d, []) is := by
  rw [← throughout_withHistory recordStretch []]
  have hpressed : d.pressed = ∅ := DaemonState.pressed_eq_empty_of_cleared hkeys hbuttons
  refine throughout_iff_eachStep (I := Accounted) (fun st h ↦ h.nothingStuck)
    (fun st i h hC st' hst ↦ accounted_step h hC hst)
    (fun st i h hC st' hst ↦ not_nothingStuck_step h hC hst) ?_ is
  exact ⟨fun _ ↦ ⟨rfl, Finset.empty_subset _⟩, fun _ ↦ rfl⟩

/-- The run that fails: the cursor reaches the edge, a key goes down and is forwarded, and the peer
hands focus back before the key comes up. -/
def stuckRun : List Input :=
  [.push (.mouseMove (.finite 1000) (.finite 0)), .captured (.at 0) 0,
    .push (.key 30 .pressed), .captured (.at 0) 0, .control (.at 0) (some .releaseFocus)]

/-- For this run the hand-back, which finds the key held, decides. -/
theorem nothingStuck_iff_stuckRun :
    Throughout (Session.step .fallback) NothingStuck (start (.new .fallback 0)) stuckRun ↔
      EachStep (stretchStep .fallback) GivesUpCleanly (start (.new .fallback 0), []) stuckRun :=
  nothingStuck_iff .fallback (.new .fallback 0) stuckRun rfl rfl

/-- After the run the peer still holds the key, with focus local at the head of the main loop. -/
theorem not_nothingStuck_stuckRun :
    ¬ Throughout (Session.step .fallback) NothingStuck (start (.new .fallback 0)) stuckRun := by
  have hview : (run (Session.step .fallback) (start (.new .fallback 0)) stuckRun).map
      (fun s ↦ (s.phase, s.daemon.focusIsRemote, s.peerHolds)) =
        some (.mainLoop, false, {.key 30}) := by
    decide +kernel
  obtain ⟨t, ht, hview⟩ := Option.map_eq_some_iff.1 hview
  simp only [Prod.mk.injEq] at hview
  refine not_throughout_of_run ht fun hnothing ↦ ?_
  have hempty := hnothing (.inl hview.1) hview.2.1
  rw [hview.2.2] at hempty
  exact Finset.singleton_ne_empty _ hempty

end Session

end Kmflow
