import Kmflow.Daemon.Outcome

/-!
# The grab request and the focus flag

The capture thread is told over `grab_tx` whether to keep the keyboard and mouse from the local
desktop. Every handler of the main loop that changes `focus_is_remote` sends the new value there, so
the two agree at every head of the main loop. The receive-only loop sends nothing, which is right as
long as no capture thread is left to listen, and the cleanup clears the flag and sends nothing.

So the last request at the end of the session is the one that stood when the main loop was left,
and it mirrors the cleared flag exactly when focus was local at that moment
(`grabMirrorsFocus_iff`). The run carries that value as its history variable.
-/

namespace Kmflow

open Transition

/-! ### The last request -/

/-- Inert outputs ask for no grab. -/
theorem Inert.lastGrab_append {outs' : List Output} (h : Inert outs') (outs : List Output) :
    Output.lastGrab (outs ++ outs') = Output.lastGrab outs := by
  rw [Output.lastGrab_append, h.grabs]
  rfl

/-- The hotkey asks for the release of the grab. -/
theorem lastGrab_emergencyRelease (outs : List Output) (env : Env) (d : DaemonState) :
    Output.lastGrab (outs ++ (emergencyRelease env d).outputs) = false := by
  have hgrabs : (emergencyRelease env d).outputs.filterMap Output.grab? = [false] := by
    simp only [emergencyRelease]
    split_ifs <;> rfl
  rw [Output.lastGrab_append, hgrabs]
  rfl

/-- The cleanup asks for nothing. -/
theorem lastGrab_cleanup (outs : List Output) (env : Env) (d : DaemonState) :
    Output.lastGrab (outs ++ (Kmflow.cleanup env d).2) = Output.lastGrab outs := by
  have hgrabs : (Kmflow.cleanup env d).2.filterMap Output.grab? = [] := by
    simp only [Kmflow.cleanup, cleanupFlush]
    split_ifs <;> rfl
  rw [Output.lastGrab_append, hgrabs]
  rfl

namespace Session

/-- At a head of the main loop, and when the cleanup has finished, the last request is the flag. -/
def GrabMirrorsFocus (s : Session) : Prop :=
  s.phase = .mainLoop ∨ s.phase = .cleanedUp → s.lastGrab = s.daemon.focusIsRemote

/-! ### How the main loop was left -/

/-- The history variable: the focus flag at the moment the main loop was left. -/
def recordExit (exit : Bool) (s : Session) (_ : Input) (s' : Session) : Bool :=
  if s.phase = .mainLoop ∧ s'.phase ≠ .mainLoop then s'.daemon.focusIsRemote else exit

/-- The session, with the focus at the exit from the main loop recorded. -/
def exitStep (cfg : SessionConfig) : Session × Bool → Input → Option (Session × Bool) :=
  withHistory (Session.step cfg) recordExit

/-- The condition on the cleanup: the main loop was left with focus local. -/
def CleansUpLocal (se : Session × Bool) : Input → Prop
  | .cleanup _ => se.2 = false
  | _ => True

/-- The invariant: the last request is the flag in the main loop, and the flag at the exit from it
after that. -/
def RequestStands (se : Session × Bool) : Prop :=
  match se.1.phase with
  | .mainLoop => se.1.lastGrab = se.1.daemon.focusIsRemote
  | .receiveOnly | .left => se.1.lastGrab = se.2
  | .cleanedUp => se.1.lastGrab = false ∧ se.1.daemon.focusIsRemote = false
  | .panicked => True

/-- The invariant says that the last request mirrors the focus. -/
theorem RequestStands.grabMirrorsFocus {se : Session × Bool} (h : RequestStands se) :
    GrabMirrorsFocus se.1 := by
  rintro (hphase | hphase)
  · rwa [RequestStands, hphase] at h
  · rw [RequestStands, hphase] at h
    exact h.1.trans h.2.symm

/-- A step inside the main loop re-establishes the mirror. -/
theorem RequestStands.of_mainLoop {s' : Session} {exit : Bool} (hphase : s'.phase = .mainLoop)
    (h : s'.lastGrab = s'.daemon.focusIsRemote) : RequestStands (s', exit) := by
  rwa [RequestStands, hphase]

/-- An idle step keeps the last request and the flag, wherever it goes. -/
theorem RequestStands.of_idle {s s' : Session} {exit : Bool} {i : Input}
    (h : RequestStands (s, exit)) (hrun : s.phase = .mainLoop ∨ s.phase = .receiveOnly)
    (hgrab : s'.lastGrab = s.lastGrab) (hfocus : s'.daemon.focusIsRemote = s.daemon.focusIsRemote)
    (hphase : s'.phase = s.phase ∨ s'.phase = .left ∨ s'.phase = .panicked) :
    RequestStands (s', recordExit exit s i s') := by
  rcases hrun with hrun | hrun
  · have hmirror : s.lastGrab = s.daemon.focusIsRemote := by rwa [RequestStands, hrun] at h
    rcases hphase with hphase | hphase | hphase
    · exact .of_mainLoop (hphase.trans hrun) (by rw [hgrab, hfocus, hmirror])
    · rw [RequestStands, hphase]
      show s'.lastGrab = recordExit exit s i s'
      rw [recordExit, if_pos ⟨hrun, by rw [hphase]; nofun⟩, hgrab, hfocus, hmirror]
    · rw [RequestStands, hphase]
      trivial
  · have hexit : recordExit exit s i s' = exit := if_neg fun hs ↦ by rw [hrun] at hs; cases hs.1
    have hstands : s.lastGrab = exit := by rwa [RequestStands, hrun] at h
    rcases hphase with hphase | hphase | hphase
    · rw [RequestStands, hphase, hrun, hexit]
      exact hgrab.trans hstands
    · rw [RequestStands, hphase, hexit]
      exact hgrab.trans hstands
    · rw [RequestStands, hphase]
      trivial

/-- **A step keeps the invariant, given a cleanup that finds the main loop left locally.** -/
theorem requestStands_step {cfg : SessionConfig} {se se' : Session × Bool} {i : Input}
    (h : RequestStands se) (hC : CleansUpLocal se i) (hse : se' ∈ exitStep cfg se i) :
    RequestStands se' := by
  obtain ⟨s, exit⟩ := se
  obtain ⟨s', exit'⟩ := se'
  obtain ⟨hstep, hexit⟩ := mem_withHistory.1 hse
  dsimp only at hstep hexit
  subst hexit
  cases outcome_of_step hstep with
  | push event hphase => exact h.of_idle (.inl hphase) rfl rfl (.inl rfl)
  | idle d outs phase hrun hd houts hphase _ _ _ _ =>
    exact h.of_idle hrun (houts.lastGrab_append _) hd.focusIsRemote
      (hphase.imp_right (Or.imp_right And.left))
  | captureClosed hphase hch =>
    have hmirror : s.lastGrab = s.daemon.focusIsRemote := by rwa [RequestStands, hphase] at h
    exact hmirror.trans (if_pos ⟨hphase, nofun⟩).symm
  | keep event rest d phase hphase _ _ hd hp =>
    refine h.of_idle (.inl hphase) rfl ?_ ?_
    · exact hd.focusIsRemote.trans (trackKeyState_focusIsRemote _ _)
    · exact hp.imp (fun hp ↦ hp.trans hphase.symm) .inr
  | edgeHit event rest d _ _ _ hd =>
    refine .of_mainLoop rfl ((Output.lastGrab_append _ _).trans ?_)
    exact hd.focusIsRemote.symm
  | emergency event rest _ _ _ _ => exact .of_mainLoop rfl (lastGrab_emergencyRelease _ _ _)
  | forward event rest hphase _ hfocus _ =>
    refine h.of_idle (.inl hphase) ?_ ?_ ?_
    · exact (Output.lastGrab_append _ _).trans rfl
    · exact tracked_focusIsRemote _ _
    · dsimp only
      split_ifs
      · exact .inl hphase.symm
      · exact .inr (.inl rfl)
  | frameHit d _ _ hd =>
    refine .of_mainLoop rfl ((Output.lastGrab_append _ _).trans ?_)
    exact hd.focusIsRemote.symm
  | receiveOnlyFrameHit d hphase _ _ =>
    have hstands : s.lastGrab = exit := by rwa [RequestStands, hphase] at h
    have hexit : ¬ (s.phase = .mainLoop ∧ Phase.receiveOnly ≠ .mainLoop) := fun hs ↦ by
      rw [hphase] at hs; cases hs.1
    exact (Output.lastGrab_append _ _).trans (hstands.trans (if_neg hexit).symm)
  | handBack _ _ => exact .of_mainLoop rfl (Output.lastGrab_append _ _)
  | receiveOnlyHandBack _ hphase =>
    have hstands : s.lastGrab = exit := by rwa [RequestStands, hphase] at h
    have hexit : ¬ (s.phase = .mainLoop ∧ Phase.receiveOnly ≠ .mainLoop) := fun hs ↦ by
      rw [hphase] at hs; cases hs.1
    exact hstands.trans (if_neg hexit).symm
  | cleanup env hphase =>
    have hstands : s.lastGrab = exit := by rwa [RequestStands, hphase] at h
    exact ⟨(lastGrab_cleanup _ _ _).trans (hstands.trans hC), rfl⟩

/-- **A cleanup after the main loop was left with focus remote leaves the grab requested.** -/
theorem not_grabMirrorsFocus_step {cfg : SessionConfig} {se se' : Session × Bool} {i : Input}
    (h : RequestStands se) (hC : ¬ CleansUpLocal se i) (hse : se' ∈ exitStep cfg se i) :
    ¬ GrabMirrorsFocus se'.1 := by
  obtain ⟨s, exit⟩ := se
  obtain ⟨hstep, -⟩ := mem_withHistory.1 hse
  match i with
  | .push _ | .shutdown | .clipboardOutgoing _ _ | .clipboardReceived _ | .captured _ _
  | .captureClosed | .frame _ _ | .control _ _ => exact absurd trivial hC
  | .cleanup env =>
    generalize se'.1 = s' at hstep
    cases outcome_of_step hstep with
    | idle _ _ _ _ _ _ _ _ _ hclean _ => exact absurd rfl (hclean env)
    | cleanup _ hphase =>
      have hstands : s.lastGrab = exit := by rwa [RequestStands, hphase] at h
      intro hmirror
      have hlast := hmirror (.inr rfl)
      exact hC (hstands.symm.trans ((lastGrab_cleanup _ _ _).symm.trans hlast))

/-- **The grab request mirrors focus exactly when the main loop is left with focus local.** For
every run of a session that starts with focus local: at every head of the main loop and after the
cleanup the last value sent on `grab_tx` is `focus_is_remote`, if and only if the cleanup is only
reached from a main loop that was left with focus local. -/
theorem grabMirrorsFocus_iff (cfg : SessionConfig) (d : DaemonState) (is : List Input)
    (hfocus : d.focusIsRemote = false) :
    Throughout (Session.step cfg) GrabMirrorsFocus (start d) is ↔
      EachStep (exitStep cfg) CleansUpLocal (start d, false) is := by
  have hstart : RequestStands (start d, false) := .of_mainLoop rfl hfocus.symm
  rw [← throughout_withHistory recordExit false]
  exact throughout_iff_eachStep (I := RequestStands) (fun _ h ↦ h.grabMirrorsFocus)
    (fun _ _ h hC _ hse ↦ requestStands_step h hC hse)
    (fun _ _ h hC _ hse ↦ not_grabMirrorsFocus_step h hC hse) hstart is

/-- The run that fails: the cursor reaches the edge, the peer disconnects, the session cleans up. -/
def disconnectRun : List Input :=
  [.push (.mouseMove (.finite 1000) (.finite 0)), .captured (.at 0) 0,
    .control (.at 0) (some .peerDisconnecting), .cleanup (.at 0)]

/-- The run is cleaned up with focus remote, and that alone decides. -/
theorem grabMirrorsFocus_iff_disconnectRun :
    Throughout (Session.step .fallback) GrabMirrorsFocus (start (.new .fallback 0)) disconnectRun ↔
      EachStep (exitStep .fallback) CleansUpLocal (start (.new .fallback 0), false)
        disconnectRun :=
  grabMirrorsFocus_iff .fallback (.new .fallback 0) disconnectRun rfl

/-- After the cleanup the grab is still requested, with focus local. -/
theorem not_grabMirrorsFocus_disconnectRun :
    ¬ Throughout (Session.step .fallback) GrabMirrorsFocus (start (.new .fallback 0))
      disconnectRun := by
  have hview : (run (Session.step .fallback) (start (.new .fallback 0)) disconnectRun).map
      (fun s ↦ (s.phase, s.lastGrab, s.daemon.focusIsRemote)) = some (.cleanedUp, true, false) := by
    decide +kernel
  obtain ⟨t, ht, hview⟩ := Option.map_eq_some_iff.1 hview
  simp only [Prod.mk.injEq] at hview
  refine not_throughout_of_run ht fun hmirror ↦ ?_
  have hlast := hmirror (.inr hview.1)
  rw [hview.2.1, hview.2.2] at hlast
  exact Bool.false_ne_true hlast.symm

end Session

end Kmflow
