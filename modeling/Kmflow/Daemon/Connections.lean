import Kmflow.Daemon.Outcome
import Kmflow.Daemon.Supervisor

/-!
# Sessions, the connection state and the map of peers

The daemon keeps one connection state and one map of peers for any number of session tasks. Four
kinds of steps touch them: a handshake that completes, a failed dial that is recorded, and the two
halves of a cleanup. `effect_of_step` takes the steps apart once; every other step is quiet.

Two properties of whole runs follow, each with its exact condition. At most one session is live at
a time exactly when every handshake completes in the state `Disconnected` (`atMostOneLive_iff`): the
test for `Active` in `connect_to` is separated from the handshake by several awaits, and the accept
path makes none. And the connection state and the map report the live sessions exactly when no
failed dial is recorded over an active session, and no cleanup touches either while another session
is live (`reported_iff`).
-/

namespace Kmflow

open Transition

/-! ### What a session does to the connection state -/

@[simp] theorem cleanup_connectionState (env : Env) (d : DaemonState) :
    (Kmflow.cleanup env d).1.connectionState =
      d.connectionState.transitionOrStay .disconnected := by
  simp only [cleanup, cleanupFlush]
  split_ifs <;> rfl

/-- Only the cleanup of a session changes the connection state, and only it ends the session. -/
theorem connection_step {cfg : SessionConfig} {s s' : Session} {i : Input}
    (hstep : s' ∈ Session.step cfg s i) :
    ((∃ env, i = .cleanup env) ∧ s'.phase = .cleanedUp ∧
      s'.daemon.connectionState = s.daemon.connectionState.transitionOrStay .disconnected) ∨
    ((∀ env, i ≠ .cleanup env) ∧ s'.phase ≠ .cleanedUp ∧
      s'.daemon.connectionState = s.daemon.connectionState) := by
  cases outcome_of_step hstep with
  | cleanup env _ => exact .inl ⟨⟨env, rfl⟩, rfl, cleanup_connectionState env s.daemon⟩
  | push _ hphase => exact .inr ⟨nofun, by simp [hphase], rfl⟩
  | captureClosed _ _ => exact .inr ⟨nofun, nofun, rfl⟩
  | idle d outs phase hrun hd _ hphase _ _ hclean _ =>
    refine .inr ⟨hclean, ?_, hd.connectionState⟩
    rintro rfl
    rcases hphase with h | h | ⟨h, -⟩
    · rcases hrun with hrun | hrun <;> rw [hrun] at h <;> cases h
    · cases h
    · cases h
  | keep event rest d phase _ _ _ hd hp =>
    refine .inr ⟨nofun, ?_, hd.connectionState.trans (trackKeyState_connectionState _ _)⟩
    rintro rfl
    rcases hp with h | h <;> cases h
  | edgeHit event rest d _ _ _ hd =>
    exact .inr ⟨nofun, nofun,
      hd.connectionState.trans (trackKeyState_connectionState s.daemon event)⟩
  | emergency event rest _ _ _ _ =>
    exact .inr ⟨nofun, nofun, trackKeyState_connectionState s.daemon event⟩
  | forward event rest _ _ _ _ =>
    refine .inr ⟨nofun, ?_, tracked_connectionState _ _⟩
    dsimp only
    split_ifs <;> nofun
  | frameHit d _ _ hd | receiveOnlyFrameHit d _ _ hd =>
    exact .inr ⟨nofun, nofun, hd.connectionState⟩
  | handBack _ _ | receiveOnlyHandBack _ _ => exact .inr ⟨nofun, nofun, rfl⟩

/-! ### What a step of the daemon does -/

/-- A list with one place set, around that place. -/
theorem exists_around {α : Type*} {l : List α} {k : ℕ} {a : α} (h : l[k]? = some a) :
    ∃ pre post, l = pre ++ a :: post ∧ ∀ b, l.set k b = pre ++ b :: post := by
  induction l generalizing k with
  | nil => cases h
  | cons x l ih =>
    cases k with
    | zero =>
      obtain rfl := Option.some.inj h
      exact ⟨[], l, rfl, fun _ ↦ rfl⟩
    | succ k =>
      obtain ⟨pre, post, hl, hset⟩ := ih h
      exact ⟨x :: pre, post, congrArg (x :: ·) hl, fun b ↦ congrArg (x :: ·) (hset b)⟩

namespace Supervisor

/-- Whether a step completes a handshake. -/
def completes (s : Supervisor) : DaemonInput → Bool
  | .greeted k msg _ =>
    match s.tasks[k]? with
    | some (.greeting _ true) => (readAck msg).isOk
    | _ => false
  | .acked k sent _ =>
    match s.tasks[k]? with
    | some (.acking _ _) => sent
    | _ => false
  | _ => false

/-- Replacing a task that serves nobody by one that serves nobody changes no host. -/
theorem filterMap_set_of_idle {tasks : List Task} {k : ℕ} {t t' : Task} (ht : tasks[k]? = some t)
    (hidle : t.hostname? = none) (hidle' : t'.hostname? = none) :
    (tasks.set k t').filterMap Task.hostname? = tasks.filterMap Task.hostname? := by
  obtain ⟨pre, post, htasks, hset⟩ := exists_around ht
  rw [hset, htasks]
  simp [hidle, hidle']

/-- **Everything a step of the daemon does** to the connection state, the map of peers and the live
sessions. -/
inductive Effect (cfg : DaemonConfig) (s : Supervisor) : DaemonInput → Supervisor → Prop
  | quiet {e : DaemonInput} {s' : Supervisor}
      (hstate : s'.daemon.connectionState = s.daemon.connectionState) (hpeers : s'.peers = s.peers)
      (hhosts : s'.liveHosts = s.liveHosts) (hcompletes : s.completes e = false)
      (hrecorded : e ≠ .recorded) (hcleanup : ∀ k env, e ≠ .session k (.cleanup env))
      (hcleared : ∀ k, e ≠ .cleared k) : Effect cfg s e s'
  | complete {e : DaemonInput} (k : ℕ) (conn : Connection) (g : Greeting) (rttMs : F64) (t : Task)
      (ht : s.tasks[k]? = some t) (hidle : t.hostname? = none) (hcompletes : s.completes e = true) :
      Effect cfg s e (s.complete cfg k conn g rttMs)
  | recorded (runLoop : RunLoop) : Effect cfg s .recorded
      { s with
        daemon := { s.daemon with
          connectionState := s.daemon.connectionState.transitionOrStay .reconnecting }
        runLoop := runLoop }
  | cleanup (k : ℕ) (env : Env) (hostname : String) (scfg : SessionConfig) (loop : Loop)
      (daemon : DaemonState) (ht : s.tasks[k]? = some (.live hostname scfg loop))
      (hstate : daemon.connectionState = s.daemon.connectionState.transitionOrStay .disconnected) :
      Effect cfg s (.session k (.cleanup env))
        { s with daemon := daemon, tasks := s.tasks.set k .clearing }
  | cleared (k : ℕ) (ht : s.tasks[k]? = some .clearing) : Effect cfg s (.cleared k)
      { s with peers := fun _ ↦ none, tasks := s.tasks.set k .ended }

/-- A step of the run loop that only moves on, or spawns a task. -/
theorem Effect.of_run {cfg : DaemonConfig} {s : Supervisor} {e : DaemonInput} (runLoop : RunLoop)
    (spawned : List Task) (hspawned : spawned.filterMap Task.hostname? = [])
    (hcompletes : s.completes e = false) (hrecorded : e ≠ .recorded)
    (hcleanup : ∀ k env, e ≠ .session k (.cleanup env)) (hcleared : ∀ k, e ≠ .cleared k) :
    Effect cfg s e { s with runLoop := runLoop, tasks := s.tasks ++ spawned } := by
  refine .quiet rfl rfl ?_ hcompletes hrecorded hcleanup hcleared
  rw [liveHosts, List.filterMap_append, hspawned, List.append_nil]
  rfl

/-- A step of the run loop starts no session and ends none, but it may record an attempt. -/
theorem effect_of_stepRun {cfg : DaemonConfig} {s s' : Supervisor} {e : DaemonInput}
    (hstep : s' ∈ s.stepRun e) : Effect cfg s e s' := by
  have moves (runLoop : RunLoop) (hcompletes : s.completes e = false) (hrecorded : e ≠ .recorded)
      (hcleanup : ∀ k env, e ≠ .session k (.cleanup env)) (hcleared : ∀ k, e ≠ .cleared k) :
      Effect cfg s e { s with runLoop := runLoop } := by
    have h : Effect cfg s e _ :=
      Effect.of_run runLoop [] rfl hcompletes hrecorded hcleanup hcleared
    rwa [List.append_nil] at h
  cases e with
  | greeted _ _ _ | acked _ _ _ | session _ _ | cleared _ => cases hstep
  | shutdown | accepted _ | address _ =>
    simp only [stepRun] at hstep
    split at hstep <;> cases hstep
    exact moves _ rfl nofun nofun nofun
  | tested | dialed _ | slept =>
    simp only [stepRun] at hstep
    split at hstep <;> cases hstep
    exact moves _ rfl nofun nofun nofun
  | recorded =>
    simp only [stepRun] at hstep
    split at hstep <;> cases hstep
    exact .recorded _
  | trusted =>
    simp only [stepRun] at hstep
    split at hstep <;> cases hstep
    · exact .of_run _ [_] rfl rfl nofun nofun nofun
    · exact .of_run _ [_] rfl rfl nofun nofun nofun

/-- A step of a task completes its handshake, goes on with its loops, or ends it. -/
theorem effect_of_stepTask {cfg : DaemonConfig} {s s' : Supervisor} {e : DaemonInput}
    (hstep : s' ∈ s.stepTask cfg e) : Effect cfg s e s' := by
  have idles (k : ℕ) (t t' : Task) (ht : s.tasks[k]? = some t) (hidle : t.hostname? = none)
      (hidle' : t'.hostname? = none) (hcompletes : s.completes e = false)
      (hrecorded : e ≠ .recorded)
      (hcleanup : ∀ k env, e ≠ .session k (.cleanup env)) (hcleared : ∀ k, e ≠ .cleared k) :
      Effect cfg s e (s.setTask k t') :=
    .quiet rfl rfl (filterMap_set_of_idle ht hidle hidle') hcompletes hrecorded hcleanup hcleared
  cases e with
  | shutdown | accepted _ | address _ | tested | dialed _ | recorded | slept | trusted =>
    cases hstep
  | greeted k msg rttMs =>
    simp only [stepTask] at hstep
    split at hstep
    · rename_i conn ht
      cases hread : readAck msg with
      | ok g =>
        rw [hread] at hstep
        obtain rfl := Option.some.inj hstep
        exact .complete k conn g rttMs _ ht rfl (by simp [completes, ht, hread]; rfl)
      | error err =>
        rw [hread] at hstep
        obtain rfl := Option.some.inj hstep
        exact idles k _ _ ht rfl rfl (by simp [completes, ht, hread]; rfl) nofun nofun nofun
    · rename_i conn ht
      have hnot : s.completes (.greeted k msg rttMs) = false := by simp [completes, ht]
      cases hread : readHandshake msg with
      | ok g =>
        rw [hread] at hstep
        obtain rfl := Option.some.inj hstep
        exact idles k _ _ ht rfl rfl hnot nofun nofun nofun
      | error err =>
        rw [hread] at hstep
        obtain rfl := Option.some.inj hstep
        exact idles k _ _ ht rfl rfl hnot nofun nofun nofun
    · cases hstep
  | acked k sent rttMs =>
    simp only [stepTask] at hstep
    split at hstep
    · rename_i conn g ht
      obtain rfl := Option.some.inj hstep
      cases sent with
      | true => exact .complete k conn g rttMs _ ht rfl (by simp [completes, ht])
      | false => exact idles k _ _ ht rfl rfl (by simp [completes, ht]) nofun nofun nofun
    · cases hstep
  | session k i =>
    simp only [stepTask] at hstep
    split at hstep
    · rename_i hostname scfg loop ht
      obtain ⟨s₁, hs₁, rfl⟩ := Option.map_eq_some_iff.1 hstep
      rcases connection_step hs₁ with ⟨⟨env, rfl⟩, hphase, hstate⟩ | ⟨hclean, hphase, hstate⟩
      · rw [if_pos hphase]
        exact .cleanup k env hostname scfg loop _ ht hstate
      · rw [if_neg hphase]
        refine .quiet hstate rfl ?_ rfl nofun (fun k env h ↦ ?_) nofun
        · obtain ⟨pre, post, htasks, hset⟩ := exists_around ht
          rw [liveHosts, liveHosts, hset, htasks]
          simp [Task.hostname?]
        · cases h
          exact hclean env rfl
    · cases hstep
  | cleared k =>
    simp only [stepTask] at hstep
    split at hstep
    · obtain rfl := Option.some.inj hstep
      exact .cleared k ‹_›
    · cases hstep

/-- **A step has one of the effects.** -/
theorem effect_of_step {cfg : DaemonConfig} {s s' : Supervisor} {e : DaemonInput}
    (hstep : s' ∈ step cfg s e) : Effect cfg s e s' := by
  cases e with
  | shutdown | accepted _ | address _ | tested | dialed _ | recorded | slept | trusted =>
    exact effect_of_stepRun hstep
  | greeted _ _ _ | acked _ _ _ | session _ _ | cleared _ => exact effect_of_stepTask hstep

/-! ### The live sessions, step by step -/

/-- A handshake that completes adds one live session. -/
theorem liveHosts_complete (cfg : DaemonConfig) {s : Supervisor} {k : ℕ} (conn : Connection)
    (g : Greeting) (rttMs : F64) {t : Task} (ht : s.tasks[k]? = some t)
    (hidle : t.hostname? = none) :
    ∃ pre post, s.liveHosts = pre ++ post ∧
      (s.complete cfg k conn g rttMs).liveHosts = pre ++ g.hostname :: post := by
  obtain ⟨pre, post, htasks, hset⟩ := exists_around ht
  refine ⟨pre.filterMap Task.hostname?, post.filterMap Task.hostname?, ?_, ?_⟩
  · rw [liveHosts, htasks]
    simp [hidle]
  · rw [liveHosts, complete, hset]
    simp [Task.hostname?]

/-- A cleanup takes one live session away. -/
theorem liveHosts_cleanup {s : Supervisor} {k : ℕ} {hostname : String} {scfg : SessionConfig}
    {loop : Loop} (ht : s.tasks[k]? = some (.live hostname scfg loop)) :
    ∃ pre post, s.liveHosts = pre ++ hostname :: post ∧
      (s.tasks.set k .clearing).filterMap Task.hostname? = pre ++ post := by
  obtain ⟨pre, post, htasks, hset⟩ := exists_around ht
  refine ⟨pre.filterMap Task.hostname?, post.filterMap Task.hostname?, ?_, ?_⟩
  · rw [liveHosts, htasks]
    simp [Task.hostname?]
  · rw [hset, List.filterMap_append]
    rfl

/-! ### At most one live session -/

/-- No more than one session is past its handshake and before its cleanup. -/
def AtMostOneLive (s : Supervisor) : Prop := s.liveHosts.length ≤ 1

/-- The condition on a step: a handshake completes in the state `Disconnected`. -/
def CompletesDisconnected (s : Supervisor) (e : DaemonInput) : Prop :=
  s.completes e = true → s.daemon.connectionState = .disconnected

/-- The invariant: with no live session the state is `Disconnected`, with one it is `Active`, or
`Reconnecting` when a failed dial has overwritten it. -/
def SingleSession (s : Supervisor) : Prop :=
  (s.liveHosts = [] ∧ s.daemon.connectionState = .disconnected) ∨
    ∃ h, s.liveHosts = [h] ∧
      (s.daemon.connectionState = .active ∨ s.daemon.connectionState = .reconnecting)

/-- The invariant says that there is at most one live session. -/
theorem SingleSession.atMostOneLive {s : Supervisor} (h : SingleSession s) : AtMostOneLive s := by
  rcases h with ⟨hnone, -⟩ | ⟨host, hone, -⟩
  · simp [AtMostOneLive, hnone]
  · simp [AtMostOneLive, hone]

/-- The invariant is kept as long as handshakes complete in the state `Disconnected`. -/
theorem singleSession_step {cfg : DaemonConfig} {s s' : Supervisor} {e : DaemonInput}
    (h : SingleSession s) (hC : CompletesDisconnected s e) (hstep : s' ∈ step cfg s e) :
    SingleSession s' := by
  cases effect_of_step hstep with
  | quiet hstate _ hhosts =>
    rw [SingleSession, hstate, hhosts]
    exact h
  | complete k conn g rttMs t ht hidle hcompletes =>
    have hstate := hC hcompletes
    -- a live session would have left the state active or reconnecting
    rcases h with ⟨hnone, -⟩ | ⟨host, -, hbusy⟩
    · obtain ⟨pre, post, hbefore, hafter⟩ := liveHosts_complete cfg conn g rttMs ht hidle
      rw [hnone] at hbefore
      obtain ⟨rfl, rfl⟩ := List.append_eq_nil_iff.1 hbefore.symm
      refine .inr ⟨g.hostname, hafter, .inl ?_⟩
      show s.daemon.connectionState.transitionOrStay .active = .active
      rw [hstate]
      rfl
    · rw [hstate] at hbusy
      rcases hbusy with hbusy | hbusy <;> cases hbusy
  | recorded runLoop =>
    rcases h with ⟨hnone, hstate⟩ | ⟨host, hone, hbusy⟩
    -- the table refuses this transition, and the refusal is discarded
    · refine .inl ⟨hnone, ?_⟩
      show s.daemon.connectionState.transitionOrStay .reconnecting = .disconnected
      rw [hstate]
      rfl
    · refine .inr ⟨host, hone, .inr ?_⟩
      show s.daemon.connectionState.transitionOrStay .reconnecting = .reconnecting
      rcases hbusy with hbusy | hbusy <;> rw [hbusy] <;> rfl
  | cleanup k env hostname scfg loop daemon ht hstate =>
    obtain ⟨pre, post, hbefore, hafter⟩ := liveHosts_cleanup ht
    rcases h with ⟨hnone, -⟩ | ⟨host, hone, hbusy⟩
    · rw [hnone] at hbefore
      exact absurd hbefore (by simp)
    · have hempty : pre = [] ∧ post = [] := by
        have hlen := congrArg List.length (hone.symm.trans hbefore)
        simp only [List.length_append, List.length_cons, List.length_nil] at hlen
        exact ⟨List.length_eq_zero_iff.1 (by omega), List.length_eq_zero_iff.1 (by omega)⟩
      refine .inl ⟨?_, ?_⟩
      · show (s.tasks.set k .clearing).filterMap Task.hostname? = []
        rw [hafter, hempty.1, hempty.2]
        rfl
      · show daemon.connectionState = .disconnected
        rw [hstate]
        rcases hbusy with hbusy | hbusy <;> rw [hbusy] <;> rfl
  | cleared k ht =>
    have hhosts : (s.tasks.set k .ended).filterMap Task.hostname? = s.liveHosts :=
      filterMap_set_of_idle ht rfl rfl
    show SingleSession _
    rw [SingleSession, liveHosts]
    dsimp only
    rw [hhosts]
    exact h

/-- In another state one session is live already, and the handshake makes a second one. -/
theorem not_atMostOneLive_step {cfg : DaemonConfig} {s s' : Supervisor} {e : DaemonInput}
    (h : SingleSession s) (hC : ¬ CompletesDisconnected s e) (hstep : s' ∈ step cfg s e) :
    ¬ AtMostOneLive s' := by
  obtain ⟨hcompletes, hstate⟩ := Classical.not_imp.1 hC
  cases effect_of_step hstep with
  | quiet _ _ _ hnot => exact absurd (hnot.symm.trans hcompletes) Bool.false_ne_true
  | recorded | cleanup | cleared => exact absurd hcompletes Bool.false_ne_true
  | complete k conn g rttMs t ht hidle _ =>
    obtain ⟨pre, post, hbefore, hafter⟩ := liveHosts_complete cfg conn g rttMs ht hidle
    rcases h with ⟨-, hdisconnected⟩ | ⟨host, hone, -⟩
    · exact absurd hdisconnected hstate
    · have hlen := congrArg List.length (hone.symm.trans hbefore)
      simp only [List.length_append, List.length_cons, List.length_nil] at hlen
      rw [AtMostOneLive, hafter, List.length_append, List.length_cons]
      omega

/-- **At most one session is live exactly when every handshake completes in `Disconnected`.** For
every interleaving of the run loop with its session tasks, from the daemon's start. -/
theorem atMostOneLive_iff (cfg : DaemonConfig) (screen : ScreenInfo) (now : ℕ)
    (es : List DaemonInput) :
    Throughout (step cfg) AtMostOneLive (start (.new screen now)) es ↔
      EachStep (step cfg) CompletesDisconnected (start (.new screen now)) es := by
  have hstart : SingleSession (start (.new screen now)) := .inl ⟨rfl, rfl⟩
  exact throughout_iff_eachStep (I := SingleSession) (fun _ h ↦ h.atMostOneLive)
    (fun _ _ h hC _ hstep ↦ singleSession_step h hC hstep)
    (fun _ _ h hC _ hstep ↦ not_atMostOneLive_step h hC hstep) hstart es

/-- The run that fails: the daemon dials a peer while the peer's own connection is accepted, and
both handshakes complete. -/
def bothDial : List DaemonInput :=
  [.address "192.168.1.2:4242", .tested, .dialed (some ⟨"192.168.1.2:4242"⟩), .trusted,
    .accepted (some ⟨"192.168.1.2:50000"⟩), .trusted,
    .greeted 0 (some (.handshakeAck 1 "peer" .fallback none)) (.finite 1),
    .greeted 1 (some (.handshake 1 "peer" .fallback none)) (.finite 1), .acked 1 true (.finite 1)]

/-- Both connections to the same peer are live sessions. -/
theorem not_atMostOneLive_bothDial :
    ¬ Throughout (step ⟨none, true⟩) AtMostOneLive (start (.new .fallback 0)) bothDial := by
  have hview : (run (step ⟨none, true⟩) (start (.new .fallback 0)) bothDial).map liveHosts =
      some ["peer", "peer"] := by
    decide +kernel
  obtain ⟨t, ht, hview⟩ := Option.map_eq_some_iff.1 hview
  refine not_throughout_of_run ht ?_
  rw [AtMostOneLive, hview]
  decide

/-! ### The record of the live sessions -/

/-- The connection state and the map of peers report the live sessions. -/
structure Reported (s : Supervisor) : Prop where
  active : s.daemon.connectionState = .active ↔ s.liveHosts ≠ []
  registered : ∀ h ∈ s.liveHosts, (s.peers h).isSome = true

/-- The condition on a step: a failed dial is not recorded over `Active`, and neither half of a
cleanup finds another live session. -/
def KeepsRecord (s : Supervisor) : DaemonInput → Prop
  | .recorded => s.daemon.connectionState ≠ .active
  | .session _ (.cleanup _) => s.liveHosts.length ≤ 1
  | .cleared _ => s.liveHosts = []
  | _ => True

/-- The invariant: the state is `Active` with a live session and `Disconnected` without. -/
structure Recorded (s : Supervisor) : Prop where
  state : s.daemon.connectionState = .active ∧ s.liveHosts ≠ [] ∨
    s.daemon.connectionState = .disconnected ∧ s.liveHosts = []
  registered : ∀ h ∈ s.liveHosts, (s.peers h).isSome = true

/-- The invariant says that what is reported is right. -/
theorem Recorded.reported {s : Supervisor} (h : Recorded s) : Reported s := by
  refine ⟨?_, h.registered⟩
  rcases h.state with ⟨hactive, hlive⟩ | ⟨hdisconnected, hnone⟩
  · exact ⟨fun _ ↦ hlive, fun _ ↦ hactive⟩
  · rw [hdisconnected]
    exact ⟨nofun, fun hlive ↦ absurd hnone hlive⟩

/-- Steps that keep the record keep the invariant. -/
theorem recorded_step {cfg : DaemonConfig} {s s' : Supervisor} {e : DaemonInput}
    (h : Recorded s) (hC : KeepsRecord s e) (hstep : s' ∈ step cfg s e) : Recorded s' := by
  cases effect_of_step hstep with
  | quiet hstate hpeers hhosts =>
    refine ⟨?_, ?_⟩
    · rw [hstate, hhosts]
      exact h.state
    · rw [hhosts, hpeers]
      exact h.registered
  | complete k conn g rttMs t ht hidle _ =>
    obtain ⟨pre, post, hbefore, hafter⟩ := liveHosts_complete cfg conn g rttMs ht hidle
    refine ⟨.inl ⟨?_, by rw [hafter]; simp⟩, fun host hhost ↦ ?_⟩
    · show s.daemon.connectionState.transitionOrStay .active = .active
      rcases h.state with ⟨hstate, -⟩ | ⟨hstate, -⟩ <;> rw [hstate] <;> rfl
    · show (Function.update s.peers g.hostname _ host).isSome = true
      by_cases heq : host = g.hostname
      · rw [heq, Function.update_self]
        rfl
      · rw [Function.update_of_ne heq]
        refine h.registered host ?_
        rw [hafter] at hhost
        rw [hbefore]
        simpa [heq] using hhost
  | recorded runLoop =>
    refine ⟨?_, h.registered⟩
    rcases h.state with ⟨hstate, -⟩ | ⟨hstate, hnone⟩
    · exact absurd hstate hC
    · refine .inr ⟨?_, hnone⟩
      show s.daemon.connectionState.transitionOrStay .reconnecting = .disconnected
      rw [hstate]
      rfl
  | cleanup k env hostname scfg loop daemon ht hstate =>
    obtain ⟨pre, post, hbefore, hafter⟩ := liveHosts_cleanup ht
    have hone : s.liveHosts.length ≤ 1 := hC
    -- so the session that cleans up is the only live one
    rw [hbefore, List.length_append, List.length_cons] at hone
    have hpre : pre = [] := List.length_eq_zero_iff.1 (by omega)
    have hpost : post = [] := List.length_eq_zero_iff.1 (by omega)
    subst hpre hpost
    have hactive : s.daemon.connectionState = .active := by
      rcases h.state with ⟨hactive, -⟩ | ⟨-, hnone⟩
      · exact hactive
      · rw [hnone] at hbefore
        cases hbefore
    refine ⟨.inr ⟨?_, hafter⟩, fun host hhost ↦ ?_⟩
    · show daemon.connectionState = .disconnected
      rw [hstate, hactive]
      rfl
    · rw [liveHosts, hafter] at hhost
      cases hhost
  | cleared k ht =>
    have hhosts : (s.tasks.set k .ended).filterMap Task.hostname? = s.liveHosts :=
      filterMap_set_of_idle ht rfl rfl
    have hnone : s.liveHosts = [] := hC
    refine ⟨?_, fun host hhost ↦ ?_⟩
    · show s.daemon.connectionState = .active ∧ (s.tasks.set k .ended).filterMap _ ≠ [] ∨
        s.daemon.connectionState = .disconnected ∧ (s.tasks.set k .ended).filterMap _ = []
      rw [hhosts]
      exact h.state
    · rw [liveHosts, hhosts, hnone] at hhost
      cases hhost

/-- A step that does not leaves something wrong to be reported. -/
theorem not_reported_step {cfg : DaemonConfig} {s s' : Supervisor} {e : DaemonInput}
    (h : Recorded s) (hC : ¬ KeepsRecord s e) (hstep : s' ∈ step cfg s e) : ¬ Reported s' := by
  intro hreported
  cases effect_of_step hstep with
  | quiet _ _ _ _ hrecorded hcleanup hcleared =>
    refine hC ?_
    match e with
    | .recorded => exact absurd rfl hrecorded
    | .session k (.cleanup env) => exact absurd rfl (hcleanup k env)
    | .cleared k => exact absurd rfl (hcleared k)
    | .shutdown | .accepted _ | .address _ | .tested | .dialed _ | .slept | .trusted
    | .greeted _ _ _ | .acked _ _ _ | .session _ (.push _) | .session _ .shutdown
    | .session _ (.clipboardOutgoing _ _) | .session _ (.clipboardReceived _)
    | .session _ (.captured _ _) | .session _ .captureClosed | .session _ (.frame _ _)
    | .session _ (.control _ _) => trivial
  | complete k conn g rttMs t ht hidle hcompletes =>
    match e with
    | .greeted _ _ _ | .acked _ _ _ => exact hC trivial
    | .recorded | .session _ _ | .cleared _ | .shutdown | .accepted _ | .address _ | .tested
    | .dialed _ | .slept | .trusted => exact absurd hcompletes Bool.false_ne_true
  | recorded runLoop =>
    have hactive : s.daemon.connectionState = .active := not_not.1 hC
    rcases h.state with ⟨-, hlive⟩ | ⟨hstate, -⟩
    · have hnow : s.daemon.connectionState.transitionOrStay .reconnecting = .active :=
        hreported.active.2 hlive
      rw [hactive] at hnow
      cases hnow
    · rw [hactive] at hstate
      cases hstate
  | cleanup k env hostname scfg loop daemon ht hstate =>
    obtain ⟨pre, post, hbefore, hafter⟩ := liveHosts_cleanup ht
    have hmany : ¬ s.liveHosts.length ≤ 1 := hC
    -- another session stays live, and the cleanup leaves the state disconnected
    have hactive : s.daemon.connectionState = .active := by
      rcases h.state with ⟨hactive, -⟩ | ⟨-, hnone⟩
      · exact hactive
      · rw [hnone] at hmany
        exact absurd (Nat.zero_le 1) hmany
    have hothers : (s.tasks.set k .clearing).filterMap Task.hostname? ≠ [] := by
      intro hnil
      rw [hafter] at hnil
      obtain ⟨rfl, rfl⟩ := List.append_eq_nil_iff.1 hnil
      rw [hbefore] at hmany
      exact hmany (le_refl 1)
    have hnow : daemon.connectionState = .active := hreported.active.2 hothers
    rw [hstate, hactive] at hnow
    cases hnow
  | cleared k ht =>
    have hhosts : (s.tasks.set k .ended).filterMap Task.hostname? = s.liveHosts :=
      filterMap_set_of_idle ht rfl rfl
    obtain ⟨host, rest, hlive⟩ := List.exists_cons_of_ne_nil (show s.liveHosts ≠ [] from hC)
    have hentry := hreported.registered host (by rw [liveHosts, hhosts, hlive]; simp)
    cases hentry

/-- **The record reports the live sessions exactly when no step overwrites it for others.** For
every interleaving, from the daemon's start: in every state the connection state is `Active` if and
only if some session is live, and every live session's peer is in the map; if and only if no failed
dial is recorded over `Active`, no cleanup resets the state while another session is live, and no
cleanup clears the map while any session is live. -/
theorem reported_iff (cfg : DaemonConfig) (screen : ScreenInfo) (now : ℕ)
    (es : List DaemonInput) :
    Throughout (step cfg) Reported (start (.new screen now)) es ↔
      EachStep (step cfg) KeepsRecord (start (.new screen now)) es := by
  have hstart : Recorded (start (.new screen now)) := ⟨.inr ⟨rfl, rfl⟩, nofun⟩
  exact throughout_iff_eachStep (I := Recorded) (fun _ h ↦ h.reported)
    (fun _ _ h hC _ hstep ↦ recorded_step h hC hstep)
    (fun _ _ h hC _ hstep ↦ not_reported_step h hC hstep) hstart es

/-- The run that fails: a peer is accepted, the daemon dials an address, the peer's handshake
completes, and the first attempt to dial fails. -/
def failedDial : List DaemonInput :=
  [.accepted (some ⟨"192.168.1.2:50000"⟩), .trusted, .address "192.168.1.3:4242", .tested,
    .greeted 0 (some (.handshake 1 "peer" .fallback none)) (.finite 1), .acked 0 true (.finite 1),
    .dialed none, .recorded, .slept, .dialed (some ⟨"192.168.1.3:4242"⟩), .trusted]

/-- With the run loop back at its `select!`, the first session is live and the daemon reports
`Reconnecting`. -/
theorem not_reported_failedDial :
    ¬ Throughout (step ⟨none, true⟩) Reported (start (.new .fallback 0)) failedDial := by
  have hview : (run (step ⟨none, true⟩) (start (.new .fallback 0)) failedDial).map
      (fun s ↦ (s.runLoop, s.daemon.connectionState, s.liveHosts)) =
        some (.select, .reconnecting, ["peer"]) := by
    decide +kernel
  obtain ⟨t, ht, hview⟩ := Option.map_eq_some_iff.1 hview
  simp only [Prod.mk.injEq] at hview
  obtain ⟨-, hstate, hlive⟩ := hview
  refine not_throughout_of_run ht fun hreported ↦ ?_
  have hactive := hreported.active.2 (by rw [hlive]; simp)
  rw [hstate] at hactive
  cases hactive

end Supervisor

end Kmflow
