import Kmflow.Daemon.Outcome
import Kmflow.Foundation.Handover

/-!
# Two daemons and the focus

Two sessions, one on each daemon, joined by control messages that arrive reliably and in order. A
step of one side is a step of its session; what the session hands to `send_control` is appended to
the other side's inbox, and the control arm takes the oldest message out of its own. Datagrams are
not tracked: a side may receive any frame at any time, and may stop, fail or clean up at any time.

The pair is a hand-over of one flag each (`Handover`): `focus_is_remote` is only ever raised
together with a `SwitchFocus`, and a `SwitchFocus` received lowers it (`focus_step`). So when both
daemons send their input away, the one that switched first has a `SwitchFocus` to read.
-/

namespace Kmflow

open Transition Handover

/-! ### Focus and control messages in one step -/

/-- The commands a step hands to `send_control`. -/
def sentBetween (s s' : Session) : List ControlCommand :=
  Output.controls (s'.outputs.drop s.outputs.length)

/-- What was sent between two states is what was handed out in between. -/
theorem sentBetween_eq {s s' : Session} {outs : List Output} (h : s'.outputs = s.outputs ++ outs) :
    sentBetween s s' = Output.controls outs := by
  rw [sentBetween, h, List.drop_left]

/-- The announcement that a daemon has switched its input away. -/
def AnnouncesFocus (c : ControlCommand) : Prop := ∃ toPeer, c = .switchFocus toPeer

/-- **What a step does to the focus.** Either it raises the flag and sends `SwitchFocus`, or it does
not raise it, and lowers it if it is the handler of a message that hands focus back. -/
theorem focus_step {cfg : SessionConfig} {s s' : Session} {i : Input}
    (hstep : s' ∈ Session.step cfg s i) :
    (s.daemon.focusIsRemote = false ∧ s'.daemon.focusIsRemote = true ∧
      ∃ c ∈ sentBetween s s', AnnouncesFocus c) ∨
    ((s'.daemon.focusIsRemote = true → s.daemon.focusIsRemote = true) ∧
      ∀ env c, i = .control env (some c) → c.handsBack = true →
        s'.daemon.focusIsRemote = false) := by
  have raised {d : DaemonState} {outs : List Output} {channel : List InputEvent} {phase : Phase}
      (hc : .switchFocus "remote" ∈ Output.controls outs) :
      ∃ c ∈ sentBetween s ⟨d, channel, phase, s.outputs ++ outs⟩, AnnouncesFocus c := by
    rw [sentBetween_eq rfl]
    exact ⟨_, hc, _, rfl⟩
  cases outcome_of_step hstep with
  | push _ _ | captureClosed _ _ => exact .inr ⟨id, fun _ _ hi ↦ by cases hi⟩
  | idle d outs phase _ hd _ _ _ _ _ hctrl =>
    refine .inr ⟨fun h ↦ hd.focusIsRemote ▸ h, fun env c hi hc ↦ ?_⟩
    simp [hctrl env c hi] at hc
  | keep event rest d phase _ _ hfocus hd _ =>
    refine .inr ⟨fun h ↦ ?_, fun _ _ hi ↦ by cases hi⟩
    rw [hd.focusIsRemote, trackKeyState_focusIsRemote] at h
    exact h
  | edgeHit event rest d _ _ hfocus hd =>
    exact .inl ⟨hfocus, hd.focusIsRemote, raised (by simp)⟩
  | emergency event rest _ _ hfocus _ => exact .inr ⟨fun _ ↦ hfocus, fun _ _ hi ↦ by cases hi⟩
  | forward event rest _ _ hfocus _ => exact .inr ⟨fun _ ↦ hfocus, fun _ _ hi ↦ by cases hi⟩
  | frameHit d _ hfocus hd =>
    exact .inl ⟨hfocus, hd.focusIsRemote, raised (by simp)⟩
  | receiveOnlyFrameHit d _ hfocus hd =>
    exact .inl ⟨hfocus, hd.focusIsRemote, raised (by simp)⟩
  | handBack _ _ | receiveOnlyHandBack _ _ => exact .inr ⟨fun h ↦ (by cases h), fun _ _ _ _ ↦ rfl⟩
  | cleanup _ _ => exact .inr ⟨fun h ↦ (by cases h), fun _ _ hi ↦ by cases hi⟩

/-! ### The pair -/

/-- The two sessions and the control messages on their way to each. -/
structure Pair where
  session : Side → Session
  inbox : Side → List ControlCommand

/-- The labels of the pair. -/
inductive PairInput where
  /-- A step of one side that receives no control message. -/
  | move (x : Side) (i : Input)
  /-- The oldest message on its way to one side is delivered. -/
  | deliver (x : Side) (env : Env)

/-- The side that moves. -/
def PairInput.side : PairInput → Side
  | .move x _ => x
  | .deliver x _ => x

namespace Pair

/-- Both sessions at their first head, with nothing on the way. -/
def start (daemon : Side → DaemonState) : Pair where
  session x := .start (daemon x)
  inbox _ := []

/-- One side's session moves on, with its inbox as given; what it sends goes to the other side. -/
def advance (p : Pair) (x : Side) (s : Session) (inbox : List ControlCommand) : Pair where
  session := Function.update p.session x s
  inbox := Function.update (Function.update p.inbox x inbox) x.other
    (p.inbox x.other ++ sentBetween (p.session x) s)

/-- One step of the pair; `none` when the label is not enabled. -/
def step (cfg : Side → SessionConfig) (p : Pair) : PairInput → Option Pair
  | .move _ (.control _ (some _)) => none
  | .move x i => (Session.step (cfg x) (p.session x) i).map fun s ↦ p.advance x s (p.inbox x)
  | .deliver x env =>
    match p.inbox x with
    | [] => none
    | c :: inbox =>
      (Session.step (cfg x) (p.session x) (.control env (some c))).map fun s ↦ p.advance x s inbox

/-- Whether a side's focus is remote. -/
def focusIsRemote (p : Pair) (x : Side) : Bool := (p.session x).daemon.focusIsRemote

/-! ### The moments of the switches -/

/-- The history variable: how often focus was switched away, and when each side last did so. -/
structure Switches where
  clock : ℕ
  switchedAt : Side → ℕ

/-- What a step adds to the history: a side whose focus has become remote did so now. -/
def recordSwitch (h : Switches) (p : Pair) (e : PairInput) (p' : Pair) : Switches :=
  if p.focusIsRemote e.side = false ∧ p'.focusIsRemote e.side = true then
    ⟨h.clock + 1, Function.update h.switchedAt e.side (h.clock + 1)⟩
  else h

/-- The pair, with the moments of the switches recorded. -/
def timedStep (cfg : Side → SessionConfig) :
    Pair × Switches → PairInput → Option (Pair × Switches) :=
  withHistory (step cfg) recordSwitch

/-- When both daemons send their input away, the one that switched earlier has a `SwitchFocus` on
its way to it; and with no message on its way they do not both send their input away. -/
def Agreed (ph : Pair × Switches) : Prop :=
  ((∀ x, ph.1.focusIsRemote x = true) →
    ∃ x, ph.2.switchedAt x < ph.2.switchedAt x.other ∧
      ∃ toPeer, .switchFocus toPeer ∈ ph.1.inbox x) ∧
  ((∀ x, ph.1.inbox x = []) → ¬ ∀ x, ph.1.focusIsRemote x = true)

/-! ### The pair is a hand-over -/

/-- The flags, inboxes and moments of a timed pair. -/
def handover (ph : Pair × Switches) : Handover.State ControlCommand where
  flag := ph.1.focusIsRemote
  inbox := ph.1.inbox
  clock := ph.2.clock
  raisedAt := ph.2.switchedAt

/-- What settles is agreed upon. -/
theorem Agreed.of_settling {ph : Pair × Switches}
    (h : Settling AnnouncesFocus (handover ph)) : Agreed ph := by
  refine ⟨fun hboth ↦ ?_, fun hquiet ↦ h.not_both hquiet⟩
  obtain ⟨x, hlt, c, hc, toPeer, rfl⟩ := h.exists_inFlight hboth
  exact ⟨x, hlt, toPeer, hc⟩

@[simp] theorem focusIsRemote_advance (p : Pair) (x : Side) (s : Session)
    (inbox : List ControlCommand) :
    (p.advance x s inbox).focusIsRemote =
      Function.update p.focusIsRemote x s.daemon.focusIsRemote := by
  funext y
  rcases eq_or_ne y x with rfl | hy
  · simp [focusIsRemote, advance]
  · simp [focusIsRemote, advance, Function.update_of_ne hy]

/-- A side that moves on is a move of the hand-over. -/
theorem handover_advance {p : Pair} {h : Switches} {e : PairInput} {x : Side} (hx : e.side = x)
    (s : Session) (inbox : List ControlCommand) :
    handover (p.advance x s inbox, recordSwitch h p e (p.advance x s inbox)) =
      (handover (p, h)).move x s.daemon.focusIsRemote inbox (sentBetween (p.session x) s) := by
  have hrecord : recordSwitch h p e (p.advance x s inbox) =
      if p.focusIsRemote x = false ∧ s.daemon.focusIsRemote = true then
        ⟨h.clock + 1, Function.update h.switchedAt x (h.clock + 1)⟩
      else h := by
    rw [recordSwitch, hx, focusIsRemote_advance, Function.update_self]
  by_cases hraise : p.focusIsRemote x = false ∧ s.daemon.focusIsRemote = true
  · rw [hrecord, if_pos hraise]
    simp only [handover, State.move, hraise, and_self, if_true, focusIsRemote_advance]
    rfl
  · rw [hrecord, if_neg hraise]
    simp only [handover, State.move, hraise, if_false, focusIsRemote_advance]
    rfl

/-- **A step of the pair is a step of the hand-over.** -/
theorem handover_step {cfg : Side → SessionConfig} {ph ph' : Pair × Switches} {e : PairInput}
    (hstep : ph' ∈ timedStep cfg ph e) :
    Handover.Step AnnouncesFocus (handover ph) (handover ph') := by
  obtain ⟨p, h⟩ := ph
  obtain ⟨p', h'⟩ := ph'
  obtain ⟨hp, hh⟩ := mem_withHistory.1 hstep
  dsimp only at hp hh
  subst hh
  cases e with
  | move x i =>
    have hs : ∃ s ∈ Session.step (cfg x) (p.session x) i, p' = p.advance x s (p.inbox x) := by
      match i with
      -- a command only comes out of the inbox
      | .control _ (some _) => cases hp
      | .push _ | .shutdown | .clipboardOutgoing _ _ | .clipboardReceived _ | .captured _ _
      | .captureClosed | .frame _ _ | .cleanup _ | .control _ none =>
        obtain ⟨s, hs, rfl⟩ := Option.map_eq_some_iff.1 hp
        exact ⟨s, hs, rfl⟩
    obtain ⟨s, hs, rfl⟩ := hs
    rw [handover_advance (x := x) rfl]
    rcases focus_step hs with ⟨hlow, hhigh, hsent⟩ | ⟨hhold, -⟩
    · rw [hhigh]
      exact .raise x _ _ hlow hsent
    · exact .hold x _ _ hhold
  | deliver x env =>
    obtain ⟨c, inbox, s, hinbox, hs, rfl⟩ : ∃ c inbox s, p.inbox x = c :: inbox ∧
        s ∈ Session.step (cfg x) (p.session x) (.control env (some c)) ∧
          p' = p.advance x s inbox := by
      simp only [step] at hp
      split at hp
      · cases hp
      · obtain ⟨s, hs, rfl⟩ := Option.map_eq_some_iff.1 hp
        exact ⟨_, _, s, ‹_›, hs, rfl⟩
    rw [handover_advance (x := x) rfl]
    rcases focus_step hs with ⟨hlow, hhigh, hsent⟩ | ⟨hhold, hback⟩
    · rw [hhigh]
      exact .raise x _ _ hlow hsent
    · refine .receive x _ c _ _ hinbox hhold ?_
      rintro ⟨toPeer, rfl⟩
      exact hback env _ rfl rfl

/-- **Focus agreement.** For every run of two daemons that both start with focus local: whenever
both send their input away, a `SwitchFocus` is on its way to the one that switched earlier, and when
no control message is on its way at most one of them does. -/
theorem agreed_of_run (cfg : Side → SessionConfig) (d : Side → DaemonState) (is : List PairInput)
    (hfocus : ∀ x, (d x).focusIsRemote = false) :
    Throughout (timedStep cfg) Agreed (start d, ⟨0, fun _ ↦ 0⟩) is := by
  have hstart : Settling AnnouncesFocus (handover (start d, ⟨0, fun _ ↦ 0⟩)) := by
    have hlow : ∀ x, (handover (start d, ⟨0, fun _ ↦ 0⟩)).flag x ≠ true := fun x hx ↦ by
      simp [handover, focusIsRemote, start, Session.start, hfocus x] at hx
    exact ⟨fun _ ↦ le_rfl, fun x hx _ ↦ absurd hx (hlow x), fun x hx _ ↦ absurd hx (hlow x)⟩
  have hrun : Throughout (timedStep cfg) (fun ph ↦ Settling AnnouncesFocus (handover ph))
      (start d, ⟨0, fun _ ↦ 0⟩) is :=
    throughout_of_invariant (fun _ _ h _ hstep ↦ (handover_step hstep).settling h) hstart is
  exact hrun.mono fun _ ↦ .of_settling

/-- Both cursors reach their edges at the same moment, and the announcements cross. -/
def crossingRun : List PairInput :=
  [.move .left (.push (.mouseMove (.finite 1000) (.finite 0))),
    .move .right (.push (.mouseMove (.finite 1000) (.finite 0))),
    .move .left (.captured (.at 0) 0), .move .right (.captured (.at 0) 0),
    .deliver .left (.at 0), .deliver .right (.at 0)]

/-- Two sides that switch at the same time still agree in the end. -/
theorem agreed_of_run_crossingRun :
    Throughout (timedStep fun _ ↦ .fallback) Agreed
      (start fun _ ↦ .new .fallback 0, ⟨0, fun _ ↦ 0⟩) crossingRun :=
  agreed_of_run (fun _ ↦ .fallback) (fun _ ↦ .new .fallback 0) crossingRun fun _ ↦ rfl

end Pair

end Kmflow
