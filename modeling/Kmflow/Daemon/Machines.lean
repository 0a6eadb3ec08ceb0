import Kmflow.Daemon.DevicePath
import Kmflow.Daemon.Link
import Kmflow.Daemon.Tracking
import Kmflow.Input.Loopback

/-!
# Two machines

`DevicePath` on both sides of `Link`: the kernel's devices, the capture thread and the session of
each machine, and the network between the two sessions. All of them take their steps in any order.

What an emulator has been given comes from the devices of the other machine (`origin_of_run`). It
was captured there, from devices that no emulator has made, and is emulated no more often than it
was captured; only releases are added, of keys and buttons that were captured when they went down.
When the network keeps the order and loses nothing, it is emulated in the order in which it was
captured, and what is held down at the emulator is held down at the devices (`inOrder_of_run`).
-/

namespace Kmflow

open Transition Handover Datagrams Channels

/-! ### What a session makes of what it receives -/

/-- Something is released. -/
def InputEvent.isRelease (event : InputEvent) : Bool :=
  match event.toggle? with
  | some (.up _) => true
  | _ => false

/-- The release of a switch is one. -/
theorem Switch.isRelease_release (a : Switch) : a.release.isRelease = true := by
  cases a <;> rfl

/-- The event is one of those, or releases what one of them presses. -/
def Stems (captured : List InputEvent) (event : InputEvent) : Prop :=
  event ∈ captured ∨
    ∃ a : Switch, event = a.release ∧ ∃ press ∈ captured, press.toggle? = some (.down a)

/-- What stems from some captures stems from more of them. -/
theorem Stems.mono {captured captured' : List InputEvent} {event : InputEvent}
    (h : Stems captured event) (hsub : captured ⊆ captured') : Stems captured' event := by
  rcases h with hmem | ⟨a, rfl, press, hpress, hdown⟩
  · exact .inl (hsub hmem)
  · exact .inr ⟨a, rfl, press, hsub hpress, hdown⟩

/-- What is held has been pressed. -/
theorem exists_press {events : List InputEvent} {a : Switch} (ha : a ∈ replayEvents ∅ events) :
    ∃ press ∈ events, press.toggle? = some (.down a) := by
  obtain ⟨before, t, after, hsplit, hswitch, hdown, -⟩ :=
    Toggle.exists_last_split (Toggle.mem_replay_empty_iff.1 ha)
  obtain ⟨press, hpress, ht⟩ : ∃ press ∈ events, press.toggle? = some t :=
    List.mem_filterMap.1 (hsplit ▸ List.mem_append_right before (.head after))
  rcases t with b | b
  · obtain rfl : b = a := hswitch
    exact ⟨press, hpress, ht⟩
  · cases hdown

namespace Session

/-- A session forwards what it has received, and releases what it has received as pressed. -/
structure Sends (received : List InputEvent) (s : Session) : Prop where
  once : (s.forwarded.filter (!·.isRelease)).Sublist received
  stems : ∀ event ∈ s.forwarded, Stems received event
  tracked : s.daemon.pressed ⊆ replayEvents ∅ received

section Sends

variable {cfg : SessionConfig} {s t : Session} {i : Input} {received es : List InputEvent}

/-- A session that starts with nothing tracked has sent nothing. -/
theorem sends_start {d : DaemonState} (hd : d.pressed = ∅) : Sends [] (start d) where
  once := .refl _
  stems _ hevent := absurd hevent List.not_mem_nil
  tracked := hd.subset

/-- What is tracked was received as pressed, and stays so with more events. -/
theorem tracked_append (h : Sends received s)
    (hpressed : t.daemon.pressed ⊆ replayEvents s.daemon.pressed es) :
    t.daemon.pressed ⊆ replayEvents ∅ (received ++ es) := by
  rw [replayEvents_append]
  exact hpressed.trans (replayEvents_subset h.tracked es)

/-- A step that forwards nothing but releases. -/
theorem Sends.of_releases (h : Sends received s) {outs : List Output}
    (houts : t.outputs = s.outputs ++ outs)
    (hreleases : ∀ event ∈ Output.forwarded outs,
      ∃ a ∈ replayEvents ∅ (received ++ es), event = a.release)
    (hpressed : t.daemon.pressed ⊆ replayEvents s.daemon.pressed es) :
    Sends (received ++ es) t := by
  have hforwarded : t.forwarded = s.forwarded ++ Output.forwarded outs := by
    rw [forwarded, houts, Output.forwarded_append]
    rfl
  refine ⟨?_, fun event hevent ↦ ?_, tracked_append h hpressed⟩
  · have hnone : (Output.forwarded outs).filter (!·.isRelease) = [] := by
      refine List.filter_eq_nil_iff.2 fun event hevent ↦ ?_
      obtain ⟨a, -, rfl⟩ := hreleases event hevent
      simp [a.isRelease_release]
    rw [hforwarded, List.filter_append, hnone]
    exact h.once.append (List.nil_sublist es)
  · rw [hforwarded, List.mem_append] at hevent
    rcases hevent with hold | hnew
    · exact (h.stems event hold).mono (List.subset_append_left _ _)
    · obtain ⟨a, ha, rfl⟩ := hreleases event hnew
      exact .inr ⟨a, rfl, exists_press ha⟩

/-- A step that forwards nothing. -/
theorem Sends.of_nothing (h : Sends received s) {outs : List Output}
    (houts : t.outputs = s.outputs ++ outs) (hnothing : Output.forwarded outs = [])
    (hpressed : t.daemon.pressed ⊆ replayEvents s.daemon.pressed es) :
    Sends (received ++ es) t :=
  h.of_releases houts (fun event hevent ↦ by rw [hnothing] at hevent; cases hevent) hpressed

/-- A step that forwards what it takes. -/
theorem Sends.of_taken (h : Sends received s) {outs : List Output}
    (houts : t.outputs = s.outputs ++ outs) (hall : Output.forwarded outs = es)
    (hpressed : t.daemon.pressed ⊆ replayEvents s.daemon.pressed es) :
    Sends (received ++ es) t := by
  have hforwarded : t.forwarded = s.forwarded ++ es := by
    rw [forwarded, houts, Output.forwarded_append, hall]
    rfl
  refine ⟨?_, fun event hevent ↦ ?_, tracked_append h hpressed⟩
  · rw [hforwarded, List.filter_append]
    exact h.once.append List.filter_sublist
  · rw [hforwarded, List.mem_append] at hevent
    rcases hevent with hold | hnew
    · exact (h.stems event hold).mono (List.subset_append_left _ _)
    · exact .inl (List.mem_append_right _ hnew)

/-- **Every step keeps to what is received.** -/
theorem Sends.step (h : Sends received s) (ht : t ∈ Session.step cfg s i)
    (hpush : ∀ event, i ≠ .push event) (hes : es ++ t.channel = s.channel) :
    Sends (received ++ es) t := by
  have htaken {new rest : List InputEvent} (hch : s.channel = new ++ rest)
      (hrest : t.channel = rest) : es = new := by
    rw [hch, hrest] at hes
    exact List.append_cancel_right hes
  have hnothing (hchannel : t.channel = s.channel) : es = [] := htaken rfl hchannel
  rcases outcome_of_step ht with event | ⟨d, outs, phase, hrun, hd, houts⟩ | ⟨hphase, hch⟩ |
    ⟨event, rest, d, phase, hphase, hch, hfocus, hd⟩ | ⟨event, rest, d, hphase, hch, hfocus, hd⟩ |
    ⟨event, rest, hphase, hch, hfocus, hkey⟩ | ⟨event, rest, hphase, hch, hfocus, hkey⟩ |
    ⟨d, hphase, hfocus, hd⟩ | ⟨d, hphase, hfocus, hd⟩ | ⟨hc, hphase⟩ | ⟨hc, hphase⟩ | ⟨env, hphase⟩
  case push => exact absurd rfl (hpush event)
  case idle =>
    obtain rfl := hnothing rfl
    exact h.of_nothing rfl houts.forwarded hd.pressed.subset
  case captureClosed =>
    obtain rfl : es = [] := hnothing hch.symm
    exact h.of_nothing (List.append_nil _).symm rfl subset_rfl
  case keep =>
    obtain rfl : es = [event] := htaken hch rfl
    exact h.of_nothing (List.append_nil _).symm rfl
      (hd.pressed.subset.trans (pressed_trackKeyState s.daemon event).subset)
  case edgeHit =>
    obtain rfl : es = [event] := htaken hch rfl
    exact h.of_nothing rfl rfl
      (hd.pressed.subset.trans (pressed_trackKeyState s.daemon event).subset)
  case emergency env ready =>
    obtain rfl : es = [event] := htaken hch rfl
    have hpressed := (pressed_trackKeyState s.daemon event).subset
    refine h.of_releases rfl (fun e he ↦ ?_) hpressed
    rw [forwarded_emergencyRelease, flushPressedKeys_eq] at he
    obtain ⟨a, ha, rfl⟩ := List.mem_map.1 he
    have hsub : (trackKeyState s.daemon event).pressed ⊆ replayEvents ∅ (received ++ [event]) :=
      tracked_append (t := ⟨trackKeyState s.daemon event, rest, .mainLoop, []⟩) h hpressed
    exact ⟨a, hsub ((FlushOrder.mem_iter _ _ a).1 ha), rfl⟩
  case forward env ready =>
    obtain rfl : es = event :: rest.take (drained ready) :=
      htaken (by rw [hch, List.cons_append, List.take_append_drop]) rfl
    exact h.of_taken rfl (List.append_nil _) (pressed_tracked s.daemon _).subset
  case frameHit | receiveOnlyFrameHit =>
    obtain rfl := hnothing rfl
    exact h.of_nothing rfl rfl hd.pressed.subset
  case handBack =>
    obtain rfl := hnothing rfl
    exact h.of_nothing rfl rfl subset_rfl
  case receiveOnlyHandBack =>
    obtain rfl := hnothing rfl
    exact h.of_nothing (List.append_nil _).symm rfl subset_rfl
  case cleanup =>
    obtain rfl := hnothing rfl
    have hcleared : (Kmflow.cleanup env s.daemon).1.pressed = ∅ :=
      DaemonState.pressed_eq_empty_of_cleared rfl rfl
    refine h.of_releases rfl (fun e he ↦ ?_) (hcleared ▸ Finset.empty_subset _)
    rw [forwarded_cleanup] at he
    rw [List.append_nil]
    split_ifs at he with hfocus
    · rw [flushPressedKeys_eq] at he
      obtain ⟨a, ha, rfl⟩ := List.mem_map.1 he
      exact ⟨a, h.tracked ((FlushOrder.mem_iter _ _ a).1 ha), rfl⟩
    · cases he

end Sends

end Session

/-! ### One machine -/

namespace DevicePath

variable {ι : Type} [DecidableEq ι] {cfg : SessionConfig} {set : DeviceSet ι} {s s' : DevicePath ι}
  {log : Log ι} {label : Label ι}

/-- What does not come from the session only fills and empties its channel. -/
theorem session_of_own (hlabel : ∀ i, label ≠ .session i)
    (hs' : s' ∈ DevicePath.step cfg set s label) :
    ∃ channel, s'.session = { s.session with channel := channel } := by
  rcases move_of_step hs' with _ | _ | _ | _ | _ | _ | _ | ⟨i, t, hpush, ht⟩ | _
  case session => exact absurd rfl (hlabel i)
  all_goals exact ⟨_, rfl⟩

/-- Only the session receives. -/
theorem received_of_own (hlabel : ∀ i, label ≠ .session i) :
    (record log s label s').received = log.received := by
  rcases label with _ | _ | _ | _ | _ | i | _
  case session => exact absurd rfl (hlabel i)
  all_goals exact List.append_nil _

/-- A step of the session within the path is a step of the session. -/
theorem session_of_session {i : Input} (hs' : s' ∈ DevicePath.step cfg set s (.session i)) :
    s'.session ∈ Session.step cfg s.session i := by
  rcases move_of_step hs' with _ | _ | _ | _ | _ | _ | _ | ⟨_, t, hpush, ht⟩ | _
  exact ht

/-- What is known of a machine whatever comes from the other one. -/
structure Yields (set : DeviceSet ι) (sl : DevicePath ι × Log ι) : Prop where
  devices : EvdevDevices.Sound set (sl.1.devices, sl.2.devices)
  passed : Passed sl
  sends : sl.1.session.Sends sl.2.received

/-- At the start nothing was received. -/
theorem yields_start {d : DaemonState} (hd : d.pressed = ∅) :
    Yields set ((start d, .empty) : DevicePath ι × Log ι) where
  devices := EvdevDevices.sound_start
  passed := passed_start d
  sends := Session.sends_start hd

/-- **A step of the path keeps the invariant.** -/
theorem Yields.step (h : Yields set (s, log)) (hs' : s' ∈ DevicePath.step cfg set s label) :
    Yields set (s', record log s label s') := by
  refine ⟨devices_step h.devices hs', h.passed.step hs', ?_⟩
  by_cases hlabel : ∀ i, label ≠ .session i
  · obtain ⟨channel, hsession⟩ := session_of_own hlabel hs'
    show s'.session.Sends (record log s label s').received
    rw [hsession, received_of_own hlabel]
    exact ⟨h.sends.once, h.sends.stems, h.sends.tracked⟩
  · obtain ⟨i, rfl⟩ := not_forall_not.1 hlabel
    rcases move_of_step hs' with _ | _ | _ | _ | _ | _ | _ | ⟨_, t, hpush, ht⟩ | _
    exact h.sends.step ht hpush (take_append_channel hpush ht)

/-- What the session has received has been captured. -/
theorem Yields.received_captured (h : Yields set (s, log)) :
    log.received <+: (EvdevCapture.new.run (log.devices.read.map Prod.snd)).1 := by
  have hreturned := h.devices.returned.symm.trans h.passed.received
  dsimp only at hreturned
  rw [hreturned, List.append_assoc, List.append_assoc]
  exact List.prefix_append _ _

end DevicePath

/-! ### The network -/

namespace Link

/-- The links differ in nothing but what waits in the channels of captured events. -/
structure SameButChannels (l l' : Link) : Prop where
  session : ∀ x, ∃ channel, l'.pair.session x = { l.pair.session x with channel := channel }
  air : l'.air = l.air

section SameButChannels

variable {fmt : FloatFormat} {d : Side → DaemonState} {l l' : Link} {x : Side}
  {stretch : Side → List InputEvent}

/-- The frames do not depend on the channels. -/
theorem SameButChannels.frames (h : SameButChannels l l') (x : Side) :
    (l'.pair.session x).frames = (l.pair.session x).frames := by
  obtain ⟨channel, hsession⟩ := h.session x
  rw [hsession]
  rfl

/-- Nor does what was emulated. -/
theorem SameButChannels.emitted (h : SameButChannels l l') (x : Side) :
    (l'.pair.session x).emitted = (l.pair.session x).emitted := by
  obtain ⟨channel, hsession⟩ := h.session x
  rw [hsession]
  rfl

/-- Nor does the invariant of the link. -/
theorem Sound.of_channels (h : Sound d fmt l) (hl' : SameButChannels l l') : Sound d fmt l' where
  numbered x := by
    obtain ⟨channel, hsession⟩ := hl'.session x
    rw [hsession]
    exact ⟨(h.numbered x).seq, (h.numbered x).counter⟩
  faithful hexact x := by
    have hexact' : l.Exact fmt := fun y ↦ hl'.frames y ▸ hexact y
    rw [Faithful, hl'.frames, hl'.emitted, hl'.air]
    exact h.faithful hexact' x

/-- Nor does the invariant of the runs that settle. -/
theorem Settled.of_channels (h : Settled x (l, stretch)) (hl' : SameButChannels l l') :
    Settled x (l', stretch) where
  inOrder := by
    dsimp only
    rw [hl'.frames, hl'.emitted, hl'.air]
    exact h.inOrder
  accounted := by
    obtain ⟨channel, hsession⟩ := hl'.session x.other
    dsimp only
    rw [hsession]
    exact h.accounted

end SameButChannels

end Link

/-! ### Both machines -/

/-- The two machines, and what is on its way to each. -/
structure Machines (ι : Type) where
  path : Side → DevicePath ι
  inbox : Side → List ControlCommand
  air : Side → List EventFrame

namespace Machines

/-- The labels of the two machines and the network. -/
inductive Label (ι : Type) where
  /-- A machine does something that its session has no part in. -/
  | own (x : Side) (label : DevicePath.Label ι)
  /-- A session takes a step, or a frame is lost. -/
  | net (e : LinkInput)

variable {ι : Type}

/-- Both threads have just been spawned, and nothing is on the way. -/
def start (d : Side → DaemonState) : Machines ι where
  path x := .start (d x)
  inbox _ := []
  air _ := []

/-- The sessions and the network. -/
def link (m : Machines ι) : Link := ⟨⟨fun x ↦ (m.path x).session, m.inbox⟩, m.air⟩

section Step

variable [DecidableEq ι] (cfg : Side → SessionConfig) (set : Side → DeviceSet ι) (fmt : FloatFormat)

/-- One step of the machines; `none` when the label is not enabled. -/
def step (m : Machines ι) : Label ι → Option (Machines ι)
  | .own _ (.session _) => none
  | .own x label => (DevicePath.step (cfg x) (set x) (m.path x) label).map fun p ↦
    { m with path := Function.update m.path x p }
  | .net e => do
    let l ← Link.step cfg fmt m.link e
    match m.link.taken fmt e with
    | none => some { m with air := l.air }
    | some (x, i, _) =>
      let p ← DevicePath.step (cfg x) (set x) (m.path x) (.session i)
      some ⟨Function.update m.path x p, l.pair.inbox, l.air⟩

/-- The history of each machine, and what each captured since its focus last became remote. -/
structure Log (ι : Type) where
  path : Side → DevicePath.Log ι
  stretch : Side → List InputEvent

/-- Before anything has happened. -/
def Log.empty : Log ι := ⟨fun _ ↦ .empty, fun _ ↦ []⟩

/-- A machine takes a step of its own. -/
def Log.advance (log : Log ι) (m : Machines ι) (x : Side) (label : DevicePath.Label ι)
    (m' : Machines ι) : Side → DevicePath.Log ι :=
  Function.update log.path x (DevicePath.record (log.path x) (m.path x) label (m'.path x))

/-- What a step adds to the logs of the machines, and to the stretches of the link. -/
def record (log : Log ι) (m : Machines ι) (label : Label ι) (m' : Machines ι) : Log ι :=
  match label with
  | .own x label => { log with path := log.advance m x label m' }
  | .net e =>
    { path := (m.link.taken fmt e).elim log.path fun t ↦ log.advance m t.1 (.session t.2.1) m'
      stretch := Link.recordStretch fmt log.stretch m.link e m'.link }

/-- The machines with their history. -/
def recorded : Machines ι × Log ι → Label ι → Option (Machines ι × Log ι) :=
  withHistory (step cfg set fmt) (record fmt)

end Step

section Moves

variable [DecidableEq ι] {cfg : Side → SessionConfig} {set : Side → DeviceSet ι} {fmt : FloatFormat}
  {m m' : Machines ι} {label : Label ι}

/-- **Everything a step does.** -/
inductive Move (cfg : Side → SessionConfig) (set : Side → DeviceSet ι) (fmt : FloatFormat)
    (m : Machines ι) : Label ι → Machines ι → Prop
  | own (x : Side) (label : DevicePath.Label ι) (p : DevicePath ι)
      (hlabel : ∀ i, label ≠ .session i)
      (hp : p ∈ DevicePath.step (cfg x) (set x) (m.path x) label) :
    Move cfg set fmt m (.own x label) { m with path := Function.update m.path x p }
  | lost (e : LinkInput) (m' : Machines ι) (htaken : m.link.taken fmt e = none)
      (hlink : m'.link ∈ Link.step cfg fmt m.link e) (hpath : m'.path = m.path) :
    Move cfg set fmt m (.net e) m'
  | session (e : LinkInput) (m' : Machines ι) (x : Side) (i : Input) (inbox : List ControlCommand)
      (p : DevicePath ι) (htaken : m.link.taken fmt e = some (x, i, inbox))
      (hlink : m'.link ∈ Link.step cfg fmt m.link e)
      (hp : p ∈ DevicePath.step (cfg x) (set x) (m.path x) (.session i))
      (hpath : m'.path = Function.update m.path x p) :
    Move cfg set fmt m (.net e) m'

/-- **A step is one of the moves.** -/
theorem move_of_step (hm' : m' ∈ step cfg set fmt m label) : Move cfg set fmt m label m' := by
  rcases label with ⟨x, label⟩ | e
  · have hlabel (i : Input) : label ≠ .session i := by
      rintro rfl
      cases hm'
    have hstep : m' ∈ (DevicePath.step (cfg x) (set x) (m.path x) label).map fun p ↦
        ({ m with path := Function.update m.path x p } : Machines ι) := by
      rcases label with _ | _ | _ | _ | _ | i | _
      case session => exact absurd rfl (hlabel i)
      all_goals exact hm'
    obtain ⟨p, hp, rfl⟩ := Option.map_eq_some_iff.1 hstep
    exact .own x label p hlabel hp
  · obtain ⟨l, hl, hm'⟩ := Option.bind_eq_some_iff.1 hm'
    rcases htaken : m.link.taken fmt e with _ | ⟨x, i, inbox⟩
    · rw [htaken] at hm'
      obtain rfl := Option.some.inj hm'
      refine .lost e _ htaken ?_ rfl
      have hlink : ({ m with air := l.air } : Machines ι).link = l := by
        rcases Link.move_of_step hl with ⟨x, k, he, hpair, -⟩ | ⟨x, i, s, inbox, htaken', -⟩
        · show Link.mk m.link.pair l.air = l
          rw [← hpair]
        · rw [htaken] at htaken'
          cases htaken'
      rw [hlink]
      exact hl
    · rw [htaken] at hm'
      obtain ⟨p, hp, hm'⟩ := Option.bind_eq_some_iff.1 hm'
      obtain rfl := Option.some.inj hm'
      refine .session e _ x i inbox p htaken ?_ hp rfl
      have hlink : (⟨Function.update m.path x p, l.pair.inbox, l.air⟩ : Machines ι).link = l := by
        rcases Link.move_of_step hl with
          ⟨x', k, rfl, -⟩ | ⟨x', i', s, inbox', htaken', hs, hsession, -⟩
        · cases htaken
        · obtain ⟨rfl, rfl, rfl⟩ : x = x' ∧ i = i' ∧ inbox = inbox' := by
            simpa using htaken.symm.trans htaken'
          obtain rfl : p.session = s :=
            Option.some.inj ((DevicePath.session_of_session hp).symm.trans hs)
          have hsessions : (fun y ↦ (Function.update m.path x p y).session) = l.pair.session := by
            rw [hsession]
            exact (Function.comp_update DevicePath.session m.path x p)
          show Link.mk ⟨fun y ↦ (Function.update m.path x p y).session, l.pair.inbox⟩ l.air = l
          rw [hsessions]
      rw [hlink]
      exact hl

/-- What a machine does by itself leaves the network and what the sessions have done. -/
theorem sameButChannels_own {x : Side} {label : DevicePath.Label ι} {p : DevicePath ι}
    (hlabel : ∀ i, label ≠ .session i)
    (hp : p ∈ DevicePath.step (cfg x) (set x) (m.path x) label) :
    m.link.SameButChannels { m with path := Function.update m.path x p }.link where
  session y := by
    obtain ⟨channel, hsession⟩ := DevicePath.session_of_own hlabel hp
    show ∃ channel, (Function.update m.path x p y).session = { (m.path y).session with channel }
    rcases eq_or_ne y x with rfl | hyx
    · exact ⟨channel, by rw [Function.update_self, hsession]⟩
    · exact ⟨(m.path y).session.channel, by rw [Function.update_of_ne hyx]⟩
  air := rfl

end Moves

/-! ### Whatever the network does -/

/-- What is known of the machines in every state of every run. -/
structure Sound [DecidableEq ι] (set : Side → DeviceSet ι) (d : Side → DaemonState)
    (fmt : FloatFormat) (ml : Machines ι × Log ι) : Prop where
  path : ∀ x, DevicePath.Yields (set x) (ml.1.path x, ml.2.path x)
  link : ml.1.link.Sound d fmt

section Sound

variable [DecidableEq ι] {cfg : Side → SessionConfig} {set : Side → DeviceSet ι} {fmt : FloatFormat}
  {d : Side → DaemonState} {m m' : Machines ι} {log : Log ι} {label : Label ι} {x : Side}

/-- When one machine takes a step, the paths of both keep their invariant. -/
theorem yields_advance {pathLabel : DevicePath.Label ι} {p : DevicePath ι}
    (h : ∀ y, DevicePath.Yields (set y) (m.path y, log.path y))
    (hp : p ∈ DevicePath.step (cfg x) (set x) (m.path x) pathLabel)
    (hpath : m'.path = Function.update m.path x p) (y : Side) :
    DevicePath.Yields (set y) (m'.path y, log.advance m x pathLabel m' y) := by
  rw [Log.advance, hpath, Function.update_self]
  rcases eq_or_ne y x with rfl | hyx
  · rw [Function.update_self, Function.update_self]
    exact (h y).step hp
  · rw [Function.update_of_ne hyx, Function.update_of_ne hyx]
    exact h y

/-- At the start nothing was captured. -/
theorem sound_start (hd : ∀ x, (d x).pressed = ∅) :
    Sound set d fmt ((start d, .empty) : Machines ι × Log ι) where
  path x := DevicePath.yields_start (hd x)
  link := Link.sound_start

/-- **A step of the machines keeps the invariant.** -/
theorem Sound.step (h : Sound set d fmt (m, log)) (hm' : m' ∈ Machines.step cfg set fmt m label) :
    Sound set d fmt (m', record fmt log m label m') := by
  rcases move_of_step hm' with ⟨x, label, p, hlabel, hp⟩ | ⟨e, m', htaken, hlink, hpath⟩ |
    ⟨e, m', x, i, inbox, p, htaken, hlink, hp, hpath⟩
  · exact ⟨yields_advance h.path hp rfl, h.link.of_channels (sameButChannels_own hlabel hp)⟩
  · refine ⟨fun x ↦ ?_, h.link.step hlink⟩
    simp only [record, htaken, Option.elim_none, hpath]
    exact h.path x
  · refine ⟨fun y ↦ ?_, h.link.step hlink⟩
    simp only [record, htaken, Option.elim_some]
    exact yields_advance h.path hp hpath y

/-- The same over a run. -/
theorem sound_recorded (hd : ∀ x, (d x).pressed = ∅) (labels : List (Label ι)) :
    Throughout (recorded cfg set fmt) (Sound set d fmt) (start d, .empty) labels := by
  refine throughout_of_invariant (fun ml label h ml' hml' ↦ ?_) (sound_start hd) labels
  obtain ⟨m, log⟩ := ml
  obtain ⟨m', log'⟩ := ml'
  obtain ⟨hm', rfl⟩ : m' ∈ step cfg set fmt m label ∧ log' = record fmt log m label m' :=
    mem_withHistory.1 hml'
  exact h.step hm'

/-- What a side has sent comes from what was read of its devices. -/
theorem Sound.captured (h : Sound set d fmt (m, log)) (x : Side) :
    ((m.path x).session.forwarded.filter (!·.isRelease)).Sublist
        (EvdevCapture.new.run ((log.path x).devices.read.map Prod.snd)).1 ∧
      ∀ event ∈ (m.path x).session.forwarded,
        Stems (EvdevCapture.new.run ((log.path x).devices.read.map Prod.snd)).1 event := by
  have hreceived := (h.path x).received_captured
  exact ⟨(h.path x).sends.once.trans hreceived.sublist,
    fun event hevent ↦ ((h.path x).sends.stems event hevent).mono hreceived.subset⟩

variable {entries : Side → List (Option (EventNode ι))} {refused emulators : Side → Finset ι}

/-- The user's devices are read, each in order, and nothing is missing but what an overrun has
dropped. -/
theorem Sound.read (h : Sound set d fmt (m, log))
    (hset : ∀ x, openDevices (entries x) (refused x) = some (set x))
    (hmade : ∀ x, Loopback.MadeByEmulators (entries x) (emulators x)) (x : Side) :
    (∀ entry ∈ (log.path x).devices.read, entry.1 ∈ (set x).watched ∧ entry.1 ∉ emulators x) ∧
      ∀ fd, BeginsGapped EvdevCapture.synDropped (on fd (log.path x).devices.arrived)
        (on fd (log.path x).devices.read) := by
  refine ⟨fun entry hentry ↦ ?_, fun fd ↦ ?_⟩
  · have hwatched := (h.path x).devices.watched entry hentry
    refine ⟨hwatched, fun hemulator ↦ ?_⟩
    exact Loopback.notMem_opened (hset x) (hmade x) hemulator
      ((Loopback.opened_of_openDevices (hset x)).1 hwatched)
  · exact Gapped.begins ((h.path x).devices.conserved fd)

/-- **From device to device, whatever the network does.** In every run of the two machines, however
their threads take turns and whatever the network loses or reorders, what a side's emulator has been
given was captured on the other side, from raw events of devices that no emulator has made, each
device read in order and without a gap but for what an overrun of its buffer has dropped. Each event
is emulated no more often than it was captured, but for releases, and those are of what was captured
as pressed. -/
theorem origin_of_run {labels : List (Label ι)} (hd : ∀ x, (d x).pressed = ∅)
    (hset : ∀ x, openDevices (entries x) (refused x) = some (set x))
    (hmade : ∀ x, Loopback.MadeByEmulators (entries x) (emulators x))
    (hrun : (m, log) ∈ run (recorded cfg set fmt) (start d, .empty) labels)
    (hexact : m.link.Exact fmt) (x : Side) :
    ∃ read : List (ι × EvdevCapture.InputEventRaw),
      (∀ entry ∈ read, entry.1 ∈ (set x.other).watched ∧ entry.1 ∉ emulators x.other) ∧
      (∀ fd, BeginsGapped EvdevCapture.synDropped (on fd (log.path x.other).devices.arrived)
        (on fd read)) ∧
      (∀ event ∈ (m.path x).session.emitted,
        Stems (EvdevCapture.new.run (read.map Prod.snd)).1 event) ∧
      ((m.path x).session.emitted.filter (!·.isRelease)).Subperm
        (EvdevCapture.new.run (read.map Prod.snd)).1 := by
  have hsound : Sound set d fmt (m, log) := (sound_recorded hd labels).last hrun
  obtain ⟨huser, hfifo⟩ := hsound.read hset hmade x.other
  obtain ⟨honce, hstems⟩ := hsound.captured x.other
  obtain ⟨frames, hframes, hemitted⟩ := hsound.link.faithful hexact x
  have hsub : ((m.path x).session.emitted).Subperm (m.path x.other).session.forwarded := by
    obtain ⟨sublist, hperm, hsublist⟩ := hframes.arrived_subperm
    show (m.link.pair.session x).emitted.Subperm _
    rw [hemitted]
    exact ⟨sublist.flatMap EventFrame.events, hperm.flatMap_right _, hsublist.flatMap _⟩
  exact ⟨(log.path x.other).devices.read, huser, hfifo,
    fun event hevent ↦ hstems event (hsub.subset hevent), (hsub.filter _).trans honce.subperm⟩

end Sound

theorem inI32_motion : InI32 1000 := by decide

/-- On the left the mouse goes to the edge and a key is pressed, which is emulated on the right. -/
def keyRun : List (Label ℕ) :=
  [.own .left (.look (.testShutdown false)), .own .left (.look (.hasChanged false)),
    .own .left .nextEvent,
    .own .left
      (.device (.arrive 1 ⟨⟨EvdevEmulator.evRel, EvdevEmulator.relX, 1000⟩, inI32_motion⟩)),
    .own .left (.device (.arrive 1 (EvdevDevices.sampleRaw EvdevEmulator.evSyn 0 false))),
    .own .left (.device (.epollWait (.ready [.device 1]))), .own .left (.device (.read true)),
    .own .left (.device (.read true)), .own .left .send,
    .net (.move .left (.captured (.at 0) 0)), .net (.deliver .right (.at 0)),
    .own .left (.look (.testShutdown false)), .own .left (.look (.hasChanged false)),
    .own .left (.look .borrowAndUpdate), .own .left (.call ∅), .own .left .nextEvent,
    .own .left (.device (.arrive 0 (EvdevDevices.sampleRaw EvdevEmulator.evKey 30 true))),
    .own .left (.device (.epollWait (.ready [.device 0]))), .own .left (.device (.read true)),
    .own .left .send, .net (.move .left (.captured (.at 0) 0)),
    .net (.receive .right (.at edgeCooldown) 0)]

/-- The step function of the samples. -/
def sampleStep : Machines ℕ × Log ℕ → Label ℕ → Option (Machines ℕ × Log ℕ) :=
  recorded (fun _ ↦ .fallback) (fun _ ↦ Loopback.sampleSet) .tenths

/-- Two machines with the screen that is assumed. -/
def sampleStart : Machines ℕ × Log ℕ := (start fun _ ↦ .new .fallback 0, .empty)

/-- How the run ends: the key is emulated on the right. -/
theorem keyRun_end :
    (run sampleStep sampleStart keyRun).map (fun ml ↦ ((ml.1.path .right).session.emitted,
      (ml.1.path .left).session.frames, (ml.1.path .right).session.frames, ml.1.air .right,
      (ml.1.path .right).session.held)) =
      some ([.key 30 .pressed], [⟨1, 0, [.key 30 .pressed]⟩], [], [], {.key 30}) := by
  decide +kernel

/-- A new daemon tracks nothing as held. -/
theorem pressed_sample (_ : Side) : (DaemonState.new .fallback 0).pressed = ∅ := by decide

/-- The key that is emulated has been captured. -/
theorem origin_of_run_keyRun :
    ∃ ml ∈ run sampleStep sampleStart keyRun, ∃ read : List (ℕ × EvdevCapture.InputEventRaw),
      (∀ entry ∈ read, entry.1 ∉ ({2} : Finset ℕ)) ∧
      [InputEvent.key 30 .pressed].Subperm (EvdevCapture.new.run (read.map Prod.snd)).1 := by
  obtain ⟨⟨m, log⟩, hrun, hend⟩ := Option.map_eq_some_iff.1 keyRun_end
  simp only [Prod.mk.injEq] at hend
  obtain ⟨hemitted, hleft, hright, -, -⟩ := hend
  have hexact : m.link.Exact .tenths := by
    rintro (_ | _) f hf q hq
    · obtain rfl : f = ⟨1, 0, [.key 30 .pressed]⟩ := List.mem_singleton.1 (hleft ▸ hf)
      exact absurd hq List.not_mem_nil
    · exact absurd (hright ▸ hf) List.not_mem_nil
  obtain ⟨read, huser, -, -, honce⟩ := origin_of_run pressed_sample
    (fun _ ↦ Loopback.openDevices_sampleEntries) (fun _ ↦ Loopback.madeByEmulators_sample) hrun
    hexact .right
  refine ⟨(m, log), hrun, read, fun entry hentry ↦ (huser entry hentry).2, ?_⟩
  rw [hemitted] at honce
  exact honce

/-! ### When the datagrams arrive in order -/

/-- The condition on a step, for the frames towards one side, as for the link. -/
def Settles (cfg : Side → SessionConfig) (fmt : FloatFormat) (x : Side) (ml : Machines ι × Log ι) :
    Label ι → Prop
  | .own _ _ => True
  | .net e => Link.Settles cfg fmt x (ml.1.link, ml.2.stretch) e

instance (cfg : Side → SessionConfig) (fmt : FloatFormat) (x : Side) (ml : Machines ι × Log ι) :
    DecidablePred (Settles cfg fmt x ml)
  | .own _ _ => instDecidableTrue
  | .net e => inferInstanceAs (Decidable (Link.Settles cfg fmt x (ml.1.link, ml.2.stretch) e))

/-- The frames towards one side are in order, as for the link. -/
def Settled (x : Side) (ml : Machines ι × Log ι) : Prop :=
  Link.Settled x (ml.1.link, ml.2.stretch)

theorem settled_start {x : Side} {d : Side → DaemonState} :
    Settled x ((start d, .empty) : Machines ι × Log ι) := Link.settled_start

section Settled

variable [DecidableEq ι] {cfg : Side → SessionConfig} {set : Side → DeviceSet ι} {fmt : FloatFormat}
  {d : Side → DaemonState} {m m' : Machines ι} {log : Log ι} {label : Label ι} {x : Side}
  {entries : Side → List (Option (EventNode ι))} {refused emulators : Side → Finset ι}

/-- **A step that settles keeps the invariant.** -/
theorem Settled.step (h : Settled x (m, log)) (hemu : (cfg x).hasEmulator = true)
    (hsettles : Settles cfg fmt x (m, log) label) (hm' : m' ∈ Machines.step cfg set fmt m label) :
    Settled x (m', record fmt log m label m') := by
  rcases move_of_step hm' with ⟨x, label, p, hlabel, hp⟩ | ⟨e, m', htaken, hlink, hpath⟩ |
    ⟨e, m', x, i, inbox, p, htaken, hlink, hp, hpath⟩
  · exact Link.Settled.of_channels h (sameButChannels_own hlabel hp)
  · exact Link.Settled.step h hemu hsettles (mem_withHistory.2 ⟨hlink, rfl⟩)
  · exact Link.Settled.step h hemu hsettles (mem_withHistory.2 ⟨hlink, rfl⟩)

/-- The same over a run. -/
theorem settled_recorded {labels : List (Label ι)} (hemu : (cfg x).hasEmulator = true)
    (hsettles : EachStep (recorded cfg set fmt) (Settles cfg fmt x) (start d, .empty) labels) :
    Throughout (recorded cfg set fmt) (Settled x) (start d, .empty) labels := by
  refine throughout_of_guarded (fun ml label h hC ml' hml' ↦ ?_) settled_start hsettles
  obtain ⟨m, log⟩ := ml
  obtain ⟨m', log'⟩ := ml'
  obtain ⟨hm', rfl⟩ : m' ∈ step cfg set fmt m label ∧ log' = record fmt log m label m' :=
    mem_withHistory.1 hml'
  exact h.step hemu hC hm'

/-- **From device to device, in order.** In every run of the two machines in which the datagrams
towards one side arrive in order and none is lost, each is read and finds the side undisturbed, and
the other side gives its focus up cleanly, what was captured on the other side is emulated, or on
its way, in the order in which it was captured, with releases in between. Once nothing is on its
way, what is held down at the emulator is held down at the devices of the other side as far as its
session has seen, and nothing is when the other side has its focus back. -/
theorem inOrder_of_run {labels : List (Label ι)} (hemu : (cfg x).hasEmulator = true)
    (hd : ∀ x, (d x).pressed = ∅)
    (hset : ∀ x, openDevices (entries x) (refused x) = some (set x))
    (hmade : ∀ x, Loopback.MadeByEmulators (entries x) (emulators x))
    (hsettles : EachStep (recorded cfg set fmt) (Settles cfg fmt x) (start d, .empty) labels)
    (hrun : (m, log) ∈ run (recorded cfg set fmt) (start d, .empty) labels) :
    ∃ (read : List (ι × EvdevCapture.InputEventRaw)) (seen : List InputEvent),
      (∀ entry ∈ read, entry.1 ∈ (set x.other).watched ∧ entry.1 ∉ emulators x.other) ∧
      (∀ fd, BeginsGapped EvdevCapture.synDropped (on fd (log.path x.other).devices.arrived)
        (on fd read)) ∧
      seen <+: (EvdevCapture.new.run (read.map Prod.snd)).1 ∧
      (((m.path x).session.emitted ++ (m.air x).flatMap EventFrame.events).filter
        (!·.isRelease)).Sublist seen ∧
      (m.air x = [] → (m.path x).session.held ⊆ replayEvents ∅ seen ∧
        ((m.path x.other).session.daemon.focusIsRemote = false →
          (m.path x).session.held = ∅)) := by
  have hsound : Sound set d fmt (m, log) := (sound_recorded hd labels).last hrun
  have hsettled : Settled x (m, log) := (settled_recorded hemu hsettles).last hrun
  obtain ⟨hforwarded, hheld⟩ : (m.path x.other).session.forwarded =
        (m.path x).session.emitted ++ (m.air x).flatMap EventFrame.events ∧
      (m.air x = [] →
        if (m.path x.other).session.daemon.focusIsRemote then
          (m.path x).session.held ⊆ (m.path x.other).session.daemon.pressed
        else (m.path x).session.held = ∅) := Link.Settled.held hsettled
  obtain ⟨huser, hfifo⟩ := hsound.read hset hmade x.other
  have hsends := (hsound.path x.other).sends
  refine ⟨(log.path x.other).devices.read, (log.path x.other).received, huser, hfifo,
    (hsound.path x.other).received_captured, hforwarded ▸ hsends.once, fun hair ↦ ?_⟩
  have hheld := hheld hair
  split_ifs at hheld with hfocus
  · exact ⟨hheld.trans hsends.tracked, fun hlocal ↦ absurd (hfocus.symm.trans hlocal) (by decide)⟩
  · rw [hheld]
    exact ⟨Finset.empty_subset _, fun _ ↦ rfl⟩

end Settled

/-- In this run every frame arrives in its turn and finds the side undisturbed. -/
theorem settles_keyRun :
    EachStep sampleStep (Settles (fun _ ↦ .fallback) .tenths .right) sampleStart keyRun := by
  decide +kernel

/-- The key is held down on the right because it is on the left. -/
theorem inOrder_of_run_keyRun :
    ∃ ml ∈ run sampleStep sampleStart keyRun, ∃ seen : List InputEvent,
      (ml.1.path .right).session.held = {.key 30} ∧ {.key 30} ⊆ replayEvents ∅ seen := by
  obtain ⟨⟨m, log⟩, hrun, hend⟩ := Option.map_eq_some_iff.1 keyRun_end
  simp only [Prod.mk.injEq] at hend
  obtain ⟨-, -, -, hair, hheld⟩ := hend
  obtain ⟨read, seen, -, -, -, -, hsettled⟩ := inOrder_of_run rfl pressed_sample
    (fun _ ↦ Loopback.openDevices_sampleEntries) (fun _ ↦ Loopback.madeByEmulators_sample)
    settles_keyRun hrun
  refine ⟨(m, log), hrun, seen, hheld, ?_⟩
  rw [← hheld]
  exact (hsettled hair).1

end Machines

end Kmflow
