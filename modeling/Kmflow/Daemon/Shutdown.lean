import Kmflow.Daemon.DevicePath

/-!
# A session can be shut down

The end of a session and of its capture thread. The session is past its loops and its cleanup before
the receiver of the channel is dropped, and only then is the thread waited for. The thread may be
anywhere: about to test for the shutdown, inside a grab, waiting in `epoll_wait` or with an event in
its hand. From wherever the two are, they can be brought to their end without the user doing
anything (`exists_end_of_run`), and then no device is kept from the desktop. All that is lost is
what waited in the channel when the receiver was dropped, and at most one event after that
(`dropped_of_run`).
-/

namespace Kmflow

open Transition

namespace DevicePath

variable {ι : Type}

/-- The user does something. -/
def Label.IsArrival : Label ι → Prop
  | .device (.arrive _ _) | .device (.overrun _ _) => True
  | _ => False

instance : DecidablePred (Label.IsArrival (ι := ι))
  | .device (.arrive _ _) | .device (.overrun _ _) => instDecidableTrue
  | .device .signal | .device (.epollWait _) | .device (.read _) | .look _ | .call _ | .nextEvent
  | .send | .session _ | .dropReceiver => instDecidableFalse

/-- A step without the user. -/
def unattended [DecidableEq ι] (cfg : SessionConfig) (set : DeviceSet ι) (s : DevicePath ι)
    (label : Label ι) : Option (DevicePath ι) :=
  if label.IsArrival then none else step cfg set s label

/-- Within a call of `next_event` the loop is at that call. -/
def InCall (s : DevicePath ι) : Prop := s.devices.stage ≠ .idle → s.loop.point = .reading

/-- At the start there is no call. -/
theorem inCall_start (daemon : DaemonState) : (start daemon : DevicePath ι).InCall :=
  fun h ↦ absurd rfl h

/-- Elsewhere in the loop the devices are between two calls. -/
theorem InCall.idle {s : DevicePath ι} (h : s.InCall) (hpoint : s.loop.point ≠ .reading) :
    s.devices.stage = .idle := by
  by_contra hstage
  exact hpoint (h hstage)

section InCall

variable [DecidableEq ι] {cfg : SessionConfig} {set : DeviceSet ι} {s s' : DevicePath ι}
  {label : Label ι}

/-- Nothing that happens at the devices begins a call. -/
theorem idle_of_device {k : DeviceLabel ι} {d : EvdevDevices ι}
    (hd : d ∈ EvdevDevices.step set s.devices k.input) (hidle : s.devices.stage = .idle) :
    d.stage = .idle := by
  rcases k with ⟨fd, raw⟩ | ⟨fd, raw⟩ | _ | polled | ok
  · obtain rfl := Option.some.inj hd
    exact hidle
  · obtain rfl := Option.some.inj hd
    exact hidle
  · obtain rfl := Option.some.inj hd
    exact hidle
  · simp [DeviceLabel.input, EvdevDevices.step, hidle] at hd
  · simp [DeviceLabel.input, EvdevDevices.step, hidle] at hd

/-- Between two calls of `next_event` a grab can be called, and leaves the devices there. -/
theorem exists_idle_of_call (set : DeviceSet ι) {d : EvdevDevices ι} (hidle : d.stage = .idle)
    (on : Bool) (refused : Finset ι) :
    ∃ d' ∈ EvdevDevices.step set d (if on then .grabPointer refused else .ungrabPointer),
      d'.stage = .idle := by
  rcases on with _ | _
  · refine ⟨_, by simp only [Bool.false_eq_true, if_false, EvdevDevices.step, hidle]; rfl, ?_⟩
    split_ifs
    · rfl
    · exact hidle
  · refine ⟨_, by simp only [if_true, EvdevDevices.step, hidle]; rfl, ?_⟩
    split_ifs
    · exact hidle
    · rfl

/-- The devices are called between two calls of `next_event`. -/
theorem idle_of_call {on : Bool} {refused : Finset ι} {d d' : EvdevDevices ι}
    (hd' : d' ∈ EvdevDevices.step set d (if on then .grabPointer refused else .ungrabPointer)) :
    d'.stage = .idle := by
  rcases hstage : d.stage with _ | _ | ⟨fd, ready⟩
  · obtain ⟨e, he, hidle⟩ := exists_idle_of_call set hstage on refused
    rwa [Option.some.inj (hd'.symm.trans he)]
  · cases on <;> simp [EvdevDevices.step, hstage] at hd'
  · cases on <;> simp [EvdevDevices.step, hstage] at hd'

/-- **Within a call the thread stays where the capture has it**, after every step. -/
theorem InCall.step (h : s.InCall) (hs' : s' ∈ step cfg set s label) : s'.InCall := by
  rcases move_of_step hs' with ⟨k, d, hd, hreturns⟩ | ⟨k, d, result, l, hd, hreturns, hl⟩ |
    ⟨look, l, hl⟩ | ⟨on, refused, d, l, hpoint, hd, hl⟩ | ⟨d, hpoint, hd⟩ |
    ⟨event, l, hopen, hroom, hpoint, hl⟩ | ⟨event, l, hclosed, hpoint, hl⟩ | ⟨i, t, hpush, ht⟩ |
    ⟨hopen, hended⟩
  case device => exact fun hstage ↦ h fun hidle ↦ hstage (idle_of_device hd hidle)
  case returned =>
    intro hstage
    rw [EvdevDevices.returns, Option.ite_none_right_eq_some] at hreturns
    exact absurd hreturns.1.2 hstage
  case look =>
    refine fun hstage ↦ absurd (h.idle fun hpoint ↦ ?_) hstage
    cases look <;> simp [Look.input, GrabLoop.step, hpoint] at hl
  case call => exact fun hstage ↦ absurd (idle_of_call hd) hstage
  case nextEvent => exact fun _ ↦ hpoint
  case sent | unsent => exact fun hstage ↦ absurd (h.idle (by simp [hpoint])) hstage
  case session =>
    intro hstage
    exact (GrabLoop.foldl_request (grabsBetween s.session t) s.loop).1.trans (h hstage)
  case dropReceiver => exact h

end InCall

/-! ### The thread comes to its end -/

/-- The session is over, and nobody receives what is captured. -/
structure Gone (s : DevicePath ι) : Prop where
  ended : s.session.Ended
  closed : s.receiverOpen = false
  inCall : s.InCall

section Thread

variable [DecidableEq ι] {cfg : SessionConfig} {set : DeviceSet ι} {s s' : DevicePath ι}
  {label : Label ι}

/-- A step without the user is a step. -/
theorem step_of_unattended (hs' : s' ∈ unattended cfg set s label) : s' ∈ step cfg set s label :=
  (Option.ite_none_left_eq_some.1 hs').2

/-- Once the session is over, nothing comes back. -/
theorem Gone.step (h : s.Gone) (hs' : s' ∈ unattended cfg set s label) : s'.Gone := by
  have hinCall := h.inCall.step (step_of_unattended hs')
  rcases move_of_step (step_of_unattended hs') with _ | _ | _ | _ | _ | ⟨event, l, hopen⟩ | _ |
    ⟨i, t, hpush, ht⟩ | ⟨hopen, hended⟩
  case sent => exact absurd (hopen.symm.trans h.closed) (by decide)
  case session => exact absurd h.ended (Session.not_ended_of_step ht)
  case dropReceiver => exact absurd (hopen.symm.trans h.closed) (by decide)
  all_goals exact ⟨h.ended, h.closed, hinCall⟩

/-- The same over any number of steps. -/
theorem Gone.reaches (h : s.Gone) (hs' : Transition.Reaches (unattended cfg set) s s') : s'.Gone :=
  hs'.invariant (fun _ _ h _ ↦ h.step) h

/-- The thread can be brought to its end. -/
def CanEnd (cfg : SessionConfig) (set : DeviceSet ι) (s : DevicePath ι) : Prop :=
  ∃ t, Transition.Reaches (unattended cfg set) s t ∧ t.loop.point = .ended

/-- A step that brings nothing in can be taken without the user. -/
theorem reaches_of_step (hlabel : ¬ label.IsArrival) (hs' : s' ∈ DevicePath.step cfg set s label) :
    Transition.Reaches (unattended cfg set) s s' :=
  .of_step (i := label) ((if_neg hlabel).trans hs')

/-- What can be ended one step on can be ended. -/
theorem CanEnd.of_step (hlabel : ¬ label.IsArrival) (hs' : s' ∈ DevicePath.step cfg set s label)
    (h : s'.CanEnd cfg set) : s.CanEnd cfg set := by
  obtain ⟨t, ht, hended⟩ := h
  exact ⟨t, (reaches_of_step hlabel hs').trans ht, hended⟩

/-- A thread that has ended has ended. -/
theorem canEnd_of_ended (hpoint : s.loop.point = .ended) : s.CanEnd cfg set :=
  ⟨s, .refl s, hpoint⟩

/-- A turn of the devices, within the call. -/
theorem mem_step_device {k : DeviceLabel ι} {d : EvdevDevices ι}
    (hd : d ∈ EvdevDevices.step set s.devices k.input) (hstage : d.stage ≠ .idle) :
    { s with devices := d } ∈ DevicePath.step cfg set s (.device k) := by
  have hreturns : s.devices.returns k.input d = none := if_neg fun h ↦ hstage h.2
  rw [Option.mem_def] at hd ⊢
  simp only [DevicePath.step, hd, Option.bind_eq_bind, Option.bind_some, hreturns]

/-- A turn of the devices that ends the call. -/
theorem mem_step_returned {k : DeviceLabel ι} {d : EvdevDevices ι} {l : GrabLoop InputEvent}
    (hd : d ∈ EvdevDevices.step set s.devices k.input) (hstage : s.devices.stage ≠ .idle)
    (hidle : d.stage = .idle)
    (hl : l ∈ GrabLoop.step s.loop (.nextEvent (s.devices.made k.input).head?)) :
    { s with devices := d, loop := l } ∈ DevicePath.step cfg set s (.device k) := by
  have hreturns : s.devices.returns k.input d = some (s.devices.made k.input).head? :=
    if_pos ⟨hstage, hidle⟩
  rw [Option.mem_def] at hd hl ⊢
  simp [DevicePath.step, hd, hreturns, hl]

/-- A turn of the devices that ends the call without an event. -/
theorem mem_step_failed {k : DeviceLabel ι} {d : EvdevDevices ι}
    (hd : d ∈ EvdevDevices.step set s.devices k.input) (hstage : s.devices.stage ≠ .idle)
    (hidle : d.stage = .idle) (hmade : s.devices.made k.input = [])
    (hpoint : s.loop.point = .reading) :
    { s with devices := d, loop := { s.loop with point := .ended } } ∈
      DevicePath.step cfg set s (.device k) :=
  mem_step_returned hd hstage hidle (by simp [hmade, GrabLoop.step, hpoint])

/-- An event that nobody receives. -/
theorem canEnd_of_sending {event : InputEvent} (hclosed : s.receiverOpen = false)
    (hpoint : s.loop.point = .sending event) : s.CanEnd cfg set := by
  have hsend : { s with loop := { s.loop with point := .ended } } ∈
      DevicePath.step cfg set s .send := by
    simp [DevicePath.step, hpoint, hclosed, GrabLoop.step]
  exact CanEnd.of_step id hsend (canEnd_of_ended rfl)

/-- The watcher's write is reported, and `next_event` fails. -/
theorem canEnd_of_polling (hpoint : s.loop.point = .reading) (hstage : s.devices.stage = .polling) :
    s.CanEnd cfg set := by
  have hpolling : ({ s.devices with signalled := true } : EvdevDevices ι).stage ≠ .idle := by
    simp [hstage]
  have hreports : EvdevDevices.Reports set { s.devices with signalled := true } [.shutdown] :=
    ⟨by simp, by simp [EvdevDevices.MayReport], fun h ↦ by cases h⟩
  have hsignal : { s with devices := { s.devices with signalled := true } } ∈
      DevicePath.step cfg set s (.device .signal) := mem_step_device rfl hpolling
  have hwait : { s.devices with signalled := true, stage := .idle } ∈
      EvdevDevices.step set { s.devices with signalled := true }
        (DeviceLabel.epollWait (.ready [.shutdown])).input := by
    simpa [DeviceLabel.input, EvdevDevices.step, hstage, EvdevDevices.serve] using hreports
  refine CanEnd.of_step id hsignal ?_
  refine CanEnd.of_step (s := { s with devices := { s.devices with signalled := true } }) id
    (mem_step_failed hwait hpolling rfl rfl hpoint) (canEnd_of_ended rfl)

/-- A device is read: until an event ends the call, which nobody receives, or to its end, and then
the next file of the report is served. -/
theorem canEnd_of_device {fd : ι} {ready : List (EpollFd ι)} {d : EvdevDevices ι}
    (hclosed : s.receiverOpen = false) (hpoint : s.loop.point = .reading)
    (hstage : d.stage = .reading fd ready)
    (hnext : ∀ d : EvdevDevices ι, d.stage = EvdevDevices.serve ready → d.stage ≠ .idle →
      CanEnd cfg set { s with devices := d }) : CanEnd cfg set { s with devices := d } := by
  have hrunning : d.stage ≠ .idle := by simp [hstage]
  induction hqueue : d.queue fd generalizing d with
  | nil =>
    have hread : { d with stage := EvdevDevices.serve ready } ∈
        EvdevDevices.step set d (DeviceLabel.read true).input := by
      simp [DeviceLabel.input, EvdevDevices.step, hstage, hqueue]
    have hmade : d.made (DeviceLabel.read true).input = [] := by
      simp [DeviceLabel.input, EvdevDevices.made, EvdevDevices.taken, hstage, hqueue]
    by_cases hserve : EvdevDevices.serve ready = .idle
    · exact CanEnd.of_step id (mem_step_failed hread hrunning hserve hmade hpoint)
        (canEnd_of_ended rfl)
    · exact CanEnd.of_step id (mem_step_device hread hserve) (hnext _ rfl hserve)
  | cons raw rest ih =>
    have hread : d.take fd raw rest ready ∈
        EvdevDevices.step set d (DeviceLabel.read true).input := by
      simp [DeviceLabel.input, EvdevDevices.step, hstage, hqueue]
    have hmade : d.made (DeviceLabel.read true).input = (d.capture.readEvent raw).1.toList := by
      simp [DeviceLabel.input, EvdevDevices.made, EvdevDevices.taken, hstage, hqueue]
    rcases hevent : (d.capture.readEvent raw).1 with _ | event
    · have hstage' : (d.take fd raw rest ready).stage = .reading fd ready := by
        simp [EvdevDevices.take, hevent]
      have hrunning' : (d.take fd raw rest ready).stage ≠ .idle := by simp [hstage']
      exact CanEnd.of_step id (mem_step_device hread hrunning')
        (ih hstage' hrunning' (by simp [EvdevDevices.take]))
    · have hidle : (d.take fd raw rest ready).stage = .idle := by simp [EvdevDevices.take, hevent]
      have hl : { s.loop with point := .sending event } ∈ GrabLoop.step s.loop
          (.nextEvent (d.made (DeviceLabel.read true).input).head?) := by
        simp [hmade, hevent, GrabLoop.step, hpoint]
      exact CanEnd.of_step id (mem_step_returned hread hrunning hidle hl)
        (canEnd_of_sending hclosed rfl)

/-- In the inner loop, with what was reported. -/
theorem canEnd_of_reading {ready : List (EpollFd ι)} (hclosed : s.receiverOpen = false)
    (hpoint : s.loop.point = .reading) {fd : ι} {d : EvdevDevices ι}
    (hstage : d.stage = .reading fd ready) : CanEnd cfg set { s with devices := d } := by
  induction ready generalizing d fd with
  | nil =>
    exact canEnd_of_device hclosed hpoint hstage fun d hpolling _ ↦
      canEnd_of_polling (s := { s with devices := d }) hpoint hpolling
  | cons file ready ih =>
    rcases file with fd' | _
    · exact canEnd_of_device hclosed hpoint hstage fun d hreading _ ↦ ih hreading
    · exact canEnd_of_device hclosed hpoint hstage fun d hidle hrunning ↦ absurd hidle hrunning

/-- Wherever the thread is in `next_event`, or before it. -/
theorem canEnd_of_call (hclosed : s.receiverOpen = false) (hpoint : s.loop.point = .reading) :
    s.CanEnd cfg set := by
  rcases hstage : s.devices.stage with _ | _ | ⟨fd, ready⟩
  · have hcall : { s with devices := { s.devices with stage := .polling } } ∈
        DevicePath.step cfg set s .nextEvent := by
      simp [DevicePath.step, hpoint, EvdevDevices.step, hstage]
    refine CanEnd.of_step id hcall ?_
    exact canEnd_of_polling hpoint rfl
  · exact canEnd_of_polling hpoint hstage
  · exact canEnd_of_reading hclosed hpoint hstage

/-- Before a grab. -/
theorem canEnd_of_calling {on : Bool} (hclosed : s.receiverOpen = false)
    (hpoint : s.loop.point = .calling on) (hstage : s.devices.stage = .idle) :
    s.CanEnd cfg set := by
  obtain ⟨d, hd, -⟩ := exists_idle_of_call set hstage on ∅
  have hcall : { s with devices := d, loop := { s.loop with point := .reading, grabbed := on } } ∈
      DevicePath.step cfg set s (.call ∅) := by
    rw [Option.mem_def] at hd ⊢
    simp [DevicePath.step, hpoint, hd, GrabLoop.step]
  exact CanEnd.of_step id hcall (canEnd_of_call hclosed rfl)

/-- **Wherever the thread is, it can be brought to its end.** -/
theorem Gone.canEnd (h : s.Gone) : s.CanEnd cfg set := by
  rcases hpoint : s.loop.point with _ | _ | on | _ | event | _
  case top =>
    have hlook : { s with loop := { s.loop with point := .ended } } ∈
        DevicePath.step cfg set s (.look (.testShutdown true)) := by
      simp [DevicePath.step, Look.input, GrabLoop.step, hpoint]
    exact CanEnd.of_step id hlook (canEnd_of_ended rfl)
  case grabTest =>
    have hstage : s.devices.stage = .idle := h.inCall.idle (by simp [hpoint])
    rcases hlooking : s.loop.looking with _ | _
    · have hlook : { s with loop := { s.loop with point := .reading } } ∈
          DevicePath.step cfg set s (.look (.hasChanged true)) := by
        simp [DevicePath.step, Look.input, GrabLoop.step, hpoint, hlooking]
      exact CanEnd.of_step id hlook (canEnd_of_call h.closed rfl)
    · have hlook : { s with loop := { s.loop with
            point := CaptureLoop.answer s.loop.grabbed s.loop.grabRx.value
            looking := false
            grabRx := s.loop.grabRx.update } } ∈
          DevicePath.step cfg set s (.look .borrowAndUpdate) := by
        simp [DevicePath.step, Look.input, GrabLoop.step, hpoint, hlooking]
      refine CanEnd.of_step id hlook ?_
      rcases CaptureLoop.answer_cases (ε := InputEvent) s.loop.grabbed s.loop.grabRx.value with
        hanswer | ⟨on, hanswer⟩
      · exact canEnd_of_call h.closed hanswer
      · exact canEnd_of_calling h.closed hanswer hstage
  case calling => exact canEnd_of_calling h.closed hpoint (h.inCall.idle (by simp [hpoint]))
  case reading => exact canEnd_of_call h.closed hpoint
  case sending => exact canEnd_of_sending h.closed hpoint
  case ended => exact canEnd_of_ended hpoint

end Thread

/-! ### The session comes to its end -/

section Session

variable [DecidableEq ι] {cfg : SessionConfig} {set : DeviceSet ι} {s s' : DevicePath ι}

/-- A step of the session that the channel admits is a step of the path. -/
theorem mem_step_session {i : Input} {t : Session} (hadmits : s.admits i = true)
    (ht : t ∈ Session.step cfg s.session i) :
    s.afterSession t ∈ DevicePath.step cfg set s (.session i) := by
  rw [Option.mem_def] at ht ⊢
  simp [DevicePath.step, hadmits, ht]

/-- The cleanup follows. -/
theorem exists_ended_of_left (hleft : s.session.phase = .left) :
    ∃ t, Transition.Reaches (unattended cfg set) s t ∧ t.session.Ended := by
  obtain ⟨u, hu, hphase⟩ : ∃ u ∈ Session.step cfg s.session (.cleanup (.at 0)),
      u.phase = .cleanedUp :=
    ⟨_, by simp only [Session.step, hleft]; rfl, rfl⟩
  exact ⟨s.afterSession u, reaches_of_step id (mem_step_session rfl hu), .inl hphase⟩

/-- The shutdown is seen in both loops. -/
theorem exists_left_of_loop
    (hloop : s.session.phase = .mainLoop ∨ s.session.phase = .receiveOnly) :
    ∃ t, Transition.Reaches (unattended cfg set) s t ∧ t.session.phase = .left := by
  obtain ⟨u, hu, hphase⟩ : ∃ u ∈ Session.step cfg s.session .shutdown, u.phase = .left := by
    rcases hloop with hmain | hreceive
    · exact ⟨_, by simp only [Session.step, hmain]; rfl, rfl⟩
    · exact ⟨_, by simp only [Session.step, hreceive]; rfl, rfl⟩
  exact ⟨s.afterSession u, reaches_of_step id (mem_step_session rfl hu), hphase⟩

/-- **The session can always be brought to its end.** -/
theorem exists_ended (s : DevicePath ι) :
    ∃ t, Transition.Reaches (unattended cfg set) s t ∧ t.session.Ended := by
  have hloop (h : s.session.phase = .mainLoop ∨ s.session.phase = .receiveOnly) :
      ∃ t, Transition.Reaches (unattended cfg set) s t ∧ t.session.Ended := by
    obtain ⟨t, ht, hleft⟩ := exists_left_of_loop h
    obtain ⟨u, hu, hended⟩ := exists_ended_of_left hleft
    exact ⟨u, ht.trans hu, hended⟩
  rcases hphase : s.session.phase with _ | _ | _ | _ | _
  case mainLoop => exact hloop (.inl hphase)
  case receiveOnly => exact hloop (.inr hphase)
  case left => exact exists_ended_of_left hphase
  case cleanedUp => exact ⟨s, .refl s, .inl hphase⟩
  case panicked => exact ⟨s, .refl s, .inr hphase⟩

/-- The receiver is dropped. -/
theorem exists_gone (h : s.InCall) : ∃ t, Transition.Reaches (unattended cfg set) s t ∧ t.Gone := by
  obtain ⟨t, ht, hended⟩ : ∃ t, Transition.Reaches (unattended cfg set) s t ∧ t.session.Ended :=
    exists_ended s
  have hinCall : t.InCall := ht.invariant (fun _ _ h _ hs' ↦ h.step (step_of_unattended hs')) h
  rcases hopen : t.receiverOpen with _ | _
  · exact ⟨t, ht, hended, hopen, hinCall⟩
  · have hdrop : { t with session := { t.session with channel := [] }, receiverOpen := false } ∈
        DevicePath.step cfg set t .dropReceiver := by
      simp [DevicePath.step, hopen, hended]
    exact ⟨_, ht.trans (reaches_of_step id hdrop), hended, rfl, hinCall⟩

/-- **A session can be shut down.** From every state of every run, the session and its capture
thread can be brought to their end without the user doing anything: the session is over, the
receiver dropped and the thread at its end, and no device is kept from the desktop. -/
theorem exists_end_of_run {daemon : DaemonState} {labels : List (Label ι)}
    (hrun : s ∈ run (step cfg set) (start daemon) labels) :
    ∃ t, Transition.Reaches (unattended cfg set) s t ∧ t.session.Ended ∧ t.receiverOpen = false ∧
      t.loop.coarse.hasEnded = true ∧ t.kept = ∅ := by
  have hinCall : s.InCall :=
    (throughout_of_invariant (fun _ _ h _ ↦ h.step) (inCall_start daemon) labels).last hrun
  obtain ⟨t, ht, hgone⟩ : ∃ t, Transition.Reaches (unattended cfg set) s t ∧ t.Gone :=
    exists_gone hinCall
  obtain ⟨u, hu, hpoint⟩ : t.CanEnd cfg set := hgone.canEnd
  have hended : u.loop.coarse.hasEnded = true := by
    rw [CaptureLoop.hasEnded, GrabLoop.coarse, hpoint]
  have hgone' := hgone.reaches hu
  exact ⟨u, ht.trans hu, hgone'.ended, hgone'.closed, hended, if_pos hended⟩

end Session

/-- A device is kept from the desktop at the end of the run. -/
theorem edgeRun_keeps :
    (run (step .fallback EvdevDevices.samplePair) (start (.new .fallback 0)) edgeRun).map kept =
      some {true} := by
  decide +kernel

/-- The device that is kept is let go. -/
theorem exists_end_of_run_edgeRun :
    ∃ s ∈ run (step .fallback EvdevDevices.samplePair) (start (.new .fallback 0)) edgeRun,
      s.kept = {true} ∧
        ∃ t, Transition.Reaches (unattended .fallback EvdevDevices.samplePair) s t ∧
          t.kept = ∅ := by
  obtain ⟨s, hrun, hkept⟩ := Option.map_eq_some_iff.1 edgeRun_keeps
  obtain ⟨t, ht, -, -, -, hlet⟩ := exists_end_of_run hrun
  exact ⟨s, hrun, hkept, t, ht, hlet⟩

/-! ### What is lost -/

/-- No more is dropped than what the channel holds and one event, with which the thread ends. -/
structure Spares (sl : DevicePath ι × Log ι) : Prop where
  passed : Passed sl
  channel : sl.1.session.channel.length ≤ captureChannelCapacity
  dropped : sl.2.dropped.length ≤ captureChannelCapacity ∨
    sl.1.loop.point = .ended ∧ sl.2.dropped.length ≤ captureChannelCapacity + 1

/-- At the start nothing is dropped. -/
theorem spares_start (daemon : DaemonState) :
    Spares ((start daemon, .empty) : DevicePath ι × Log ι) where
  passed := passed_start daemon
  channel := Nat.zero_le _
  dropped := .inl (Nat.zero_le _)

section Spares

variable [DecidableEq ι] {cfg : SessionConfig} {set : DeviceSet ι} {s s' : DevicePath ι}
  {log : Log ι} {label : Label ι}

/-- The thread does not come back. -/
theorem ended_of_step (hended : s.loop.point = .ended) (hs' : s' ∈ step cfg set s label) :
    s'.loop.point = .ended := by
  rcases move_of_step hs' with _ | ⟨k, d, result, l, hd, hreturns, hl⟩ | ⟨look, l, hl⟩ |
    ⟨on, refused, d, l, hpoint, hd, hl⟩ | _ | ⟨event, l, hopen, hroom, hpoint, hl⟩ |
    ⟨event, l, hclosed, hpoint, hl⟩ | ⟨i, t, hpush, ht⟩ | _
  case returned => simp [GrabLoop.step, hended] at hl
  case look => cases look <;> simp [Look.input, GrabLoop.step, hended] at hl
  case call => simp [hended] at hpoint
  case sent | unsent => simp [hended] at hpoint
  case session => exact (GrabLoop.foldl_request _ s.loop).1.trans hended
  all_goals exact hended

/-- The channel holds what it can. -/
theorem channel_of_step (h : s.session.channel.length ≤ captureChannelCapacity)
    (hs' : s' ∈ step cfg set s label) :
    s'.session.channel.length ≤ captureChannelCapacity := by
  rcases move_of_step hs' with _ | _ | _ | _ | _ | ⟨event, l, hopen, hroom, hpoint, hl⟩ | _ |
    ⟨i, t, hpush, ht⟩ | _
  case sent =>
    show (s.session.channel ++ [event]).length ≤ _
    rw [List.length_append]
    exact hroom
  case session =>
    show t.channel.length ≤ _
    rw [Session.channel_of_step ht hpush, List.length_drop]
    exact (Nat.sub_le _ _).trans h
  case dropReceiver => exact Nat.zero_le _
  all_goals exact h

/-- What a step adds to what was dropped. -/
theorem Spares.dropped_step (h : Spares (s, log)) (hs' : s' ∈ DevicePath.step cfg set s label) :
    (record log s label s').dropped.length ≤ captureChannelCapacity ∨
      s'.loop.point = .ended ∧
        (record log s label s').dropped.length ≤ captureChannelCapacity + 1 := by
  have hsame (hnil : (record log s label s').dropped = log.dropped) :
      (record log s label s').dropped.length ≤ captureChannelCapacity ∨
        s'.loop.point = .ended ∧
          (record log s label s').dropped.length ≤ captureChannelCapacity + 1 := by
    rw [hnil]
    exact h.dropped.imp_right (And.imp_left fun hended ↦ ended_of_step hended hs')
  rcases move_of_step hs' with _ | _ | _ | _ | _ | ⟨event, l, hopen, hroom, hpoint, hl⟩ |
    ⟨event, l, hclosed, hpoint, hl⟩ | _ | ⟨hopen, hended⟩
  case sent => exact hsame (by simp [record, hopen])
  case unsent =>
    obtain ⟨hhand, -⟩ := inHand_of_sent hpoint hl
    have hdropped : (record log s .send { s with loop := l }).dropped.length =
        log.dropped.length + 1 := by
      simp [record, hclosed, hhand]
    rcases h.dropped with hle | ⟨hended, -⟩
    · refine .inr ⟨?_, hdropped.trans_le (Nat.succ_le_succ hle)⟩
      simp only [GrabLoop.step, hpoint, Bool.false_eq_true, if_false] at hl
      rw [← Option.some.inj hl]
    · exact absurd (hpoint.symm.trans hended) (by simp)
  case dropReceiver =>
    refine .inl ?_
    show (log.dropped ++ s.session.channel).length ≤ _
    rw [show log.dropped = [] from h.passed.opened hopen]
    exact h.channel
  all_goals exact hsame (List.append_nil _)

/-- **What is dropped stays within its bound**, after every step. -/
theorem Spares.step (h : Spares (s, log)) (hs' : s' ∈ DevicePath.step cfg set s label) :
    Spares (s', record log s label s') where
  passed := h.passed.step hs'
  channel := channel_of_step h.channel hs'
  dropped := h.dropped_step hs'

/-- **What is lost.** In every run, nothing of what was captured is dropped before the session is
over, and then no more than the 256 events that the channel holds and one more, with which the
thread is at its end. -/
theorem dropped_of_run {daemon : DaemonState} {labels : List (Label ι)}
    (hrun : (s, log) ∈ run (recorded cfg set) (start daemon, .empty) labels) :
    (log.dropped ≠ [] → s.session.Ended) ∧
      (log.dropped.length ≤ captureChannelCapacity ∨
        s.loop.coarse.hasEnded = true ∧ log.dropped.length = captureChannelCapacity + 1) := by
  have hspares : Throughout (recorded cfg set) Spares (start daemon, .empty) labels := by
    refine throughout_of_invariant (fun sl label h sl' hsl' ↦ ?_) (spares_start daemon) labels
    obtain ⟨s, log⟩ := sl
    obtain ⟨s', log'⟩ := sl'
    obtain ⟨hs', rfl⟩ : s' ∈ step cfg set s label ∧ log' = record log s label s' :=
      mem_withHistory.1 hsl'
    exact h.step hs'
  obtain ⟨hpassed, -, hdropped⟩ : Spares (s, log) := hspares.last hrun
  refine ⟨fun hsome ↦ ?_, ?_⟩
  · rcases hopen : s.receiverOpen with _ | _
    · exact (hpassed.closed hopen).2
    · exact absurd (hpassed.opened hopen) hsome
  · rcases hdropped with hle | ⟨hended, hle⟩
    · exact .inl hle
    · refine (Nat.lt_or_ge captureChannelCapacity log.dropped.length).symm.imp id fun hlt ↦ ?_
      exact ⟨by rw [CaptureLoop.hasEnded, GrabLoop.coarse, show s.loop.point = .ended from hended],
        Nat.le_antisymm hle hlt⟩

end Spares

/-- The session is shut down before it has received the motion. -/
def quitRun : List (Label Bool) :=
  edgeRun.take 9 ++ [.session .shutdown, .session (.cleanup (.at 0)), .dropReceiver]

/-- One event is dropped. -/
theorem quitRun_dropped :
    (run (recorded .fallback EvdevDevices.samplePair) (start (.new .fallback 0), .empty)
      quitRun).map (fun sl ↦ sl.2.dropped) = some [.mouseMove (.finite 1000) (.finite 0)] := by
  decide +kernel

/-- The motion is lost, and the session is over. -/
theorem dropped_of_run_quitRun :
    ∃ sl ∈ run (recorded .fallback EvdevDevices.samplePair) (start (.new .fallback 0), .empty)
        quitRun,
      sl.2.dropped = [.mouseMove (.finite 1000) (.finite 0)] ∧ sl.1.session.Ended := by
  obtain ⟨⟨s, log⟩, hrun, hdropped⟩ := Option.map_eq_some_iff.1 quitRun_dropped
  refine ⟨(s, log), hrun, hdropped, (dropped_of_run hrun).1 fun hnil ↦ ?_⟩
  rw [show log.dropped = _ from hdropped] at hnil
  cases hnil

end DevicePath

end Kmflow
