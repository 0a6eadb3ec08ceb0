import Kmflow.Input.EvdevCapture
import Kmflow.Foundation.Channels
import Kmflow.Foundation.Transition

/-!
# Capturing from several evdev devices

`EvdevCapture` with its devices: `next_event` waits on one epoll instance for all of them, reads a
device that is reported until it is empty or an event is made, and leaves the rest of the report as
soon as an event is made. `epoll_wait` may report the devices in any order and may leave some out,
raw events arrive at any time, calls end where they end, and the motion of the current report is
one for all the devices.

The kernel's side is a buffer for each device. It holds what the device brings until it is read, and
where it is full it overruns: the kernel drops what it holds and leaves `SYN_DROPPED`, which
`next_event` passes over like any other event it does not know. How much a buffer holds is the
kernel's affair, so it may overrun at any time.

All that does not matter: in every run the calls have captured a merge of the buffers
(`captured_of_run`), that is, what `EvdevCapture` makes of the raw events in one of the orders that
keep the order within each device, and nothing is missing but what an overrun has dropped. So a
replay conserves the motion of all the devices together, whichever report ended it, and the
transitions of the keys of each. Once `epoll_wait` times out and no `SYN_DROPPED` was read, the
merge has everything that arrived (`replay_of_timeout`): it times out only when there is nothing
to read, and a report that was left early is made again.
-/

namespace Kmflow

open Transition Channels

/-- What `epoll_wait` waits on: the file of a device, and the one the shutdown is signalled by. -/
inductive EpollFd (ι : Type) where
  | device (fd : ι)
  | shutdown
  deriving DecidableEq

/-- What the kernel leaves in a buffer that has overrun. -/
def EvdevCapture.synDropped : EvdevCapture.InputEventRaw :=
  ⟨⟨EvdevEmulator.evSyn, 3, 0⟩, inI32_zero⟩

/-- Where the thread of the capture is. -/
inductive DeviceStage (ι : Type) where
  /-- Between two calls. -/
  | idle
  | polling
  /-- In the inner loop, with the rest of what was reported. -/
  | reading (fd : ι) (ready : List (EpollFd ι))
  deriving DecidableEq

/-- The devices that were opened, and those `epoll_ctl` took. A device that it refused is only
warned about. -/
structure DeviceSet (ι : Type) where
  opened : Finset ι
  watched : Finset ι
deriving DecidableEq

/-- The capture, and the kernel's side of its devices. -/
structure EvdevDevices (ι : Type) where
  capture : EvdevCapture
  grabbed : Bool
  /-- The devices whose raw events nobody else gets. -/
  exclusive : Finset ι
  /-- What the buffer of a device holds for the capture, oldest first. -/
  queue : ι → List EvdevCapture.InputEventRaw
  signalled : Bool
  stage : DeviceStage ι

namespace EvdevDevices

open EvdevCapture (InputEventRaw synDropped)

variable {ι : Type}

/-- What `epoll_wait` may come back with. -/
inductive Polled (ι : Type) where
  | interrupted
  | failed
  | ready (fds : List (EpollFd ι))

/-- The labels of the kernel and of the capture thread. -/
inductive Input (ι : Type) where
  /-- The kernel puts a raw event into the buffer of a device. -/
  | arrive (fd : ι) (raw : InputEventRaw)
  /-- A raw event finds the buffer of its device full. -/
  | overrun (fd : ι) (raw : InputEventRaw)
  /-- The shutdown is signalled. -/
  | signal
  /-- `next_event` is called. -/
  | nextEvent
  | epollWait (polled : Polled ι)
  /-- A `read`; it may fail also where there is something to read, on a device that was
  unplugged. -/
  | read (ok : Bool)
  /-- `grab_pointer`, where the ioctl fails for some of the devices. -/
  | grabPointer (refused : Finset ι)
  | ungrabPointer

/-- Nothing has arrived, and nothing is grabbed. -/
def start : EvdevDevices ι where
  capture := .new
  grabbed := false
  exclusive := ∅
  queue := fun _ ↦ []
  signalled := false
  stage := .idle

/-- The next of the files that were reported. The shutdown ends the call with an error. -/
def serve : List (EpollFd ι) → DeviceStage ι
  | [] => .polling
  | .shutdown :: _ => .idle
  | .device fd :: ready => .reading fd ready

section Step

variable [DecidableEq ι] (devices : DeviceSet ι) (s : EvdevDevices ι)

/-- The files that may be reported. A device may be reported that has nothing to read, as one is
that was unplugged. -/
def MayReport : EpollFd ι → Prop
  | .device fd => fd ∈ devices.watched
  | .shutdown => s.signalled = true

instance : DecidablePred (MayReport devices s)
  | .device fd => inferInstanceAs (Decidable (fd ∈ devices.watched))
  | .shutdown => inferInstanceAs (Decidable (s.signalled = true))

/-- No file is ready. -/
def Quiet : Prop := (∀ fd ∈ devices.watched, s.queue fd = []) ∧ s.signalled = false

instance : Decidable (Quiet devices s) := inferInstanceAs (Decidable (_ ∧ _))

/-- What `epoll_wait` may report, at most 16 files. It times out, with none, only when none is
ready. -/
def Reports (ready : List (EpollFd ι)) : Prop :=
  ready.length ≤ 16 ∧ (∀ file ∈ ready, MayReport devices s file) ∧ (ready = [] → Quiet devices s)

instance (ready : List (EpollFd ι)) : Decidable (Reports devices s ready) :=
  inferInstanceAs (Decidable (_ ∧ _ ∧ _))

/-- What a turn of the inner loop does with a raw event: an event it makes ends the call. -/
def take (fd : ι) (raw : InputEventRaw) (rest : List InputEventRaw) (ready : List (EpollFd ι)) :
    EvdevDevices ι :=
  let (event, capture) := s.capture.readEvent raw
  { s with
    capture := capture
    queue := Function.update s.queue fd rest
    stage := if event.isSome then .idle else .reading fd ready }

/-- One step of the devices and the capture; `none` when the label is not enabled. -/
def step : Input ι → Option (EvdevDevices ι)
  | .arrive fd raw =>
    some { s with queue := Function.update s.queue fd (s.queue fd ++ [raw]) }
  | .overrun fd raw => some { s with queue := Function.update s.queue fd [synDropped, raw] }
  | .signal => some { s with signalled := true }
  | .nextEvent =>
    match s.stage with
    | .idle => some { s with stage := .polling }
    | _ => none
  | .epollWait polled =>
    match s.stage with
    | .polling =>
      match polled with
      | .interrupted => some s
      | .failed => some { s with stage := .idle }
      | .ready files =>
        if Reports devices s files then some { s with stage := serve files } else none
    | _ => none
  | .read ok =>
    match s.stage with
    | .reading fd ready =>
      match ok, s.queue fd with
      | true, raw :: rest => some (s.take fd raw rest ready)
      | _, _ => some { s with stage := serve ready }
    | _ => none
  | .grabPointer refused =>
    match s.stage with
    | .idle =>
      some (if s.grabbed then s
        else { s with grabbed := true, exclusive := devices.opened \ refused })
    | _ => none
  | .ungrabPointer =>
    match s.stage with
    | .idle =>
      some (if s.grabbed then
        { s with
          grabbed := false
          exclusive := ∅
          capture := { s.capture with heldKeys := ∅ } }
        else s)
    | _ => none

/-- The raw event that a step reads, and its device. -/
def taken : Input ι → List (ι × InputEventRaw)
  | .read true =>
    match s.stage with
    | .reading fd _ => (s.queue fd).head?.toList.map (fd, ·)
    | _ => []
  | _ => []

end Step

/-- What arrived, what was read, in order and each with its device, and what the calls returned. -/
structure Log (ι : Type) where
  arrived : List (ι × InputEventRaw)
  read : List (ι × InputEventRaw)
  returned : List InputEvent

/-- The raw event that a device brings, and the device. -/
def arriving : Input ι → List (ι × InputEventRaw)
  | .arrive fd raw | .overrun fd raw => [(fd, raw)]
  | _ => []

/-- What a step adds to the log. -/
def record [DecidableEq ι] (log : Log ι) (s : EvdevDevices ι) (i : Input ι) (_ : EvdevDevices ι) :
    Log ι where
  arrived := log.arrived ++ arriving i
  read := log.read ++ taken s i
  returned := log.returned ++ (taken s i).flatMap fun entry ↦ (s.capture.readEvent entry.2).1.toList

/-- The capture with its history. -/
def recorded [DecidableEq ι] (devices : DeviceSet ι) :
    EvdevDevices ι × Log ι → Input ι → Option (EvdevDevices ι × Log ι) :=
  withHistory (step devices) record

/-! ### What a step does -/

/-- Only devices that `epoll_wait` waits on are being read. -/
def Served (devices : DeviceSet ι) : DeviceStage ι → Prop
  | .reading fd ready => fd ∈ devices.watched ∧ ∀ fd', .device fd' ∈ ready → fd' ∈ devices.watched
  | _ => True

theorem served_serve {devices : DeviceSet ι} {files : List (EpollFd ι)}
    (h : ∀ fd, .device fd ∈ files → fd ∈ devices.watched) : Served devices (serve files) := by
  cases files with
  | nil => trivial
  | cons file ready =>
    cases file with
    | shutdown => trivial
    | device fd => exact ⟨h fd (.head _), fun fd' hfd' ↦ h fd' (.tail _ hfd')⟩

section Moves

variable [DecidableEq ι] {devices : DeviceSet ι} {s s' : EvdevDevices ι} {i : Input ι}

/-- A raw event comes in, one is read, or the buffers and the motion stay as they are. -/
inductive Move (s : EvdevDevices ι) (i : Input ι) (s' : EvdevDevices ι) : Prop
  | arrive (fd : ι) (raw : InputEventRaw) (harriving : arriving i = [(fd, raw)])
    (htaken : taken s i = []) (hcapture : s'.capture = s.capture)
    (hqueue : s'.queue = Function.update s.queue fd (s.queue fd ++ [raw]))
  | overrun (fd : ι) (raw : InputEventRaw) (harriving : arriving i = [(fd, raw)])
    (htaken : taken s i = []) (hcapture : s'.capture = s.capture)
    (hqueue : s'.queue = Function.update s.queue fd [synDropped, raw])
  | take (fd : ι) (ready : List (EpollFd ι)) (raw : InputEventRaw) (rest : List InputEventRaw)
    (hstage : s.stage = .reading fd ready) (hhead : s.queue fd = raw :: rest)
    (harriving : arriving i = []) (htaken : taken s i = [(fd, raw)])
    (hcapture : s'.capture = (s.capture.readEvent raw).2)
    (hqueue : s'.queue = Function.update s.queue fd rest)
  | quiet (harriving : arriving i = []) (htaken : taken s i = []) (hqueue : s'.queue = s.queue)
    (hpending : ∀ axis, s'.capture.pending axis = s.capture.pending axis)

/-- What a `read` does: it takes the first raw event of the device, or goes on to the next file. -/
theorem read_cases {ok : Bool} (hs' : s' ∈ step devices s (.read ok)) :
    ∃ fd ready, s.stage = .reading fd ready ∧
      ((∃ raw rest, s.queue fd = raw :: rest ∧ taken s (.read ok) = [(fd, raw)] ∧
        s' = s.take fd raw rest ready) ∨
      (taken s (.read ok) = [] ∧ s' = { s with stage := serve ready })) := by
  cases hstage : s.stage with
  | idle => simp [step, hstage] at hs'
  | polling => simp [step, hstage] at hs'
  | reading fd ready =>
    refine ⟨fd, ready, rfl, ?_⟩
    cases ok with
    | false =>
      simp only [step, hstage] at hs'
      cases hs'
      exact .inr ⟨rfl, rfl⟩
    | true =>
      cases hhead : s.queue fd with
      | nil =>
        simp only [step, hstage, hhead] at hs'
        cases hs'
        exact .inr ⟨by simp [taken, hstage, hhead], rfl⟩
      | cons raw rest =>
        simp only [step, hstage, hhead] at hs'
        cases hs'
        exact .inl ⟨raw, rest, rfl, by simp [taken, hstage, hhead], rfl⟩

/-- What a step does that is no arrival and no `read`: the devices stay as they are, and a file is
served only if `epoll_wait` reported it. -/
theorem quiet_cases (harrive : arriving i = []) (hread : ∀ ok, i ≠ .read ok)
    (hs' : s' ∈ step devices s i) :
    s'.queue = s.queue ∧ (∀ axis, s'.capture.pending axis = s.capture.pending axis) ∧
      (Served devices s.stage → Served devices s'.stage) := by
  cases i with
  | arrive fd raw | overrun fd raw => cases harrive
  | read ok => exact absurd rfl (hread ok)
  | signal =>
    cases hs'
    exact ⟨rfl, fun _ ↦ rfl, id⟩
  | nextEvent =>
    cases hstage : s.stage <;> simp only [step, hstage] at hs' <;> cases hs'
    exact ⟨rfl, fun _ ↦ rfl, fun _ ↦ trivial⟩
  | epollWait polled =>
    cases hstage : s.stage with
    | idle => simp [step, hstage] at hs'
    | reading fd ready => simp [step, hstage] at hs'
    | polling =>
      cases polled with
      | interrupted =>
        simp only [step, hstage] at hs'
        cases hs'
        exact ⟨rfl, fun _ ↦ rfl, fun _ ↦ by rw [hstage]; trivial⟩
      | failed =>
        simp only [step, hstage] at hs'
        cases hs'
        exact ⟨rfl, fun _ ↦ rfl, fun _ ↦ trivial⟩
      | ready files =>
        simp only [step, hstage, Option.mem_def, Option.ite_none_right_eq_some] at hs'
        obtain ⟨hreports, hs'⟩ := hs'
        cases hs'
        exact ⟨rfl, fun _ ↦ rfl, fun _ ↦ served_serve fun fd hfd ↦ hreports.2.1 _ hfd⟩
  | grabPointer refused =>
    cases hstage : s.stage <;> simp only [step, hstage] at hs' <;> cases hs'
    split_ifs
    · exact ⟨rfl, fun _ ↦ rfl, fun h ↦ hstage ▸ h⟩
    · exact ⟨rfl, fun _ ↦ rfl, fun _ ↦ trivial⟩
  | ungrabPointer =>
    cases hstage : s.stage <;> simp only [step, hstage] at hs' <;> cases hs'
    split_ifs
    · refine ⟨rfl, fun axis ↦ ?_, fun _ ↦ trivial⟩
      cases axis <;> rfl
    · exact ⟨rfl, fun _ ↦ rfl, fun h ↦ hstage ▸ h⟩

/-- **A step is one of the moves.** -/
theorem move_of_step (hs' : s' ∈ step devices s i) : Move s i s' := by
  rcases i with ⟨fd, raw⟩ | ⟨fd, raw⟩ | _ | _ | _ | ok | _ | _
  case arrive =>
    obtain rfl := Option.some.inj hs'
    exact .arrive fd raw rfl rfl rfl rfl
  case overrun =>
    obtain rfl := Option.some.inj hs'
    exact .overrun fd raw rfl rfl rfl rfl
  case read =>
    obtain ⟨fd, ready, hstage, ⟨raw, rest, hhead, htaken, rfl⟩ | ⟨htaken, rfl⟩⟩ := read_cases hs'
    · exact .take fd ready raw rest hstage hhead rfl htaken rfl rfl
    · exact .quiet rfl htaken rfl fun _ ↦ rfl
  all_goals
    obtain ⟨hqueue, hpending, -⟩ := quiet_cases rfl (fun ok hi ↦ by cases hi) hs'
    exact .quiet rfl rfl hqueue hpending

/-- **A step keeps to the devices that are watched.** -/
theorem served_of_step (hserved : Served devices s.stage) (hs' : s' ∈ step devices s i) :
    Served devices s'.stage := by
  rcases i with ⟨fd, raw⟩ | ⟨fd, raw⟩ | _ | _ | _ | ok | _ | _
  case arrive | overrun =>
    obtain rfl := Option.some.inj hs'
    exact hserved
  case read =>
    obtain ⟨fd, ready, hstage, ⟨raw, rest, -, -, rfl⟩ | ⟨-, rfl⟩⟩ := read_cases hs'
    · rw [hstage] at hserved
      simp only [take]
      split_ifs
      · trivial
      · exact hserved
    · rw [hstage] at hserved
      exact served_serve hserved.2
  all_goals exact (quiet_cases rfl (fun ok hi ↦ by cases hi) hs').2.2 hserved

/-- Only the two calls change the grab. -/
theorem grab_of_step (hs' : s' ∈ step devices s i) (hgrab : ∀ refused, i ≠ .grabPointer refused)
    (hungrab : i ≠ .ungrabPointer) : s'.grabbed = s.grabbed ∧ s'.exclusive = s.exclusive := by
  cases i with
  | grabPointer refused => exact absurd rfl (hgrab refused)
  | ungrabPointer => exact absurd rfl hungrab
  | arrive fd raw | overrun fd raw | signal =>
    cases hs'
    exact ⟨rfl, rfl⟩
  | nextEvent =>
    cases hstage : s.stage <;> simp only [step, hstage] at hs' <;> cases hs'
    exact ⟨rfl, rfl⟩
  | epollWait polled =>
    cases hstage : s.stage with
    | idle => simp [step, hstage] at hs'
    | reading fd ready => simp [step, hstage] at hs'
    | polling =>
      cases polled with
      | interrupted | failed =>
        simp only [step, hstage] at hs'
        cases hs'
        exact ⟨rfl, rfl⟩
      | ready files =>
        simp only [step, hstage, Option.mem_def, Option.ite_none_right_eq_some] at hs'
        obtain ⟨-, hs'⟩ := hs'
        cases hs'
        exact ⟨rfl, rfl⟩
  | read ok =>
    obtain ⟨fd, ready, -, ⟨raw, rest, -, -, rfl⟩ | ⟨-, rfl⟩⟩ := read_cases hs' <;> exact ⟨rfl, rfl⟩

/-- A call to grab or to ungrab is made between two calls of `next_event`. -/
theorem grabPointer_eq {refused : Finset ι} (hgrabbed : s.grabbed = false)
    (hs' : s' ∈ step devices s (.grabPointer refused)) :
    s.stage = .idle ∧
      s' = { s with grabbed := true, exclusive := devices.opened \ refused } := by
  cases hstage : s.stage with
  | idle =>
    simp only [step, hstage, hgrabbed] at hs'
    cases hs'
    exact ⟨rfl, rfl⟩
  | polling => simp [step, hstage] at hs'
  | reading fd ready => simp [step, hstage] at hs'

theorem ungrabPointer_eq (hgrabbed : s.grabbed = true)
    (hs' : s' ∈ step devices s .ungrabPointer) :
    s.stage = .idle ∧ s' =
      { s with
        grabbed := false
        exclusive := ∅
        capture := { s.capture with heldKeys := ∅ } } := by
  cases hstage : s.stage with
  | idle =>
    simp only [step, hstage, hgrabbed, if_true] at hs'
    cases hs'
    exact ⟨rfl, rfl⟩
  | polling => simp [step, hstage] at hs'
  | reading fd ready => simp [step, hstage] at hs'

end Moves

/-! ### The merge of the buffers -/

/-- Captures with the same motion pending. The keys that are held are looked at nowhere. -/
def SamePending (s t : EvdevCapture) : Prop := ∀ axis, s.pending axis = t.pending axis

theorem SamePending.readEvent {s t : EvdevCapture} (h : SamePending s t) (raw : InputEventRaw) :
    (s.readEvent raw).1 = (t.readEvent raw).1 ∧
      SamePending (s.readEvent raw).2 (t.readEvent raw).2 := by
  obtain ⟨heldKeys, dx, dy⟩ := s
  obtain ⟨heldKeys', dx', dy'⟩ := t
  obtain rfl : dx = dx' := h .x
  obtain rfl : dy = dy' := h .y
  have hkeys : (EvdevCapture.translateKeyEvent raw heldKeys).1 =
      (EvdevCapture.translateKeyEvent raw heldKeys').1 := by
    simp only [EvdevCapture.translateKeyEvent]
    split_ifs <;> (try split) <;> rfl
  simp only [EvdevCapture.readEvent]
  split_ifs
  · exact ⟨rfl, fun axis ↦ by cases axis <;> rfl⟩
  · simp only [EvdevCapture.readRel]
    split_ifs <;> exact ⟨rfl, fun axis ↦ by cases axis <;> rfl⟩
  · exact ⟨hkeys, fun axis ↦ by cases axis <;> rfl⟩
  · exact ⟨rfl, fun axis ↦ by cases axis <;> rfl⟩

/-- What the devices bring is read in one of the orders that keep the order of each, but for what an
overrun has dropped, and the calls return what a single capture makes of it. -/
structure Sound [DecidableEq ι] (devices : DeviceSet ι) (sl : EvdevDevices ι × Log ι) : Prop where
  served : Served devices sl.1.stage
  watched : ∀ entry ∈ sl.2.read, entry.1 ∈ devices.watched
  conserved : Conserved synDropped sl.1.queue sl.2.arrived sl.2.read
  returned : sl.2.returned = (EvdevCapture.new.run (sl.2.read.map Prod.snd)).1
  pending : SamePending (EvdevCapture.new.run (sl.2.read.map Prod.snd)).2 sl.1.capture

/-- The empty history. -/
def Log.empty : Log ι := ⟨[], [], []⟩

section Runs

variable [DecidableEq ι] {devices : DeviceSet ι}

/-- At the start nothing was queued. -/
theorem sound_start : Sound devices ((start, .empty) : EvdevDevices ι × Log ι) where
  served := trivial
  watched _ hentry := absurd hentry List.not_mem_nil
  conserved := .nil
  returned := rfl
  pending _ := rfl

/-- **A step keeps the invariant.** -/
theorem Sound.step {sl sl' : EvdevDevices ι × Log ι} {i : Input ι} (h : Sound devices sl)
    (hsl' : sl' ∈ recorded devices sl i) : Sound devices sl' := by
  obtain ⟨s, log⟩ := sl
  obtain ⟨s', log'⟩ := sl'
  obtain ⟨hs', rfl⟩ : s' ∈ EvdevDevices.step devices s i ∧ log' = record log s i s' :=
    mem_withHistory.1 hsl'
  have hserved : Served devices s'.stage := served_of_step h.served hs'
  have hpending := h.pending
  cases move_of_step hs' with
  | arrive fd raw harriving htaken hcapture hqueue =>
    refine ⟨hserved, ?_, ?_, ?_, ?_⟩
    · simpa [record, htaken] using h.watched
    · simpa [record, htaken, harriving, hqueue] using h.conserved.put fd raw
    · simpa [record, htaken] using h.returned
    · simpa [record, htaken, hcapture] using hpending
  | overrun fd raw harriving htaken hcapture hqueue =>
    refine ⟨hserved, ?_, ?_, ?_, ?_⟩
    · simpa [record, htaken] using h.watched
    · simpa [record, htaken, harriving, hqueue] using h.conserved.overrun fd raw
    · simpa [record, htaken] using h.returned
    · simpa [record, htaken, hcapture] using hpending
  | quiet harriving htaken hqueue hsame =>
    refine ⟨hserved, ?_, ?_, ?_, ?_⟩
    · simpa [record, htaken] using h.watched
    · simpa [record, htaken, harriving, hqueue] using h.conserved
    · simpa [record, htaken] using h.returned
    · intro axis
      simpa [record, htaken, hsame axis] using hpending axis
  | take fd ready raw rest hstage hhead harriving htaken hcapture hqueue =>
    have hfd : fd ∈ devices.watched := by
      have hserved := h.served
      rw [hstage] at hserved
      exact hserved.1
    obtain ⟨hevent, hpending'⟩ := hpending.readEvent raw
    have hreturned := h.returned
    refine ⟨hserved, fun entry hentry ↦ ?_, ?_, ?_, ?_⟩
    · simp only [record, htaken, List.mem_append, List.mem_singleton] at hentry
      rcases hentry with hentry | rfl
      · exact h.watched entry hentry
      · exact hfd
    · simpa [record, htaken, harriving, hqueue] using h.conserved.take hhead
    · simp only [record, htaken, List.map_append, List.map_singleton, List.flatMap_singleton]
      rw [EvdevCapture.run_append, EvdevCapture.run_cons, hevent]
      simpa [EvdevCapture.run] using hreturned
    · simp only [record, htaken, List.map_append, List.map_singleton]
      rw [EvdevCapture.run_append, EvdevCapture.run_cons, hcapture]
      exact hpending'

/-- **The calls capture a merge of the buffers**, in every state of every run. -/
theorem sound_recorded (is : List (Input ι)) :
    Throughout (recorded devices) (Sound devices) (start, .empty) is :=
  throughout_of_invariant (fun _ _ h _ hsl' ↦ h.step hsl') sound_start is

end Runs

/-- A raw event with one of the values 0 and 1. -/
def sampleRaw (type code : UInt16) (on : Bool) : InputEventRaw :=
  ⟨⟨type, code, if on then 1 else 0⟩, by cases on <;> simp [InI32, i32Min, i32Max]⟩

/-- The left button is held while a key is pressed: the mouse is reported first, and its button
leaves the report to be made again. -/
def sampleDevices : List (Input Bool) :=
  [.arrive true (sampleRaw EvdevEmulator.evRel EvdevEmulator.relX true),
    .arrive false (sampleRaw EvdevEmulator.evKey 30 true),
    .arrive true (sampleRaw EvdevEmulator.evKey EvdevEmulator.btnLeft true),
    .nextEvent, .epollWait (.ready [.device true, .device false]), .read true, .read true,
    .nextEvent, .epollWait .interrupted, .epollWait (.ready [.device false]), .read true,
    .arrive true (sampleRaw EvdevEmulator.evSyn EvdevEmulator.synReport false),
    .nextEvent, .epollWait (.ready [.device true]), .read true, .nextEvent]

/-- Both devices are opened and waited on. -/
def samplePair : DeviceSet Bool := ⟨{true, false}, {true, false}⟩

theorem sampleDevices_isSome :
    (run (recorded samplePair) (start, .empty) sampleDevices).isSome := by decide +kernel

/-- Where the sample leads. -/
def sampleEnd : EvdevDevices Bool × Log Bool :=
  (run (recorded samplePair) (start, .empty) sampleDevices).get sampleDevices_isSome

section Runs

variable [DecidableEq ι] {devices : DeviceSet ι}

/-- **A merge of the buffers is captured**: each device is read in order, up to what its buffer
holds and with `SYN_DROPPED` for what an overrun has dropped, and the events are those of a single
capture over what was read, wherever calls ended and reports were left. -/
theorem captured_of_run {is : List (Input ι)} {s : EvdevDevices ι} {log : Log ι}
    (hrun : (s, log) ∈ run (recorded devices) (start, .empty) is) :
    (∀ fd, Gapped synDropped (on fd log.arrived) (on fd log.read ++ s.queue fd)) ∧
      log.returned = (EvdevCapture.new.run (log.read.map Prod.snd)).1 ∧
      SamePending (EvdevCapture.new.run (log.read.map Prod.snd)).2 s.capture := by
  have hsound : Sound devices (s, log) := (sound_recorded is).last hrun
  exact ⟨hsound.conserved, hsound.returned, hsound.pending⟩

end Runs

/-- The press of a key is dropped in an overrun, and only its release is read. -/
def overrunDevices : List (Input Bool) :=
  [.arrive false (sampleRaw EvdevEmulator.evKey 30 true),
    .overrun false (sampleRaw EvdevEmulator.evKey 30 false), .nextEvent,
    .epollWait (.ready [.device false]), .read true, .read true]

theorem overrunDevices_end :
    (run (recorded samplePair) (start, .empty) overrunDevices).map
        (fun sl ↦ (sl.2.read, sl.2.returned)) =
      some ([(false, synDropped), (false, sampleRaw EvdevEmulator.evKey 30 false)],
        [.key 30 .released]) := by
  decide +kernel

/-- What the keyboard has brought was read with a gap. -/
theorem captured_of_run_overrunDevices :
    ∃ sl ∈ run (recorded samplePair) (start, .empty) overrunDevices,
      sl.2.returned = [.key 30 .released] ∧
        Gapped synDropped (on false sl.2.arrived) (on false sl.2.read ++ sl.1.queue false) := by
  obtain ⟨⟨s, log⟩, hrun, hend⟩ := Option.map_eq_some_iff.1 overrunDevices_end
  exact ⟨(s, log), hrun, congrArg Prod.snd hend, (captured_of_run hrun).1 false⟩

section Runs

variable [DecidableEq ι] {devices : DeviceSet ι}

/-- What `epoll_wait` needs to time out. -/
theorem quiet_of_timeout {s : EvdevDevices ι}
    (htimeout : (step devices s (.epollWait (.ready []))).isSome) : Quiet devices s := by
  cases hstage : s.stage with
  | idle => simp [step, hstage] at htimeout
  | reading fd ready => simp [step, hstage] at htimeout
  | polling =>
    simp only [step, hstage] at htimeout
    split_ifs at htimeout with hreports
    · exact hreports.2.2 rfl
    · cases htimeout

/-- At a timeout every device that is waited on has been read to its end, if no `SYN_DROPPED` was
read, and no other at all. -/
theorem Sound.on_read {s : EvdevDevices ι} {log : Log ι} (h : Sound devices (s, log))
    (hquiet : Quiet devices s) (hdropped : ∀ entry ∈ log.read, entry.2 ≠ synDropped) (fd : ι) :
    on fd log.read = on fd (log.arrived.filter fun entry ↦ entry.1 ∈ devices.watched) := by
  rw [on_filter (· ∈ devices.watched)]
  split_ifs with hfd
  · exact h.conserved.on_eq_of_nil (hquiet.1 fd hfd) fun hmem ↦ hdropped _ (mem_on.1 hmem) rfl
  · refine List.eq_nil_iff_forall_not_mem.2 fun raw hraw ↦ hfd ?_
    exact h.watched _ (mem_on.1 hraw)

open EvdevEmulator (axisValues moveCode emit) in
/-- **At a timeout everything has been captured**, if no `SYN_DROPPED` was read. What a replay
writes then is the motion of all the devices together but for what is pending, and the turns and the
transitions of a merge of what they have brought. -/
theorem replay_of_timeout {is : List (Input ι)} {s : EvdevDevices ι} {log : Log ι}
    (hrun : (s, log) ∈ run (recorded devices) (start, .empty) is)
    (htimeout : (step devices s (.epollWait (.ready []))).isSome)
    (hdropped : ∀ entry ∈ log.read, entry.2 ≠ synDropped)
    (hfits : ∀ e ∈ log.returned, EvdevCapture.MoveFits e)
    (hwheel : ∀ entry ∈ log.arrived, entry.2.type = EvdevEmulator.evRel →
      entry.2.code = EvdevEmulator.relWheel → entry.2.value ≠ i32Min) :
    (∀ axis, ((axisValues (moveCode axis) (log.returned.flatMap emit)).sum : ℚ) +
        s.capture.pending axis =
      ((axisValues (moveCode axis) ((log.arrived.filter fun entry ↦ entry.1 ∈ devices.watched).map
        (·.2.toInputEventRaw))).sum : ℤ)) ∧
    ∃ order : List (ι × InputEventRaw),
      (∀ fd ∈ devices.watched, on fd order = on fd log.arrived) ∧
      (∀ fd ∉ devices.watched, on fd order = []) ∧
      EvdevCapture.Replays .new (order.map (·.2.toInputEventRaw)) log.returned s.capture := by
  have hsound : Sound devices (s, log) := (sound_recorded is).last hrun
  have hon := hsound.on_read (quiet_of_timeout htimeout) hdropped
  have hperm := perm_of_on_eq hon
  have hraws : (log.read.map Prod.snd).map (·.toInputEventRaw) =
      log.read.map (·.2.toInputEventRaw) := by rw [List.map_map]; rfl
  have hreturned : log.returned = (EvdevCapture.new.run (log.read.map Prod.snd)).1 :=
    hsound.returned
  have hwheel' : ∀ raw ∈ log.read.map Prod.snd, raw.type = EvdevEmulator.evRel →
      raw.code = EvdevEmulator.relWheel → raw.value ≠ i32Min := by
    intro raw hraw
    obtain ⟨entry, hentry, rfl⟩ := List.mem_map.1 hraw
    exact hwheel entry (List.mem_of_mem_filter (hperm.subset hentry))
  have hrun := EvdevCapture.replays_run .new (fun e he ↦ hfits e (hreturned ▸ he)) hwheel'
  rw [hraws, ← hreturned] at hrun
  have hreplays : EvdevCapture.Replays .new (log.read.map (·.2.toInputEventRaw)) log.returned
      s.capture :=
    ⟨fun axis ↦ hsound.pending axis ▸ hrun.emitted axis, hrun.written, hrun.turns, hrun.keys⟩
  refine ⟨fun axis ↦ ?_, log.read, fun fd hfd ↦ ?_, fun fd hfd ↦ ?_, hreplays⟩
  · have hvalues : (axisValues (moveCode axis) (log.read.map (·.2.toInputEventRaw))).Perm
        (axisValues (moveCode axis) ((log.arrived.filter fun entry ↦
          entry.1 ∈ devices.watched).map (·.2.toInputEventRaw))) :=
      (hperm.map _).filterMap _
    rw [hreplays.written, hreplays.emitted, ← hvalues.sum_eq]
    cases axis <;> exact zero_add _
  · rw [hon, on_filter (· ∈ devices.watched), if_pos hfd]
  · rw [hon, on_filter (· ∈ devices.watched), if_neg hfd]

end Runs

/-- The motion is captured once its report has ended, after the button and the key. -/
theorem replay_of_timeout_sampleDevices :
    sampleEnd.2.returned = [.mouseButton .left .pressed, .key 30 .pressed,
      .mouseMove (.finite 1) (.finite 0)] ∧
    ∃ order : List (Bool × InputEventRaw),
      (∀ fd ∈ samplePair.watched, on fd order = on fd sampleEnd.2.arrived) ∧
      (∀ fd ∉ samplePair.watched, on fd order = []) ∧
      EvdevCapture.Replays .new (order.map (·.2.toInputEventRaw)) sampleEnd.2.returned
        sampleEnd.1.capture :=
  ⟨by decide +kernel, (replay_of_timeout (Option.get_mem sampleDevices_isSome) (by decide +kernel)
    (by decide +kernel) (by decide +kernel) (by decide +kernel)).2⟩

end EvdevDevices

end Kmflow
