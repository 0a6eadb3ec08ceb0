import Kmflow.Daemon.Capture
import Kmflow.Foundation.Infix

/-!
# The grabs of the capture loop

`run_capture_loop` once more, with the `watch` channel as it is: a send replaces the value and
counts the version up, `has_changed` compares the version with the one that was seen last, and
`borrow_and_update` takes the value that is there by then. Between the two another value may be
sent, and `grab_pointer` and `ungrab_pointer` may fail. Every run of this loop is one of
`CaptureLoop`, which looks at the channel in one step (`captureLoop_of_run`).

The loop's own variable is what keeps the calls in order: it is changed by calls that succeed and by
nothing else, and a call is made only against it. So the successful calls alternate whatever fails,
and when nothing fails the variable has caught up with the last value seen whenever the loop goes to
wait for an event (`exact_recorded`).
-/

namespace Kmflow

open Transition

/-! ### The channel -/

/-- A `watch` channel and its receiver: the last value, its version, and the version seen last. -/
structure WatchChannel (β : Type) where
  value : β
  version : ℕ
  seen : ℕ
  seen_le : seen ≤ version

namespace WatchChannel

variable {β : Type}

/-- `watch::channel`: the first value counts as seen. -/
def new (value : β) : WatchChannel β := ⟨value, 0, 0, Nat.le_refl 0⟩

/-- `Sender::send`, which makes a new version. -/
def send (c : WatchChannel β) (value : β) : WatchChannel β where
  value := value
  version := c.version + 1
  seen := c.seen
  seen_le := Nat.le_succ_of_le c.seen_le

/-- `Receiver::has_changed`. -/
def hasChanged (c : WatchChannel β) : Bool := c.version != c.seen

/-- `borrow_and_update`, which returns the value. -/
def update (c : WatchChannel β) : WatchChannel β where
  value := c.value
  version := c.version
  seen := c.version
  seen_le := Nat.le_refl _

@[simp] theorem hasChanged_send (c : WatchChannel β) (value : β) :
    (c.send value).hasChanged = true := by
  have := c.seen_le
  simp only [hasChanged, send, bne_iff_ne, ne_eq]
  omega

@[simp] theorem hasChanged_update (c : WatchChannel β) : c.update.hasChanged = false := by
  simp [hasChanged, update]

/-- The channel without its counters. -/
def receiver (c : WatchChannel β) : WatchReceiver β := ⟨c.value, c.hasChanged⟩

end WatchChannel

/-! ### The loop -/

/-- The capture thread, with its end of the watch channel. -/
structure GrabLoop (ε : Type) where
  point : CapturePoint ε
  /-- `has_changed` has said yes, and the value is yet to be taken. -/
  looking : Bool
  /-- The loop's own variable. -/
  grabbed : Bool
  grabRx : WatchChannel Bool

namespace GrabLoop

variable {ε : Type}

/-- The labels of the thread, and of the sender. -/
inductive Input (ε : Type) where
  | send (on : Bool)
  | testShutdown (raised : Bool)
  /-- `has_changed`, which is an error once the sender is gone. -/
  | hasChanged (closed : Bool)
  | borrowAndUpdate
  | call (ok : Bool)
  | nextEvent (result : Option ε)
  | sent (ok : Bool)

/-- The thread as it is spawned. -/
def start : GrabLoop ε where
  point := .top
  looking := false
  grabbed := false
  grabRx := .new false

/-- One step of the thread; `none` when the label is not enabled. -/
def step (s : GrabLoop ε) : Input ε → Option (GrabLoop ε)
  | .send on => some { s with grabRx := s.grabRx.send on }
  | .testShutdown raised =>
    match s.point with
    | .top => some { s with point := if raised then .ended else .grabTest }
    | _ => none
  | .hasChanged closed =>
    match s.point, s.looking with
    | .grabTest, false =>
      if !closed && s.grabRx.hasChanged then some { s with looking := true }
      else some { s with point := .reading }
    | _, _ => none
  | .borrowAndUpdate =>
    match s.point, s.looking with
    | .grabTest, true =>
      some { s with
        point := CaptureLoop.answer s.grabbed s.grabRx.value
        looking := false
        grabRx := s.grabRx.update }
    | _, _ => none
  | .call ok =>
    match s.point with
    | .calling on => some { s with point := .reading, grabbed := if ok then on else s.grabbed }
    | _ => none
  | .nextEvent result =>
    match s.point with
    | .reading =>
      some { s with point := match result with
        | some event => .sending event
        | none => .ended }
    | _ => none
  | .sent ok =>
    match s.point with
    | .sending _ => some { s with point := if ok then .top else .ended }
    | _ => none

/-- What a step does to the devices, or learns from the channel. -/
inductive Deed where
  /-- A call of `grab_pointer` (`true`) or `ungrab_pointer` (`false`) has returned. -/
  | called (on ok : Bool)
  | observed (value : Bool)

/-- What the thread does in a step that shows outside: it observes a request, or calls the devices.
-/
def deeds (s : GrabLoop ε) : Input ε → List Deed
  | .borrowAndUpdate => [.observed s.grabRx.value]
  | .call ok =>
    match s.point with
    | .calling on => [.called on ok]
    | _ => []
  | _ => []

/-- The loop, with what it has done so far. -/
def recorded : GrabLoop ε × List Deed → Input ε → Option (GrabLoop ε × List Deed) :=
  withHistory step fun log s i _ ↦ log ++ s.deeds i

/-- **Everything a step does.** -/
inductive Move (s : GrabLoop ε) : Input ε → GrabLoop ε → List Deed → Prop
  | send (on : Bool) : Move s (.send on) { s with grabRx := s.grabRx.send on } []
  | testShutdown (raised : Bool) (hpoint : s.point = .top) :
    Move s (.testShutdown raised) { s with point := if raised then .ended else .grabTest } []
  | changed (hpoint : s.point = .grabTest) (hlooking : s.looking = false)
      (hchanged : s.grabRx.hasChanged = true) :
    Move s (.hasChanged false) { s with looking := true } []
  | unchanged (closed : Bool) (hpoint : s.point = .grabTest) (hlooking : s.looking = false)
      (hchanged : (!closed && s.grabRx.hasChanged) = false) :
    Move s (.hasChanged closed) { s with point := .reading } []
  | borrowAndUpdate (hpoint : s.point = .grabTest) (hlooking : s.looking = true) :
    Move s .borrowAndUpdate
      { s with
        point := CaptureLoop.answer s.grabbed s.grabRx.value
        looking := false
        grabRx := s.grabRx.update }
      [.observed s.grabRx.value]
  | call (on ok : Bool) (hpoint : s.point = .calling on) :
    Move s (.call ok) { s with point := .reading, grabbed := if ok then on else s.grabbed }
      [.called on ok]
  | event (event : ε) (hpoint : s.point = .reading) :
    Move s (.nextEvent (some event)) { s with point := .sending event } []
  | failed (hpoint : s.point = .reading) : Move s (.nextEvent none) { s with point := .ended } []
  | sent (event : ε) (ok : Bool) (hpoint : s.point = .sending event) :
    Move s (.sent ok) { s with point := if ok then .top else .ended } []

/-- **A step is one of the moves**, with what it shows outside. -/
theorem move_of_step {s s' : GrabLoop ε} {i : Input ε} (hs' : s' ∈ step s i) :
    Move s i s' (s.deeds i) := by
  obtain ⟨point, looking, grabbed, grabRx⟩ := s
  cases i with
  | send on =>
    obtain rfl := Option.some.inj hs'
    exact .send on
  | testShutdown raised =>
    cases point with
    | top =>
      obtain rfl := Option.some.inj hs'
      exact .testShutdown raised rfl
    | grabTest | calling | reading | sending | ended => cases hs'
  | hasChanged closed =>
    cases point with
    | grabTest =>
      cases looking with
      | true => cases hs'
      | false =>
        simp only [step] at hs'
        split_ifs at hs' with hchanged
        · obtain rfl := Option.some.inj hs'
          obtain ⟨hclosed, hchanged⟩ := Bool.and_eq_true_iff.1 hchanged
          obtain rfl : closed = false := by simpa using hclosed
          exact .changed rfl rfl hchanged
        · obtain rfl := Option.some.inj hs'
          exact .unchanged closed rfl rfl (eq_false_of_ne_true hchanged)
    | top | calling | reading | sending | ended => cases hs'
  | borrowAndUpdate =>
    cases point with
    | grabTest =>
      cases looking with
      | false => cases hs'
      | true =>
        obtain rfl := Option.some.inj hs'
        exact .borrowAndUpdate rfl rfl
    | top | calling | reading | sending | ended => cases hs'
  | call ok =>
    cases point with
    | calling on =>
      obtain rfl := Option.some.inj hs'
      exact .call on ok rfl
    | top | grabTest | reading | sending | ended => cases hs'
  | nextEvent result =>
    cases point with
    | reading =>
      obtain rfl := Option.some.inj hs'
      cases result with
      | some event => exact .event event rfl
      | none => exact .failed rfl
    | top | grabTest | calling | sending | ended => cases hs'
  | sent ok =>
    cases point with
    | sending event =>
      obtain rfl := Option.some.inj hs'
      exact .sent event ok rfl
    | top | grabTest | calling | reading | ended => cases hs'

/-! ### The loop that looks in one step -/

/-- The loop as `CaptureLoop` has it. -/
def coarse (s : GrabLoop ε) : CaptureLoop ε := ⟨s.point, s.grabbed, s.grabRx.receiver⟩

/-- While the value is yet to be taken, it has changed. -/
def Looks (s : GrabLoop ε) : Prop := s.looking = true → s.grabRx.hasChanged = true

/-- **A step is answered by at most one step**: by none when `has_changed` says yes, and otherwise
by one of the same kind. -/
theorem exists_run_of_move {s s' : GrabLoop ε} {i : Input ε} {os : List Deed} (hlooks : s.Looks)
    (hmove : Move s i s' os) :
    (∃ js, run CaptureLoop.step s.coarse js = some s'.coarse) ∧ s'.Looks := by
  obtain ⟨point, looking, grabbed, grabRx⟩ := s
  cases hmove with
  | send on =>
    refine ⟨⟨[.request on], ?_⟩, fun _ ↦ grabRx.hasChanged_send on⟩
    rw [run_singleton]
    simp only [coarse, WatchChannel.receiver, WatchChannel.hasChanged_send]
    cases point <;> rfl
  | testShutdown raised hpoint =>
    obtain rfl : point = .top := hpoint
    exact ⟨⟨[.testShutdown raised], rfl⟩, hlooks⟩
  | changed hpoint hlooking hchanged => exact ⟨⟨[], rfl⟩, fun _ ↦ hchanged⟩
  | unchanged closed hpoint hlooking hchanged =>
    obtain rfl : point = .grabTest := hpoint
    refine ⟨⟨[.testGrab closed], ?_⟩, hlooks⟩
    rw [run_singleton]
    exact if_neg (Bool.eq_false_iff.1 hchanged)
  | borrowAndUpdate hpoint hlooking =>
    obtain rfl : point = .grabTest := hpoint
    refine ⟨⟨[.testGrab false], ?_⟩, nofun⟩
    have hchanged : grabRx.hasChanged = true := hlooks hlooking
    rw [run_singleton]
    simp only [coarse, WatchChannel.receiver, WatchChannel.hasChanged_update]
    exact if_pos hchanged
  | call on ok hpoint =>
    obtain rfl : point = .calling on := hpoint
    exact ⟨⟨[.call ok], rfl⟩, hlooks⟩
  | event event hpoint =>
    obtain rfl : point = .reading := hpoint
    exact ⟨⟨[.nextEvent (some event)], rfl⟩, hlooks⟩
  | failed hpoint =>
    obtain rfl : point = .reading := hpoint
    exact ⟨⟨[.nextEvent none], rfl⟩, hlooks⟩
  | sent event ok hpoint =>
    obtain rfl : point = .sending event := hpoint
    exact ⟨⟨[.sent ok], rfl⟩, hlooks⟩

/-- What has been reached is reached by `CaptureLoop` as well. -/
def Answered (s : GrabLoop ε) : Prop :=
  (∃ js, run CaptureLoop.step CaptureLoop.start js = some s.coarse) ∧ s.Looks

/-- **Every run of the loop is one of `CaptureLoop`.** -/
theorem captureLoop_of_run {is : List (Input ε)} {s : GrabLoop ε} (hs : s ∈ run step start is) :
    ∃ js, run CaptureLoop.step CaptureLoop.start js = some s.coarse := by
  have hstart : (start : GrabLoop ε).Answered := ⟨⟨[], rfl⟩, nofun⟩
  have hinv : Throughout step Answered (start : GrabLoop ε) is := by
    refine throughout_of_invariant ?_ hstart is
    rintro t i ⟨⟨js, hjs⟩, hlooks⟩ t' ht'
    obtain ⟨⟨ks, hks⟩, hlooks'⟩ := exists_run_of_move hlooks (move_of_step ht')
    refine ⟨⟨js ++ ks, ?_⟩, hlooks'⟩
    rw [run_append, hjs, Option.bind_some, hks]
  exact (hinv.last hs).1

/-! ### The bookkeeping -/

/-- The calls that succeeded. -/
def successes (log : List Deed) : List Bool :=
  log.filterMap fun deed ↦
    match deed with
    | .called on true => some on
    | _ => none

/-- The values that were taken from the channel. -/
def observed (log : List Deed) : List Bool :=
  log.filterMap fun deed ↦
    match deed with
    | .observed value => some value
    | _ => none

/-- What the last successful call was, and not grabbed before the first. -/
def lastSuccess (log : List Deed) : Bool := (successes log).getLastD false

/-- The last request that was observed; there is none at first, and nothing is grabbed. -/
def lastObserved (log : List Deed) : Bool := (observed log).getLastD false

/-- Every call so far has succeeded. -/
def AllOk (log : List Deed) : Prop := ∀ on ok, .called on ok ∈ log → ok = true

/-- The books, whatever fails. -/
structure Books (sl : GrabLoop ε × List Deed) : Prop where
  /-- The successful calls are a grab, an ungrab, a grab, and so on. -/
  alternate : List.IsChain (· ≠ ·) (false :: successes sl.2)
  grabbed : sl.1.grabbed = lastSuccess sl.2
  /-- No call repeats what the last successful one did. -/
  notRepeated : ∀ before on ok after, sl.2 = before ++ .called on ok :: after →
    lastSuccess before ≠ on
  calling : ∀ on, sl.1.point = .calling on → lastSuccess sl.2 ≠ on

/-- The bookkeeping is exact. -/
structure Exact (sl : GrabLoop ε × List Deed) : Prop extends Books sl where
  /-- Without failures, the loop waits for an event with the last value observed put through. -/
  follows : AllOk sl.2 → sl.1.point = .reading → sl.1.grabbed = lastObserved sl.2

section Log

variable {log : List Deed} {on ok value : Bool}

/-- The calls that succeed come one after the other. -/
theorem successes_append (log log' : List Deed) :
    successes (log ++ log') = successes log ++ successes log' :=
  List.filterMap_append

/-- Observing a request is no call. -/
theorem lastSuccess_concat_observed :
    lastSuccess (log ++ [.observed value]) = lastSuccess log := by
  rw [lastSuccess, successes_append]
  exact congrArg (List.getLastD · false) (List.append_nil _)

/-- A call that succeeds is the last one that has. -/
theorem lastSuccess_concat_called :
    lastSuccess (log ++ [.called on ok]) = if ok then on else lastSuccess log := by
  rw [lastSuccess, successes_append]
  cases ok with
  | true => exact List.getLastD_concat
  | false => exact congrArg (List.getLastD · false) (List.append_nil _)

/-- The request that is observed is the last one observed. -/
theorem lastObserved_concat_observed : lastObserved (log ++ [.observed value]) = value := by
  rw [lastObserved, observed, List.filterMap_append]
  exact List.getLastD_concat

/-- A call observes nothing. -/
theorem lastObserved_concat_called :
    lastObserved (log ++ [.called on ok]) = lastObserved log := by
  rw [lastObserved, observed, List.filterMap_append]
  exact congrArg (List.getLastD · false) (List.append_nil _)

/-- If all calls have succeeded, so have the earlier ones. -/
theorem AllOk.of_append {log' : List Deed} (h : AllOk (log ++ log')) : AllOk log :=
  fun on ok hmem ↦ h on ok (List.mem_append_left _ hmem)

/-- A successful call that does not repeat the last one goes on with the alternation. -/
theorem alternate_concat_called (h : List.IsChain (· ≠ ·) (false :: successes log))
    (hon : lastSuccess log ≠ on) :
    List.IsChain (· ≠ ·) (false :: successes (log ++ [.called on ok])) := by
  rw [successes_append]
  cases ok with
  | false => exact (List.append_nil (successes log)).symm ▸ h
  | true =>
    refine List.isChain_append.2 ⟨h, List.isChain_singleton on, fun last hlast next hnext ↦ ?_⟩
    obtain rfl : on = next := Option.some.inj hnext
    rw [List.getLast?_cons] at hlast
    obtain rfl := Option.some.inj hlast
    rwa [← List.getLastD_eq_getLast?]

end Log

/-- What the loop does about a value: a call that the variable does not have yet, or nothing. -/
theorem answer_eq_calling_iff {grabbed value on : Bool} :
    (CaptureLoop.answer grabbed value : CapturePoint ε) = .calling on ↔
      on = value ∧ grabbed ≠ value := by
  cases grabbed <;> cases value <;> cases on <;> simp [CaptureLoop.answer]

/-- The invariant. Without failures the last value observed is what is being called for, or has been
put through. -/
structure Inv (sl : GrabLoop ε × List Deed) : Prop extends Books sl where
  called : AllOk sl.2 → ∀ on, sl.1.point = .calling on → lastObserved sl.2 = on
  follows : AllOk sl.2 → (∀ on, sl.1.point ≠ .calling on) → lastObserved sl.2 = sl.1.grabbed

/-- At the start nothing was asked for. -/
theorem inv_start : Inv ((start : GrabLoop ε), []) where
  alternate := List.isChain_singleton false
  grabbed := rfl
  notRepeated before _ _ _ h := by cases before <;> cases h
  calling := nofun
  called _ := nofun
  follows _ _ := rfl

/-- The invariant says what the devices have been told. -/
theorem Inv.exact {sl : GrabLoop ε × List Deed} (h : Inv sl) : Exact sl where
  toBooks := h.toBooks
  follows hok hpoint := (h.follows hok fun on hon ↦ by rw [hpoint] at hon; cases hon).symm

/-- A step that neither calls nor looks keeps the books. -/
theorem Inv.of_quiet {s s' : GrabLoop ε} {log : List Deed} (h : Inv (s, log))
    (hgrabbed : s'.grabbed = s.grabbed)
    (hcalling : ∀ on, s'.point = .calling on ↔ s.point = .calling on) : Inv (s', log ++ []) := by
  rw [List.append_nil]
  exact
    { alternate := h.alternate
      grabbed := hgrabbed.trans h.grabbed
      notRepeated := h.notRepeated
      calling := fun on hon ↦ h.calling on ((hcalling on).1 hon)
      called := fun hok on hon ↦ h.called hok on ((hcalling on).1 hon)
      follows := fun hok hnot ↦
        (h.follows hok fun on hon ↦ hnot on ((hcalling on).2 hon)).trans hgrabbed.symm }

/-- Taking a value keeps the books: a call is asked for where the variable differs. -/
theorem Inv.of_borrowAndUpdate {s s' : GrabLoop ε} {log : List Deed} {value : Bool}
    (h : Inv (s, log)) (hgrabbed : s'.grabbed = s.grabbed)
    (hpoint : s'.point = CaptureLoop.answer s.grabbed value) :
    Inv (s', log ++ [.observed value]) where
  alternate := by
    rw [successes_append]
    exact (List.append_nil (successes log)).symm ▸ h.alternate
  grabbed := hgrabbed.trans (h.grabbed.trans lastSuccess_concat_observed.symm)
  notRepeated before on ok after hlog := by
    rcases List.concat_eq_append_cons_iff.1 hlog with ⟨-, heq, -⟩ | ⟨rest, -, hrest⟩
    · cases heq
    · exact h.notRepeated before on ok rest hrest
  calling on hon := by
    obtain ⟨rfl, hne⟩ := answer_eq_calling_iff.1 (hpoint.symm.trans hon)
    rw [lastSuccess_concat_observed]
    exact fun heq ↦ hne (h.grabbed.trans heq)
  called _ on hon := by
    obtain ⟨rfl, -⟩ := answer_eq_calling_iff.1 (hpoint.symm.trans hon)
    exact lastObserved_concat_observed
  follows _ hnot := by
    rw [lastObserved_concat_observed, hgrabbed]
    by_contra hne
    exact hnot value (hpoint.trans (answer_eq_calling_iff.2 ⟨rfl, Ne.symm hne⟩))

/-- A call that returns keeps the books: one that succeeded changed the variable with the devices,
and one that failed changed neither. -/
theorem Inv.of_call {s s' : GrabLoop ε} {log : List Deed} {on ok : Bool} (h : Inv (s, log))
    (hcalling : s.point = .calling on) (hpoint : s'.point = .reading)
    (hgrabbed : s'.grabbed = if ok then on else s.grabbed) :
    Inv (s', log ++ [.called on ok]) where
  alternate := alternate_concat_called h.alternate (h.calling on hcalling)
  grabbed := by
    have hlast : s.grabbed = lastSuccess log := h.grabbed
    rw [hgrabbed, hlast, lastSuccess_concat_called]
  notRepeated before on' ok' after hlog := by
    rcases List.concat_eq_append_cons_iff.1 hlog with ⟨rfl, heq, -⟩ | ⟨rest, -, hrest⟩
    · obtain ⟨rfl, -⟩ := Deed.called.inj heq
      exact h.calling _ hcalling
    · exact h.notRepeated before on' ok' rest hrest
  calling on' hon := by
    rw [hpoint] at hon
    cases hon
  called _ on' hon := by
    rw [hpoint] at hon
    cases hon
  follows hok _ := by
    obtain rfl : ok = true := hok on ok (List.mem_append_right _ (List.mem_singleton_self _))
    rw [lastObserved_concat_called, hgrabbed]
    exact h.called hok.of_append on hcalling

/-- **Every step keeps the books.** -/
theorem inv_step {s s' : GrabLoop ε} {log os : List Deed} {i : Input ε} (h : Inv (s, log))
    (hmove : Move s i s' os) : Inv (s', log ++ os) := by
  cases hmove with
  | send on => exact h.of_quiet rfl fun _ ↦ Iff.rfl
  | testShutdown raised hpoint =>
    refine h.of_quiet rfl fun on ↦ ?_
    cases raised <;> simp [hpoint]
  | changed hpoint hlooking hchanged => exact h.of_quiet rfl fun _ ↦ Iff.rfl
  | unchanged closed hpoint hlooking hchanged => exact h.of_quiet rfl fun on ↦ by simp [hpoint]
  | borrowAndUpdate hpoint hlooking => exact h.of_borrowAndUpdate rfl rfl
  | call on ok hpoint => exact h.of_call hpoint rfl rfl
  | event event hpoint => exact h.of_quiet rfl fun on ↦ by simp [hpoint]
  | failed hpoint => exact h.of_quiet rfl fun on ↦ by simp [hpoint]
  | sent event ok hpoint =>
    refine h.of_quiet rfl fun on ↦ ?_
    cases ok <;> simp [hpoint]

/-- **The bookkeeping is exact in every state of every run**, whatever is sent in between and
whatever fails. -/
theorem exact_recorded (is : List (Input ε)) :
    Throughout recorded Exact ((start : GrabLoop ε), []) is := by
  have hinv : Throughout recorded Inv ((start : GrabLoop ε), []) is := by
    refine throughout_of_invariant ?_ inv_start is
    rintro ⟨s, log⟩ i h ⟨s', log'⟩ hs'
    obtain ⟨hs', rfl⟩ := mem_withHistory.1 hs'
    exact inv_step h (move_of_step hs')
  exact hinv.mono fun _ ↦ Inv.exact

end GrabLoop

end Kmflow
