import Kmflow.Daemon.Capture
import Kmflow.Foundation.Slots

/-!
# The shutdown watchers

Every session has a capture thread and, when its capture has an eventfd, a watcher thread that waits
for the shutdown of the daemon and then writes to that eventfd, so that `next_event` returns. The
watcher is given the number of the descriptor. It keeps the number until the daemon shuts down,
while `EvdevCapture::drop` closes the descriptor when the session is over, and the number is free
for whatever the process opens next.

A state has the table of open descriptors, the flag, and every session there has been; a run is any
interleaving of their threads with the shutdown and with what the rest of the process opens and
closes. The look at the flag and the write are two steps, and so are the two calls of `close`.

`owned_iff` is exact: all writes of a run go to the eventfd they are meant for exactly when each is
made before the capture of its session closes it. A session that ended before the shutdown has a
watcher for which it is too late (`strayRun`). If the thread waited for its watcher before it drops
the capture, no watcher could be late (`inTime_of_joined`).
-/

namespace Kmflow

open Transition

/-- What an open descriptor is. -/
inductive Descriptor where
  /-- The eventfd of the capture of a session. -/
  | eventfd (session : ℕ)
  /-- The epoll instance of the capture of a session. -/
  | epoll (session : ℕ)
  /-- Whatever else the process has open: sockets, files, the input devices. -/
  | other
  deriving DecidableEq

theorem Descriptor.eventfd_ne_epoll (j k : ℕ) : Descriptor.eventfd j ≠ .epoll k := nofun

/-- How far the capture thread of a session has come. -/
inductive CaptureStage (ε : Type) where
  /-- In `EvdevCapture::new`, between `epoll_create1` and `eventfd`. -/
  | opening (epollFd : ℕ)
  /-- `eventfd` has failed, and `new` has returned without closing the epoll instance. -/
  | failed (epollFd : ℕ)
  /-- The capture is there, its watcher is not. -/
  | created (epollFd shutdownFd : ℕ)
  | capturing (epollFd shutdownFd : ℕ) (loop : CaptureLoop ε)
  /-- In `EvdevCapture::drop`, between the two calls of `close`. -/
  | dropping (epollFd : ℕ)
  | returned

/-- Where the thread is that waits for the shutdown. -/
inductive WatcherStage where
  | notSpawned
  /-- Before a look at the flag; the number came with the thread. -/
  | looking (fd : ℕ)
  /-- The flag was seen raised. -/
  | writing (fd : ℕ)
  | finished

namespace CaptureStage

variable {ε : Type}

/-- The capture's own `shutdown_fd`. -/
def shutdownFd? : CaptureStage ε → Option ℕ
  | .created _ shutdownFd | .capturing _ shutdownFd _ => some shutdownFd
  | _ => none

/-- The descriptor of the epoll instance, while the capture has it. -/
def epollFd? : CaptureStage ε → Option ℕ
  | .opening epollFd | .failed epollFd | .created epollFd _ | .capturing epollFd _ _
  | .dropping epollFd => some epollFd
  | .returned => none

/-- A watcher with this number can be there. -/
def Watches (fd : ℕ) : CaptureStage ε → Prop
  | .capturing _ shutdownFd _ => shutdownFd = fd
  | .dropping _ | .returned => True
  | _ => False

/-- The thread is past `spawn` and has not begun to drop the capture. -/
def isCapturing : CaptureStage ε → Bool
  | .capturing _ _ _ => true
  | _ => false

/-- The eventfd has been closed. -/
def isDropped : CaptureStage ε → Bool
  | .dropping _ | .returned => true
  | _ => false

/-- A capture that is dropped does not capture. -/
theorem isCapturing_eq_false_of_isDropped {capture : CaptureStage ε}
    (h : capture.isDropped = true) : capture.isCapturing = false := by
  cases capture with
  | capturing => cases h
  | opening | failed | created | dropping | returned => rfl

end CaptureStage

namespace WatcherStage

/-- The number a watcher is going to write to. -/
def fd? : WatcherStage → Option ℕ
  | .looking fd | .writing fd => some fd
  | _ => none

end WatcherStage

/-- The two threads of a session. -/
structure SessionThreads (ε : Type) where
  capture : CaptureStage ε
  watcher : WatcherStage
  watches : ∀ fd ∈ watcher.fd?, capture.Watches fd

/-- A write of a watcher, and what the number stood for. -/
structure WatcherWrite where
  session : ℕ
  found : Option Descriptor
  deriving DecidableEq

/-- The process: its descriptors, and the threads of its sessions. -/
structure Watchers (ε : Type) where
  table : ℕ → Option Descriptor
  /-- The shutdown signal has been sent. -/
  raised : Bool
  sessions : List (SessionThreads ε)
  writes : List WatcherWrite

namespace Watchers

variable {ε : Type}

/-- The labels of the threads and of the rest of the process. -/
inductive Label (ε : Type) where
  | shutdown
  /-- The rest of the process is given a descriptor. -/
  | opens (fd : ℕ)
  /-- The rest of the process closes one of its own. -/
  | closes (fd : ℕ)
  /-- The capture thread of a new session enters `EvdevCapture::new`, up to `epoll_create1`. -/
  | epollCreate (fd : ℕ)
  /-- `eventfd` returns, with an error when `none`. -/
  | eventfd (session : ℕ) (result : Option ℕ)
  | spawn (session : ℕ)
  | captureLoop (session : ℕ) (i : CaptureLoop.Input ε)
  | closeShutdown (session : ℕ)
  | closeEpoll (session : ℕ)
  | look (session : ℕ)
  | write (session : ℕ)

/-- No session has been started yet. -/
def start : Watchers ε where
  table := fun _ ↦ none
  raised := false
  sessions := []
  writes := []

/-- The thread at its shutdown test sees the flag as it is. -/
def hears (raised : Bool) : CaptureLoop.Input ε → Bool
  | .testShutdown seen => seen == raised
  | _ => true

/-- What a number stands for changes. -/
def assign (s : Watchers ε) (fd : ℕ) (what : Option Descriptor) : Watchers ε :=
  { s with table := Function.update s.table fd what }

/-- The threads of a session change. -/
def set (s : Watchers ε) (k : ℕ) (t : SessionThreads ε) : Watchers ε :=
  { s with sessions := s.sessions.set k t }

/-- One step of the process; `none` when the label is not enabled. -/
def step (s : Watchers ε) : Label ε → Option (Watchers ε)
  | .shutdown => some { s with raised := true }
  | .opens fd => if s.table fd = none then some (s.assign fd (some .other)) else none
  | .closes fd => if s.table fd = some .other then some (s.assign fd none) else none
  | .epollCreate fd =>
    if s.table fd = none then
      some { s.assign fd (some (.epoll s.sessions.length)) with
        sessions := s.sessions ++ [⟨.opening fd, .notSpawned, nofun⟩] }
    else none
  | .eventfd k result =>
    match s.sessions[k]? with
    | some ⟨.opening epollFd, .notSpawned, _⟩ =>
      match result with
      | some fd =>
        if s.table fd = none then
          some ((s.assign fd (some (.eventfd k))).set k ⟨.created epollFd fd, .notSpawned, nofun⟩)
        else none
      | none => some (s.set k ⟨.failed epollFd, .notSpawned, nofun⟩)
    | _ => none
  | .spawn k =>
    match s.sessions[k]? with
    | some ⟨.created epollFd shutdownFd, .notSpawned, _⟩ =>
      some (s.set k
        ⟨.capturing epollFd shutdownFd .start, .looking shutdownFd, fun _ h ↦ Option.some.inj h⟩)
    | _ => none
  | .captureLoop k i =>
    match s.sessions[k]? with
    | some ⟨.capturing epollFd shutdownFd loop, watcher, watches⟩ =>
      if hears s.raised i then
        (loop.step i).map fun loop' ↦
          s.set k ⟨.capturing epollFd shutdownFd loop', watcher, watches⟩
      else none
    | _ => none
  | .closeShutdown k =>
    match s.sessions[k]? with
    | some ⟨.capturing epollFd shutdownFd loop, watcher, _⟩ =>
      if loop.hasEnded then
        some ((s.assign shutdownFd none).set k ⟨.dropping epollFd, watcher, fun _ _ ↦ trivial⟩)
      else none
    | _ => none
  | .closeEpoll k =>
    match s.sessions[k]? with
    | some ⟨.dropping epollFd, watcher, _⟩ =>
      some ((s.assign epollFd none).set k ⟨.returned, watcher, fun _ _ ↦ trivial⟩)
    | _ => none
  | .look k =>
    match s.sessions[k]? with
    | some ⟨capture, .looking fd, watches⟩ =>
      -- it sleeps for 50 ms and looks again
      if s.raised then some (s.set k ⟨capture, .writing fd, watches⟩) else some s
    | _ => none
  | .write k =>
    match s.sessions[k]? with
    | some ⟨capture, .writing fd, _⟩ =>
      some { s.set k ⟨capture, .finished, nofun⟩ with writes := s.writes ++ [⟨k, s.table fd⟩] }
    | _ => none

/-- **Everything a step does.** -/
inductive Move (s : Watchers ε) : Label ε → Watchers ε → Prop
  | shutdown : Move s .shutdown { s with raised := true }
  | opens (fd : ℕ) (hfree : s.table fd = none) : Move s (.opens fd) (s.assign fd (some .other))
  | closes (fd : ℕ) (hother : s.table fd = some .other) : Move s (.closes fd) (s.assign fd none)
  | epollCreate (fd : ℕ) (hfree : s.table fd = none) :
    Move s (.epollCreate fd)
      { s.assign fd (some (.epoll s.sessions.length)) with
        sessions := s.sessions ++ [⟨.opening fd, .notSpawned, nofun⟩] }
  | eventfd (k epollFd fd : ℕ) (watches)
      (ht : s.sessions[k]? = some ⟨.opening epollFd, .notSpawned, watches⟩)
      (hfree : s.table fd = none) :
    Move s (.eventfd k (some fd))
      ((s.assign fd (some (.eventfd k))).set k ⟨.created epollFd fd, .notSpawned, nofun⟩)
  | eventfdFailed (k epollFd : ℕ) (watches)
      (ht : s.sessions[k]? = some ⟨.opening epollFd, .notSpawned, watches⟩) :
    Move s (.eventfd k none) (s.set k ⟨.failed epollFd, .notSpawned, nofun⟩)
  | spawn (k epollFd shutdownFd : ℕ) (watches)
      (ht : s.sessions[k]? = some ⟨.created epollFd shutdownFd, .notSpawned, watches⟩) :
    Move s (.spawn k)
      (s.set k
        ⟨.capturing epollFd shutdownFd .start, .looking shutdownFd, fun _ h ↦ Option.some.inj h⟩)
  | captureLoop (k epollFd shutdownFd : ℕ) (loop loop' : CaptureLoop ε) (watcher : WatcherStage)
      (watches) (i : CaptureLoop.Input ε)
      (ht : s.sessions[k]? = some ⟨.capturing epollFd shutdownFd loop, watcher, watches⟩)
      (hhears : hears s.raised i = true) (hloop : loop' ∈ loop.step i) :
    Move s (.captureLoop k i) (s.set k ⟨.capturing epollFd shutdownFd loop', watcher, watches⟩)
  | closeShutdown (k epollFd shutdownFd : ℕ) (loop : CaptureLoop ε) (watcher : WatcherStage)
      (watches)
      (ht : s.sessions[k]? = some ⟨.capturing epollFd shutdownFd loop, watcher, watches⟩)
      (hended : loop.hasEnded = true) :
    Move s (.closeShutdown k)
      ((s.assign shutdownFd none).set k ⟨.dropping epollFd, watcher, fun _ _ ↦ trivial⟩)
  | closeEpoll (k epollFd : ℕ) (watcher : WatcherStage) (watches)
      (ht : s.sessions[k]? = some ⟨.dropping epollFd, watcher, watches⟩) :
    Move s (.closeEpoll k)
      ((s.assign epollFd none).set k ⟨.returned, watcher, fun _ _ ↦ trivial⟩)
  | look (k fd : ℕ) (capture : CaptureStage ε) (watches)
      (ht : s.sessions[k]? = some ⟨capture, .looking fd, watches⟩) (hraised : s.raised = true) :
    Move s (.look k) (s.set k ⟨capture, .writing fd, watches⟩)
  | lookAgain (k fd : ℕ) (capture : CaptureStage ε) (watches)
      (ht : s.sessions[k]? = some ⟨capture, .looking fd, watches⟩) (hraised : s.raised = false) :
    Move s (.look k) s
  | write (k fd : ℕ) (capture : CaptureStage ε) (watches)
      (ht : s.sessions[k]? = some ⟨capture, .writing fd, watches⟩) :
    Move s (.write k)
      { s.set k ⟨capture, .finished, nofun⟩ with writes := s.writes ++ [⟨k, s.table fd⟩] }

/-- **A step is one of the moves.** -/
theorem move_of_step {s s' : Watchers ε} {l : Label ε} (hs' : s' ∈ step s l) : Move s l s' := by
  cases l with
  | shutdown =>
    obtain rfl := Option.some.inj hs'
    exact .shutdown
  | opens fd =>
    simp only [step] at hs'
    split_ifs at hs' with hfree
    · obtain rfl := Option.some.inj hs'
      exact .opens fd hfree
    · cases hs'
  | closes fd =>
    simp only [step] at hs'
    split_ifs at hs' with hother
    · obtain rfl := Option.some.inj hs'
      exact .closes fd hother
    · cases hs'
  | epollCreate fd =>
    simp only [step] at hs'
    split_ifs at hs' with hfree
    · obtain rfl := Option.some.inj hs'
      exact .epollCreate fd hfree
    · cases hs'
  | eventfd k result =>
    simp only [step] at hs'
    split at hs'
    case h_1 epollFd watches ht =>
      cases result with
      | some fd =>
        simp only at hs'
        split_ifs at hs' with hfree
        · obtain rfl := Option.some.inj hs'
          exact .eventfd k epollFd fd watches ht hfree
        · cases hs'
      | none =>
        obtain rfl := Option.some.inj hs'
        exact .eventfdFailed k epollFd watches ht
    case h_2 => cases hs'
  | spawn k =>
    simp only [step] at hs'
    split at hs'
    case h_1 epollFd shutdownFd watches ht =>
      obtain rfl := Option.some.inj hs'
      exact .spawn k epollFd shutdownFd watches ht
    case h_2 => cases hs'
  | captureLoop k i =>
    simp only [step] at hs'
    split at hs'
    case h_1 epollFd shutdownFd loop watcher watches ht =>
      split_ifs at hs' with hhears
      · obtain ⟨loop', hloop, rfl⟩ := Option.map_eq_some_iff.1 hs'
        exact .captureLoop k epollFd shutdownFd loop loop' watcher watches i ht hhears hloop
      · cases hs'
    case h_2 => cases hs'
  | closeShutdown k =>
    simp only [step] at hs'
    split at hs'
    case h_1 epollFd shutdownFd loop watcher watches ht =>
      split_ifs at hs' with hended
      · obtain rfl := Option.some.inj hs'
        exact .closeShutdown k epollFd shutdownFd loop watcher watches ht hended
      · cases hs'
    case h_2 => cases hs'
  | closeEpoll k =>
    simp only [step] at hs'
    split at hs'
    case h_1 epollFd watcher watches ht =>
      obtain rfl := Option.some.inj hs'
      exact .closeEpoll k epollFd watcher watches ht
    case h_2 => cases hs'
  | look k =>
    simp only [step] at hs'
    split at hs'
    case h_1 capture fd watches ht =>
      split_ifs at hs' with hraised
      · obtain rfl := Option.some.inj hs'
        exact .look k fd capture watches ht hraised
      · obtain rfl := Option.some.inj hs'
        exact .lookAgain k fd capture watches ht (eq_false_of_ne_true hraised)
    case h_2 => cases hs'
  | write k =>
    simp only [step] at hs'
    split at hs'
    case h_1 capture fd watches ht =>
      obtain rfl := Option.some.inj hs'
      exact .write k fd capture watches ht
    case h_2 => cases hs'

/-! ### The numbers of the captures -/

/-- The number of a capture's descriptor, as the capture has it. -/
def numberOf (sessions : List (SessionThreads ε)) : Descriptor → Option ℕ
  | .eventfd k => sessions[k]?.bind fun t ↦ t.capture.shutdownFd?
  | .epoll k => sessions[k]?.bind fun t ↦ t.capture.epollFd?
  | .other => none

section Number

variable {sessions : List (SessionThreads ε)} {k : ℕ} {t t' : SessionThreads ε}

/-- The numbers after a session has gone on. -/
theorem numberOf_set (ht : sessions[k]? = some t) :
    numberOf (sessions.set k t') =
      Function.update (Function.update (numberOf sessions) (.eventfd k) t'.capture.shutdownFd?)
        (.epoll k) t'.capture.epollFd? := by
  obtain ⟨hk, -⟩ := List.getElem?_eq_some_iff.1 ht
  funext d
  cases d with
  | eventfd j =>
    rw [Function.update_of_ne (Descriptor.eventfd_ne_epoll j k)]
    rcases eq_or_ne j k with rfl | hj
    · simp [numberOf, List.getElem?_set_self hk]
    · rw [Function.update_of_ne fun heq ↦ hj (Descriptor.eventfd.inj heq)]
      simp only [numberOf, List.getElem?_set_ne hj.symm]
  | epoll j =>
    rcases eq_or_ne j k with rfl | hj
    · simp [numberOf, List.getElem?_set_self hk]
    · rw [Function.update_of_ne fun heq ↦ hj (Descriptor.epoll.inj heq),
        Function.update_of_ne (Descriptor.eventfd_ne_epoll k j).symm]
      simp only [numberOf, List.getElem?_set_ne hj.symm]
  | other => rfl

/-- The number of a session's eventfd. -/
theorem numberOf_eventfd (ht : sessions[k]? = some t) :
    numberOf sessions (.eventfd k) = t.capture.shutdownFd? := by
  rw [numberOf, ht, Option.bind_some]

/-- The number of its epoll instance. -/
theorem numberOf_epoll (ht : sessions[k]? = some t) :
    numberOf sessions (.epoll k) = t.capture.epollFd? := by
  rw [numberOf, ht, Option.bind_some]

/-- A step that leaves the epoll instance alone. -/
theorem numberOf_set_eventfd (ht : sessions[k]? = some t)
    (hepoll : t'.capture.epollFd? = t.capture.epollFd?) :
    numberOf (sessions.set k t') =
      Function.update (numberOf sessions) (.eventfd k) t'.capture.shutdownFd? := by
  rw [numberOf_set ht, hepoll, ← numberOf_epoll ht,
    Function.update_comm (Descriptor.eventfd_ne_epoll k k), Function.update_eq_self]

/-- A step that leaves the eventfd alone. -/
theorem numberOf_set_epoll (ht : sessions[k]? = some t)
    (hshutdown : t'.capture.shutdownFd? = t.capture.shutdownFd?) :
    numberOf (sessions.set k t') =
      Function.update (numberOf sessions) (.epoll k) t'.capture.epollFd? := by
  rw [numberOf_set ht, hshutdown, ← numberOf_eventfd ht, Function.update_eq_self]

/-- A step that opens and closes nothing. -/
theorem numberOf_set_same (ht : sessions[k]? = some t)
    (hepoll : t'.capture.epollFd? = t.capture.epollFd?)
    (hshutdown : t'.capture.shutdownFd? = t.capture.shutdownFd?) :
    numberOf (sessions.set k t') = numberOf sessions := by
  rw [numberOf_set_eventfd ht hepoll, hshutdown, ← numberOf_eventfd ht, Function.update_eq_self]

/-- The older sessions are where they were. -/
theorem getElem?_concat_of_ne {j : ℕ} (hj : j ≠ sessions.length) :
    (sessions ++ [t])[j]? = sessions[j]? := by
  rcases Nat.lt_or_gt_of_ne hj with h | h
  · exact List.getElem?_append_left h
  · rw [List.getElem?_eq_none h.le, List.getElem?_eq_none]
    simpa using Nat.succ_le_of_lt h

/-- The numbers after a session has begun. -/
theorem numberOf_append_opening (fd : ℕ) (watches) :
    numberOf (sessions ++ [⟨.opening fd, .notSpawned, watches⟩]) =
      Function.update (numberOf sessions) (.epoll sessions.length) (some fd) := by
  funext d
  cases d with
  | eventfd j =>
    rw [Function.update_of_ne (Descriptor.eventfd_ne_epoll j _), numberOf, numberOf]
    rcases eq_or_ne j sessions.length with rfl | hj
    · rw [List.getElem?_concat_length, List.getElem?_eq_none (Nat.le_refl _)]
      rfl
    · rw [getElem?_concat_of_ne hj]
  | epoll j =>
    rcases eq_or_ne j sessions.length with rfl | hj
    · rw [Function.update_self, numberOf, List.getElem?_concat_length]
      rfl
    · rw [Function.update_of_ne fun heq ↦ hj (Descriptor.epoll.inj heq), numberOf, numberOf,
        getElem?_concat_of_ne hj]
  | other => rfl

end Number

/-! ### Late writes -/

/-- The open descriptors of the captures are in the table, each under the number its capture has. -/
def Registered (s : Watchers ε) : Prop := Backed (· ≠ .other) s.table (numberOf s.sessions)

/-- At the start no descriptor is in use. -/
theorem registered_start : (start : Watchers ε).Registered := by
  intro fd d hd
  cases d <;> exact iff_of_false nofun nofun

/-- A step that opens and closes nothing. -/
theorem Registered.set {s : Watchers ε} {k : ℕ} {t t' : SessionThreads ε} (h : s.Registered)
    (ht : s.sessions[k]? = some t) (hepoll : t'.capture.epollFd? = t.capture.epollFd?)
    (hshutdown : t'.capture.shutdownFd? = t.capture.shutdownFd?) : (s.set k t').Registered := by
  change Backed _ s.table (numberOf (s.sessions.set k t'))
  rw [numberOf_set_same ht hepoll hshutdown]
  exact h

/-- **Every step keeps the captures' descriptors in the table**, also a step that comes too late. -/
theorem registered_step {s s' : Watchers ε} {l : Label ε} (h : s.Registered) (hmove : Move s l s') :
    s'.Registered := by
  cases hmove with
  | shutdown | lookAgain => exact h
  | opens fd hfree => exact h.update_other hfree nofun (by simp)
  | closes fd hother => exact h.update_other hother (by simp) nofun
  | epollCreate fd hfree =>
    have hnone : numberOf s.sessions (.epoll s.sessions.length) = none := by
      rw [numberOf, List.getElem?_eq_none (Nat.le_refl _), Option.bind_none]
    rw [Registered, numberOf_append_opening]
    exact h.acquire hfree hnone
  | eventfd k epollFd fd watches ht hfree =>
    change Backed _ _ (numberOf (s.sessions.set k _))
    rw [numberOf_set_eventfd ht]
    · exact h.acquire hfree (numberOf_eventfd ht)
    · rfl
  | closeShutdown k epollFd shutdownFd loop watcher watches ht hended =>
    change Backed _ _ (numberOf (s.sessions.set k _))
    rw [numberOf_set_eventfd ht]
    · exact h.release nofun (numberOf_eventfd ht)
    · rfl
  | closeEpoll k epollFd watcher watches ht =>
    change Backed _ _ (numberOf (s.sessions.set k _))
    rw [numberOf_set_epoll ht]
    · exact h.release nofun (numberOf_epoll ht)
    · rfl
  | eventfdFailed k epollFd watches ht => exact h.set ht rfl rfl
  | spawn k epollFd shutdownFd watches ht => exact h.set ht rfl rfl
  | captureLoop k epollFd shutdownFd loop loop' watcher watches i ht hhears hloop =>
    exact h.set ht rfl rfl
  | look k fd capture watches ht hraised => exact h.set ht rfl rfl
  | write k fd capture watches ht =>
    have hset : (s.set k ⟨capture, .finished, nofun⟩).Registered := h.set ht rfl rfl
    exact hset

/-- Every write so far went to the eventfd it was meant for. -/
def Owned (s : Watchers ε) : Prop := ∀ w ∈ s.writes, w.found = some (.eventfd w.session)

instance (s : Watchers ε) : Decidable s.Owned := List.decidableBAll _ _

/-- A watcher that writes has the capture of its session still ahead of `drop`. -/
def InTime (s : Watchers ε) : Label ε → Prop
  | .write k => ∀ t ∈ s.sessions[k]?, t.capture.isCapturing = true
  | _ => True

/-- What a watcher about to write finds under its number: the eventfd it is meant for, as long as
the capture has not closed it, and something else, or nothing, from then on. -/
theorem found_iff {s : Watchers ε} {k fd : ℕ} {t : SessionThreads ε} (h : s.Registered)
    (ht : s.sessions[k]? = some t) (hfd : fd ∈ t.watcher.fd?) :
    s.table fd = some (.eventfd k) ↔ t.capture.isCapturing = true := by
  have hwatches : t.capture.Watches fd := t.watches fd hfd
  rw [h fd (.eventfd k) nofun, numberOf_eventfd ht]
  cases hcapture : t.capture with
  | capturing epollFd shutdownFd loop =>
    rw [hcapture] at hwatches
    obtain rfl : shutdownFd = fd := hwatches
    exact iff_of_true rfl rfl
  | dropping | returned => exact iff_of_false nofun nofun
  | opening | failed | created =>
    rw [hcapture] at hwatches
    exact hwatches.elim

/-- **One step**: the writes stay owned exactly when the step is in time. -/
theorem owned_step_iff {s s' : Watchers ε} {l : Label ε} (h : s.Registered) (howned : s.Owned)
    (hmove : Move s l s') : s'.Owned ↔ s.InTime l := by
  cases hmove with
  | write k fd capture watches ht =>
    have hfound := found_iff h ht rfl
    constructor
    · intro howned' t ht'
      obtain rfl := Option.some.inj (ht.symm.trans ht')
      exact hfound.1 (howned' ⟨k, s.table fd⟩ (List.mem_append_right _ (List.mem_singleton_self _)))
    · intro htime w hw
      rcases List.mem_append.1 hw with hw | hw
      · exact howned w hw
      · obtain rfl := List.mem_singleton.1 hw
        exact hfound.2 (htime _ ht)
  | _ => exact iff_of_true howned trivial

/-- **Exactness.** Every write of a run goes to the eventfd it is meant for exactly when every write
is made before the capture of its session closes that eventfd. -/
theorem owned_iff (ls : List (Label ε)) :
    Throughout step Owned (start : Watchers ε) ls ↔
      EachStep step InTime (start : Watchers ε) ls := by
  refine throughout_iff_eachStep (I := fun s : Watchers ε ↦ s.Registered ∧ s.Owned)
    (fun s hs ↦ hs.2) ?_ ?_ ⟨registered_start, nofun⟩ ls
  · rintro s l ⟨h, howned⟩ htime s' hs'
    have hmove : Move s l s' := move_of_step hs'
    exact ⟨registered_step h hmove, (owned_step_iff h howned hmove).2 htime⟩
  · rintro s l ⟨h, howned⟩ hlate s' hs' howned'
    exact hlate ((owned_step_iff h howned (move_of_step hs')).1 howned')

/-- The run that fails. The first session is over when its channel is dropped, the rest of the
process is given the two numbers its capture has closed, and a second session begins. At the
shutdown the watcher of the first writes to what has become of its number. -/
def strayRun : List (Label InputEvent) :=
  [.opens 0, .opens 1, .opens 2, .epollCreate 3, .eventfd 0 (some 4), .spawn 0,
    .captureLoop 0 (.testShutdown false), .captureLoop 0 (.testGrab false),
    .captureLoop 0 (.nextEvent (some (.key 30 .pressed))), .captureLoop 0 (.sent false),
    .closeShutdown 0, .closeEpoll 0, .opens 3, .opens 4,
    .epollCreate 5, .eventfd 1 (some 6), .spawn 1, .shutdown, .look 0, .write 0]

/-- The watcher writes to a descriptor that is no longer its own. -/
theorem not_owned_strayRun : ¬ Throughout step Owned (start : Watchers InputEvent) strayRun := by
  have hwrites : (run step (start : Watchers InputEvent) strayRun).map writes =
      some [⟨0, some .other⟩] := by
    decide +kernel
  obtain ⟨s, hs, hw⟩ := Option.map_eq_some_iff.1 hwrites
  refine not_throughout_of_run hs fun howned ↦ ?_
  rw [Owned, hw] at howned
  exact absurd (howned _ (List.mem_singleton_self _)) nofun

/-! ### Sessions that end before the shutdown -/

/-- The capture of a session has closed its eventfd. -/
def Late (k : ℕ) (s : Watchers ε) : Prop :=
  ∃ t, s.sessions[k]? = some t ∧ t.capture.isDropped = true

section Late

variable {s s' : Watchers ε} {l : Label ε} {j k : ℕ} {t t' : SessionThreads ε}

/-- A session that is late stays late while others go on. -/
theorem Late.set (h : s.Late k) (ht : s.sessions[j]? = some t)
    (hkeep : t.capture.isDropped = true → t'.capture.isDropped = true) : (s.set j t').Late k := by
  obtain ⟨u, hu, hdropped⟩ := h
  obtain ⟨hj, -⟩ := List.getElem?_eq_some_iff.1 ht
  rcases eq_or_ne j k with rfl | hjk
  · obtain rfl := Option.some.inj (ht.symm.trans hu)
    exact ⟨t', List.getElem?_set_self hj, hkeep hdropped⟩
  · exact ⟨u, (List.getElem?_set_ne hjk).trans hu, hdropped⟩

/-- Nothing opens the eventfd of a session again. -/
theorem late_step (h : s.Late k) (hmove : Move s l s') : s'.Late k := by
  cases hmove with
  | shutdown | lookAgain | opens | closes => exact h
  | epollCreate fd hfree =>
    obtain ⟨u, hu, hdropped⟩ := h
    obtain ⟨hk, -⟩ := List.getElem?_eq_some_iff.1 hu
    exact ⟨u, (List.getElem?_append_left hk).trans hu, hdropped⟩
  | eventfd j epollFd fd watches ht hfree => exact h.set (t := ⟨_, _, watches⟩) ht nofun
  | eventfdFailed j epollFd watches ht => exact h.set ht nofun
  | spawn j epollFd shutdownFd watches ht => exact h.set ht nofun
  | captureLoop j epollFd shutdownFd loop loop' watcher watches i ht hhears hloop =>
    exact h.set ht nofun
  | closeShutdown j epollFd shutdownFd loop watcher watches ht hended => exact h.set ht fun _ ↦ rfl
  | closeEpoll j epollFd watcher watches ht => exact h.set ht fun _ ↦ rfl
  | look j fd capture watches ht hraised => exact h.set ht id
  | write j fd capture watches ht => exact h.set ht id

/-- **A session that is over before its watcher writes has the watcher write to something else**,
whenever the shutdown comes and whatever happens in between. -/
theorem not_owned_of_late {ls : List (Label ε)} (h : s.Registered) (hlate : s.Late k)
    (hs' : s' ∈ run step s (ls ++ [.write k])) : ¬ s'.Owned := by
  rw [run_append] at hs'
  obtain ⟨u, hu, hwrite⟩ := Option.bind_eq_some_iff.1 hs'
  have hinv : Throughout step (fun s : Watchers ε ↦ s.Registered ∧ s.Late k) s ls := by
    refine throughout_of_invariant ?_ ⟨h, hlate⟩ ls
    rintro s l ⟨h, hlate⟩ s' hs'
    exact ⟨registered_step h (move_of_step hs'), late_step hlate (move_of_step hs')⟩
  obtain ⟨hu, t, ht, hdropped⟩ := hinv.last hu
  rw [run_singleton] at hwrite
  intro howned
  cases move_of_step hwrite with
  | write k fd capture watches ht' =>
    obtain rfl := Option.some.inj (ht.symm.trans ht')
    have hcapturing : capture.isCapturing = true :=
      (found_iff hu ht rfl).1 (howned _ (List.mem_append_right _ (List.mem_singleton_self _)))
    rw [CaptureStage.isCapturing_eq_false_of_isDropped hdropped] at hcapturing
    cases hcapturing

end Late

/-! ### A capture that waits for its watcher -/

/-- The thread does not drop its capture before the watcher has finished. -/
def Joined (s : Watchers ε) : Label ε → Prop
  | .closeShutdown k => ∀ t ∈ s.sessions[k]?, t.watcher.fd? = none
  | _ => True

/-- Where a watcher has not finished, the capture is there. -/
def Attended (s : Watchers ε) : Prop :=
  ∀ t ∈ s.sessions, t.watcher.fd? ≠ none → t.capture.isCapturing = true

section Joined

variable {s s' : Watchers ε} {l : Label ε} {k : ℕ} {t t' : SessionThreads ε}

/-- A watcher that is attended stays so while its capture does. -/
theorem Attended.set (h : s.Attended) (ht : s.sessions[k]? = some t)
    (hkeep : (t.watcher.fd? ≠ none → t.capture.isCapturing = true) →
      t'.watcher.fd? ≠ none → t'.capture.isCapturing = true) : (s.set k t').Attended := by
  intro u hu
  rcases List.mem_or_eq_of_mem_set hu with hu | rfl
  · exact h u hu
  · exact hkeep (h t (List.mem_of_getElem? ht))

/-- **Joined threads stay attended.** -/
theorem attended_step (h : s.Attended) (hjoined : s.Joined l) (hmove : Move s l s') :
    s'.Attended := by
  cases hmove with
  | shutdown | lookAgain | opens | closes => exact h
  | epollCreate fd hfree =>
    intro u hu
    rcases List.mem_append.1 hu with hu | hu
    · exact h u hu
    · obtain rfl := List.mem_singleton.1 hu
      exact fun hfd ↦ absurd rfl hfd
  | eventfd k epollFd fd watches ht hfree =>
    exact h.set ht fun _ hfd ↦ absurd rfl hfd
  | eventfdFailed k epollFd watches ht => exact h.set ht fun _ hfd ↦ absurd rfl hfd
  | spawn k epollFd shutdownFd watches ht => exact h.set ht fun _ _ ↦ rfl
  | captureLoop k epollFd shutdownFd loop loop' watcher watches i ht hhears hloop =>
    exact h.set ht fun _ _ ↦ rfl
  | closeShutdown k epollFd shutdownFd loop watcher watches ht hended =>
    exact h.set ht fun _ hfd ↦ absurd (hjoined _ ht) hfd
  | closeEpoll k epollFd watcher watches ht => exact h.set ht id
  | look k fd capture watches ht hraised => exact h.set ht fun hattended _ ↦ hattended nofun
  | write k fd capture watches ht => exact h.set ht fun _ hfd ↦ absurd rfl hfd

/-- If every capture waited for its watcher, every watcher would be in time. -/
theorem inTime_of_joined {ls : List (Label ε)}
    (h : EachStep step Joined (start : Watchers ε) ls) :
    EachStep step InTime (start : Watchers ε) ls := by
  have hstart : (start : Watchers ε).Attended := fun _ ht ↦ absurd ht List.not_mem_nil
  refine h.of_invariant ?_ hstart
  intro s l hattended hjoined s' hs'
  have hmove : Move s l s' := move_of_step hs'
  refine ⟨?_, attended_step hattended hjoined hmove⟩
  cases hmove with
  | write k fd capture watches ht =>
    intro t ht'
    obtain rfl := Option.some.inj (ht.symm.trans ht')
    exact hattended _ (List.mem_of_getElem? ht) nofun
  | _ => trivial

end Joined

end Watchers

end Kmflow
