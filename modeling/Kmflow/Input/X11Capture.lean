import Kmflow.Foundation.Dispatch
import Kmflow.Foundation.Transition
import Kmflow.Proto.Types
import Mathlib.Data.Finset.Basic

/-!
# Key events under X11

`X11Capture` hears of a key twice. While the keyboards are not grabbed, a press or release reaches
it as an XI2 raw event on the X connection and is queued on the evdev descriptor of the keyboard as
well; under `EVIOCGRAB` it is queued on the descriptor alone. `next_event` takes key events from the
X connection while `kbd_grabbed` is false and from the descriptors while it is true.

A run interleaves physical events with the calls of the thread that owns the capture. The calls do
not overlap, but physical events fall into the middle of `next_event`, so that one is taken apart
into the reads, the `epoll_wait` and the polls it makes.

Every event is stamped with the time it was made, which is what a report of it is known by. As long
as each grab takes all the keyboards and finds no key event unread on their descriptors, the X queue
and the descriptors feed one `Dispatch`, and nothing is reported twice or from before the grab
(`reportsOnce_of_freshGrabs`), and any other grab can break this (`exists_not_reportsOnce`). Nothing
in the sources empties the descriptors before a grab, so what was typed since the descriptors were
opened is reported once more after the first one (`not_reportsOnce_replayRun`).
-/

namespace Kmflow

open Transition
open scoped List

/-! ### Events from the kernel and from the X server -/

/-- `EV_KEY`. -/
def evKey : UInt16 := 1

/-- One `input_event`, as `read` returns it. Its two time fields are one number. -/
structure EvdevEvent where
  time : ℕ
  type : UInt16
  code : UInt16
  value : ℤ
  deriving DecidableEq

/-- The key event `try_read_evdev_key` makes of it; autorepeat and what is not a key is skipped. -/
def EvdevEvent.key? (raw : EvdevEvent) : Option InputEvent :=
  if raw.type = evKey ∧ raw.value ≠ 2 then
    some (.key raw.code.toUInt32 (if raw.value ≠ 0 then .pressed else .released))
  else none

/-- What waits on the X connection. -/
inductive XEvent where
  | rawKeyPress (time : ℕ) (detail : UInt32)
  | rawKeyRelease (time : ℕ) (detail : UInt32)
  /-- Raw motion or a raw button, with what `next_event` makes of it, if anything. -/
  | pointer (event : Option InputEvent)
  deriving DecidableEq

/-- `saturating_sub(8)` on a `u32`. -/
def scancodeOfDetail (detail : UInt32) : UInt32 := if 8 ≤ detail then detail - 8 else 0

/-- The stamp and the key event `next_event` makes of a raw key event. -/
def XEvent.key? : XEvent → Option (ℕ × InputEvent)
  | rawKeyPress time detail => some (time, .key (scancodeOfDetail detail) .pressed)
  | rawKeyRelease time detail => some (time, .key (scancodeOfDetail detail) .released)
  | pointer _ => none

/-- What the kernel queues for a press or a release. -/
def EvdevEvent.ofKey (time : ℕ) (code : UInt16) (state : KeyState) : EvdevEvent where
  time := time
  type := evKey
  code := code
  value := match state with
    | .pressed => 1
    | .released => 0

/-- What the X server sends for it: X keycodes are evdev codes shifted by eight. -/
def XEvent.ofKey (time : ℕ) (code : UInt16) : KeyState → XEvent
  | .pressed => rawKeyPress time (code.toUInt32 + 8)
  | .released => rawKeyRelease time (code.toUInt32 + 8)

theorem EvdevEvent.key?_ofKey (time : ℕ) (code : UInt16) (state : KeyState) :
    (ofKey time code state).key? = some (.key code.toUInt32 state) := by
  cases state <;> rfl

/-- Both paths report a key under the same scancode. -/
theorem XEvent.key?_ofKey (time : ℕ) (code : UInt16) (state : KeyState) :
    (ofKey time code state).key? = some (time, .key code.toUInt32 state) := by
  have hcode : scancodeOfDetail (code.toUInt32 + 8) = code.toUInt32 := by
    have hlt : code.toUInt32.toNat < 65536 := code.toNat_lt
    have hle : 8 ≤ code.toUInt32 + 8 := by
      rw [UInt32.le_iff_toNat_le, UInt32.toNat_add]
      show 8 ≤ (code.toUInt32.toNat + 8) % 4294967296
      omega
    rw [scancodeOfDetail, if_pos hle, UInt32.add_sub_cancel]
  cases state <;> simp [ofKey, key?, hcode]

/-! ### The capture -/

/-- A keyboard's descriptor. -/
structure Keyboard where
  /-- What is queued and not yet read, oldest first. -/
  unread : List EvdevEvent
  /-- `EVIOCGRAB` is in effect. -/
  grabbed : Bool

namespace Keyboard

/-- The kernel puts a raw event where the descriptor reads it. -/
def queue (k : Keyboard) (raw : EvdevEvent) : Keyboard := { k with unread := k.unread ++ [raw] }

/-- `ioctl(fd, EVIOCGRAB, 1)` and whether it returns 0. A device has one grab at most: it is refused
while this descriptor holds it, or (`free` is false) while another process does. -/
def eviocgrab (k : Keyboard) (free : Bool) : Keyboard × Bool :=
  if free && !k.grabbed then ({ k with grabbed := true }, true) else (k, false)

theorem eviocgrab_cases (k : Keyboard) (free : Bool) :
    k.grabbed = false ∧ (k.eviocgrab free).2 = true ∧ (k.eviocgrab free).1.grabbed = true ∨
      k.eviocgrab free = (k, false) := by
  unfold eviocgrab
  split_ifs with hfree
  · rw [Bool.and_eq_true, Bool.not_eq_true'] at hfree
    exact .inl ⟨hfree.2, rfl, rfl⟩
  · exact .inr rfl

/-- `EVIOCGRAB` with 0. -/
def release (k : Keyboard) : Keyboard := { k with grabbed := false }

/-- The stamps of the key events that are queued. -/
def unreadKeys (k : Keyboard) : List ℕ := (k.unread.filter (·.key?.isSome)).map EvdevEvent.time

end Keyboard

/-- Where a report was taken from. -/
inductive EventPath where
  | x11
  | evdev
  deriving DecidableEq

/-- A key event that `next_event` returned. -/
structure Report where
  /-- The stamp of the physical event. -/
  time : ℕ
  event : InputEvent
  path : EventPath
  /-- The time of the last grab before it was returned. -/
  grabbedAt : ℕ
  deriving DecidableEq

/-- Which of its two calls of `try_read_evdev_key` the loop of `next_event` is in. -/
inductive ReadSite where
  | beforeWait
  /-- For one of the ready descriptors, with so many still to come. -/
  | afterWait (left : ℕ)

/-- Where the thread stands. -/
inductive NextEventPoint where
  | outside
  /-- At the head of the loop of `next_event`. -/
  | head
  /-- Inside `try_read_evdev_key`, before a `read` from a descriptor. -/
  | reading (device : ℕ) (site : ReadSite)
  /-- Inside `epoll_wait`. -/
  | waiting
  /-- Before `poll_for_event`. -/
  | polling

/-- Where `next_event` goes on when `try_read_evdev_key` finds nothing. -/
def ReadSite.next : ReadSite → NextEventPoint
  | beforeWait => .waiting
  | afterWait 0 => .polling
  | afterWait (left + 1) => .reading 0 (.afterWait left)

/-- What `epoll_wait` returns. -/
inductive WaitResult where
  /-- So many ready descriptors that are not the X connection's; a timeout is `ready 0`. -/
  | ready (keyboards : ℕ)
  | interrupted
  | failed

/-- The capture, with what waits on its X connection and at its keyboards. -/
structure X11Capture where
  keyboardDevices : List Keyboard
  kbdGrabbed : Bool
  /-- What waits on the X connection, oldest first. -/
  conn : List XEvent
  point : NextEventPoint
  clock : ℕ
  /-- The time of the last call of `grab_pointer` that grabbed a keyboard. -/
  grabbedAt : ℕ
  /-- The key events returned so far, oldest first. -/
  reports : List Report

namespace X11Capture

/-- The labels: physical events, calls, and the steps of `next_event`. -/
inductive Label where
  /-- A press or release, on a keyboard with these descriptors open on it. -/
  | key (on : Finset ℕ) (code : UInt16) (state : KeyState)
  /-- Autorepeat, a report mark, a change of an LED. -/
  | other (device : ℕ) (raw : EvdevEvent)
  | pointer (event : Option InputEvent)
  /-- `granted`: the X server maps the window, sets the focus and grants the grab. `free`: which
  keyboards no other process has grabbed. -/
  | grabPointer (granted : Bool) (free : ℕ → Bool)
  | ungrabPointer
  | nextEvent
  | head
  | read
  | wait (result : WaitResult)
  /-- `poll_for_event`, which may fail. -/
  | poll (ok : Bool)

/-- `X11Capture::new`, with so many keyboards found. -/
def new (keyboards : ℕ) : X11Capture where
  keyboardDevices := List.replicate keyboards ⟨[], false⟩
  kbdGrabbed := false
  conn := []
  point := .outside
  clock := 0
  grabbedAt := 0
  reports := []

/-! ### Physical events -/

/-- The descriptor that holds the grab of a keyboard, if one does. -/
def grabHolder (s : X11Capture) (on : Finset ℕ) : Option ℕ :=
  (List.range s.keyboardDevices.length).find? fun d ↦
    decide (d ∈ on) && s.keyboardDevices[d]?.any Keyboard.grabbed

/-- A press or release is queued where the grab is, and without a grab on every descriptor of the
keyboard and on the X connection. -/
def keyEvent (s : X11Capture) (on : Finset ℕ) (code : UInt16) (state : KeyState) : X11Capture :=
  match s.grabHolder on with
  | some d =>
    { s with
      keyboardDevices := s.keyboardDevices.modify d (·.queue (.ofKey s.clock code state))
      clock := s.clock + 1 }
  | none =>
    -- the descriptors are fed even though nothing reads them until the next grab
    { s with
      keyboardDevices := s.keyboardDevices.mapIdx fun d k ↦
        if d ∈ on then k.queue (.ofKey s.clock code state) else k
      conn := s.conn ++ [.ofKey s.clock code state]
      clock := s.clock + 1 }

/-- What is neither a press nor a release is queued on the descriptor. -/
def otherEvent (s : X11Capture) (device : ℕ) (raw : EvdevEvent) : X11Capture :=
  { s with
    keyboardDevices := s.keyboardDevices.modify device (·.queue { raw with time := s.clock })
    clock := s.clock + 1 }

/-! ### The calls -/

/-- The loop of `EVIOCGRAB`s: each keyboard afterwards, and whether the call returned 0. -/
def eviocgrabs (s : X11Capture) (free : ℕ → Bool) : List (Keyboard × Bool) :=
  s.keyboardDevices.mapIdx fun d k ↦ k.eviocgrab (free d)

/-- `grab_pointer`: the pointer first, then the keyboards that let themselves be grabbed. -/
def grabPointer (s : X11Capture) (granted : Bool) (free : ℕ → Bool) : X11Capture :=
  if granted then
    let grabs := s.eviocgrabs free
    let grabbedCount := grabs.countP Prod.snd
    { s with
      keyboardDevices := grabs.map Prod.fst
      -- one keyboard is enough, and what its descriptor holds stays there
      kbdGrabbed := if 0 < grabbedCount then true else s.kbdGrabbed
      grabbedAt := if 0 < grabbedCount then s.clock else s.grabbedAt }
  else s

/-- `ungrab_pointer`: the keyboards that were grabbed are let go. -/
def ungrabPointer (s : X11Capture) : X11Capture :=
  if s.kbdGrabbed then
    { s with keyboardDevices := s.keyboardDevices.map Keyboard.release, kbdGrabbed := false }
  else s

/-- `next_event` returns a key event. -/
def report (s : X11Capture) (time : ℕ) (event : InputEvent) (path : EventPath) : X11Capture :=
  { s with point := .outside, reports := s.reports ++ [⟨time, event, path, s.grabbedAt⟩] }

/-- One `read` of `try_read_evdev_key`: a key event is returned, anything else is skipped, and an
empty descriptor leads to the next one. -/
def readDevice (s : X11Capture) (device : ℕ) (site : ReadSite) : X11Capture :=
  match s.keyboardDevices[device]? with
  | none => { s with point := site.next }
  | some k =>
    match k.unread with
    | [] => { s with point := .reading (device + 1) site }
    | raw :: unread =>
      let s' := { s with
        keyboardDevices := s.keyboardDevices.set device { k with unread := unread } }
      match raw.key? with
      | some event => s'.report raw.time event .evdev
      | none => s'

section Read

variable {s : X11Capture} {device : ℕ} {site : ReadSite} {k : Keyboard} {raw : EvdevEvent}
  {unread : List EvdevEvent}

theorem readDevice_done (hk : s.keyboardDevices[device]? = none) :
    s.readDevice device site = { s with point := site.next } := by
  simp [readDevice, hk]

theorem readDevice_empty (hk : s.keyboardDevices[device]? = some k) (hunread : k.unread = []) :
    s.readDevice device site = { s with point := .reading (device + 1) site } := by
  simp [readDevice, hk, hunread]

theorem readDevice_skip (hk : s.keyboardDevices[device]? = some k)
    (hunread : k.unread = raw :: unread) (hkey : raw.key? = none) :
    s.readDevice device site =
      { s with keyboardDevices := s.keyboardDevices.set device { k with unread := unread } } := by
  simp [readDevice, hk, hunread, hkey]

theorem readDevice_key {event : InputEvent} (hk : s.keyboardDevices[device]? = some k)
    (hunread : k.unread = raw :: unread) (hkey : raw.key? = some event) :
    s.readDevice device site = report
      { s with keyboardDevices := s.keyboardDevices.set device { k with unread := unread } }
      raw.time event .evdev := by
  simp [readDevice, hk, hunread, hkey]

end Read

/-- `epoll_wait` returns; `next_event` reads the descriptors once for each ready one, when the
keyboards are grabbed. -/
def afterWait (s : X11Capture) : WaitResult → X11Capture
  | .ready 0 => { s with point := .polling }
  | .ready (keyboards + 1) =>
    { s with point := if s.kbdGrabbed then .reading 0 (.afterWait keyboards) else .polling }
  | .interrupted => { s with point := .head }
  | .failed => { s with point := .outside }

/-- One `poll_for_event`: key events are returned only while the keyboards are not grabbed. -/
def pollConn (s : X11Capture) : X11Capture :=
  match s.conn with
  | [] => { s with point := .head }
  | x :: conn =>
    match x.key? with
    | some (time, event) =>
      -- dropped: the same event is on the keyboard's descriptor
      if s.kbdGrabbed then { s with conn := conn }
      else { s with conn := conn }.report time event .x11
    | none =>
      match x with
      | .pointer (some _) => { s with conn := conn, point := .outside }
      | _ => { s with conn := conn }

/-- One step; `none` when the label is not enabled. -/
def step (s : X11Capture) (l : Label) : Option X11Capture :=
  match s.point, l with
  | _, .key on code state => some (s.keyEvent on code state)
  | _, .other device raw => if raw.key? = none then some (s.otherEvent device raw) else none
  | _, .pointer event => some { s with conn := s.conn ++ [.pointer event] }
  | .outside, .grabPointer granted free => some (s.grabPointer granted free)
  | .outside, .ungrabPointer => some s.ungrabPointer
  | .outside, .nextEvent => some { s with point := .head }
  | .head, .head =>
    some { s with point := if s.kbdGrabbed then .reading 0 .beforeWait else .waiting }
  | .reading device site, .read => some (s.readDevice device site)
  | .waiting, .wait result => some (s.afterWait result)
  | .polling, .poll ok => some (if ok then s.pollConn else { s with point := .outside })
  | _, _ => none

/-! ### What can still be reported -/

/-- The stamps of the key events queued on the descriptors. -/
def unreadKeys (s : X11Capture) : List ℕ := s.keyboardDevices.flatMap Keyboard.unreadKeys

/-- The stamps of the key events that wait on the X connection. -/
def queuedKeys (s : X11Capture) : List ℕ := s.conn.filterMap fun x ↦ x.key?.map Prod.fst

/-- The capture, seen as a dispatcher: what waits on the X connection can be reported, and what is
queued on the descriptors can while the keyboards are grabbed. -/
def dispatch (s : X11Capture) : Dispatch where
  clock := s.clock
  pending := s.queuedKeys ++ if s.kbdGrabbed then s.unreadKeys else []
  delivered := s.reports.map Report.time

/-- **The law**: no physical event is reported twice, and the descriptors report nothing that was
made before the last grab. -/
structure ReportsOnce (s : X11Capture) : Prop where
  once : (s.reports.map Report.time).Nodup
  recent : ∀ r ∈ s.reports, r.path = .evdev → r.grabbedAt ≤ r.time

/-- A grab is fresh when it takes all the keyboards, or none, and finds no key event unread. -/
def FreshGrab (s : X11Capture) : Label → Prop
  | .grabPointer true free =>
    (∃ p ∈ s.eviocgrabs free, p.2 = true) →
      (∀ p ∈ s.eviocgrabs free, p.2 = true) ∧ s.unreadKeys = []
  | _ => True

instance (s : X11Capture) : DecidablePred s.FreshGrab
  | .grabPointer true _ => inferInstanceAs (Decidable (_ → _ ∧ _))
  | .grabPointer false _ | .key _ _ _ | .other _ _ | .pointer _ | .ungrabPointer | .nextEvent
  | .head | .read | .wait _ | .poll _ => instDecidableTrue

/-- What carries the law: the dispatcher is sound, the keyboards are grabbed together, and what is
queued on grabbed descriptors was made since the grab. -/
structure Inv (s : X11Capture) : Prop where
  sound : s.dispatch.Sound
  recent : ∀ r ∈ s.reports, r.path = .evdev → r.grabbedAt ≤ r.time
  grabbedAt_le : s.grabbedAt ≤ s.clock
  past : ∀ t ∈ s.unreadKeys, t < s.clock
  unread : s.kbdGrabbed = true → ∀ t ∈ s.unreadKeys, s.grabbedAt ≤ t
  together : ∀ k ∈ s.keyboardDevices, k.grabbed = s.kbdGrabbed
  reading : ∀ device site, s.point = .reading device site → s.kbdGrabbed = true

theorem Inv.reportsOnce {s : X11Capture} (h : s.Inv) : s.ReportsOnce :=
  ⟨h.sound.nodup_delivered, h.recent⟩

/-- A report is a delivery. -/
theorem dispatch_report (s : X11Capture) (time : ℕ) (event : InputEvent) (path : EventPath) :
    (s.report time event path).dispatch =
      ⟨s.clock, s.dispatch.pending, s.dispatch.delivered ++ [time]⟩ := by
  rw [dispatch, report, List.map_append]
  rfl

section Queues

open List

/-- The descriptors' key events, with those of one descriptor in front. -/
theorem flatMap_perm_of_getElem? {l : List Keyboard} {d : ℕ} {k : Keyboard} (h : l[d]? = some k) :
    l.flatMap Keyboard.unreadKeys ~
      k.unreadKeys ++ (l.eraseIdx d).flatMap Keyboard.unreadKeys := by
  obtain ⟨hd, rfl⟩ := List.getElem?_eq_some_iff.1 h
  exact ((getElem_cons_eraseIdx_perm hd).symm.flatMap_right _).trans (by rw [flatMap_cons])

theorem unreadKeys_queue (k : Keyboard) (raw : EvdevEvent) :
    (k.queue raw).unreadKeys = k.unreadKeys ++ if raw.key?.isSome then [raw.time] else [] := by
  rw [Keyboard.unreadKeys, Keyboard.queue, filter_append, map_append]
  cases hkey : raw.key?.isSome <;> simp [hkey, Keyboard.unreadKeys]

/-- Queueing an event on a descriptor. -/
theorem flatMap_modify_queue {l : List Keyboard} {d : ℕ} {k : Keyboard} (h : l[d]? = some k)
    (raw : EvdevEvent) :
    (l.modify d (·.queue raw)).flatMap Keyboard.unreadKeys ~
      (if raw.key?.isSome then [raw.time] else []) ++ l.flatMap Keyboard.unreadKeys := by
  have hmod : (l.modify d (·.queue raw))[d]? = some (k.queue raw) := by
    rw [getElem?_modify_eq, h]
    rfl
  have hleft := flatMap_perm_of_getElem? hmod
  rw [eraseIdx_modify_of_eq, unreadKeys_queue, append_assoc] at hleft
  have hright := flatMap_perm_of_getElem? h
  refine hleft.trans ?_
  refine (perm_append_comm_assoc _ _ _).trans ?_
  exact hright.symm.append_left _

theorem grabbed_modify_queue {l : List Keyboard} {b : Bool} (h : ∀ k ∈ l, k.grabbed = b) (d : ℕ)
    (raw : EvdevEvent) : ∀ k ∈ l.modify d (·.queue raw), k.grabbed = b := by
  intro k hk
  obtain ⟨i, hi⟩ := List.mem_iff_getElem?.1 hk
  rw [List.getElem?_modify] at hi
  obtain ⟨k', hk', rfl⟩ := Option.map_eq_some_iff.1 hi
  have hgrabbed : k'.grabbed = b := h k' (List.mem_of_getElem? hk')
  split_ifs
  · exact hgrabbed
  · exact hgrabbed

theorem grabbed_mapIdx_queue {l : List Keyboard} {b : Bool} (h : ∀ k ∈ l, k.grabbed = b)
    (on : Finset ℕ) (raw : EvdevEvent) :
    ∀ k ∈ l.mapIdx (fun d k ↦ if d ∈ on then k.queue raw else k), k.grabbed = b := by
  intro k hk
  obtain ⟨i, hi, rfl⟩ := List.mem_mapIdx.1 hk
  have hgrabbed : l[i].grabbed = b := h _ (List.getElem_mem hi)
  split_ifs
  · exact hgrabbed
  · exact hgrabbed

/-- Queueing an event on some of the descriptors brings in its stamp alone. -/
theorem eq_or_mem_of_mem_mapIdx_queue {l : List Keyboard} {on : Finset ℕ} {raw : EvdevEvent} {t : ℕ}
    (ht : t ∈ (l.mapIdx fun d k ↦ if d ∈ on then k.queue raw else k).flatMap
      Keyboard.unreadKeys) : t = raw.time ∨ t ∈ l.flatMap Keyboard.unreadKeys := by
  obtain ⟨k, hk, ht⟩ := List.mem_flatMap.1 ht
  obtain ⟨i, hi, rfl⟩ := List.mem_mapIdx.1 hk
  have hold : t ∈ l[i].unreadKeys → t ∈ l.flatMap Keyboard.unreadKeys := fun ht ↦
    List.mem_flatMap.2 ⟨l[i], List.getElem_mem hi, ht⟩
  split_ifs at ht
  · rw [unreadKeys_queue, List.mem_append] at ht
    rcases ht with ht | ht
    · exact .inr (hold ht)
    · split_ifs at ht
      · exact .inl (List.mem_singleton.1 ht)
      · cases ht
  · exact .inr (hold ht)

end Queues

/-! ### What keeps the law -/

section Steps

variable {s : X11Capture}

/-- Moving the thread keeps the invariant. -/
theorem Inv.move (h : s.Inv) (point : NextEventPoint)
    (hpoint : ∀ device site, point = .reading device site → s.kbdGrabbed = true) :
    Inv { s with point := point } :=
  ⟨h.sound, h.recent, h.grabbedAt_le, h.past, h.unread, h.together, hpoint⟩

/-- The holder of a grab is one of the keyboards, and all of them are grabbed. -/
theorem Inv.of_grabHolder (h : s.Inv) {on : Finset ℕ} {d : ℕ} (hd : s.grabHolder on = some d) :
    s.kbdGrabbed = true ∧ ∃ k, s.keyboardDevices[d]? = some k := by
  have hholds := List.find?_some hd
  rw [Bool.and_eq_true] at hholds
  obtain ⟨k, hk, hgrabbed⟩ := (Option.any_eq_true _ _).1 hholds.2
  exact ⟨(h.together k (List.mem_of_getElem? hk)) ▸ hgrabbed, k, hk⟩

/-- While the keyboards are grabbed, a keyboard without a holder has no descriptor. -/
theorem Inv.not_mem_of_grabHolder (h : s.Inv) {on : Finset ℕ} (hon : s.grabHolder on = none)
    (hgrabbed : s.kbdGrabbed = true) {d : ℕ} {k : Keyboard} (hk : s.keyboardDevices[d]? = some k) :
    d ∉ on := by
  intro hd
  have hlt : d < s.keyboardDevices.length := (List.getElem?_eq_some_iff.1 hk).1
  have hheld : k.grabbed = true := (h.together k (List.mem_of_getElem? hk)).trans hgrabbed
  have := List.find?_eq_none.1 hon d (List.mem_range.2 hlt)
  simp [hd, hk, hheld] at this

/-- A grabbed keyboard's event is queued on one descriptor, another one's on the X connection. -/
theorem inv_keyEvent (h : s.Inv) (on : Finset ℕ) (code : UInt16) (state : KeyState) :
    (s.keyEvent on code state).Inv := by
  unfold keyEvent
  cases hon : s.grabHolder on with
  | some d =>
    obtain ⟨hgrabbed, k, hk⟩ := h.of_grabHolder hon
    have hperm := flatMap_modify_queue hk (.ofKey s.clock code state)
    rw [EvdevEvent.key?_ofKey, Option.isSome_some, if_pos rfl] at hperm
    refine ⟨h.sound.step ?_, h.recent, h.grabbedAt_le.trans (Nat.le_succ _), fun t ht ↦ ?_,
      fun _ t ht ↦ ?_, grabbed_modify_queue h.together _ _, h.reading⟩
    · refine .issue ?_
      simp only [dispatch, hgrabbed, if_true]
      exact (hperm.append_left _).trans List.perm_middle
    · rcases List.mem_cons.1 (hperm.subset ht) with rfl | ht
      · exact Nat.lt_succ_self _
      · exact Nat.lt_succ_of_lt (h.past t ht)
    · rcases List.mem_cons.1 (hperm.subset ht) with rfl | ht
      · exact h.grabbedAt_le
      · exact h.unread hgrabbed t ht
  | none =>
    have hqueued : (s.conn ++ [XEvent.ofKey s.clock code state]).filterMap
        (fun x ↦ x.key?.map Prod.fst) = s.queuedKeys ++ [s.clock] := by
      simp [queuedKeys, XEvent.key?_ofKey]
    by_cases hgrabbed : s.kbdGrabbed = true
    · -- the keyboard has no descriptor here, so the descriptors are as before
      have hsame : (s.keyboardDevices.mapIdx fun d k ↦
          if d ∈ on then k.queue (.ofKey s.clock code state) else k) = s.keyboardDevices := by
        refine List.ext_getElem? fun d ↦ ?_
        rw [List.getElem?_mapIdx]
        cases hk : s.keyboardDevices[d]? with
        | none => rfl
        | some k => rw [Option.map_some, if_neg (h.not_mem_of_grabHolder hon hgrabbed hk)]
      rw [hsame]
      refine ⟨h.sound.step ?_, h.recent, h.grabbedAt_le.trans (Nat.le_succ _),
        fun t ht ↦ Nat.lt_succ_of_lt (h.past t ht), h.unread, h.together, h.reading⟩
      refine .issue ?_
      simp only [dispatch, hgrabbed, if_true]
      rw [queuedKeys, hqueued, List.append_assoc]
      exact List.perm_middle
    · refine ⟨h.sound.step ?_, h.recent, h.grabbedAt_le.trans (Nat.le_succ _), fun t ht ↦ ?_,
        fun hg ↦ absurd hg hgrabbed, grabbed_mapIdx_queue h.together _ _, h.reading⟩
      · refine .issue ?_
        simp only [dispatch, hgrabbed, Bool.false_eq_true, if_false, List.append_nil]
        rw [queuedKeys, hqueued]
        exact List.perm_append_singleton _ _
      · rcases eq_or_mem_of_mem_mapIdx_queue ht with rfl | ht
        · exact Nat.lt_succ_self _
        · exact Nat.lt_succ_of_lt (h.past t ht)

/-- What is not a key event changes nothing that can be reported. -/
theorem inv_otherEvent (h : s.Inv) (device : ℕ) {raw : EvdevEvent} (hraw : raw.key? = none) :
    (s.otherEvent device raw).Inv := by
  have hkey : (EvdevEvent.key? { raw with time := s.clock }).isSome = false := by
    rw [show EvdevEvent.key? { raw with time := s.clock } = none from hraw]
    rfl
  have hperm : (s.otherEvent device raw).unreadKeys.Perm s.unreadKeys := by
    show ((s.keyboardDevices.modify device _).flatMap _).Perm _
    cases hk : s.keyboardDevices[device]? with
    | none => rw [List.modify_eq_self (List.getElem?_eq_none_iff.1 hk)]; rfl
    | some k =>
      have := flatMap_modify_queue hk { raw with time := s.clock }
      rwa [hkey] at this
  refine ⟨h.sound.step (.skip ?_), h.recent, h.grabbedAt_le.trans (Nat.le_succ _),
    fun t ht ↦ Nat.lt_succ_of_lt (h.past t (hperm.subset ht)),
    fun hg t ht ↦ h.unread hg t (hperm.subset ht), grabbed_modify_queue h.together _ _, h.reading⟩
  refine List.Perm.append_left _ ?_
  by_cases hg : s.kbdGrabbed = true
  · simpa only [otherEvent, hg, if_true] using hperm
  · simp [otherEvent, hg]

/-- Grabbing changes no queue. -/
theorem unreadKeys_eviocgrabs (s : X11Capture) (free : ℕ → Bool) :
    ((s.eviocgrabs free).map Prod.fst).flatMap Keyboard.unreadKeys = s.unreadKeys := by
  rw [unreadKeys, List.flatMap_def, List.flatMap_def, List.map_map]
  congr 1
  refine List.ext_getElem? fun d ↦ ?_
  rw [List.getElem?_map, List.getElem?_map, eviocgrabs, List.getElem?_mapIdx, Option.map_map]
  refine congrFun (congrArg Option.map (funext fun k ↦ ?_)) _
  show (k.eviocgrab (free d)).1.unreadKeys = k.unreadKeys
  unfold Keyboard.eviocgrab
  split_ifs <;> rfl

/-- A grab that succeeds leaves the keyboard grabbed, one that fails leaves it as it was. -/
theorem grabbed_of_mem_eviocgrabs {free : ℕ → Bool} {p : Keyboard × Bool}
    (hp : p ∈ s.eviocgrabs free) :
    (p.2 = true → p.1.grabbed = true) ∧ (p.2 = false → p.1 ∈ s.keyboardDevices) := by
  obtain ⟨d, hd, rfl⟩ := List.mem_mapIdx.1 hp
  rcases s.keyboardDevices[d].eviocgrab_cases (free d) with ⟨-, hok, hgrabbed⟩ | hrefused
  · exact ⟨fun _ ↦ hgrabbed, fun hfalse ↦ by cases hok.symm.trans hfalse⟩
  · rw [hrefused]
    exact ⟨fun htrue ↦ (by cases htrue), fun _ ↦ List.getElem_mem hd⟩

/-- A fresh grab brings nothing up that was queued before. -/
theorem inv_grabPointer (h : s.Inv) {granted : Bool} {free : ℕ → Bool}
    (hfresh : s.FreshGrab (.grabPointer granted free)) : (s.grabPointer granted free).Inv := by
  cases granted with
  | false => exact h
  | true =>
    have hunread : X11Capture.unreadKeys { s with
        keyboardDevices := (s.eviocgrabs free).map Prod.fst } = s.unreadKeys :=
      unreadKeys_eviocgrabs s free
    by_cases hcount : 0 < (s.eviocgrabs free).countP Prod.snd
    -- the keyboards are grabbed: from here on only their descriptors count
    · obtain ⟨hall, hempty⟩ := hfresh (List.countP_pos_iff.1 hcount)
      rw [hempty] at hunread
      simp only [grabPointer, if_true, hcount]
      have hno : ∀ t ∈ X11Capture.unreadKeys { s with
          keyboardDevices := (s.eviocgrabs free).map Prod.fst }, False := fun t ht ↦
        absurd (hunread ▸ ht) List.not_mem_nil
      refine ⟨h.sound.step (.discard ?_), h.recent, le_refl _, fun t ht ↦ (hno t ht).elim,
        fun _ t ht ↦ (hno t ht).elim, fun k hk ↦ ?_, fun _ _ _ ↦ rfl⟩
      · show s.queuedKeys ++ X11Capture.unreadKeys { s with
          keyboardDevices := (s.eviocgrabs free).map Prod.fst } <+~ s.dispatch.pending
        rw [hunread, List.append_nil]
        exact (List.sublist_append_left _ _).subperm
      · obtain ⟨p, hp, rfl⟩ := List.mem_map.1 hk
        exact (grabbed_of_mem_eviocgrabs hp).1 (hall p hp)
    -- no keyboard could be grabbed, and the flag stays
    · have hnone : ∀ p ∈ s.eviocgrabs free, p.2 = false := fun p hp ↦
        Bool.eq_false_of_not_eq_true fun htrue ↦ hcount (List.countP_pos_iff.2 ⟨p, hp, htrue⟩)
      simp only [grabPointer, if_true, hcount, if_false]
      refine ⟨h.sound.step (.discard ?_), h.recent, h.grabbedAt_le,
        fun t ht ↦ h.past t (hunread ▸ ht), fun hg t ht ↦ h.unread hg t (hunread ▸ ht),
        fun k hk ↦ ?_, h.reading⟩
      · show (s.queuedKeys ++ if s.kbdGrabbed then X11Capture.unreadKeys { s with
          keyboardDevices := (s.eviocgrabs free).map Prod.fst } else []) <+~ s.dispatch.pending
        rw [hunread]
        exact .refl _
      · obtain ⟨p, hp, rfl⟩ := List.mem_map.1 hk
        exact h.together _ ((grabbed_of_mem_eviocgrabs hp).2 (hnone p hp))

/-- Ungrabbing leaves what is queued on the descriptors to no one. -/
theorem inv_ungrabPointer (h : s.Inv) (hpoint : s.point = .outside) : s.ungrabPointer.Inv := by
  unfold ungrabPointer
  split_ifs
  · have hunread : X11Capture.unreadKeys { s with
        keyboardDevices := s.keyboardDevices.map Keyboard.release, kbdGrabbed := false } =
          s.unreadKeys := by
      rw [unreadKeys, List.flatMap_map]
      rfl
    refine ⟨h.sound.step (.discard ?_), h.recent, h.grabbedAt_le,
      fun t ht ↦ h.past t (hunread ▸ ht), fun hg ↦ (by cases hg), fun k hk ↦ ?_,
      fun device site hreading ↦ ?_⟩
    · show s.queuedKeys ++ [] <+~ s.dispatch.pending
      rw [List.append_nil]
      exact (List.sublist_append_left _ _).subperm
    · obtain ⟨k, -, rfl⟩ := List.mem_map.1 hk
      rfl
    · cases hpoint.symm.trans hreading
  · exact h

/-- Taking the oldest event off a descriptor. -/
theorem unreadKeys_set {d : ℕ} {k : Keyboard} {raw : EvdevEvent} {unread : List EvdevEvent}
    (hk : s.keyboardDevices[d]? = some k) (hunread : k.unread = raw :: unread) :
    s.unreadKeys ~ (if raw.key?.isSome then [raw.time] else []) ++
      (s.keyboardDevices.set d { k with unread := unread }).flatMap Keyboard.unreadKeys := by
  have hlt : d < s.keyboardDevices.length := (List.getElem?_eq_some_iff.1 hk).1
  have hbefore := flatMap_perm_of_getElem? hk
  have hset : (s.keyboardDevices.set d { k with unread := unread })[d]? =
      some { k with unread := unread } := List.getElem?_set_self hlt
  have hafter := flatMap_perm_of_getElem? hset
  have hhead : k.unreadKeys = (if raw.key?.isSome then [raw.time] else []) ++
      Keyboard.unreadKeys { k with unread := unread } := by
    rw [Keyboard.unreadKeys, hunread]
    cases hkey : raw.key?.isSome <;> simp [hkey, Keyboard.unreadKeys]
  rw [hhead, List.append_assoc] at hbefore
  rw [List.eraseIdx_set_eq] at hafter
  exact hbefore.trans (hafter.symm.append_left _)

/-- A descriptor reports what was queued on it since the grab, and forgets it. -/
theorem inv_readDevice (h : s.Inv) {device : ℕ} {site : ReadSite}
    (hpoint : s.point = .reading device site) : (s.readDevice device site).Inv := by
  have hgrabbed : s.kbdGrabbed = true := h.reading device site hpoint
  cases hk : s.keyboardDevices[device]? with
  | none =>
    rw [readDevice_done hk]
    exact h.move _ fun _ _ _ ↦ hgrabbed
  | some k =>
    cases hunread : k.unread with
    | nil =>
      rw [readDevice_empty hk hunread]
      exact h.move _ fun _ _ _ ↦ hgrabbed
    | cons raw unread =>
      have hperm := unreadKeys_set hk hunread
      have htogether : ∀ k' ∈ s.keyboardDevices.set device { k with unread := unread },
          k'.grabbed = s.kbdGrabbed := by
        intro k' hk'
        rcases List.mem_or_eq_of_mem_set hk' with hk' | rfl
        · exact h.together k' hk'
        · exact h.together k (List.mem_of_getElem? hk)
      cases hkey : raw.key? with
      | none =>
        rw [readDevice_skip hk hunread hkey]
        rw [hkey, Option.isSome_none] at hperm
        refine ⟨h.sound.step (.discard ?_), h.recent, h.grabbedAt_le,
          fun t ht ↦ h.past t (hperm.symm.subset ht),
          fun hg t ht ↦ h.unread hg t (hperm.symm.subset ht), htogether, fun _ _ _ ↦ hgrabbed⟩
        simp only [dispatch, hgrabbed, if_true]
        exact (hperm.symm.append_left _).subperm
      | some event =>
        rw [readDevice_key hk hunread hkey]
        rw [hkey, Option.isSome_some, if_pos rfl] at hperm
        have hrecent : s.grabbedAt ≤ raw.time :=
          h.unread hgrabbed _ (hperm.symm.subset List.mem_cons_self)
        refine ⟨?_, fun r hr ↦ ?_, h.grabbedAt_le,
          fun t ht ↦ h.past t (hperm.symm.subset (.tail _ ht)),
          fun hg t ht ↦ h.unread hg t (hperm.symm.subset (.tail _ ht)), htogether,
          fun _ _ hreading ↦ by cases hreading⟩
        · rw [dispatch_report]
          refine h.sound.step (.deliver ?_)
          simp only [dispatch, hgrabbed, if_true]
          exact (hperm.append_left _).trans List.perm_middle
        · rcases List.mem_append.1 hr |>.imp_right List.mem_singleton.1 with hr | rfl
          · exact h.recent r hr
          · exact fun _ ↦ hrecent

/-- The X connection reports what was queued on it, and forgets it, and drops it while the keyboards
are grabbed. -/
theorem inv_pollConn (h : s.Inv) (hpoint : s.point = .polling) : s.pollConn.Inv := by
  have hreading : ∀ device site, s.point = .reading device site → s.kbdGrabbed = true := by
    intro device site hreading
    cases hpoint.symm.trans hreading
  unfold pollConn
  split
  case h_1 => exact h.move _ fun _ _ hreading ↦ by cases hreading
  case h_2 x conn hconn =>
    have hqueued : s.queuedKeys =
        (x.key?.map Prod.fst).toList ++ conn.filterMap fun x ↦ x.key?.map Prod.fst := by
      rw [queuedKeys, hconn, List.filterMap_cons]
      cases x.key? <;> rfl
    have hdropped : Inv { s with conn := conn } := by
      refine ⟨h.sound.step (.discard ?_), h.recent, h.grabbedAt_le, h.past, h.unread, h.together,
        hreading⟩
      show _ <+~ s.queuedKeys ++ _
      rw [hqueued]
      exact ((List.sublist_append_right _ _).append_right _).subperm
    split
    case h_1 time event hkey =>
      rw [hkey] at hqueued
      split_ifs with hgrabbed
      -- XI2 key events are ignored while the keyboards are grabbed
      · exact hdropped
      · refine ⟨?_, fun r hr ↦ ?_, h.grabbedAt_le, h.past, h.unread, h.together,
          fun _ _ hreading ↦ by cases hreading⟩
        · rw [dispatch_report]
          refine h.sound.step (.deliver ?_)
          show s.queuedKeys ++ _ ~ _
          rw [hqueued]
          exact .refl _
        · rcases List.mem_append.1 hr |>.imp_right List.mem_singleton.1 with hr | rfl
          · exact h.recent r hr
          · exact fun hpath ↦ by cases hpath
    case h_2 hkey =>
      split
      · exact hdropped.move _ fun _ _ hreading ↦ by cases hreading
      · exact hdropped

/-- **Every step keeps the invariant**, a grab when it is fresh. -/
theorem inv_of_step (h : s.Inv) {l : Label} (hfresh : s.FreshGrab l) {s' : X11Capture}
    (hs' : s' ∈ s.step l) : s'.Inv := by
  unfold step at hs'
  split at hs'
  case h_1 => obtain rfl := Option.some.inj hs'; exact inv_keyEvent h ..
  case h_2 =>
    split_ifs at hs' with hraw
    · obtain rfl := Option.some.inj hs'
      exact inv_otherEvent h _ hraw
    · cases hs'
  case h_3 event =>
    obtain rfl := Option.some.inj hs'
    have hqueued : X11Capture.queuedKeys { s with conn := s.conn ++ [.pointer event] } =
        s.queuedKeys := by
      simp [queuedKeys, XEvent.key?]
    refine ⟨h.sound.step (.discard ?_), h.recent, h.grabbedAt_le, h.past, h.unread, h.together,
      h.reading⟩
    show X11Capture.queuedKeys { s with conn := s.conn ++ [.pointer event] } ++ _ <+~
      s.queuedKeys ++ _
    rw [hqueued]
    exact .refl _
  case h_4 => obtain rfl := Option.some.inj hs'; exact inv_grabPointer h hfresh
  case h_5 hpoint => obtain rfl := Option.some.inj hs'; exact inv_ungrabPointer h hpoint
  case h_6 => obtain rfl := Option.some.inj hs'; exact h.move _ fun _ _ hreading ↦ by cases hreading
  case h_7 =>
    obtain rfl := Option.some.inj hs'
    refine h.move _ fun device site hreading ↦ ?_
    split_ifs at hreading with hgrabbed
    exact hgrabbed
  case h_8 hpoint => obtain rfl := Option.some.inj hs'; exact inv_readDevice h hpoint
  case h_9 result _ =>
    obtain rfl := Option.some.inj hs'
    match result with
    | .ready 0 | .interrupted | .failed => exact h.move _ fun _ _ hreading ↦ by cases hreading
    | .ready (keyboards + 1) =>
      refine h.move _ fun device site hreading ↦ ?_
      split_ifs at hreading with hgrabbed
      exact hgrabbed
  case h_10 hpoint =>
    obtain rfl := Option.some.inj hs'
    split_ifs
    · exact inv_pollConn h hpoint
    · exact h.move _ fun _ _ hreading ↦ by cases hreading
  case h_11 => cases hs'

/-- **At most once.** In every run whose grabs are all fresh, `next_event` returns no physical event
twice, and from the descriptors nothing that was made before the last grab. -/
theorem reportsOnce_of_freshGrabs (keyboards : ℕ) (ls : List Label)
    (hfresh : EachStep step FreshGrab (new keyboards) ls) :
    Throughout step ReportsOnce (new keyboards) ls := by
  have hstart : (new keyboards).Inv := by
    refine ⟨⟨.nil, fun t ht ↦ (by cases ht)⟩, fun r hr ↦ (by cases hr), le_refl _,
      fun t ht ↦ ?_, fun hg ↦ (by cases hg), fun k hk ↦ ?_, fun _ _ hreading ↦ (by cases hreading)⟩
    · obtain ⟨k, hk, ht⟩ := List.mem_flatMap.1 ht
      rw [List.eq_of_mem_replicate hk] at ht
      cases ht
    rw [List.eq_of_mem_replicate hk]
    rfl
  exact (throughout_of_guarded (fun s l hs hl s' hs' ↦ inv_of_step hs hl hs') hstart hfresh).mono
    fun s hs ↦ hs.reportsOnce

end Steps

/-- One keyboard is grabbed, a key is pressed and reported from its descriptor, the grab is
released, and the key's release is reported from the X connection. -/
def freshRun : List Label :=
  [.grabPointer true fun _ ↦ true, .key {0} 30 .pressed, .nextEvent, .head, .read, .ungrabPointer,
    .key {0} 30 .released, .nextEvent, .head, .wait (.ready 1), .poll true]

theorem reportsOnce_of_freshGrabs_freshRun : Throughout step ReportsOnce (new 1) freshRun :=
  reportsOnce_of_freshGrabs 1 freshRun (by decide +kernel)

/-- The run that fails: a key is pressed and reported from the X connection, and the keyboard is
grabbed with the press still queued on its descriptor. -/
def replayRun : List Label :=
  [.key {0} 30 .pressed, .nextEvent, .head, .wait (.ready 1), .poll true,
    .grabPointer true fun _ ↦ true, .nextEvent, .head, .read]

/-- The press is reported a second time, from before the grab. -/
theorem not_reportsOnce_replayRun : ¬ Throughout step ReportsOnce (new 1) replayRun := by
  have hreports : (run step (new 1) replayRun).map reports =
      some [⟨0, .key 30 .pressed, .x11, 0⟩, ⟨0, .key 30 .pressed, .evdev, 1⟩] := by
    decide +kernel
  obtain ⟨t, ht, hreports⟩ := Option.map_eq_some_iff.1 hreports
  refine not_throughout_of_run ht fun honce ↦ ?_
  have hnodup := honce.once
  rw [hreports] at hnodup
  exact absurd hnodup (by decide)

/-! ### Every grab that is not fresh can break it -/

section Converse

variable {s : X11Capture}

/-- How many reads it takes at most to empty these descriptors. -/
def readsLeft : List Keyboard → ℕ
  | [] => 0
  | k :: l => k.unread.length + 1 + readsLeft l

/-- A key event that is queued on one of the descriptors still to be read, or another one before it,
is reported. -/
theorem exists_evdev_report {site : ReadSite} {d : ℕ} (hpoint : s.point = .reading d site)
    (hunread : (s.keyboardDevices.drop d).flatMap Keyboard.unreadKeys ≠ []) :
    ∃ ls, ∃ t ∈ run step s ls, ∃ r, t.reports = s.reports ++ [r] ∧ r.path = .evdev ∧
      r.grabbedAt = s.grabbedAt ∧ r.time ∈ s.unreadKeys ∧ t.point = .outside ∧ t.conn = s.conn ∧
        t.kbdGrabbed = s.kbdGrabbed := by
  induction hn : readsLeft (s.keyboardDevices.drop d) using Nat.strong_induction_on
    generalizing s d with
  | _ n ih =>
    have hstep : step s .read = some (s.readDevice d site) := by simp only [step, hpoint]
    cases hk : s.keyboardDevices[d]? with
    | none =>
      rw [List.drop_eq_nil_of_le (List.getElem?_eq_none_iff.1 hk)] at hunread
      exact absurd rfl hunread
    | some k =>
      have hdrop : s.keyboardDevices.drop d = k :: s.keyboardDevices.drop (d + 1) := by
        obtain ⟨hlt, rfl⟩ := List.getElem?_eq_some_iff.1 hk
        exact List.drop_eq_getElem_cons hlt
      cases hread : k.unread with
      | nil =>
        rw [readDevice_empty hk hread] at hstep
        have hnone : k.unreadKeys = [] := by rw [Keyboard.unreadKeys, hread]; rfl
        rw [hdrop, List.flatMap_cons, hnone, List.nil_append] at hunread
        have hlt : readsLeft (s.keyboardDevices.drop (d + 1)) < n := by
          rw [← hn, hdrop]
          simp [readsLeft, hread]
        obtain ⟨ls, t, ht, hreport⟩ := ih _ hlt (s := { s with point := .reading (d + 1) site })
          rfl hunread rfl
        exact ⟨.read :: ls, t, Option.bind_eq_some_iff.2 ⟨_, hstep, ht⟩, hreport⟩
      | cons raw unread =>
        have hperm := unreadKeys_set hk hread
        cases hkey : raw.key? with
        | some event =>
          rw [readDevice_key hk hread hkey] at hstep
          rw [hkey, Option.isSome_some, if_pos rfl] at hperm
          exact ⟨[.read], _, Option.bind_eq_some_iff.2 ⟨_, hstep, rfl⟩, _, rfl, rfl, rfl,
            hperm.symm.subset List.mem_cons_self, rfl, rfl, rfl⟩
        | none =>
          rw [readDevice_skip hk hread hkey] at hstep
          rw [hkey, Option.isSome_none] at hperm
          have hset : (s.keyboardDevices.set d { k with unread := unread }).drop d =
              { k with unread := unread } :: s.keyboardDevices.drop (d + 1) := by
            rw [List.drop_set, if_neg (Nat.lt_irrefl d), Nat.sub_self, hdrop]
            rfl
          have hkeys : Keyboard.unreadKeys { k with unread := unread } = k.unreadKeys := by
            simp [Keyboard.unreadKeys, hread, hkey]
          have hlt : readsLeft
              ((s.keyboardDevices.set d { k with unread := unread }).drop d) < n := by
            rw [← hn, hdrop, hset]
            simp [readsLeft, hread]
          obtain ⟨ls, t, ht, r, hr, hpath, hat, hmem, hreport⟩ := ih _ hlt
            (s := { s with keyboardDevices := s.keyboardDevices.set d { k with unread := unread } })
            hpoint (by rwa [hset, List.flatMap_cons, hkeys, ← List.flatMap_cons, ← hdrop]) rfl
          exact ⟨.read :: ls, t, Option.bind_eq_some_iff.2 ⟨_, hstep, ht⟩, r, hr, hpath, hat,
            hperm.symm.subset hmem, hreport⟩

/-- The same, for the next call of `next_event`. -/
theorem exists_evdev_report_of_grabbed (hpoint : s.point = .outside)
    (hgrabbed : s.kbdGrabbed = true) (hunread : s.unreadKeys ≠ []) :
    ∃ ls, ∃ t ∈ run step s ls, ∃ r, t.reports = s.reports ++ [r] ∧ r.path = .evdev ∧
      r.grabbedAt = s.grabbedAt ∧ r.time ∈ s.unreadKeys ∧ t.point = .outside ∧ t.conn = s.conn ∧
        t.kbdGrabbed = s.kbdGrabbed := by
  have hpoint' : X11Capture.point { s with point := .reading 0 .beforeWait } =
    .reading 0 .beforeWait := rfl
  obtain ⟨ls, t, ht, hreport⟩ := exists_evdev_report hpoint' hunread
  refine ⟨.nextEvent :: .head :: ls, t, ?_, hreport⟩
  simpa [run_cons, step, hpoint, hgrabbed] using ht

/-- A call of `next_event` while the keyboards are not grabbed. -/
theorem run_enter (hpoint : s.point = .outside) (hgrabbed : s.kbdGrabbed = false) :
    run step s [.nextEvent, .head, .wait (.ready 0)] = some { s with point := .polling } := by
  simp [run_cons, step, hpoint, hgrabbed, afterWait]

/-- While the keyboards are not grabbed, what waits on the X connection is reported in the end. -/
theorem exists_x11_report (hpoint : s.point = .polling) (hgrabbed : s.kbdGrabbed = false) {time : ℕ}
    (htime : time ∈ s.queuedKeys) :
    ∃ ls, ∃ t ∈ run step s ls, ∃ rs, t.reports = s.reports ++ rs ∧ time ∈ rs.map Report.time := by
  induction hconn : s.conn generalizing s with
  | nil =>
    rw [queuedKeys, hconn] at htime
    cases htime
  | cons x conn ih =>
    have hstep : step s (.poll true) = some s.pollConn := by simp only [step, hpoint, if_true]
    have hqueued : s.queuedKeys = (x.key?.map Prod.fst).toList ++
        X11Capture.queuedKeys { s with conn := conn } := by
      rw [queuedKeys, hconn, List.filterMap_cons]
      cases x.key? <;> rfl
    -- the call returned something else: the next call goes on with the rest
    have hnext : ∀ (u : X11Capture) (rs : List Report), s.pollConn = u → u.point = .outside →
        u.kbdGrabbed = false → u.conn = conn → u.reports = s.reports ++ rs → time ∈ u.queuedKeys →
          ∃ ls, ∃ t ∈ run step s ls, ∃ rs, t.reports = s.reports ++ rs ∧
            time ∈ rs.map Report.time := by
      rintro u rs rfl hout hfree hrest hreports hmem
      obtain ⟨ls, t, ht, rs', hreport, htime⟩ := ih (s := { s.pollConn with point := .polling })
        rfl hfree hmem hrest
      refine ⟨.poll true :: ([.nextEvent, .head, .wait (.ready 0)] ++ ls), t, ?_, rs ++ rs', ?_, ?_⟩
      · rw [run_cons, hstep, Option.bind_some, run_append, run_enter hout hfree]
        exact ht
      · rw [hreport, ← List.append_assoc, ← hreports]
      · rw [List.map_append]
        exact List.mem_append_right _ htime
    cases hx : x.key? with
    | some key =>
      have hpoll : s.pollConn = report { s with conn := conn } key.1 key.2 .x11 := by
        simp [pollConn, hconn, hx, hgrabbed]
      by_cases hkey : time = key.1
      · rw [hpoll] at hstep
        refine ⟨[.poll true], _, Option.bind_eq_some_iff.2 ⟨_, hstep, rfl⟩, _, rfl, ?_⟩
        rw [hkey]
        exact List.mem_singleton_self _
      · rw [hqueued, hx] at htime
        exact hnext _ _ hpoll rfl hgrabbed rfl rfl ((List.mem_cons.1 htime).resolve_left hkey)
    | none =>
      rw [hqueued, hx] at htime
      match x, hx with
      | .pointer (some event), _ =>
        have hpoll : s.pollConn = { s with conn := conn, point := .outside } := by
          simp [pollConn, hconn, XEvent.key?]
        exact hnext _ [] hpoll rfl hgrabbed rfl (List.append_nil _).symm htime
      | .pointer none, _ =>
        have hpoll : s.pollConn = { s with conn := conn } := by
          simp [pollConn, hconn, XEvent.key?]
        obtain ⟨ls, t, ht, hreport⟩ := ih (s := { s with conn := conn }) hpoint hgrabbed htime rfl
        rw [hpoll] at hstep
        exact ⟨.poll true :: ls, t, Option.bind_eq_some_iff.2 ⟨_, hstep, ht⟩, hreport⟩

/-- A key event that was queued before the grab is reported after it. -/
theorem exists_not_reportsOnce_of_unread (h : s.Inv) (hpoint : s.point = .outside)
    {free : ℕ → Bool} (hgrab : ∃ p ∈ s.eviocgrabs free, p.2 = true) (hunread : s.unreadKeys ≠ []) :
    ∃ ls, ¬ Throughout step ReportsOnce (s.grabPointer true free) ls := by
  have hcount : 0 < (s.eviocgrabs free).countP Prod.snd := List.countP_pos_iff.2 hgrab
  have hkeys : (s.grabPointer true free).unreadKeys = s.unreadKeys := unreadKeys_eviocgrabs s free
  have hgrabbed : (s.grabPointer true free).kbdGrabbed = true := if_pos hcount
  have hat : (s.grabPointer true free).grabbedAt = s.clock := if_pos hcount
  obtain ⟨ls, t, ht, r, hreports, hpath, hr, hmem, -⟩ :=
    exists_evdev_report_of_grabbed (s := s.grabPointer true free) hpoint hgrabbed (hkeys ▸ hunread)
  refine ⟨ls, not_throughout_of_run ht fun honce ↦ ?_⟩
  have hle := honce.recent r (hreports ▸ List.mem_append_right _ (List.mem_singleton_self r)) hpath
  have hlt := h.past r.time (hkeys ▸ hmem)
  rw [hr, hat] at hle
  omega

/-- While the keyboards count as grabbed, a key of one that is not is reported from its descriptor,
and after the grab from the X connection as well. -/
theorem exists_not_reportsOnce_of_ungrabbed (hpoint : s.point = .outside)
    (hgrabbed : s.kbdGrabbed = true) (hunread : s.unreadKeys = []) {j : ℕ} {k : Keyboard}
    (hk : s.keyboardDevices[j]? = some k) (hfree : k.grabbed = false) :
    ∃ ls, ¬ Throughout step ReportsOnce s ls := by
  have hholder : s.grabHolder {j} = none := by
    refine List.find?_eq_none.2 fun d _ ↦ ?_
    by_cases hd : d = j
    · simp [hd, hk, hfree]
    · simp [hd]
  -- the key is queued on both sides
  obtain ⟨u, hu⟩ : ∃ u, u = s.keyEvent {j} 30 .pressed := ⟨_, rfl⟩
  have hkey : step s (.key {j} 30 .pressed) = some u := by rw [hu]; cases s.point <;> rfl
  rw [keyEvent, hholder] at hu
  have hclock : ∀ t ∈ u.unreadKeys, t = s.clock := by
    intro t ht
    rw [hu] at ht
    rcases eq_or_mem_of_mem_mapIdx_queue ht with ht | ht
    · exact ht
    · exact absurd (hunread ▸ ht : t ∈ []) List.not_mem_nil
  have hne : u.unreadKeys ≠ [] := by
    have hqueue : k.queue (.ofKey s.clock 30 .pressed) ∈ u.keyboardDevices := by
      refine List.mem_of_getElem? (i := j) ?_
      simp [hu, hk]
    have hmem : s.clock ∈ u.unreadKeys := by
      refine List.mem_flatMap.2 ⟨_, hqueue, ?_⟩
      rw [unreadKeys_queue, EvdevEvent.key?_ofKey]
      exact List.mem_append_right _ (List.mem_singleton_self _)
    exact List.ne_nil_of_mem hmem
  have hqueued : s.clock ∈ u.queuedKeys := by
    simp [hu, queuedKeys, XEvent.key?_ofKey]
  obtain ⟨ls, t, ht, r, hreports, -, -, hr, hout, hconn, hgrab⟩ :=
    exists_evdev_report_of_grabbed (s := u) (by rw [hu]; exact hpoint)
      (by rw [hu]; exact hgrabbed) hne
  -- after the release the X connection has its turn
  have hrelease : t.ungrabPointer = { t with
      keyboardDevices := t.keyboardDevices.map Keyboard.release, kbdGrabbed := false } :=
    if_pos (by rw [hgrab, hu]; exact hgrabbed)
  obtain ⟨v, hv⟩ : ∃ v, v = t.ungrabPointer := ⟨_, rfl⟩
  have hungrab : step t .ungrabPointer = some v := by simp only [step, hout, hv]
  rw [hrelease] at hv
  have hqueued' : s.clock ∈ X11Capture.queuedKeys { v with point := .polling } := by
    rw [queuedKeys, hv]
    show s.clock ∈ t.conn.filterMap _
    rw [hconn]
    exact hqueued
  have hvfree : v.kbdGrabbed = false := by rw [hv]
  have hvout : v.point = .outside := by rw [hv]; exact hout
  obtain ⟨ls', w, hw, rs, hreports', hmem⟩ :=
    exists_x11_report (s := { v with point := .polling }) rfl hvfree hqueued'
  refine ⟨.key {j} 30 .pressed :: (ls ++ .ungrabPointer ::
    ([.nextEvent, .head, .wait (.ready 0)] ++ ls')),
    not_throughout_of_run (t := w) ?_ fun honce ↦ ?_⟩
  · rw [run_cons, hkey, Option.bind_some, run_append, ht, Option.bind_some, run_cons, hungrab,
      Option.bind_some, run_append, run_enter hvout hvfree]
    exact hw
  · have hall : w.reports = u.reports ++ [r] ++ rs := by
      rw [hreports', ← hreports, hv]
    have hnodup := honce.once
    rw [hall, List.map_append, List.nodup_append] at hnodup
    refine hnodup.2.2 s.clock ?_ s.clock hmem rfl
    rw [List.map_append]
    exact List.mem_append_right _ (List.mem_singleton.2 (hclock r.time hr).symm)

/-- A keyboard that was refused is left ungrabbed. -/
theorem exists_ungrabbed_of_refused (h : s.Inv) {free : ℕ → Bool}
    (hgrab : ∃ p ∈ s.eviocgrabs free, p.2 = true)
    (hrefused : ∃ p ∈ s.eviocgrabs free, p.2 = false) :
    ∃ (j : ℕ) (k : Keyboard), ((s.eviocgrabs free).map Prod.fst)[j]? = some k ∧
      k.grabbed = false := by
  -- one keyboard could be grabbed, so none was before
  have hfree : s.kbdGrabbed = false := by
    obtain ⟨p, hp, hok⟩ := hgrab
    obtain ⟨d, hd, rfl⟩ := List.mem_mapIdx.1 hp
    rcases s.keyboardDevices[d].eviocgrab_cases (free d) with ⟨hbefore, -, -⟩ | hno
    · rw [← h.together _ (List.getElem_mem hd), hbefore]
    · rw [hno] at hok
      cases hok
  obtain ⟨p, hp, hno⟩ := hrefused
  obtain ⟨j, hj⟩ := List.mem_iff_getElem?.1 hp
  refine ⟨j, p.1, by rw [List.getElem?_map, hj]; rfl, ?_⟩
  rw [h.together _ ((grabbed_of_mem_eviocgrabs hp).2 hno), hfree]

/-- **Freshness is needed**: after a grab that is not fresh, the law can fail. -/
theorem exists_not_reportsOnce (h : s.Inv) {l : Label} (hl : ¬ s.FreshGrab l) {s' : X11Capture}
    (hs' : s' ∈ step s l) : ∃ ls, ¬ Throughout step ReportsOnce s' ls := by
  match l with
  | .grabPointer true free =>
    have hpoint : s.point = .outside := by
      cases hpoint : s.point with
      | outside => rfl
      | _ => simp [step, hpoint] at hs'
    have hs'eq : s' = s.grabPointer true free := by
      simp only [step, hpoint] at hs'
      exact (Option.some.inj hs').symm
    rw [FreshGrab, Classical.not_imp] at hl
    obtain ⟨hgrab, hl⟩ := hl
    rw [hs'eq]
    by_cases hunread : s.unreadKeys = []
    · have hrefused : ∃ p ∈ s.eviocgrabs free, p.2 = false := by
        by_contra hall
        refine hl ⟨fun p hp ↦ ?_, hunread⟩
        exact by_contra fun hno ↦ hall ⟨p, hp, Bool.eq_false_of_not_eq_true hno⟩
      obtain ⟨j, k, hk, hfree⟩ := exists_ungrabbed_of_refused h hgrab hrefused
      have hkeys : (s.grabPointer true free).unreadKeys = [] :=
        (unreadKeys_eviocgrabs s free).trans hunread
      exact exists_not_reportsOnce_of_ungrabbed (s := s.grabPointer true free) hpoint
        (if_pos (List.countP_pos_iff.2 hgrab)) hkeys hk hfree
    · exact exists_not_reportsOnce_of_unread h hpoint hgrab hunread
  | .grabPointer false _ | .key _ _ _ | .other _ _ | .pointer _ | .ungrabPointer | .nextEvent
  | .head | .read | .wait _ | .poll _ => exact absurd trivial hl

end Converse

end X11Capture

end Kmflow
