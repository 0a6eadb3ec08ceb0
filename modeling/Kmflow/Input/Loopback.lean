import Kmflow.Input.EventNodes

/-!
# A host that captures and emulates

The capture of a daemon on a host where emulators, its own and those of other daemons, write to
devices of their own. What the kernel's input core makes of what is written is a parameter
(`InputCore`): of a device it hands something on to all who read it, or to the one who has grabbed
it. What it hands on is documented (`InputCore.Documented`): it leaves out codes that the device
does not have, and what changes nothing.

What is emulated stays apart from what is captured. Whatever the core does, the capture does what it
would do on a host without emulators (`alone_of_run`), so nothing that comes from a peer goes back
to it. And what the core makes of what is emulated reaches the desktop, also while the devices of
the user are grabbed; if the core does as is documented, the pointer and the wheels are turned by
all that was emulated, and the keys that the device has are down that were pressed last
(`desktop_of_run`).
-/

namespace Kmflow

open Transition Channels
open EvdevEmulator (evSyn evKey evRel emit virtualInput)

/-! ### What the kernel makes of what is written -/

/-- The kernel's input core, which is no part of the program: what it has handed to the readers of a
device after this was written to the device. -/
structure InputCore where
  passed : InputDevice → List EvdevCapture.InputEventRaw → List EvdevCapture.InputEventRaw
  /-- Nothing comes of itself. -/
  passed_nil : ∀ device, passed device [] = []
  /-- What has been handed on is not taken back. -/
  grows : ∀ device written more, passed device written <+: passed device (written ++ more)

namespace EvdevEmulator

theorem eq_of_mem_relEvent {code : UInt16} {delta : F64} {value : ℤ} {raw : InputEventRaw}
    (h : raw ∈ relEvent code delta value) : raw = ⟨evRel, code, value⟩ := by
  rw [relEvent] at h
  split_ifs at h
  · exact absurd h List.not_mem_nil
  · exact List.mem_singleton.1 h

/-- What is written can be written: its value is an `i32`. -/
theorem inI32_of_mem_emit {event : InputEvent} {raw : InputEventRaw} (h : raw ∈ emit event) :
    InI32 raw.value := by
  have hone : InI32 1 := by decide
  rcases event with ⟨dx, dy⟩ | ⟨button, _ | _⟩ | ⟨dx, dy⟩ | ⟨scancode, _ | _⟩
  case mouseMove =>
    simp only [emit, List.mem_append, List.mem_singleton] at h
    rcases h with (h | h) | rfl
    · rw [eq_of_mem_relEvent h]
      exact dx.inI32_asI32
    · rw [eq_of_mem_relEvent h]
      exact dy.inI32_asI32
    · exact inI32_zero
  case scroll =>
    simp only [emit, List.mem_append, List.mem_singleton] at h
    rcases h with (h | h) | rfl
    · rw [eq_of_mem_relEvent h]
      exact inI32_wrapI32 _
    · rw [eq_of_mem_relEvent h]
      exact dx.inI32_asI32
    · exact inI32_zero
  all_goals
    simp only [emit, List.mem_cons, List.not_mem_nil, or_false] at h
    rcases h with rfl | rfl
    · first | exact hone | exact inI32_zero
    · exact inI32_zero

/-- What is written for an event, as the kernel takes it. -/
def writes (event : InputEvent) : List EvdevCapture.InputEventRaw :=
  (emit event).attach.map fun raw ↦ ⟨raw.1, inI32_of_mem_emit raw.2⟩

/-- Without their times, the writes are the events that the emulator emits. -/
theorem map_writes (event : InputEvent) :
    (writes event).map (·.toInputEventRaw) = emit event := by
  rw [writes, List.map_map]
  exact List.attach_map_subtype_val _

theorem map_flatMap_writes (events : List InputEvent) :
    (events.flatMap writes).map (·.toInputEventRaw) = events.flatMap emit := by
  rw [List.map_flatMap]
  exact List.flatMap_congr fun event _ ↦ map_writes event

/-- The transition of a key or a button, by its code; a repeat is none. -/
def InputEventRaw.toggle? (raw : InputEventRaw) : Option (Toggle UInt16) :=
  if raw.type ≠ evKey then none
  else if raw.value = 1 then some (.down raw.code)
  else if raw.value = 0 then some (.up raw.code)
  else none

end EvdevEmulator

/-- The transition that an event is of a key or a button of the device it is emulated by. -/
def InputEvent.codeToggle? : InputEvent → Option (Toggle UInt16)
  | key scancode .pressed => some (.down scancode.toUInt16)
  | key scancode .released => some (.up scancode.toUInt16)
  | mouseButton button .pressed => some (.down (EvdevEmulator.buttonCode button))
  | mouseButton button .released => some (.up (EvdevEmulator.buttonCode button))
  | mouseMove _ _ | scroll _ _ => none

namespace EvdevEmulator

theorem toggle?_of_mem_relEvent {code : UInt16} {delta : F64} {value : ℤ} {raw : InputEventRaw}
    (h : raw ∈ relEvent code delta value) : raw.toggle? = none := by
  have hne : evRel ≠ evKey := by decide
  rw [eq_of_mem_relEvent h]
  exact if_pos hne

/-- What is written for an event has the transition of the event. -/
theorem filterMap_toggle?_emit (event : InputEvent) :
    (emit event).filterMap InputEventRaw.toggle? = event.codeToggle?.toList := by
  have hrel {code code' : UInt16} {delta delta' : F64} {value value' : ℤ} :
      (relEvent code delta value ++ relEvent code' delta' value' ++ [synEvent]).filterMap
        InputEventRaw.toggle? = [] := by
    refine List.filterMap_eq_nil_iff.2 fun raw hraw ↦ ?_
    simp only [List.mem_append, List.mem_singleton] at hraw
    rcases hraw with (hraw | hraw) | rfl
    · exact toggle?_of_mem_relEvent hraw
    · exact toggle?_of_mem_relEvent hraw
    · rfl
  rcases event with ⟨dx, dy⟩ | ⟨button, _ | _⟩ | ⟨dx, dy⟩ | ⟨scancode, _ | _⟩
  case mouseMove | scroll => exact hrel
  all_goals rfl

/-- A key is written as up or down, never as repeated. -/
theorem value_of_mem_emit {event : InputEvent} {raw : InputEventRaw} (h : raw ∈ emit event)
    (hkey : raw.type = evKey) : raw.value = 0 ∨ raw.value = 1 := by
  have hrel {code : UInt16} {delta : F64} {value : ℤ} : raw ∉ relEvent code delta value := by
    intro hraw
    have hne : evRel ≠ evKey := by decide
    rw [eq_of_mem_relEvent hraw] at hkey
    exact hne hkey
  rcases event with ⟨dx, dy⟩ | ⟨button, _ | _⟩ | ⟨dx, dy⟩ | ⟨scancode, _ | _⟩
  case mouseMove | scroll =>
    simp only [emit, List.mem_append, List.mem_singleton] at h
    rcases h with (h | h) | rfl
    · exact absurd h hrel
    · exact absurd h hrel
    · exact absurd hkey (by decide)
  all_goals
    simp only [emit, List.mem_cons, List.not_mem_nil, or_false] at h
    rcases h with rfl | rfl
    · simp
    · exact absurd hkey (by decide)

/-- The transitions written are those of the events. -/
theorem filterMap_toggle?_flatMap_writes (events : List InputEvent) :
    (events.flatMap writes).filterMap (·.toggle?) = events.filterMap InputEvent.codeToggle? :=
  calc (events.flatMap writes).filterMap (·.toggle?)
    _ = ((events.flatMap writes).map (·.toInputEventRaw)).filterMap InputEventRaw.toggle? := by
      rw [List.filterMap_map]
      rfl
    _ = events.flatMap fun event ↦ (emit event).filterMap InputEventRaw.toggle? := by
      rw [map_flatMap_writes, List.filterMap_flatMap]
    _ = events.filterMap InputEvent.codeToggle? := by
      rw [List.filterMap_eq_flatMap_toList]
      exact List.flatMap_congr fun event _ ↦ filterMap_toggle?_emit event

theorem value_of_mem_flatMap_writes {events : List InputEvent}
    {raw : EvdevCapture.InputEventRaw} (h : raw ∈ events.flatMap writes)
    (hkey : raw.type = evKey) : raw.value = 0 ∨ raw.value = 1 := by
  have hmem : raw.toInputEventRaw ∈ events.flatMap emit := by
    rw [← map_flatMap_writes]
    exact List.mem_map_of_mem h
  obtain ⟨event, -, hraw⟩ := List.mem_flatMap.1 hmem
  exact value_of_mem_emit hraw hkey

/-- The turns of a wheel that are not zero, as they are written. -/
theorem filter_axisValues_turnCode (axis : Axis) (events : List InputEvent) :
    (axisValues (turnCode axis) (events.flatMap emit)).filter (· ≠ 0) =
      (events.map fun e ↦ turnValue axis (e.turn axis)).filter (· ≠ 0) := by
  have hzero {d : F64} (hd : d.isZero = true) : turnValue axis d = 0 := by
    cases axis <;> simp [turnValue, F64.asI32_of_isZero hd, wrapI32]
  induction events with
  | nil => rfl
  | cons e events ih =>
    rw [List.flatMap_cons, axisValues_append, List.filter_append, ih, List.map_cons,
      axisValues_turnCode_emit]
    cases hd : (e.turn axis).isZero with
    | true => simp [hzero hd]
    | false =>
      simp only [Bool.false_eq_true, if_false, List.filter_cons, List.filter_nil]
      split_ifs <;> rfl

theorem sum_filter_ne_zero (values : List ℤ) : (values.filter (· ≠ 0)).sum = values.sum := by
  induction values with
  | nil => rfl
  | cons value values ih =>
    rw [List.filter_cons, List.sum_cons, ← ih]
    split_ifs with hvalue
    · rw [List.sum_cons]
    · rw [show value = 0 by simpa using hvalue, zero_add]

/-! ### The device of an emulator -/

/-- The virtual device has relative axes. -/
theorem evRel_mem_types : evRel ∈ virtualInput.types :=
  (mem_types_virtualInput evRel).2 (.inr (.inl rfl))

/-- It has keys. -/
theorem evKey_mem_types : evKey ∈ virtualInput.types := (mem_types_virtualInput evKey).2 (.inl rfl)

/-- It has both axes of the pointer. -/
theorem moveCode_mem_rels (axis : Axis) : moveCode axis ∈ virtualInput.rels :=
  (mem_rels_virtualInput _).2 (by cases axis <;> decide)

/-- It has both wheels. -/
theorem turnCode_mem_rels (axis : Axis) : turnCode axis ∈ virtualInput.rels :=
  (mem_rels_virtualInput _).2 (by cases axis <;> decide)

end EvdevEmulator

namespace InputCore

open EvdevCapture (InputEventRaw)
open EvdevEmulator (axisValues synEvent writes)

/-- What was written ends with the end of a report. -/
def Complete (written : List InputEventRaw) : Prop :=
  ∀ raw ∈ written.getLast?, raw.toInputEventRaw = synEvent

/-- What is documented of the input core. It passes on codes that the device has, and of them what
changes something: the values of the relative axes that are not zero, and of the keys a press of one
that is up and a release of one that is down. At the end of a report it has passed on all that. -/
structure Documented (core : InputCore) : Prop where
  axis : ∀ (device : InputDevice) (written : List InputEventRaw) (code : UInt16),
    evRel ∈ device.types → code ∈ device.rels → Complete written →
      axisValues code ((core.passed device written).map (·.toInputEventRaw)) =
        (axisValues code (written.map (·.toInputEventRaw))).filter (· ≠ 0)
  keys : ∀ (device : InputDevice) (written : List InputEventRaw),
    evKey ∈ device.types → Complete written →
      (∀ raw ∈ written, raw.type = evKey → raw.value = 0 ∨ raw.value = 1) →
      (core.passed device written).filterMap (·.toggle?) =
        Toggle.effective ∅ ((written.filterMap (·.toggle?)).filter (·.switch ∈ device.keys))

/-- What is written for events is complete. -/
theorem complete_flatMap_writes (events : List InputEvent) : Complete (events.flatMap writes) := by
  have hends (event : InputEvent) : ∃ front, emit event = front ++ [synEvent] := by
    rcases event with ⟨dx, dy⟩ | ⟨button, _ | _⟩ | ⟨dx, dy⟩ | ⟨scancode, _ | _⟩
    case mouseMove | scroll => exact ⟨_, rfl⟩
    all_goals exact ⟨[_], rfl⟩
  intro raw hraw
  have hlast : ((events.flatMap writes).map (·.toInputEventRaw)).getLast? =
      some raw.toInputEventRaw := by
    rw [List.getLast?_map, Option.mem_def.1 hraw]
    rfl
  rw [EvdevEmulator.map_flatMap_writes] at hlast
  rcases List.eq_nil_or_concat events with rfl | ⟨front, event, rfl⟩
  · cases hlast
  · obtain ⟨report, hreport⟩ := hends event
    rw [List.concat_eq_append, List.flatMap_append, List.flatMap_singleton, hreport,
      ← List.append_assoc, List.getLast?_concat] at hlast
    exact (Option.some.inj hlast).symm

section Adds

variable (core : InputCore) (written : List InputEventRaw) (event : InputEvent)

/-- What is handed on of an event that is emulated, after what was written before it. -/
def adds : List InputEventRaw :=
  (core.passed virtualInput (written ++ EvdevEmulator.writes event)).drop
    (core.passed virtualInput written).length

theorem passed_append_adds :
    core.passed virtualInput written ++ core.adds written event =
      core.passed virtualInput (written ++ EvdevEmulator.writes event) :=
  List.prefix_iff_eq_append.1 (core.grows virtualInput written _)

end Adds

/-! ### A core for the samples -/

/-- What a core for the samples does with a raw event: it hands on at once what changes something,
and the end of a report that is not empty. -/
def sampleStep (device : InputDevice) (down : Finset UInt16) (begun : Bool) (raw : InputEventRaw) :
    List InputEventRaw × Finset UInt16 × Bool :=
  if raw.toInputEventRaw = EvdevEmulator.synEvent then (if begun then [raw] else [], down, false)
  else
    match raw.toggle? with
    | some t =>
      if evKey ∈ device.types ∧ t.switch ∈ device.keys ∧ t.apply down ≠ down then
        ([raw], t.apply down, true)
      else ([], down, begun)
    | none =>
      if raw.type = evRel ∧ evRel ∈ device.types ∧ raw.code ∈ device.rels ∧ raw.value ≠ 0 then
        ([raw], down, true)
      else ([], down, begun)

/-- What the sample core passes on, given the keys that are down and whether a report has begun. -/
def sampleFrom (device : InputDevice) :
    Finset UInt16 → Bool → List InputEventRaw → List InputEventRaw
  | _, _, [] => []
  | down, begun, raw :: raws =>
    let (out, down', begun') := sampleStep device down begun raw
    out ++ sampleFrom device down' begun' raws

/-- What was passed stays passed. -/
theorem sampleFrom_append (device : InputDevice) (written more : List InputEventRaw)
    (down : Finset UInt16) (begun : Bool) :
    sampleFrom device down begun written <+: sampleFrom device down begun (written ++ more) := by
  induction written generalizing down begun with
  | nil => exact List.nil_prefix
  | cons raw written ih => exact (List.prefix_append_right_inj _).2 (ih _ _)

/-- An input core that passes on what the documentation says, one raw event at a time. -/
def sampleCore : InputCore where
  passed device written := sampleFrom device ∅ false written
  passed_nil _ := rfl
  grows device written more := sampleFrom_append device written more ∅ false

section Sample

open EvdevEmulator (axisValues)

variable {device : InputDevice} {down : Finset UInt16} {begun : Bool} {raw : InputEventRaw}

theorem type_eq_of_toggle? {t : Toggle UInt16} (h : raw.toggle? = some t) : raw.type = evKey := by
  by_contra hne
  rw [EvdevEmulator.InputEventRaw.toggle?, if_pos hne] at h
  cases h

theorem axisValues_sampleStep {code : UInt16} (htype : evRel ∈ device.types)
    (hcode : code ∈ device.rels) :
    axisValues code ((sampleStep device down begun raw).1.map (·.toInputEventRaw)) =
      (axisValues code [raw.toInputEventRaw]).filter (· ≠ 0) := by
  have hother (hne : raw.type ≠ evRel) : axisValues code [raw.toInputEventRaw] = [] :=
    List.filterMap_cons_none (if_neg fun h ↦ hne h.1)
  have hrelKey : evKey ≠ evRel := by decide
  have hrelSyn : evSyn ≠ evRel := by decide
  by_cases hsyn : raw.toInputEventRaw = EvdevEmulator.synEvent
  · have hnil := hother fun h ↦ hrelSyn (by rwa [hsyn] at h)
    rw [sampleStep, if_pos hsyn, hnil]
    cases begun
    · rfl
    · exact hnil
  rw [sampleStep, if_neg hsyn]
  rcases htoggle : raw.toggle? with _ | t
  · dsimp only
    by_cases hrel : raw.type = evRel
    · by_cases hraw : raw.code = code
      · subst hraw
        by_cases hvalue : raw.value = 0
        · simp [axisValues, hrel, htype, hcode, hvalue]
        · simp [axisValues, hrel, htype, hcode, hvalue]
      · split_ifs <;> simp [axisValues, hraw]
    · rw [if_neg fun h ↦ hrel h.1, hother hrel]
      rfl
  · have hnil := hother fun h ↦ hrelKey ((type_eq_of_toggle? htoggle).symm.trans h)
    dsimp only
    split_ifs
    · rw [hnil]
      exact hnil
    · rw [hnil]
      rfl

/-- Of the transitions, those pass that change what is down. -/
theorem toggles_sampleStep (htype : evKey ∈ device.types) :
    (sampleStep device down begun raw).1.filterMap (·.toggle?) =
        Toggle.effective down (raw.toggle?.toList.filter (·.switch ∈ device.keys)) ∧
      (sampleStep device down begun raw).2.1 =
        Toggle.replay down (raw.toggle?.toList.filter (·.switch ∈ device.keys)) := by
  by_cases hsyn : raw.toInputEventRaw = EvdevEmulator.synEvent
  · have hnone : raw.toggle? = none := by rw [hsyn]; rfl
    rw [sampleStep, if_pos hsyn, hnone]
    cases begun
    · exact ⟨rfl, rfl⟩
    · exact ⟨List.filterMap_cons_none hnone, rfl⟩
  rw [sampleStep, if_neg hsyn]
  rcases htoggle : raw.toggle? with _ | t
  · dsimp only
    split_ifs
    · exact ⟨List.filterMap_cons_none htoggle, rfl⟩
    · exact ⟨rfl, rfl⟩
  · dsimp only [Option.toList_some]
    by_cases hkey : t.switch ∈ device.keys
    · by_cases hsame : t.apply down = down
      · simp [hkey, hsame, Toggle.effective]
      · simp [hkey, hsame, Toggle.effective, htype, htoggle]
    · simp [hkey, Toggle.effective]

theorem axisValues_sampleFrom {code : UInt16} (htype : evRel ∈ device.types)
    (hcode : code ∈ device.rels) (written : List InputEventRaw) :
    axisValues code ((sampleFrom device down begun written).map (·.toInputEventRaw)) =
      (axisValues code (written.map (·.toInputEventRaw))).filter (· ≠ 0) := by
  induction written generalizing down begun with
  | nil => rfl
  | cons raw written ih =>
    rw [sampleFrom, List.map_append, EvdevEmulator.axisValues_append,
      axisValues_sampleStep htype hcode, ih, ← List.filter_append,
      ← EvdevEmulator.axisValues_append]
    rfl

theorem toggles_sampleFrom (htype : evKey ∈ device.types) (written : List InputEventRaw) :
    (sampleFrom device down begun written).filterMap (·.toggle?) =
      Toggle.effective down ((written.filterMap (·.toggle?)).filter (·.switch ∈ device.keys)) := by
  induction written generalizing down begun with
  | nil => rfl
  | cons raw written ih =>
    obtain ⟨hout, hdown⟩ := @toggles_sampleStep device down begun raw htype
    have hcons : (raw :: written).filterMap (·.toggle?) =
        raw.toggle?.toList ++ written.filterMap (·.toggle?) := by
      rw [List.filterMap_cons]
      cases raw.toggle? <;> rfl
    rw [sampleFrom, List.filterMap_append, hout, ih, hdown, hcons, List.filter_append,
      Toggle.effective_append]

end Sample

/-- **This core meets the assumptions.** -/
theorem documented_sampleCore : sampleCore.Documented where
  axis _ written _ htype hcode _ := axisValues_sampleFrom htype hcode written
  keys _ written htype _ _ := toggles_sampleFrom htype written

end InputCore

/-! ### The host -/

/-- The capture with its devices, what has been written to the devices of the emulators, and the raw
events that the desktop has got. -/
structure Loopback (ι : Type) where
  devices : EvdevDevices ι
  written : ι → List EvdevCapture.InputEventRaw
  desktop : List (ι × EvdevCapture.InputEventRaw)

namespace Loopback

open EvdevCapture (InputEventRaw)

/-- The labels of the host. -/
inductive Label (ι : Type) where
  /-- The capture does something, or a device of the user brings something in. -/
  | capture (i : EvdevDevices.Input ι)
  /-- An emulator is given an event, and writes to its device. -/
  | emit (fd : ι) (event : InputEvent)

variable {ι : Type}

/-- The capture has just begun, and nothing has been emulated. -/
def start : Loopback ι := ⟨.start, fun _ ↦ [], []⟩

/-- What the capture sees. -/
def Label.capture? : Label ι → Option (EvdevDevices.Input ι)
  | capture i => some i
  | emit _ _ => none

section Step

variable [DecidableEq ι]

/-- What an emulator is given. -/
def Label.emitOn? (fd : ι) : Label ι → Option InputEvent
  | emit fd' event => if fd' = fd then some event else none
  | capture _ => none

/-- What the desktop gets of what arrives. -/
def reaching (s : Loopback ι) (arriving : List (ι × InputEventRaw)) : List (ι × InputEventRaw) :=
  arriving.filter fun entry ↦ entry.1 ∉ s.devices.exclusive

/-- What the emulator's device brings when it is given an event. -/
def arrivingOf (core : InputCore) (s : Loopback ι) (fd : ι) (event : InputEvent) :
    List (ι × InputEventRaw) :=
  (core.adds (s.written fd) event).map (fd, ·)

/-- A step of the host, where `emulators` are the devices that emulators have made. -/
def step (core : InputCore) (set : DeviceSet ι) (emulators : Finset ι) (s : Loopback ι) :
    Label ι → Option (Loopback ι)
  | .capture i =>
    if ∀ entry ∈ EvdevDevices.arriving i, entry.1 ∉ emulators then
      (EvdevDevices.step set s.devices i).map fun d ↦
        { s with devices := d, desktop := s.desktop ++ s.reaching (EvdevDevices.arriving i) }
    else none
  | .emit fd event =>
    if fd ∈ emulators then
      some
        { devices :=
            { s.devices with
              queue := Function.update s.devices.queue fd
                (s.devices.queue fd ++ core.adds (s.written fd) event) }
          written := Function.update s.written fd
            (s.written fd ++ EvdevEmulator.writes event)
          desktop := s.desktop ++ s.reaching (s.arrivingOf core fd event) }
    else none

/-- What a step adds to the log of the capture. -/
def record (core : InputCore) (log : EvdevDevices.Log ι) (s : Loopback ι) (label : Label ι)
    (s' : Loopback ι) : EvdevDevices.Log ι :=
  match label with
  | .capture i => EvdevDevices.record log s.devices i s'.devices
  | .emit fd event => { log with arrived := log.arrived ++ s.arrivingOf core fd event }

/-- The host with the history of its capture. -/
def recorded (core : InputCore) (set : DeviceSet ι) (emulators : Finset ι) :
    Loopback ι × EvdevDevices.Log ι → Label ι → Option (Loopback ι × EvdevDevices.Log ι) :=
  withHistory (step core set emulators) (record core)

end Step

/-! ### What the capture sees -/

/-- A capture that differs in what waits at the emulators' devices, and has done the same. -/
structure Alone (set : DeviceSet ι) (emulators : Finset ι) (sl : Loopback ι × EvdevDevices.Log ι)
    (tl : EvdevDevices ι × EvdevDevices.Log ι) : Prop where
  devices : tl.1 = { sl.1.devices with queue := tl.1.queue }
  queue : ∀ fd ∉ emulators, tl.1.queue fd = sl.1.devices.queue fd
  served : EvdevDevices.Served set sl.1.devices.stage
  read : tl.2.read = sl.2.read
  returned : tl.2.returned = sl.2.returned

section Alone

variable [DecidableEq ι] {core : InputCore} {set : DeviceSet ι} {emulators : Finset ι}

/-- **What waits at other devices makes no difference** to a step of the capture. -/
theorem exists_step_of_queue (hwatched : ∀ fd ∈ emulators, fd ∉ set.watched)
    {s s' : EvdevDevices ι} {i : EvdevDevices.Input ι} {queue : ι → List InputEventRaw}
    (hqueue : ∀ fd ∉ emulators, queue fd = s.queue fd)
    (hserved : EvdevDevices.Served set s.stage) (hs' : s' ∈ EvdevDevices.step set s i) :
    ∃ queue', { s' with queue := queue' } ∈ EvdevDevices.step set { s with queue := queue } i ∧
      (∀ fd ∉ emulators, queue' fd = s'.queue fd) ∧
      EvdevDevices.taken { s with queue := queue } i = EvdevDevices.taken s i := by
  obtain ⟨capture, grabbed, exclusive, queue₀, signalled, stage⟩ := s
  dsimp only at hqueue hserved
  have hread (fd : ι) (hfd : fd ∈ set.watched) : queue fd = queue₀ fd :=
    hqueue fd fun hmem ↦ hwatched fd hmem hfd
  rcases i with ⟨fd, raw⟩ | ⟨fd, raw⟩ | _ | _ | polled | ok | refused | _
  case arrive | overrun =>
    cases hs'
    refine ⟨_, rfl, fun fd' hfd' ↦ ?_, rfl⟩
    rcases eq_or_ne fd' fd with rfl | hne
    · simp only [Function.update_self, hqueue fd' hfd']
    · simp only [Function.update_of_ne hne, hqueue fd' hfd']
  case signal =>
    cases hs'
    exact ⟨_, rfl, hqueue, rfl⟩
  case nextEvent =>
    rcases stage with _ | _ | _ <;> cases hs'
    exact ⟨_, rfl, hqueue, rfl⟩
  case epollWait =>
    rcases stage with _ | _ | _
    case polling =>
      rcases polled with _ | _ | files
      case ready =>
        obtain ⟨hreports, hs'⟩ := Option.ite_none_right_eq_some.1 hs'
        obtain rfl := Option.some.inj hs'
        have hreports' : EvdevDevices.Reports set
            ⟨capture, grabbed, exclusive, queue, signalled, .polling⟩ files := by
          refine ⟨hreports.1, fun file hfile ↦ ?_, fun hnil ↦ ?_⟩
          · have hmay := hreports.2.1 file hfile
            rcases file with fd | _ <;> exact hmay
          · obtain ⟨hempty, hsignalled⟩ := hreports.2.2 hnil
            exact ⟨fun fd hfd ↦ (hread fd hfd).trans (hempty fd hfd), hsignalled⟩
        exact ⟨queue, if_pos hreports', hqueue, rfl⟩
      all_goals
        cases hs'
        exact ⟨_, rfl, hqueue, rfl⟩
    all_goals cases hs'
  case read =>
    rcases stage with _ | _ | ⟨fd, ready⟩
    case reading =>
      have hfd := hread fd hserved.1
      rcases ok
      · cases hs'
        exact ⟨queue, rfl, hqueue, rfl⟩
      rcases hraw : queue₀ fd with _ | ⟨raw, rest⟩
      · simp only [EvdevDevices.step, hraw] at hs'
        cases hs'
        exact ⟨queue, by simp only [EvdevDevices.step, hfd.trans hraw]; rfl, hqueue,
          by simp only [EvdevDevices.taken, hfd]⟩
      · simp only [EvdevDevices.step, hraw] at hs'
        cases hs'
        refine ⟨Function.update queue fd rest,
          by simp only [EvdevDevices.step, hfd.trans hraw]; rfl, fun fd' hfd' ↦ ?_,
          by simp only [EvdevDevices.taken, hfd]⟩
        show Function.update queue fd rest fd' = Function.update queue₀ fd rest fd'
        rcases eq_or_ne fd' fd with rfl | hne
        · rw [Function.update_self, Function.update_self]
        · rw [Function.update_of_ne hne, Function.update_of_ne hne, hqueue fd' hfd']
    all_goals cases hs'
  case grabPointer | ungrabPointer =>
    rcases stage with _ | _ | _ <;> cases hs'
    rcases grabbed <;> exact ⟨queue, rfl, hqueue, rfl⟩

/-- A step of the host is none for the capture, or one that it does as if it were alone. -/
theorem Alone.step (hwatched : ∀ fd ∈ emulators, fd ∉ set.watched)
    {s s' : Loopback ι} {log : EvdevDevices.Log ι} {tl : EvdevDevices ι × EvdevDevices.Log ι}
    {i : EvdevDevices.Input ι} (h : Alone set emulators (s, log) tl)
    (hs' : s' ∈ Loopback.step core set emulators s (.capture i)) :
    ∃ tl' ∈ EvdevDevices.recorded set tl i,
      Alone set emulators (s', record core log s (.capture i) s') tl' := by
  obtain ⟨t, log'⟩ := tl
  obtain ⟨hdevices, hqueue, hserved, hread, hreturned⟩ := h
  dsimp only at hdevices hqueue hserved hread hreturned
  obtain ⟨-, hs'⟩ := Option.ite_none_right_eq_some.1 hs'
  obtain ⟨d, hd, rfl⟩ := Option.map_eq_some_iff.1 hs'
  obtain ⟨queue', hstep, hqueue', htaken⟩ := exists_step_of_queue hwatched hqueue hserved hd
  rw [← hdevices] at hstep htaken
  have hcapture : t.capture = s.devices.capture := by rw [hdevices]
  refine ⟨({ d with queue := queue' }, _), mem_withHistory.2 ⟨hstep, rfl⟩, rfl, hqueue',
    EvdevDevices.served_of_step hserved hd, ?_, ?_⟩
  · simp only [record, EvdevDevices.record, htaken, hread]
  · simp only [record, EvdevDevices.record, htaken, hreturned, hcapture]

theorem Alone.emit {s s' : Loopback ι} {log : EvdevDevices.Log ι}
    {tl : EvdevDevices ι × EvdevDevices.Log ι} {fd : ι} {event : InputEvent}
    (h : Alone set emulators (s, log) tl)
    (hs' : s' ∈ Loopback.step core set emulators s (.emit fd event)) :
    Alone set emulators (s', record core log s (.emit fd event) s') tl := by
  obtain ⟨hfd, hs'⟩ := Option.ite_none_right_eq_some.1 hs'
  obtain rfl := Option.some.inj hs'
  refine ⟨h.devices, fun fd' hfd' ↦ ?_, h.served, h.read, h.returned⟩
  have hne : fd' ≠ fd := fun heq ↦ hfd' (heq ▸ hfd)
  show _ = Function.update s.devices.queue fd _ fd'
  rw [Function.update_of_ne hne]
  exact h.queue fd' hfd'

end Alone

/-! ### What the desktop gets -/

section Desktop

variable [DecidableEq ι] {core : InputCore} {set : DeviceSet ι} {emulators : Finset ι}
  {s s' : Loopback ι} {label : Label ι}

/-- Only devices that were opened are grabbed. -/
theorem exclusive_subset_of_step {d d' : EvdevDevices ι} {i : EvdevDevices.Input ι}
    (h : d.exclusive ⊆ set.opened) (hd' : d' ∈ EvdevDevices.step set d i) :
    d'.exclusive ⊆ set.opened := by
  rcases i with _ | _ | _ | _ | _ | _ | refused | _
  case grabPointer =>
    rcases hstage : d.stage with _ | _ | _ <;> simp only [EvdevDevices.step, hstage] at hd' <;>
      cases hd'
    split_ifs
    · exact h
    · exact Finset.sdiff_subset
  case ungrabPointer =>
    rcases hstage : d.stage with _ | _ | _ <;> simp only [EvdevDevices.step, hstage] at hd' <;>
      cases hd'
    split_ifs
    · exact Finset.empty_subset _
    · exact h
  all_goals
    rw [(EvdevDevices.grab_of_step hd' (fun _ hi ↦ by cases hi) fun hi ↦ by cases hi).2]
    exact h

/-- Only opened devices are kept from the desktop. -/
theorem exclusive_of_step (h : s.devices.exclusive ⊆ set.opened)
    (hs' : s' ∈ step core set emulators s label) : s'.devices.exclusive ⊆ set.opened := by
  rcases label with i | ⟨fd, event⟩
  · obtain ⟨-, hs'⟩ := Option.ite_none_right_eq_some.1 hs'
    obtain ⟨d, hd, rfl⟩ := Option.map_eq_some_iff.1 hs'
    exact exclusive_subset_of_step h hd
  · obtain ⟨-, hs'⟩ := Option.ite_none_right_eq_some.1 hs'
    obtain rfl := Option.some.inj hs'
    exact h

theorem on_map_self (fd : ι) (raws : List InputEventRaw) : on fd (raws.map (fd, ·)) = raws := by
  induction raws with
  | nil => rfl
  | cons raw raws ih => rw [List.map_cons, on_cons_self, ih]

theorem on_map_of_ne {fd fd' : ι} (h : fd' ≠ fd) (raws : List InputEventRaw) :
    on fd (raws.map (fd', ·)) = [] := by
  induction raws with
  | nil => rfl
  | cons raw raws ih => rw [List.map_cons, on_cons_of_ne h, ih]

/-- What is written to an emulator's device is what the emulator writes. -/
theorem written_of_step {fd : ι} (hs' : s' ∈ step core set emulators s label) :
    s'.written fd =
      s.written fd ++ (label.emitOn? fd).toList.flatMap EvdevEmulator.writes := by
  rcases label with i | ⟨fd', event⟩
  · obtain ⟨-, hs'⟩ := Option.ite_none_right_eq_some.1 hs'
    obtain ⟨d, -, rfl⟩ := Option.map_eq_some_iff.1 hs'
    exact (List.append_nil _).symm
  · obtain ⟨-, hs'⟩ := Option.ite_none_right_eq_some.1 hs'
    obtain rfl := Option.some.inj hs'
    rcases eq_or_ne fd' fd with rfl | hne
    · simp only [Function.update_self, Label.emitOn?, if_true, Option.toList_some,
        List.flatMap_singleton]
    · simp only [Function.update_of_ne hne.symm, Label.emitOn?, if_neg hne, Option.toList_none,
        List.flatMap_nil, List.append_nil]

/-- The desktop gets what the core hands on, and nothing else from an emulator's device. -/
theorem on_desktop_of_step {fd : ι} (hfd : fd ∈ emulators) (hgrab : fd ∉ s.devices.exclusive)
    (h : on fd s.desktop = core.passed virtualInput (s.written fd))
    (hs' : s' ∈ step core set emulators s label) :
    on fd s'.desktop = core.passed virtualInput (s'.written fd) := by
  have hreaching (arriving : List (ι × InputEventRaw)) :
      on fd (s.reaching arriving) = on fd arriving := by
    rw [reaching, on_filter (· ∉ s.devices.exclusive), if_pos hgrab]
  rcases label with i | ⟨fd', event⟩
  · obtain ⟨hforeign, hs'⟩ := Option.ite_none_right_eq_some.1 hs'
    obtain ⟨d, -, rfl⟩ := Option.map_eq_some_iff.1 hs'
    have hnil : on fd (EvdevDevices.arriving i) = [] :=
      List.eq_nil_iff_forall_not_mem.2 fun raw hraw ↦ hforeign _ (mem_on.1 hraw) hfd
    rw [on_append, hreaching, hnil, List.append_nil]
    exact h
  · obtain ⟨-, hs'⟩ := Option.ite_none_right_eq_some.1 hs'
    obtain rfl := Option.some.inj hs'
    rw [on_append, hreaching, arrivingOf, h]
    rcases eq_or_ne fd' fd with rfl | hne
    · simp only [on_map_self, InputCore.passed_append_adds, Function.update_self]
    · simp only [on_map_of_ne hne, List.append_nil, Function.update_of_ne hne.symm]

end Desktop

/-! ### Runs -/

/-- The devices of the emulators on the host, as far as the capture finds them: `EvdevEmulator::new`
has made them, and they answer to their name. -/
def MadeByEmulators (entries : List (Option (EventNode ι))) (emulators : Finset ι) : Prop :=
  ∀ node, some node ∈ entries → node.fd ∈ emulators →
    (∃ opens fails, node.device ∈ EvdevEmulator.new opens fails) ∧ node.answers .name = true

/-- The keyboard and the mouse of the sample. -/
def sampleSet : DeviceSet ℕ := ⟨{0, 1}, {0, 1}⟩

theorem openDevices_sampleEntries : openDevices sampleEntries ∅ = some sampleSet := by
  rw [openDevices, enumerateInputDevices_sampleEntries]
  decide

theorem madeByEmulators_sample : MadeByEmulators sampleEntries {2} := by
  intro node hentry hfd
  simp only [sampleEntries, List.mem_cons, Option.some.injEq, List.not_mem_nil, or_false] at hentry
  rcases hentry with rfl | rfl | rfl
  · exact absurd hfd (by decide)
  · exact absurd hfd (by decide)
  · have hdevice := device_sampleNode 2 EvdevEmulator.virtualInput
    exact ⟨⟨true, fun _ ↦ false, EvdevEmulator.mem_new_iff.2 ⟨rfl, fun _ _ ↦ rfl, hdevice⟩⟩, rfl⟩

/-- A key is emulated, and another one is pressed and captured. -/
def sampleLabels : List (Label ℕ) :=
  [.emit 2 (.key 31 .pressed),
    .capture (.arrive 0 (EvdevDevices.sampleRaw evKey 30 true)), .capture .nextEvent,
    .capture (.epollWait (.ready [.device 0])), .capture (.read true)]

section Runs

variable [DecidableEq ι] {entries : List (Option (EventNode ι))} {refused emulators : Finset ι}
  {core : InputCore} {set : DeviceSet ι} {s : Loopback ι} {log : EvdevDevices.Log ι}
  {labels : List (Label ι)}

/-- What is opened was found, and is captured. -/
theorem opened_of_openDevices (hset : openDevices entries refused = some set) :
    set.watched ⊆ set.opened ∧
      ∀ fd ∈ set.opened, ∃ node, some node ∈ entries ∧ node.fd = fd ∧ node.Captured := by
  rw [openDevices] at hset
  rcases hlist : enumerateInputDevices entries with _ | _ | ⟨node, devices⟩ <;>
    rw [hlist] at hset
  · cases hset
  · cases hset
  · obtain rfl := Option.some.inj hset
    refine ⟨Finset.sdiff_subset, fun fd hfd ↦ ?_⟩
    obtain ⟨node', hnode', rfl⟩ := List.mem_map.1 (List.mem_toFinset.1 hfd)
    obtain ⟨hentry, hcaptured⟩ := (mem_of_enumerateInputDevices hlist node').1 hnode'
    exact ⟨node', hentry, rfl, hcaptured⟩

/-- No emulator's device is opened. -/
theorem notMem_opened (hset : openDevices entries refused = some set)
    (hmade : MadeByEmulators entries emulators) {fd : ι} (hfd : fd ∈ emulators) :
    fd ∉ set.opened := by
  intro hopened
  obtain ⟨node, hentry, rfl, hcaptured⟩ := (opened_of_openDevices hset).2 fd hopened
  obtain ⟨⟨opens, fails, hnew⟩, hname⟩ := hmade node hentry hfd
  refine hcaptured.foreign hname ?_
  rw [(EvdevEmulator.mem_new_iff.1 hnew).2.2]
  exact EvdevEmulator.isOwn_virtualInput

/-- **What is emulated is not captured.** In every run of a host with any emulators on it, the
capture has read and returned what it reads and returns in a run without them, and is where it is
then. -/
theorem alone_of_run (hset : openDevices entries refused = some set)
    (hmade : MadeByEmulators entries emulators)
    (hrun : (s, log) ∈ run (recorded core set emulators) (start, .empty) labels) :
    ∃ t log', (t, log') ∈ run (EvdevDevices.recorded set) (.start, .empty)
        (labels.filterMap Label.capture?) ∧
      log'.read = log.read ∧ log'.returned = log.returned ∧
      t = { s.devices with queue := t.queue } := by
  have hwatched : ∀ fd ∈ emulators, fd ∉ set.watched := fun fd hfd hmem ↦
    notMem_opened hset hmade hfd ((opened_of_openDevices hset).1 hmem)
  have halone : Alone set emulators ((start, .empty) : Loopback ι × _) (.start, .empty) :=
    ⟨rfl, fun _ _ ↦ rfl, trivial, rfl, rfl⟩
  have hunseen : ∀ sl tl label, label.capture? = none → Alone set emulators sl tl →
      ∀ sl' ∈ recorded core set emulators sl label, Alone set emulators sl' tl := by
    rintro ⟨s, log⟩ tl (i | ⟨fd, event⟩) hview h ⟨s', log'⟩ hsl'
    · cases hview
    · obtain ⟨hs', rfl⟩ : s' ∈ step core set emulators s (.emit fd event) ∧
          log' = record core log s (.emit fd event) s' := mem_withHistory.1 hsl'
      exact h.emit hs'
  have hseen : ∀ sl tl label i, label.capture? = some i → Alone set emulators sl tl →
      ∀ sl' ∈ recorded core set emulators sl label,
        ∃ tl' ∈ EvdevDevices.recorded set tl i, Alone set emulators sl' tl' := by
    rintro ⟨s, log⟩ tl (i | ⟨fd, event⟩) _ hview h ⟨s', log'⟩ hsl'
    · obtain rfl := Option.some.inj hview
      obtain ⟨hs', rfl⟩ : s' ∈ step core set emulators s (.capture i) ∧
          log' = record core log s (.capture i) s' := mem_withHistory.1 hsl'
      exact h.step hwatched hs'
    · cases hview
  obtain ⟨⟨t, log'⟩, ht, h⟩ := run_of_erasure hunseen hseen halone hrun
  exact ⟨t, log', ht, h.read, h.returned, h.devices⟩

end Runs

/-- How the run ends: the captured key is returned, and the emulated one is not. -/
theorem sampleLabels_end :
    (run (recorded InputCore.sampleCore sampleSet {2}) (start, .empty) sampleLabels).map
      (fun sl ↦ sl.2.returned) = some [.key 30 .pressed] := by
  decide +kernel

/-- The captured key is captured without the emulated one, too. -/
theorem alone_of_run_sampleLabels :
    ∃ tl ∈ run (EvdevDevices.recorded sampleSet) (.start, .empty)
      (sampleLabels.filterMap Label.capture?), tl.2.returned = [.key 30 .pressed] := by
  obtain ⟨⟨s, log⟩, hrun, hend⟩ := Option.map_eq_some_iff.1 sampleLabels_end
  obtain ⟨t, log', ht, -, hreturned, -⟩ :=
    alone_of_run openDevices_sampleEntries madeByEmulators_sample hrun
  exact ⟨(t, log'), ht, hreturned.trans hend⟩

section Runs

open EvdevEmulator

variable [DecidableEq ι] {entries : List (Option (EventNode ι))} {refused emulators : Finset ι}
  {core : InputCore} {set : DeviceSet ι} {s : Loopback ι} {labels : List (Label ι)}

/-- What the desktop has got is what the core hands on, in every state of a run. -/
theorem on_desktop_of_run {fd : ι} (hfd : fd ∈ emulators) (hopened : fd ∉ set.opened)
    (hrun : s ∈ run (step core set emulators) start labels) :
    on fd s.desktop = core.passed virtualInput
      ((labels.filterMap (Label.emitOn? fd)).flatMap EvdevEmulator.writes) := by
  have hwritten : s.written fd =
      (labels.filterMap (Label.emitOn? fd)).flatMap EvdevEmulator.writes := by
    rw [List.filterMap_eq_flatMap_toList, List.flatMap_assoc]
    exact append_of_run (I := fun _ ↦ True) (fun s : Loopback ι ↦ s.written fd)
      (fun _ _ _ _ _ ↦ trivial) (fun _ _ _ _ hs' ↦ written_of_step hs') trivial hrun
  have hdesktop : Throughout (step core set emulators)
      (fun s ↦ s.devices.exclusive ⊆ set.opened ∧
        on fd s.desktop = core.passed virtualInput (s.written fd)) start labels := by
    refine throughout_of_invariant (fun s label h s' hs' ↦ ⟨exclusive_of_step h.1 hs', ?_⟩)
      ⟨Finset.empty_subset _, (core.passed_nil _).symm⟩ labels
    exact on_desktop_of_step hfd (fun hmem ↦ hopened (h.1 hmem)) h.2 hs'
  rw [(hdesktop.last hrun).2, hwritten]

/-- **What is emulated reaches the desktop.** In every such run, whatever the capture has grabbed,
the desktop has got from an emulator's device what the input core hands on of all that the emulator
has written. If the core does as is documented of it, that is the motion in full, every turn of a
wheel that is not zero, and the presses and releases of the keys and the buttons of the device as
far as they change something, so that the same are down as if all had arrived. -/
theorem desktop_of_run (hcore : core.Documented) (hset : openDevices entries refused = some set)
    (hmade : MadeByEmulators entries emulators)
    (hrun : s ∈ run (step core set emulators) start labels) {fd : ι} (hfd : fd ∈ emulators) :
    let events := labels.filterMap (Label.emitOn? fd)
    let desktop := (on fd s.desktop).map (·.toInputEventRaw)
    on fd s.desktop = core.passed virtualInput (events.flatMap EvdevEmulator.writes) ∧
      (∀ axis, (axisValues (moveCode axis) desktop).sum =
        (events.map fun e ↦ (e.move axis).asI32).sum) ∧
      (∀ axis, axisValues (turnCode axis) desktop =
        (events.map fun e ↦ turnValue axis (e.turn axis)).filter (· ≠ 0)) ∧
      Toggle.replay ∅ (desktop.filterMap (·.toggle?)) =
        Toggle.replay ∅ ((events.filterMap InputEvent.codeToggle?).filter
          fun t ↦ EvdevCapture.IsButton t.switch ∨ 1 ≤ t.switch.toNat ∧ t.switch.toNat ≤ 255) := by
  intro events desktop
  have hdesktop : on fd s.desktop = core.passed virtualInput (events.flatMap writes) :=
    on_desktop_of_run hfd (notMem_opened hset hmade hfd) hrun
  have hcomplete : InputCore.Complete (events.flatMap writes) :=
    InputCore.complete_flatMap_writes events
  have haxis (code : UInt16) (hcode : code ∈ virtualInput.rels) :
      axisValues code desktop = (axisValues code (events.flatMap emit)).filter (· ≠ 0) := by
    rw [← map_flatMap_writes, ← hcore.axis virtualInput _ code evRel_mem_types hcode hcomplete,
      ← hdesktop]
  refine ⟨hdesktop, fun axis ↦ ?_, fun axis ↦ ?_, ?_⟩
  · rw [haxis _ (moveCode_mem_rels axis), sum_filter_ne_zero, sum_axisValues_flatMap]
  · rw [haxis _ (turnCode_mem_rels axis), filter_axisValues_turnCode]
  · have hkeys : desktop.filterMap (·.toggle?) =
        Toggle.effective ∅ ((events.filterMap InputEvent.codeToggle?).filter
          (·.switch ∈ virtualInput.keys)) := by
      rw [← filterMap_toggle?_flatMap_writes, ← hcore.keys virtualInput _ evKey_mem_types hcomplete
        (fun _ ↦ value_of_mem_flatMap_writes), ← hdesktop, List.filterMap_map]
      rfl
    rw [hkeys, Toggle.replay_effective]
    simp only [mem_keys_virtualInput]

end Runs

theorem sampleLabels_isSome :
    (run (step InputCore.sampleCore sampleSet {2}) start sampleLabels).isSome := by
  decide +kernel

/-- The emulated key is down on the desktop. -/
theorem desktop_of_run_sampleLabels :
    ∃ s ∈ run (step InputCore.sampleCore sampleSet {2}) start sampleLabels,
      Toggle.replay ∅ (((on 2 s.desktop).map (·.toInputEventRaw)).filterMap (·.toggle?)) =
        {31} := by
  have hrun := Option.get_mem sampleLabels_isSome
  obtain ⟨-, -, -, hdown⟩ := desktop_of_run InputCore.documented_sampleCore
    openDevices_sampleEntries madeByEmulators_sample hrun (Finset.mem_singleton_self 2)
  exact ⟨_, hrun, hdown.trans (by decide +kernel)⟩

end Loopback

end Kmflow
