import Kmflow.Foundation.Bitmap
import Kmflow.Foundation.Infix
import Kmflow.Foundation.Utf8Infix
import Kmflow.Input.EvdevDevices
import Mathlib.Data.List.ReduceOption
import Mathlib.Data.List.TakeWhile

/-!
# Which devices are captured

`enumerate_input_devices` of the evdev capture and `find_keyboard_devices` of the X11 capture go
through `/dev/input` and ask each event file what it is: its types of events, its keys, its relative
axes and its name, each by an ioctl that may fail. Sets come as bitmaps, cut off where the buffer
ends, and the name as bytes up to a NUL, which are read lossily. The kernel's side of an ioctl is as
it is documented.

Behind the bits stands a simple choice (`devices_iff`). The evdev capture takes a file that has
relative axes and a left mouse button, or keys and among them KEY_A; the X11 capture takes those of
them that have KEY_A and do not move the pointer along x. Neither takes a device whose name says
that it is an emulator's (`not_isCaptured_of_isOwn`), as `EvdevEmulator::new` names its own.
-/

namespace Kmflow

open EvdevEmulator (evSyn evKey evRel relX relY relWheel relHwheel btnLeft btnRight btnMiddle
  btnSide btnExtra)

/-- What the kernel knows of an input device. -/
structure InputDevice where
  name : List UInt8
  types : Finset UInt16
  keys : Finset UInt16
  rels : Finset UInt16
  name_ne_zero : ∀ b ∈ name, b ≠ 0

/-- A device before it has been set up. -/
def InputDevice.blank : InputDevice := ⟨[], ∅, ∅, ∅, fun _ hb ↦ absurd hb List.not_mem_nil⟩

/-- The ioctls of an event file that only ask. -/
inductive Evioc where
  /-- `EVIOCGBIT(0)`. -/
  | types
  /-- `EVIOCGBIT(EV_KEY)`. -/
  | keys
  /-- `EVIOCGBIT(EV_REL)`. -/
  | rels
  /-- `EVIOCGNAME`. -/
  | name
  deriving DecidableEq

/-- A file of `/dev/input`; an ioctl fails on one that has been unplugged. -/
structure EventNode (ι : Type) where
  fd : ι
  fileName : List Char
  canOpen : Bool
  device : InputDevice
  answers : Evioc → Bool

/-- `KEY_A`. -/
def keyA : UInt16 := 30

namespace EventNode

variable {ι : Type} (node : EventNode ι)

/-! ### The kernel's answers -/

/-- What `EVIOCGBIT` writes into a buffer of `size` bytes. -/
def eviocgbit (request : Evioc) (codes : Finset UInt16) (size : ℕ) : Option (List UInt8) :=
  if node.answers request then some (Bitmap.ofBits (fun i ↦ decide (.ofNat i ∈ codes)) size)
  else none

/-- What `EVIOCGNAME` writes into a buffer of 256 bytes, as far as it returns to have written. -/
def eviocgname : Option (List UInt8) :=
  if node.answers .name then some ((node.device.name ++ [0]).take 256) else none

/-! ### The evdev capture -/

/-- `has_event_type`: the bit of the type is set in what the ioctl gives. -/
def hasEventType (evType : UInt16) : Bool :=
  match node.eviocgbit .types node.device.types 4 with
  | some bits => Bitmap.test bits evType.toNat
  | none => false

/-- `has_key`: the bit of the key is set in what the ioctl gives. -/
def hasKey (key : UInt16) : Bool :=
  match node.eviocgbit .keys node.device.keys 96 with
  | some bits => Bitmap.test bits key.toNat
  | none => false

/-- `get_device_name`, as characters; the buffer is zeroed before the ioctl. -/
def getDeviceName : List Char :=
  match node.eviocgname with
  | some answer =>
    Utf8.chars 0 ((answer ++ List.replicate (256 - answer.length) 0).takeWhile (· ≠ 0))
  | none => []

/-- The loop body of `enumerate_input_devices`: the device is pushed. -/
def isCaptured : Bool :=
  let hasKeys := node.hasEventType evKey
  let hasRel := node.hasEventType evRel
  let isMouse := hasRel && node.hasKey btnLeft
  let isKeyboard := hasKeys && node.hasKey keyA
  "event".toList.isPrefixOf node.fileName && node.canOpen && !(!hasKeys && !hasRel) &&
    !(!isMouse && !isKeyboard) && !decide ("KMFlow".toList <:+: node.getDeviceName)

/-! ### The X11 capture -/

/-- The loop body of `find_keyboard_devices`: the file is pushed. -/
def isGrabbedKeyboard : Bool :=
  "event".toList.isPrefixOf node.fileName && node.canOpen &&
    (match node.eviocgbit .types node.device.types 4 with
      | some bits => Bitmap.test bits 1
      | none => false) &&
    (match node.eviocgbit .keys node.device.keys 96 with
      | some keyBits => Bitmap.test keyBits 30
      | none => false) &&
    !(match node.eviocgbit .rels node.device.rels 4 with
      | some relBits => Bitmap.test relBits 0
      | none => false) &&
    !(match node.eviocgname with
      | some name => decide ("KMFlow".toList <:+: Utf8.chars 0 name)
      | none => false)

end EventNode

section Listing

variable {ι : Type}

/-- `enumerate_input_devices`; an entry that cannot be read ends it. -/
def enumerateInputDevices : List (Option (EventNode ι)) → Option (List (EventNode ι))
  | [] => some []
  | none :: _ => none
  | some node :: entries =>
    (enumerateInputDevices entries).map fun devices ↦
      if node.isCaptured then node :: devices else devices

/-- `find_keyboard_devices`, which skips such an entry. -/
def findKeyboardDevices (entries : List (Option (EventNode ι))) : List (EventNode ι) :=
  entries.reduceOption.filter (·.isGrabbedKeyboard)

/-- The devices of `EvdevCapture::new`, where `epoll_ctl` refuses some; it fails without any. -/
def openDevices [DecidableEq ι] (entries : List (Option (EventNode ι))) (refused : Finset ι) :
    Option (DeviceSet ι) :=
  match enumerateInputDevices entries with
  | some (node :: devices) =>
    let fds := ((node :: devices).map EventNode.fd).toFinset
    some ⟨fds, fds \ refused⟩
  | _ => none

end Listing

/-! ### What the answers say -/

/-- The bytes of `KMFlow`. -/
def ownName : List UInt8 := Utf8.asciiBytes "KMFlow".toList

/-- A device whose name, as far as it is read, is one of an emulator. -/
def InputDevice.IsOwn (device : InputDevice) : Prop := ownName <:+: device.name.take 256

namespace EventNode

variable {ι : Type} (node : EventNode ι)

theorem isAscii_kmflow : ∀ c ∈ "KMFlow".toList, Utf8.IsAscii c := by
  simp [Utf8.IsAscii]

theorem zero_notMem_ownName : (0 : UInt8) ∉ ownName := by decide

theorem test_eviocgbit {request : Evioc} {codes : Finset UInt16} {size : ℕ} {bits : List UInt8}
    (hbits : node.eviocgbit request codes size = some bits) (code : UInt16)
    (hcode : code.toNat < 8 * size) : Bitmap.test bits code.toNat = decide (code ∈ codes) := by
  obtain ⟨-, hbits⟩ := Option.ite_none_right_eq_some.1 hbits
  obtain rfl := Option.some.inj hbits
  rw [Bitmap.test_ofBits _ hcode, UInt16.ofNat_toNat]

/-- A bit is asked for and found. -/
theorem elim_eviocgbit_iff (request : Evioc) (codes : Finset UInt16) (size : ℕ) (code : UInt16)
    (hcode : code.toNat < 8 * size) :
    (node.eviocgbit request codes size).elim false (Bitmap.test · code.toNat) = true ↔
      node.answers request = true ∧ code ∈ codes := by
  by_cases hanswers : node.answers request = true
  · have hbits : node.eviocgbit request codes size = some _ := if_pos hanswers
    rw [hbits, Option.elim_some, node.test_eviocgbit hbits code hcode, decide_eq_true_iff]
    exact (and_iff_right hanswers).symm
  · have hbits : node.eviocgbit request codes size = none := if_neg hanswers
    rw [hbits]
    exact iff_of_false Bool.false_ne_true fun h ↦ hanswers h.1

/-- A type is found exactly when the device answers and has it. -/
theorem hasEventType_iff (evType : UInt16) (h : evType.toNat < 32) :
    node.hasEventType evType = true ↔
      node.answers .types = true ∧ evType ∈ node.device.types := by
  rw [← node.elim_eviocgbit_iff .types node.device.types 4 evType h, hasEventType]
  rcases node.eviocgbit .types node.device.types 4 <;> rfl

/-- So is a key. -/
theorem hasKey_iff (key : UInt16) (h : key.toNat < 768) :
    node.hasKey key = true ↔ node.answers .keys = true ∧ key ∈ node.device.keys := by
  rw [← node.elim_eviocgbit_iff .keys node.device.keys 96 key h, hasKey]
  rcases node.eviocgbit .keys node.device.keys 96 <;> rfl

/-- The name up to its NUL, as far as the buffer takes it. -/
theorem takeWhile_eviocgname :
    (((node.device.name ++ [0]).take 256 ++
        List.replicate (256 - ((node.device.name ++ [0]).take 256).length) 0).takeWhile (· ≠ 0)) =
      node.device.name.take 256 := by
  have hne : ∀ b ∈ node.device.name, decide (b ≠ 0) = true := fun b hb ↦
    decide_eq_true (node.device.name_ne_zero b hb)
  rcases Nat.lt_or_ge node.device.name.length 256 with hlt | hge
  · have hlength : (node.device.name ++ [0]).length ≤ 256 := by
      rw [List.length_append, List.length_singleton]
      exact hlt
    rw [List.take_of_length_le hlength, List.take_of_length_le hlt.le, List.append_assoc,
      List.takeWhile_append_of_pos hne]
    exact List.append_nil _
  · rw [List.take_append_of_le_length hge, List.length_take, min_eq_left hge, Nat.sub_self,
      List.replicate_zero, List.append_nil, List.takeWhile_eq_self_iff]
    exact fun b hb ↦ hne b (List.mem_of_mem_take hb)

/-- The name shows a virtual device exactly when the device answers and is one. -/
theorem infix_getDeviceName_iff :
    "KMFlow".toList <:+: node.getDeviceName ↔
      node.answers .name = true ∧ node.device.IsOwn := by
  by_cases hanswers : node.answers .name = true
  · rw [getDeviceName, eviocgname, if_pos hanswers]
    dsimp only
    rw [node.takeWhile_eviocgname, Utf8.infix_chars_iff isAscii_kmflow]
    exact (and_iff_right hanswers).symm
  · rw [getDeviceName, eviocgname, if_neg hanswers]
    exact iff_of_false (by decide) fun h ↦ hanswers h.1

/-- The NUL that the X11 capture leaves at the end of the name makes no difference. -/
theorem infix_eviocgname_iff :
    ownName <:+: (node.device.name ++ [0]).take 256 ↔ node.device.IsOwn := by
  rcases Nat.lt_or_ge node.device.name.length 256 with hlt | hge
  · have hlength : (node.device.name ++ [0]).length ≤ 256 := by
      rw [List.length_append, List.length_singleton]
      exact hlt
    rw [List.take_of_length_le hlength, List.infix_append_cons_iff zero_notMem_ownName,
      InputDevice.IsOwn, List.take_of_length_le hlt.le, or_iff_left]
    exact fun hnil ↦ absurd (List.infix_nil.1 hnil) (by decide)
  · rw [List.take_append_of_le_length hge]
    rfl

/-- The device can be asked, and is a mouse or a keyboard that no emulator has made. -/
structure Captured : Prop where
  event : "event".toList <+: node.fileName
  canOpen : node.canOpen = true
  types : node.answers .types = true
  keys : node.answers .keys = true
  kind : evRel ∈ node.device.types ∧ btnLeft ∈ node.device.keys ∨
    evKey ∈ node.device.types ∧ keyA ∈ node.device.keys
  foreign : node.answers .name = true → ¬ node.device.IsOwn

theorem isCaptured_iff : node.isCaptured = true ↔ node.Captured := by
  have hor (a b : Bool) : (!(!a && !b)) = (a || b) := by
    rw [Bool.not_and, Bool.not_not, Bool.not_not]
  simp only [isCaptured, ↓hor, Bool.and_eq_true, Bool.or_eq_true, Bool.not_eq_true',
    decide_eq_false_iff_not, List.isPrefixOf_iff_prefix,
    node.hasEventType_iff evRel (by decide), node.hasEventType_iff evKey (by decide),
    node.hasKey_iff btnLeft (by decide), node.hasKey_iff keyA (by decide),
    node.infix_getDeviceName_iff]
  constructor
  · rintro ⟨⟨⟨⟨hevent, hopen⟩, -⟩, hkind⟩, hforeign⟩
    have htypes : node.answers .types = true := hkind.elim (·.1.1) (·.1.1)
    have hkeys : node.answers .keys = true := hkind.elim (·.2.1) (·.2.1)
    exact ⟨hevent, hopen, htypes, hkeys, hkind.imp (fun h ↦ ⟨h.1.2, h.2.2⟩)
      (fun h ↦ ⟨h.1.2, h.2.2⟩), fun hname hown ↦ hforeign ⟨hname, hown⟩⟩
  · intro h
    have hkind : _ ∨ _ := h.kind.imp
      (fun hmouse ↦ (⟨⟨h.types, hmouse.1⟩, h.keys, hmouse.2⟩ : (_ ∧ _) ∧ _ ∧ _))
      (fun hkeyboard ↦ (⟨⟨h.types, hkeyboard.1⟩, h.keys, hkeyboard.2⟩ : (_ ∧ _) ∧ _ ∧ _))
    exact ⟨⟨⟨⟨h.event, h.canOpen⟩, (hkind.imp (·.1) (·.1)).symm⟩, hkind⟩,
      fun hown ↦ h.foreign hown.1 hown.2⟩

theorem isGrabbedKeyboard_iff :
    node.isGrabbedKeyboard = true ↔
      node.Captured ∧ evKey ∈ node.device.types ∧ keyA ∈ node.device.keys ∧
        (node.answers .rels = true → relX ∉ node.device.rels) := by
  have htypes := node.elim_eviocgbit_iff .types node.device.types 4 evKey (by decide)
  have hkeys := node.elim_eviocgbit_iff .keys node.device.keys 96 keyA (by decide)
  have hrels := node.elim_eviocgbit_iff .rels node.device.rels 4 relX (by decide)
  have hname : node.eviocgname.elim false (fun name ↦
      decide ("KMFlow".toList <:+: Utf8.chars 0 name)) = true ↔
        node.answers .name = true ∧ node.device.IsOwn := by
    by_cases hanswers : node.answers .name = true
    · rw [eviocgname, if_pos hanswers, Option.elim_some, decide_eq_true_iff,
        Utf8.infix_chars_iff isAscii_kmflow]
      exact node.infix_eviocgname_iff.trans (and_iff_right hanswers).symm
    · rw [eviocgname, if_neg hanswers]
      exact iff_of_false Bool.false_ne_true fun h ↦ hanswers h.1
  have hgrabbed : node.isGrabbedKeyboard =
      ("event".toList.isPrefixOf node.fileName && node.canOpen &&
        (node.eviocgbit .types node.device.types 4).elim false (Bitmap.test · evKey.toNat) &&
        (node.eviocgbit .keys node.device.keys 96).elim false (Bitmap.test · keyA.toNat) &&
        !(node.eviocgbit .rels node.device.rels 4).elim false (Bitmap.test · relX.toNat) &&
        !node.eviocgname.elim false (fun name ↦
          decide ("KMFlow".toList <:+: Utf8.chars 0 name))) := by
    rw [isGrabbedKeyboard]
    rcases node.eviocgbit .types node.device.types 4 <;>
      rcases node.eviocgbit .keys node.device.keys 96 <;>
      rcases node.eviocgbit .rels node.device.rels 4 <;> rcases node.eviocgname <;> rfl
  rw [hgrabbed]
  simp only [Bool.and_eq_true, Bool.not_eq_true', ← Bool.not_eq_true, List.isPrefixOf_iff_prefix,
    htypes, hkeys, hrels, hname]
  constructor
  · rintro ⟨⟨⟨⟨⟨hevent, hopen⟩, htypes, hkey⟩, hkeys, ha⟩, hrel⟩, hforeign⟩
    exact ⟨⟨hevent, hopen, htypes, hkeys, .inr ⟨hkey, ha⟩, fun hname hown ↦ hforeign ⟨hname, hown⟩⟩,
      hkey, ha, fun hrels hx ↦ hrel ⟨hrels, hx⟩⟩
  · rintro ⟨h, hkey, ha, hrel⟩
    exact ⟨⟨⟨⟨⟨h.event, h.canOpen⟩, h.types, hkey⟩, h.keys, ha⟩, fun hx ↦ hrel hx.1 hx.2⟩,
      fun hown ↦ h.foreign hown.1 hown.2⟩

end EventNode

/-! ### The device of the evdev emulator -/

namespace EvdevEmulator

/-- The requests of `EvdevEmulator::new` to `/dev/uinput`. -/
inductive UinputRequest where
  /-- `UI_SET_EVBIT`. -/
  | setEvbit (type : UInt16)
  /-- `UI_SET_RELBIT`. -/
  | setRelbit (code : UInt16)
  /-- `UI_SET_KEYBIT`. -/
  | setKeybit (code : UInt16)
  /-- `UI_DEV_SETUP`; of the setup only the name is looked at. -/
  | devSetup (name : List UInt8)
  | devCreate

/-- The name that the emulator gives its device. -/
def name : List UInt8 := Utf8.asciiBytes "KMFlow Virtual Input".toList

/-- The ioctls by which `EvdevEmulator::new` makes its device. -/
def requests : List UinputRequest :=
  [evKey, evRel, evSyn].map .setEvbit ++ [relX, relY, relWheel, relHwheel].map .setRelbit ++
    [btnLeft, btnRight, btnMiddle, btnSide, btnExtra].map .setKeybit ++
    (List.range' 1 255).map (fun key ↦ .setKeybit (.ofNat key)) ++
    [.devSetup (name ++ List.replicate (80 - name.length) 0), .devCreate]

/-- What the kernel makes of a request; the name ends at its first NUL. -/
def UinputRequest.apply (device : InputDevice) : UinputRequest → InputDevice
  | setEvbit type => { device with types := insert type device.types }
  | setRelbit code => { device with rels := insert code device.rels }
  | setKeybit code => { device with keys := insert code device.keys }
  | devSetup name =>
    { device with
      name := name.takeWhile (· ≠ 0)
      name_ne_zero := fun _ hb ↦
        of_decide_eq_true (List.mem_takeWhile_imp (p := fun b ↦ decide (b ≠ 0)) hb) }
  | devCreate => device

/-- `EvdevEmulator::new`: the device it creates, if it can open `/dev/uinput` and no request
fails. -/
def new (opens : Bool) (fails : UinputRequest → Bool) : Option InputDevice :=
  if opens then
    requests.foldlM (fun device request ↦
      if fails request then none else some (request.apply device)) .blank
  else none

/-- The device it always is. -/
def virtualInput : InputDevice := requests.foldl UinputRequest.apply .blank

theorem mem_new_iff {opens : Bool} {fails : UinputRequest → Bool} {device : InputDevice} :
    device ∈ new opens fails ↔
      opens = true ∧ (∀ request ∈ requests, fails request = false) ∧ device = virtualInput := by
  rw [new, Option.mem_def, Option.ite_none_right_eq_some, virtualInput]
  refine and_congr_right fun _ ↦ ?_
  generalize requests = rs
  generalize InputDevice.blank = blank
  induction rs generalizing blank with
  | nil =>
    exact ⟨fun h ↦ ⟨fun _ hnil ↦ absurd hnil List.not_mem_nil, (Option.some.inj h).symm⟩,
      fun h ↦ congrArg some h.2.symm⟩
  | cons request rs ih =>
    rw [List.foldlM_cons]
    rcases hfails : fails request
    · rw [if_neg Bool.false_ne_true]
      show rs.foldlM _ (request.apply blank) = some device ↔ _
      rw [ih, List.forall_mem_cons, List.foldl_cons, and_iff_right hfails]
    · rw [if_pos rfl]
      refine iff_of_false (fun h ↦ by cases h) fun h ↦ ?_
      exact Bool.false_ne_true ((h.1 request (.head _)).symm.trans hfails)

/-- The device has the codes it was asked to have. -/
theorem mem_foldl_apply (code : UInt16) (rs : List UinputRequest) (device : InputDevice) :
    (code ∈ (rs.foldl UinputRequest.apply device).types ↔
        .setEvbit code ∈ rs ∨ code ∈ device.types) ∧
      (code ∈ (rs.foldl UinputRequest.apply device).rels ↔
        .setRelbit code ∈ rs ∨ code ∈ device.rels) ∧
      (code ∈ (rs.foldl UinputRequest.apply device).keys ↔
        .setKeybit code ∈ rs ∨ code ∈ device.keys) := by
  induction rs generalizing device with
  | nil => simp
  | cons request rs ih =>
    obtain ⟨htypes, hrels, hkeys⟩ := ih (request.apply device)
    rw [List.foldl_cons, htypes, hrels, hkeys]
    rcases request <;> simp [UinputRequest.apply, or_assoc, or_left_comm]

theorem mem_types_virtualInput (type : UInt16) :
    type ∈ virtualInput.types ↔ type = evKey ∨ type = evRel ∨ type = evSyn := by
  rw [virtualInput, (mem_foldl_apply type _ _).1]
  simp [requests, InputDevice.blank]

theorem mem_rels_virtualInput (code : UInt16) :
    code ∈ virtualInput.rels ↔
      code = relX ∨ code = relY ∨ code = relWheel ∨ code = relHwheel := by
  rw [virtualInput, (mem_foldl_apply code _ _).2.1]
  simp [requests, InputDevice.blank]

/-- The five buttons, and the keys of a keyboard proper. -/
theorem mem_keys_virtualInput (code : UInt16) :
    code ∈ virtualInput.keys ↔
      EvdevCapture.IsButton code ∨ 1 ≤ code.toNat ∧ code.toNat ≤ 255 := by
  have hbutton : EvdevCapture.IsButton code ↔
      code = btnLeft ∨ code = btnRight ∨ code = btnMiddle ∨ code = btnSide ∨ code = btnExtra := by
    simp only [EvdevCapture.IsButton, btnLeft, btnRight, btnMiddle, btnSide, btnExtra,
      UInt16.le_iff_toNat_le, ← UInt16.toNat_inj, UInt16.reduceToNat]
    omega
  have hkey : (∃ key, (1 ≤ key ∧ key < 256) ∧ UInt16.ofNat key = code) ↔
      1 ≤ code.toNat ∧ code.toNat ≤ 255 := by
    constructor
    · rintro ⟨key, ⟨hpos, hlt⟩, rfl⟩
      rw [UInt16.toNat_ofNat', Nat.mod_eq_of_lt (by omega)]
      omega
    · rintro ⟨hpos, hle⟩
      exact ⟨code.toNat, ⟨hpos, Nat.lt_succ_of_le hle⟩, UInt16.ofNat_toNat⟩
  rw [virtualInput, (mem_foldl_apply code _ _).2.2, hbutton, ← hkey]
  simp [requests, InputDevice.blank, or_assoc]

/-- The virtual device has the name it was given. -/
theorem name_virtualInput : virtualInput.name = name := by
  rw [virtualInput, requests, List.foldl_append]
  show (name ++ List.replicate (80 - name.length) 0).takeWhile (· ≠ 0) = name
  decide

/-- It is one of our own. -/
theorem isOwn_virtualInput : virtualInput.IsOwn := by
  rw [InputDevice.IsOwn, name_virtualInput]
  decide

-- from here on the device is known by its codes and its name
attribute [irreducible] virtualInput

end EvdevEmulator

/-! ### Which files are taken -/

section Listing

variable {ι : Type} {entries : List (Option (EventNode ι))} {devices : List (EventNode ι)}

theorem mem_of_enumerateInputDevices (h : enumerateInputDevices entries = some devices)
    (node : EventNode ι) : node ∈ devices ↔ some node ∈ entries ∧ node.Captured := by
  rw [← node.isCaptured_iff]
  induction entries generalizing devices with
  | nil =>
    obtain rfl := Option.some.inj h
    simp
  | cons entry entries ih =>
    rcases entry with _ | entry
    · cases h
    · obtain ⟨rest, hrest, rfl⟩ := Option.map_eq_some_iff.1 h
      have hmem := ih hrest
      by_cases hcaptured : entry.isCaptured = true
      · rw [if_pos hcaptured, List.mem_cons, List.mem_cons, hmem, Option.some.injEq, or_and_right]
        refine or_congr_left ⟨?_, And.left⟩
        rintro rfl
        exact ⟨rfl, hcaptured⟩
      · rw [if_neg hcaptured, List.mem_cons, hmem, Option.some.injEq, or_and_right, or_iff_right]
        rintro ⟨rfl, hnode⟩
        exact hcaptured hnode

/-- **Which files are taken.** When the evdev capture can list the devices, it takes exactly the
mice and the keyboards that it can open and ask and that no emulator has made. The X11 capture takes
those of them that have KEY_A and are not known to move the pointer along x; and a device that
`EvdevEmulator::new` has made is taken by neither as long as it answers to its name. -/
theorem devices_iff (h : enumerateInputDevices entries = some devices) (node : EventNode ι) :
    (node ∈ devices ↔ some node ∈ entries ∧ node.Captured) ∧
      (node ∈ findKeyboardDevices entries ↔
        node ∈ devices ∧ evKey ∈ node.device.types ∧ keyA ∈ node.device.keys ∧
          (node.answers .rels = true → relX ∉ node.device.rels)) ∧
      ∀ opens fails, node.device ∈ EvdevEmulator.new opens fails → node.answers .name = true →
        node ∉ devices ∧ node ∉ findKeyboardDevices entries := by
  have hdevices := mem_of_enumerateInputDevices h node
  have hkeyboards : node ∈ findKeyboardDevices entries ↔
      node ∈ devices ∧ evKey ∈ node.device.types ∧ keyA ∈ node.device.keys ∧
        (node.answers .rels = true → relX ∉ node.device.rels) := by
    rw [findKeyboardDevices, List.mem_filter, List.reduceOption_mem_iff, node.isGrabbedKeyboard_iff,
      hdevices, and_assoc]
  refine ⟨hdevices, hkeyboards, fun opens fails hnew hname ↦ ?_⟩
  have hown : node.device.IsOwn := by
    rw [(EvdevEmulator.mem_new_iff.1 hnew).2.2]
    exact EvdevEmulator.isOwn_virtualInput
  have hnot : node ∉ devices := fun hmem ↦ (hdevices.1 hmem).2.foreign hname hown
  exact ⟨hnot, fun hmem ↦ hnot (hkeyboards.1 hmem).1⟩

end Listing

/-- An event file that answers. -/
def sampleNode (fd : ℕ) (device : InputDevice) : EventNode ℕ :=
  ⟨fd, "event".toList ++ [fd.digitChar], true, device, fun _ ↦ true⟩

theorem device_sampleNode (fd : ℕ) (device : InputDevice) :
    (sampleNode fd device).device = device := rfl

/-- A keyboard without motion. -/
def sampleKeyboard : InputDevice where
  name := [0x41, 0x54]
  types := {evKey}
  keys := {keyA, 1}
  rels := ∅
  name_ne_zero := by simp

/-- A mouse that has no name. -/
def sampleMouse : InputDevice where
  name := []
  types := {evKey, evRel}
  keys := {btnLeft}
  rels := {relX, relY}
  name_ne_zero := by simp

/-- A keyboard, a mouse and the device of an emulator. -/
def sampleEntries : List (Option (EventNode ℕ)) :=
  [some (sampleNode 0 sampleKeyboard), some (sampleNode 1 sampleMouse),
    some (sampleNode 2 EvdevEmulator.virtualInput)]

/-- The keyboard and the mouse are found. -/
theorem enumerateInputDevices_sampleEntries :
    enumerateInputDevices sampleEntries =
      some [sampleNode 0 sampleKeyboard, sampleNode 1 sampleMouse] := by
  have hkeyboard : (sampleNode 0 sampleKeyboard).isCaptured = true := by decide +kernel
  have hmouse : (sampleNode 1 sampleMouse).isCaptured = true := by decide +kernel
  have hvirtual : (sampleNode 2 EvdevEmulator.virtualInput).isCaptured = false := by
    rw [Bool.eq_false_iff, Ne, EventNode.isCaptured_iff]
    intro hcaptured
    refine hcaptured.foreign rfl ?_
    rw [device_sampleNode]
    exact EvdevEmulator.isOwn_virtualInput
  simp only [enumerateInputDevices, sampleEntries, hkeyboard, hmouse, hvirtual]
  rfl

/-- The mouse is taken, and the emulator's device is not. -/
theorem devices_iff_sampleEntries :
    ∃ devices ∈ enumerateInputDevices sampleEntries, sampleNode 1 sampleMouse ∈ devices ∧
      sampleNode 2 EvdevEmulator.virtualInput ∉ devices := by
  refine ⟨_, enumerateInputDevices_sampleEntries, ?_, ?_⟩
  · have hmem : some (sampleNode 1 sampleMouse) ∈ sampleEntries := .tail _ (.head _)
    exact (devices_iff enumerateInputDevices_sampleEntries _).1.2
      ⟨hmem, (EventNode.isCaptured_iff _).1 (by decide +kernel)⟩
  · have hnew : (sampleNode 2 EvdevEmulator.virtualInput).device ∈
        EvdevEmulator.new true fun _ ↦ false :=
      EvdevEmulator.mem_new_iff.2 ⟨rfl, fun _ _ ↦ rfl, device_sampleNode 2 _⟩
    exact ((devices_iff enumerateInputDevices_sampleEntries _).2.2 true (fun _ ↦ false) hnew rfl).1

end Kmflow
