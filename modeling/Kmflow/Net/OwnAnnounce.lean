import Kmflow.Net.Discovery

/-!
# What a daemon makes of its own announce

A broadcast comes back to its sender, and `browse_with_notify` drops an announce whose hostname is
its own. What it compares is what is left of the hostname in the receive buffer, read lossily. So a
daemon drops its own announce exactly when the packet fits the buffer, or when the hostname ends
with a replacement character and the cut leaves a part of that (`neverDiscoversItself_iff`): in any
other case it takes itself for another host, inserts the entry, and connects to itself.
-/

namespace Kmflow

open Transition

/-! ### The packet in the receive buffer -/

section Received

variable {hostname fingerprint : String} {port : UInt16}

/-- Cutting a datagram off leaves the length of the fingerprint. -/
theorem fpLen_received (data : List UInt8) : fpLen (received data) = fpLen data := by
  simp [fpLen, received, recvBufferSize, List.getD_eq_getElem?_getD]

/-- The magic, the port and the fingerprint always fit; the hostname may be cut. -/
theorem hostnameField_received (hfp : (Utf8.encode fingerprint).length ≤ 255) :
    hostnameField (received (buildAnnounce hostname port fingerprint)) =
      (Utf8.encode hostname).take (503 - (Utf8.encode fingerprint).length) := by
  have hroom : recvBufferSize - (9 + (Utf8.encode fingerprint).length) =
      503 - (Utf8.encode fingerprint).length := by
    rw [recvBufferSize]
    omega
  rw [hostnameField, fpLen_received, fpLen_buildAnnounce hostname port hfp, received,
    List.drop_take, hroom, ← List.drop_drop, drop_buildAnnounce, List.drop_left]

theorem wellFormed_received (hfp : (Utf8.encode fingerprint).length ≤ 255) :
    WellFormed (received (buildAnnounce hostname port fingerprint)) := by
  refine ⟨rfl, ?_⟩
  rw [fpLen_received, fpLen_buildAnnounce hostname port hfp, received, List.length_take,
    length_buildAnnounce, recvBufferSize]
  omega

/-- What is read of the daemon's own packet: its port and fingerprint, under the hostname as it was
cut, unless nothing is left of that. -/
theorem parseAnnounce_received (hfp : (Utf8.encode fingerprint).length ≤ 255) :
    let left :=
      Utf8.decodeLossy (hostnameField (received (buildAnnounce hostname port fingerprint)))
    ∃ port' fingerprint', parseAnnounce (received (buildAnnounce hostname port fingerprint)) =
      some (if left = "" then none else some (left, port', fingerprint')) := by
  rw [parseAnnounce_eq]
  simp only [wellFormed_received hfp, true_and, ne_eq, ite_not]
  exact ⟨_, _, rfl⟩

/-- Whether the hostname survives: as long as the packet fits, or a part is left of a replacement
character at its end. -/
theorem decodeLossy_hostnameField_received_iff (hfp : (Utf8.encode fingerprint).length ≤ 255) :
    Utf8.decodeLossy (hostnameField (received (buildAnnounce hostname port fingerprint))) =
        hostname ↔
      (buildAnnounce hostname port fingerprint).length ≤ recvBufferSize ∨
        (buildAnnounce hostname port fingerprint).length ≤ recvBufferSize + 2 ∧
          hostname.toList.getLast? = some Utf8.replacementCharacter := by
  rw [hostnameField_received hfp, Utf8.decodeLossy_take_encode_iff, length_buildAnnounce,
    recvBufferSize]
  refine or_congr ?_ (and_congr_left' ?_) <;> omega

/-- There is room for a part of any hostname, so a name of which nothing is left was empty. -/
theorem eq_empty_of_received (hfp : (Utf8.encode fingerprint).length ≤ 255)
    (h : Utf8.decodeLossy (hostnameField (received (buildAnnounce hostname port fingerprint))) =
      "") : hostname = "" := by
  rw [hostnameField_received hfp, Utf8.decodeLossy_eq_empty_iff, List.take_eq_nil_iff] at h
  have hnil : Utf8.encode hostname = [] := h.resolve_left (by omega)
  rw [← Utf8.decodeLossy_encode hostname, hnil]
  rfl

end Received

namespace Discovery

/-- The daemon's own announce. -/
def ownAnnounce (cfg : DiscoveryConfig) (port : UInt16) (fingerprint : String) : List UInt8 :=
  buildAnnounce cfg.hostname port fingerprint

/-- A datagram arrives. -/
def Label.isDatagram : Label → Bool
  | .datagram _ _ => true
  | _ => false

/-- Whatever the table is when the daemon's own announce arrives, and whatever the two tasks do
until the next datagram: no entry is inserted, and no notification sent. -/
def NeverDiscoversItself (cfg : DiscoveryConfig) (port : UInt16) (fingerprint : String) : Prop :=
  ∀ (s : Discovery) (ip : IpAddr) (ls : List Label), s.receiver = .waiting →
    (∀ l ∈ ls, l.isDatagram = false) →
      Throughout (recorded cfg) (fun sl ↦ insertions sl.2 = [] ∧ sl.1.notified = s.notified)
        (s, []) (.datagram (ownAnnounce cfg port fingerprint) ip :: ls)

section OwnAnnounce

variable {cfg : DiscoveryConfig} {port : UInt16} {fingerprint : String}

/-- A hostname that survives is recognised, and so is an empty one, which is not read at all. -/
theorem step_ownAnnounce (hfp : (Utf8.encode fingerprint).length ≤ 255)
    (hown : Utf8.decodeLossy (hostnameField (received (ownAnnounce cfg port fingerprint))) =
      cfg.hostname) {s : Discovery} (hs : s.receiver = .waiting) (ip : IpAddr) :
    step cfg s (.datagram (ownAnnounce cfg port fingerprint) ip) = some s := by
  obtain ⟨port', fingerprint', hparse⟩ := @parseAnnounce_received cfg.hostname fingerprint port hfp
  rw [ownAnnounce] at hown ⊢
  rw [hown] at hparse
  simp only [step, hs, hparse, Option.map_some]
  by_cases hempty : cfg.hostname = ""
  · rw [if_pos hempty]
  · rw [if_neg hempty]
    exact congrArg some (if_pos rfl)

/-- A hostname that does not survive is looked up in the table. -/
theorem step_ownAnnounce_of_ne (hfp : (Utf8.encode fingerprint).length ≤ 255)
    (hother : Utf8.decodeLossy (hostnameField (received (ownAnnounce cfg port fingerprint))) ≠
      cfg.hostname) (ip : IpAddr) :
    ∃ a, step cfg start (.datagram (ownAnnounce cfg port fingerprint) ip) =
      some { start with receiver := .missed a } := by
  obtain ⟨port', fingerprint', hparse⟩ := @parseAnnounce_received cfg.hostname fingerprint port hfp
  have hne : Utf8.decodeLossy (hostnameField (received (ownAnnounce cfg port fingerprint))) ≠ "" :=
    fun hempty ↦ hother (hempty.trans (eq_empty_of_received hfp hempty).symm)
  rw [ownAnnounce] at hother hne ⊢
  rw [if_neg hne] at hparse
  refine ⟨⟨Utf8.decodeLossy (hostnameField (received
    (buildAnnounce cfg.hostname port fingerprint))), port', fingerprint', ip⟩, ?_⟩
  simp only [step, start, hparse, Option.map_some]
  rw [if_neg hother]
  rfl

/-- A receiver that waits inserts and tells nothing until there is a datagram. -/
theorem quiet_of_waiting {s : Discovery} (hs : s.receiver = .waiting) {ls : List Label}
    (hls : ∀ l ∈ ls, l.isDatagram = false) :
    Throughout (recorded cfg) (fun sl ↦ insertions sl.2 = [] ∧ sl.1.notified = s.notified)
      (s, []) ls := by
  have hquiet : Throughout (recorded cfg) (fun sl : Discovery × List Occurrence ↦
      sl.1.receiver = .waiting ∧ insertions sl.2 = [] ∧ sl.1.notified = s.notified) (s, []) ls := by
    refine throughout_of_forall ?_ ⟨hs, rfl, rfl⟩ hls
    rintro ⟨t, log⟩ l ⟨hwaiting, hlog, hnotified⟩ hl ⟨t', log'⟩ ht'
    obtain ⟨os, hmove, rfl⟩ := move_of_recorded ht'
    rw [insertions_append, hlog]
    dsimp only at hwaiting hnotified hmove
    cases hmove with
    | skip _ => exact ⟨hwaiting, rfl, hnotified⟩
    | cleanup now _ => exact ⟨hwaiting, rfl, hnotified⟩
    | find | miss => cases hl
    | make _ _ hreceiver | insert _ _ hreceiver | notify _ hreceiver | update _ _ _ hreceiver
    | lose _ _ hreceiver => cases hwaiting.symm.trans hreceiver
  exact hquiet.mono fun _ h ↦ h.2

/-- An announce that is not recognised is in the table two steps later. -/
theorem not_neverDiscoversItself (hfp : (Utf8.encode fingerprint).length ≤ 255)
    (hother : Utf8.decodeLossy (hostnameField (received (ownAnnounce cfg port fingerprint))) ≠
      cfg.hostname) : ¬ NeverDiscoversItself cfg port fingerprint := by
  intro h
  obtain ⟨a, hmissed⟩ := step_ownAnnounce_of_ne hfp hother (.v4 0)
  have hrun := h start (.v4 0) [.make 0, .insert] rfl
    (List.forall_mem_cons.2 ⟨rfl, List.forall_mem_singleton.2 rfl⟩)
  have hmissed' : ({ start with receiver := .missed a }, []) ∈
      recorded cfg (start, []) (.datagram (ownAnnounce cfg port fingerprint) (.v4 0)) :=
    mem_withHistory.2 ⟨hmissed, rfl⟩
  have hinserted := ((hrun.2 _ hmissed').2 _ rfl).2 _ rfl
  cases hinserted.1

end OwnAnnounce

/-- **A daemon never discovers itself exactly when its packet fits the receive buffer**, or is too
long by one or two bytes of a replacement character at the end of its hostname. -/
theorem neverDiscoversItself_iff (cfg : DiscoveryConfig) (port : UInt16) {fingerprint : String}
    (hfp : (Utf8.encode fingerprint).length ≤ 255) :
    NeverDiscoversItself cfg port fingerprint ↔
      (ownAnnounce cfg port fingerprint).length ≤ recvBufferSize ∨
        (ownAnnounce cfg port fingerprint).length ≤ recvBufferSize + 2 ∧
          cfg.hostname.toList.getLast? = some Utf8.replacementCharacter := by
  rw [ownAnnounce, ← decodeLossy_hostnameField_received_iff hfp]
  constructor
  · intro h
    by_contra hother
    exact not_neverDiscoversItself hfp hother h
  · intro hown s ip ls hs hls
    refine ⟨⟨rfl, rfl⟩, fun sl hsl ↦ ?_⟩
    obtain ⟨hstep, hlog⟩ := mem_withHistory.1 hsl
    rw [step_ownAnnounce hfp hown hs] at hstep
    obtain ⟨t, log⟩ := sl
    obtain rfl := Option.some.inj hstep
    obtain rfl : log = [] := hlog
    exact quiet_of_waiting hs hls

/-- The fingerprint of a certificate. -/
def certFingerprint : String :=
  "4b:f5:12:2f:34:45:54:c5:3b:de:2e:bb:8c:d2:b7:e3:d1:60:0a:d6:31:c3:85:a5:d7:cc:e2:3c:77:85:45:9a"

theorem length_certFingerprint : (Utf8.encode certFingerprint).length = 95 := by decide +kernel

/-- A daemon that tells what it finds. -/
def namedConfig : DiscoveryConfig := ⟨"desktop", true⟩

theorem neverDiscoversItself_namedConfig :
    NeverDiscoversItself namedConfig 4242 certFingerprint := by
  have hfp : (Utf8.encode certFingerprint).length ≤ 255 := by rw [length_certFingerprint]; decide
  refine (neverDiscoversItself_iff namedConfig 4242 hfp).2 (.inl ?_)
  rw [ownAnnounce, length_buildAnnounce, length_certFingerprint]
  decide +kernel

/-- A daemon whose hostname is one byte too long. -/
def longConfig : DiscoveryConfig := ⟨.ofList (List.replicate 409 'a'), true⟩

/-- It takes the rest of its name for another host. -/
theorem not_neverDiscoversItself_longConfig :
    ¬ NeverDiscoversItself longConfig 4242 certFingerprint := by
  have hfp : (Utf8.encode certFingerprint).length ≤ 255 := by rw [length_certFingerprint]; decide
  have hname : longConfig.hostname.toList = List.replicate 409 'a' := String.toList_ofList
  have hlength : (Utf8.encode longConfig.hostname).length = 409 := by
    rw [Utf8.encode, hname]
    decide +kernel
  refine not_neverDiscoversItself hfp ?_
  rw [ownAnnounce, Ne, decodeLossy_hostnameField_received_iff hfp, length_buildAnnounce, hlength,
    length_certFingerprint, hname]
  decide +kernel

end Discovery

end Kmflow
