import Kmflow.Foundation.Broadcast
import Kmflow.Net.Discovery
import Mathlib.Data.Fintype.Prod
import Mathlib.Data.Finset.Filter

/-!
# The daemons of a LAN

`Discovery` on every host of a LAN at once: each sends its announce to the broadcast address every
now and then, and each listens. Announces may be lost, repeated and overtaken, also the one that
comes back to its sender, and there may be other datagrams on the port, as long as they do not read
as an announce. The hosts are those whose announce is read back: one with a long hostname is cut off
on the way, and one without a hostname is not read at all.

Whatever happens, a table has none but daemons that have announced themselves under another hostname
(`entries_of_run`): an entry has the hostname, the port and the address of one of them, and the
fingerprint of one that goes by the same hostname and port, since an update keeps the fingerprint.
As long as no two daemons go by the same hostname and port, each table can be brought to have every
other daemon, each as it announced itself, from any state on (`exists_reaches_discovered`).

A host without LAN interface has no part in this: its daemon neither announces nor listens.
-/

namespace Kmflow

open Transition Broadcast

namespace Lan

/-- A daemon, whose announce is read back where it arrives: it fits into the buffer, its fingerprint
has a length of one byte, and its hostname is not empty. -/
structure Host where
  hostname : String
  port : UInt16
  fingerprint : String
  /-- `local_addr`, which the announce is sent from. -/
  ip : IpAddr
  notify : Bool
  named : hostname ≠ ""
  short : (Utf8.encode fingerprint).length ≤ 255
  fits : (buildAnnounce hostname port fingerprint).length ≤ recvBufferSize

namespace Host

/-- What its receiver is started with. -/
def config (h : Host) : DiscoveryConfig := ⟨h.hostname, h.notify⟩

/-- How it is known to the others. -/
def announce (h : Host) : Announce := ⟨h.hostname, h.port, h.fingerprint, h.ip⟩

/-- The packet it sends, with the address it comes from. -/
def datagram (h : Host) : List UInt8 × IpAddr :=
  (buildAnnounce h.hostname h.port h.fingerprint, h.ip)

/-- The datagram of a host is read as the host wrote it. -/
theorem parse_datagram (h : Host) :
    parseAnnounce (received h.datagram.1) = some (some (h.hostname, h.port, h.fingerprint)) := by
  have hreceived : received h.datagram.1 = h.datagram.1 := List.take_of_length_le h.fits
  rw [hreceived]
  exact parse_build h.named h.short

theorem key_inj {h h' : Host} :
    h.announce.key = h'.announce.key ↔ h.hostname = h'.hostname ∧ h.port = h'.port :=
  peerKey_inj

end Host

end Lan

namespace Discovery

/-- What a datagram does that does not read as an announce. -/
theorem step_noise {cfg : DiscoveryConfig} {s s' : Discovery} {data : List UInt8} {ip : IpAddr}
    (hnoise : parseAnnounce (received data) = some none)
    (hs' : s' ∈ step cfg s (.datagram data ip)) : s' = s := by
  rcases hreceiver : s.receiver with _ | _ | _ | _ | _ <;>
    simp only [step, hreceiver, hnoise] at hs'
  · exact (Option.some.inj hs').symm
  all_goals cases hs'

/-- What the receiver is at when it has looked an announce up. -/
def lookUp (s : Discovery) (a : Announce) : Receiver :=
  if (s.peers a.key).isSome then .found a else .missed a

/-- What the announce of a daemon does where it arrives. -/
theorem step_datagram (cfg : DiscoveryConfig) {s : Discovery} (hs : s.receiver = .waiting)
    (h : Lan.Host) : step cfg s (.datagram h.datagram.1 h.datagram.2) =
      some (if h.hostname = cfg.hostname then s
        else { s with receiver := s.lookUp h.announce }) := by
  simp only [step, hs, h.parse_datagram, Option.map_some]
  rfl

theorem waiting_of_datagram {cfg : DiscoveryConfig} {s s' : Discovery} {data : List UInt8}
    {ip : IpAddr} (hs' : s' ∈ step cfg s (.datagram data ip)) : s.receiver = .waiting := by
  rcases hreceiver : s.receiver with _ | _ | _ | _ | _ <;> simp only [step, hreceiver] at hs'
  · rfl
  all_goals cases hs'

/-! ### Going on until the next datagram -/

/-- The steps by which the receiver is done with the datagram it has. -/
def rest (s : Discovery) : List Label :=
  match s.receiver with
  | .waiting => []
  | .found _ => [.update s.clock]
  | .missed _ => [.make s.clock, .insert, .notify]
  | .made _ _ => [.insert, .notify]
  | .inserted _ => [.notify]

theorem isSome_update {peers : String → Option DiscoveredPeer} {key : String} {p : DiscoveredPeer}
    {k : String} (h : (peers k).isSome) : (Function.update peers key (some p) k).isSome := by
  rcases eq_or_ne k key with rfl | hk
  · rw [Function.update_self]
    rfl
  · rwa [Function.update_of_ne hk]

/-- The receiver can always be done with its datagram; no key is lost by that, and one that was
missing is there. -/
theorem exists_run_rest (cfg : DiscoveryConfig) (s : Discovery) :
    ∃ t ∈ run (step cfg) s s.rest, t.receiver = .waiting ∧
      (∀ key, (s.peers key).isSome → (t.peers key).isSome) ∧
      ∀ a, s.receiver = .missed a → (t.peers a.key).isSome := by
  obtain ⟨peers, receiver, clock, notified⟩ := s
  rcases receiver with _ | a | a | ⟨key, peer⟩ | addr
  case waiting => exact ⟨_, rfl, rfl, fun _ h ↦ h, fun _ h ↦ by cases h⟩
  case found =>
    rcases hp : peers a.key with _ | p
    · have hupdate : step cfg ⟨peers, .found a, clock, notified⟩ (.update clock) =
          some ⟨peers, .waiting, clock, notified⟩ := by
        simp only [step, hp, le_refl, if_true]
      exact ⟨_, (run_singleton _ _).trans hupdate, rfl, fun _ h ↦ h, fun _ h ↦ by cases h⟩
    · have hupdate : step cfg ⟨peers, .found a, clock, notified⟩ (.update clock) =
          some ⟨Function.update peers a.key
            (some { p with lastSeen := clock, addr := ⟨a.ip, a.port⟩ }),
            .waiting, clock, notified⟩ := by
        simp only [step, hp, le_refl, if_true]
      exact ⟨_, (run_singleton _ _).trans hupdate, rfl, fun _ h ↦ isSome_update h,
        fun _ h ↦ by cases h⟩
  case missed =>
    have hmake : step cfg ⟨peers, .missed a, clock, notified⟩ (.make clock) =
        some ⟨peers, .made a.key (a.peer clock), clock, notified⟩ := if_pos le_rfl
    refine ⟨_, (congrArg (Option.bind · _) hmake).trans rfl, rfl, fun key h ↦ isSome_update h, ?_⟩
    rintro a' ha'
    obtain rfl : a = a' := Receiver.missed.inj ha'
    show (Function.update peers a.key (some (a.peer clock)) a.key).isSome
    rw [Function.update_self]
    rfl
  case made => exact ⟨_, rfl, rfl, fun _ h ↦ isSome_update h, fun _ h ↦ by cases h⟩
  case inserted => exact ⟨_, rfl, rfl, fun _ h ↦ h, fun _ h ↦ by cases h⟩

end Discovery

namespace Lan

variable {ι : Type}

/-- The daemons as machines on the network. -/
def lan (hosts : ι → Host) : Protocol ι Discovery Discovery.Label (List UInt8 × IpAddr) where
  step i := Discovery.step (hosts i).config
  isOwn
    | .datagram data _ => parseAnnounce (received data) = some none
    | .recvError | .make _ | .insert | .notify | .update _ | .cleanup _ => true
  emit i _ := some (hosts i).datagram
  receive m := .datagram m.1 m.2

/-- A daemon has received the announce, which is one of another hostname that was sent. -/
def Heard (hosts : ι → Host) (i : ι) (sent : List (List UInt8 × IpAddr)) (a : Announce) : Prop :=
  ∃ j, (hosts j).datagram ∈ sent ∧ (hosts j).hostname ≠ (hosts i).hostname ∧ a = (hosts j).announce

/-- An entry is that of an announce, with the fingerprint of an announce of the same key. -/
def Describes (hosts : ι → Host) (i : ι) (sent : List (List UInt8 × IpAddr)) (key : String)
    (p : DiscoveredPeer) : Prop :=
  ∃ a b, Heard hosts i sent a ∧ Heard hosts i sent b ∧ a.key = key ∧ b.key = key ∧
    p.hostname = a.hostname ∧ p.addr = ⟨a.ip, a.port⟩ ∧ p.fingerprint = b.fingerprint

/-- What is known of a daemon, all that has been sent being the announces of the hosts. -/
structure Real (hosts : ι → Host) (i : ι) (sent : List (List UInt8 × IpAddr))
    (s : Discovery) : Prop where
  entries : ∀ key, ∀ p ∈ s.peers key, Describes hosts i sent key p
  found : ∀ a, s.receiver = .found a → Heard hosts i sent a
  missed : ∀ a, s.receiver = .missed a → Heard hosts i sent a
  made : ∀ key p, s.receiver = .made key p → Describes hosts i sent key p
  inserted : ∀ addr, s.receiver = .inserted addr → ∃ a, Heard hosts i sent a ∧ addr = ⟨a.ip, a.port⟩
  notified : ∀ addr ∈ s.notified, ∃ a, Heard hosts i sent a ∧ addr = ⟨a.ip, a.port⟩

section Real

variable {hosts : ι → Host} {i : ι} {sent sent' : List (List UInt8 × IpAddr)} {s s' : Discovery}

/-- What was heard stays heard. -/
theorem Heard.mono {a : Announce} (h : Heard hosts i sent a) (hsub : sent ⊆ sent') :
    Heard hosts i sent' a :=
  let ⟨j, hj, hne, ha⟩ := h
  ⟨j, hsub hj, hne, ha⟩

theorem Describes.mono {key : String} {p : DiscoveredPeer} (h : Describes hosts i sent key p)
    (hsub : sent ⊆ sent') : Describes hosts i sent' key p :=
  let ⟨a, b, ha, hb, h⟩ := h
  ⟨a, b, ha.mono hsub, hb.mono hsub, h⟩

theorem Heard.describes {a : Announce} (h : Heard hosts i sent a) (now : ℕ) :
    Describes hosts i sent a.key (a.peer now) :=
  ⟨a, a, h, h, rfl, rfl, rfl, rfl, rfl⟩

theorem Describes.addr {key : String} {p : DiscoveredPeer} (h : Describes hosts i sent key p) :
    ∃ a, Heard hosts i sent a ∧ p.addr = ⟨a.ip, a.port⟩ := by
  obtain ⟨a, b, ha, -, -, -, -, haddr, -⟩ := h
  exact ⟨a, ha, haddr⟩

/-- At the start nobody is known. -/
theorem real_start : Real hosts i [] .start :=
  ⟨nofun, nofun, nofun, nofun, nofun, nofun⟩

theorem Real.mono (h : Real hosts i sent s) (hsub : sent ⊆ sent') : Real hosts i sent' s where
  entries key p hp := (h.entries key p hp).mono hsub
  found a ha := (h.found a ha).mono hsub
  missed a ha := (h.missed a ha).mono hsub
  made key p hp := (h.made key p hp).mono hsub
  inserted addr haddr :=
    let ⟨a, ha, heq⟩ := h.inserted addr haddr
    ⟨a, ha.mono hsub, heq⟩
  notified addr haddr :=
    let ⟨a, ha, heq⟩ := h.notified addr haddr
    ⟨a, ha.mono hsub, heq⟩

/-- An update gives an entry the address of the announce, and keeps its fingerprint. -/
theorem Describes.renew {a : Announce} {p : DiscoveredPeer} (h : Describes hosts i sent a.key p)
    (ha : Heard hosts i sent a) (now : ℕ) :
    Describes hosts i sent a.key { p with lastSeen := now, addr := ⟨a.ip, a.port⟩ } := by
  obtain ⟨a', b, -, hb, hkey, hbkey, hhost, -, hfp⟩ := h
  exact ⟨a, b, ha, hb, rfl, hbkey, hhost.trans (peerKey_inj.1 hkey).1, rfl, hfp⟩

theorem describes_update {peers : String → Option DiscoveredPeer}
    (h : ∀ key, ∀ p ∈ peers key, Describes hosts i sent key p) {key : String} {p : DiscoveredPeer}
    (hp : Describes hosts i sent key p) :
    ∀ k, ∀ q ∈ Function.update peers key (some p) k, Describes hosts i sent k q := by
  intro k q hq
  rcases eq_or_ne k key with rfl | hk
  · rw [Function.update_self] at hq
    exact Option.some.inj hq ▸ hp
  · rw [Function.update_of_ne hk] at hq
    exact h k q hq

theorem mem_notified {on : Bool} {told : List SocketAddr} {addr addr' : SocketAddr}
    (h : addr' ∈ if on then told ++ [addr] else told) : addr' ∈ told ∨ addr' = addr := by
  split_ifs at h
  · simpa using h
  · exact .inl h

/-- The receiver waits again. -/
theorem Real.of_waiting (h : Real hosts i sent s)
    (hpeers : ∀ key, ∀ p ∈ s'.peers key, Describes hosts i sent key p)
    (hnotified : s'.notified = s.notified) (hwaiting : s'.receiver = .waiting) :
    Real hosts i sent s' := by
  refine ⟨hpeers, ?_, ?_, ?_, ?_, by rw [hnotified]; exact h.notified⟩
  all_goals rw [hwaiting]; exact nofun

/-- **A step that takes no announce of the daemons.** -/
theorem Real.step_own (h : Real hosts i sent s) {l : Discovery.Label} (hl : (lan hosts).isOwn l)
    (hs' : s' ∈ Discovery.step (hosts i).config s l) : Real hosts i sent s' := by
  have hmove := Discovery.move_of_step hs'
  generalize s.occurrences l = os at hmove
  rcases hmove with hwaiting | ⟨a, p, hwaiting, hp⟩ | ⟨a, hwaiting, hp⟩ | ⟨a, now, hmissed, hnow⟩ |
    ⟨key, peer, hmade⟩ | ⟨addr, hinserted⟩ | ⟨a, now, p, hfound, hnow, hp⟩ |
    ⟨a, now, hfound, hnow, hp⟩ | ⟨now, hnow⟩
  · exact h
  · rwa [Discovery.step_noise (of_decide_eq_true hl) hs']
  · rwa [Discovery.step_noise (of_decide_eq_true hl) hs']
  · refine ⟨h.entries, nofun, nofun, ?_, nofun, h.notified⟩
    rintro key p ⟨⟩
    exact (h.missed a hmissed).describes now
  · have hpeer : Describes hosts i sent key peer := h.made key peer hmade
    refine ⟨describes_update h.entries hpeer, nofun, nofun, nofun, ?_, h.notified⟩
    rintro addr ⟨⟩
    exact hpeer.addr
  · refine ⟨h.entries, nofun, nofun, nofun, nofun, fun addr' haddr' ↦ ?_⟩
    rcases mem_notified haddr' with hold | rfl
    · exact h.notified addr' hold
    · exact h.inserted addr' hinserted
  · have hrenewed := (h.entries a.key p hp).renew (h.found a hfound) now
    exact h.of_waiting (describes_update h.entries hrenewed) rfl rfl
  · exact h.of_waiting h.entries rfl rfl
  · refine ⟨fun key p hp ↦ ?_, h.found, h.missed, h.made, h.inserted, h.notified⟩
    exact h.entries key p (Discovery.of_mem_retain hp).1

/-- **The announce of a daemon arrives.** -/
theorem Real.step_datagram (h : Real hosts i sent s) {j : ι} (hj : (hosts j).datagram ∈ sent)
    (hs' : s' ∈ Discovery.step (hosts i).config s
      (.datagram (hosts j).datagram.1 (hosts j).datagram.2)) : Real hosts i sent s' := by
  rw [Discovery.step_datagram (hosts i).config (Discovery.waiting_of_datagram hs') (hosts j)] at hs'
  obtain rfl := Option.some.inj hs'
  by_cases hown : (hosts j).hostname = (hosts i).config.hostname
  · rwa [if_pos hown]
  · rw [if_neg hown]
    have hheard : Heard hosts i sent (hosts j).announce := ⟨j, hj, hown, rfl⟩
    by_cases hknown : (s.peers (hosts j).announce.key).isSome
    · rw [Discovery.lookUp, if_pos hknown]
      refine ⟨h.entries, ?_, nofun, nofun, nofun, h.notified⟩
      rintro a ⟨⟩
      exact hheard
    · rw [Discovery.lookUp, if_neg hknown]
      refine ⟨h.entries, nofun, ?_, nofun, nofun, h.notified⟩
      rintro a ⟨⟩
      exact hheard

end Real

/-! ### Runs -/

variable [DecidableEq ι]

theorem real_run (hosts : ι → Host) (labels : List (Label ι Discovery.Label)) :
    Throughout (step (lan hosts))
      (fun s ↦ (∀ i, Real hosts i s.sent (s.nodes i)) ∧ ∀ m ∈ s.sent, ∃ j, m = (hosts j).datagram)
      (start .start) labels := by
  refine throughout_of_nodes (fun i ↦ real_start) (fun i sent m s h ↦ ?_) (fun i sent s h m hm ↦ ?_)
    (fun i sent s l h hl s' hs' ↦ h.step_own hl hs') ?_ labels
  · exact h.mono (List.subset_append_left sent [m])
  · exact ⟨i, (Option.some.inj hm).symm⟩
  · rintro i sent s m h hm ⟨j, rfl⟩ s' hs'
    exact h.step_datagram hm hs'

/-- **A table has none but daemons that have announced themselves.** In every run, each entry of a
table has the hostname, the port and the address of a daemon with another hostname whose announce
was sent, and the fingerprint of one that goes by the same hostname and port; and the addresses that
were told are those of such daemons. -/
theorem entries_of_run {hosts : ι → Host} {labels : List (Label ι Discovery.Label)}
    {s : Network ι Discovery (List UInt8 × IpAddr)}
    (hrun : s ∈ run (step (lan hosts)) (start .start) labels) (i : ι) :
    (∀ key, ∀ p ∈ (s.nodes i).peers key, ∃ j k,
        (hosts j).datagram ∈ s.sent ∧ (hosts k).datagram ∈ s.sent ∧
        (hosts j).hostname ≠ (hosts i).hostname ∧ (hosts k).hostname = (hosts j).hostname ∧
        (hosts k).port = (hosts j).port ∧ key = peerKey (hosts j).hostname (hosts j).port ∧
        p.hostname = (hosts j).hostname ∧ p.addr = ⟨(hosts j).ip, (hosts j).port⟩ ∧
        p.fingerprint = (hosts k).fingerprint) ∧
      ∀ addr ∈ (s.nodes i).notified, ∃ j, (hosts j).datagram ∈ s.sent ∧
        (hosts j).hostname ≠ (hosts i).hostname ∧ addr = ⟨(hosts j).ip, (hosts j).port⟩ := by
  have hreal : Real hosts i s.sent (s.nodes i) := ((real_run hosts labels).last hrun).1 i
  refine ⟨fun key p hp ↦ ?_, fun addr haddr ↦ ?_⟩
  · obtain ⟨a, b, ⟨j, hj, hne, rfl⟩, ⟨k, hk, -, rfl⟩, rfl, hkey, hpeer⟩ := hreal.entries key p hp
    obtain ⟨hhost, hport⟩ := Host.key_inj.1 hkey
    exact ⟨j, k, hj, hk, hne, hhost, hport, rfl, hpeer⟩
  · obtain ⟨a, ⟨j, hj, hne, rfl⟩, rfl⟩ := hreal.notified addr haddr
    exact ⟨j, hj, hne, rfl⟩

/-- Two daemons. -/
def sampleHosts : Bool → Host
  | false => ⟨"desk", 4242, "sha256:01", .v4 0xC0A80002#32, true, by decide, by decide, by decide⟩
  | true => ⟨"lap", 4242, "sha256:02", .v4 0xC0A80003#32, true, by decide, by decide, by decide⟩

/-- Each announces itself, one announce comes back, and one daemon finds the other. -/
def sampleRun : List (Label Bool Discovery.Label) :=
  [.send false, .send true, .deliver false 0, .deliver false 1, .own false (.make 5),
    .own false .insert, .own false .notify]

theorem sampleRun_end :
    (run (step (lan sampleHosts)) (start .start) sampleRun).map
        (fun s ↦ (s.nodes false).peers "lap:4242") =
      some (some ⟨"lap", ⟨.v4 0xC0A80003#32, 4242⟩, "sha256:02", 5⟩) := by
  decide +kernel

/-- The entry that was made is that of a daemon of another name. -/
theorem entries_of_run_sampleRun :
    ∃ s ∈ run (step (lan sampleHosts)) (start .start) sampleRun,
      ∃ p ∈ (s.nodes false).peers "lap:4242", ∃ j, (sampleHosts j).hostname ≠ "desk" ∧
        p.addr = ⟨(sampleHosts j).ip, (sampleHosts j).port⟩ := by
  obtain ⟨s, hrun, hentry⟩ := Option.map_eq_some_iff.1 sampleRun_end
  obtain ⟨j, -, -, -, hne, -, -, -, -, haddr, -⟩ :=
    (entries_of_run hrun false).1 "lap:4242" _ hentry
  exact ⟨s, hrun, _, hentry, j, hne, haddr⟩

/-! ### Progress -/

/-- No daemon has lost a key. -/
def Keeps (s s' : Network ι Discovery (List UInt8 × IpAddr)) : Prop :=
  ∀ i key, ((s.nodes i).peers key).isSome → ((s'.nodes i).peers key).isSome

section Progress

variable {hosts : ι → Host} {s t : Network ι Discovery (List UInt8 × IpAddr)} {i j : ι}

omit [DecidableEq ι] in
/-- What brings a machine to rest is its own. -/
theorem isOwn_of_mem_rest {d : Discovery} {l : Discovery.Label} (hl : l ∈ d.rest) :
    (lan hosts).isOwn l := by
  obtain ⟨peers, receiver, clock, notified⟩ := d
  rcases receiver with _ | a | a | ⟨key, peer⟩ | addr <;>
    simp only [Discovery.rest, List.mem_cons, List.not_mem_nil, or_false] at hl
  · rw [hl]
    rfl
  · rcases hl with rfl | rfl | rfl <;> rfl
  · rcases hl with rfl | rfl <;> rfl
  · rw [hl]
    rfl

/-- A machine that keeps its peers lets the network keep them. -/
theorem keeps_set {d : Discovery}
    (h : ∀ key, ((s.nodes i).peers key).isSome → (d.peers key).isSome) : Keeps s (s.set i d) := by
  intro k key hk
  rcases eq_or_ne k i with rfl | hne
  · rw [s.set_nodes_self]
    exact h key hk
  · rwa [s.set_nodes_of_ne hne]

/-- The receiver of a daemon gets done with its datagram. -/
theorem exists_reaches_waiting (hosts : ι → Host)
    (s : Network ι Discovery (List UInt8 × IpAddr)) (i : ι) :
    ∃ t, Reaches (step (lan hosts)) s t ∧ Keeps s t ∧ (t.nodes i).receiver = .waiting ∧
      ∀ a, (s.nodes i).receiver = .missed a → ((t.nodes i).peers a.key).isSome := by
  obtain ⟨d, hd, hwaiting, hkept, hmissed⟩ :=
    Discovery.exists_run_rest (hosts i).config (s.nodes i)
  refine ⟨s.set i d, ⟨_, run_own (fun l hl ↦ isOwn_of_mem_rest hl) hd⟩, keeps_set hkept, ?_, ?_⟩
  · rwa [s.set_nodes_self]
  · rwa [s.set_nodes_self]

/-- A daemon that waits takes an announce: it then knows the key, or is about to insert it. -/
theorem exists_reaches_taken (hwaiting : (s.nodes i).receiver = .waiting)
    (hne : (hosts j).hostname ≠ (hosts i).hostname) :
    ∃ t, Reaches (step (lan hosts)) s t ∧ Keeps s t ∧
      (((t.nodes i).peers (hosts j).announce.key).isSome ∨
        (t.nodes i).receiver = .missed (hosts j).announce) := by
  let sent : Network ι Discovery (List UInt8 × IpAddr) :=
    { s with sent := s.sent ++ [(hosts j).datagram] }
  let d : Discovery := { s.nodes i with receiver := (s.nodes i).lookUp (hosts j).announce }
  have hsend : sent ∈ step (lan hosts) s (.send j) := rfl
  have hget : sent.sent[s.sent.length]? = some (hosts j).datagram := by simp [sent]
  have htake : (lan hosts).step i (sent.nodes i) ((lan hosts).receive (hosts j).datagram) =
      some d :=
    (Discovery.step_datagram (hosts i).config hwaiting (hosts j)).trans
      (congrArg some (if_neg hne))
  have hdeliver : sent.set i d ∈ step (lan hosts) sent (.deliver i s.sent.length) := by
    simp only [step, hget, Option.bind_some, htake]
    rfl
  refine ⟨sent.set i d, (Reaches.of_step hsend).trans (.of_step hdeliver),
    keeps_set (s := sent) fun key hkey ↦ hkey, ?_⟩
  rw [sent.set_nodes_self]
  by_cases hknown : ((s.nodes i).peers (hosts j).announce.key).isSome
  · exact .inl hknown
  · exact .inr (if_neg hknown)

/-- A daemon can be brought to have another in its table. -/
theorem exists_reaches_learnt (s : Network ι Discovery (List UInt8 × IpAddr))
    (hne : (hosts j).hostname ≠ (hosts i).hostname) :
    ∃ t, Reaches (step (lan hosts)) s t ∧ Keeps s t ∧
      ((t.nodes i).peers (hosts j).announce.key).isSome := by
  obtain ⟨t, hst, hkeeps, hwaiting, -⟩ := exists_reaches_waiting hosts s i
  obtain ⟨u, htu, hkeeps', htaken⟩ := exists_reaches_taken hwaiting hne
  obtain ⟨v, huv, hkeeps'', -, hmissed⟩ := exists_reaches_waiting hosts u i
  refine ⟨v, (hst.trans htu).trans huv,
    fun k key h ↦ hkeeps'' k key (hkeeps' k key (hkeeps k key h)), ?_⟩
  rcases htaken with hknown | hmiss
  · exact hkeeps'' i _ hknown
  · exact hmissed _ hmiss

/-- One after the other, the daemons can be brought to have each other in their tables. -/
theorem exists_reaches_all (s : Network ι Discovery (List UInt8 × IpAddr)) (pairs : List (ι × ι))
    (hpairs : ∀ ij ∈ pairs, (hosts ij.2).hostname ≠ (hosts ij.1).hostname) :
    ∃ t, Reaches (step (lan hosts)) s t ∧
      ∀ ij ∈ pairs, ((t.nodes ij.1).peers (hosts ij.2).announce.key).isSome := by
  induction pairs with
  | nil => exact ⟨s, .refl s, nofun⟩
  | cons ij pairs ih =>
    obtain ⟨t, hst, hall⟩ := ih fun ij' h ↦ hpairs ij' (List.mem_cons_of_mem ij h)
    obtain ⟨u, htu, hkeeps, hlearnt⟩ := exists_reaches_learnt t (hpairs ij List.mem_cons_self)
    refine ⟨u, hst.trans htu, fun ij' h ↦ ?_⟩
    rcases List.mem_cons.1 h with rfl | h
    · exact hlearnt
    · exact hkeeps _ _ (hall ij' h)

/-- **The daemons can always discover each other**, when no two of them go by the same hostname and
port: from every reachable state a state can be reached in which each has every other of another
hostname in its table, just as it announced itself. -/
theorem exists_reaches_discovered [Finite ι]
    (hdistinct : Function.Injective fun i ↦ ((hosts i).hostname, (hosts i).port))
    (hs : Reaches (step (lan hosts)) (start .start) s) :
    ∃ t, Reaches (step (lan hosts)) s t ∧
      ∀ i j, (hosts j).hostname ≠ (hosts i).hostname →
        ∃ now, (t.nodes i).peers (hosts j).announce.key = some ((hosts j).announce.peer now) := by
  have := Fintype.ofFinite ι
  let pairs : List (ι × ι) := (Finset.univ.filter fun ij : ι × ι ↦
    (hosts ij.2).hostname ≠ (hosts ij.1).hostname).toList
  obtain ⟨t, hst, hall⟩ := exists_reaches_all s pairs fun ij hij ↦
    (Finset.mem_filter.1 (Finset.mem_toList.1 hij)).2
  refine ⟨t, hst, fun i j hne ↦ ?_⟩
  have hmem : (i, j) ∈ pairs := Finset.mem_toList.2 (Finset.mem_filter.2 ⟨Finset.mem_univ _, hne⟩)
  obtain ⟨p, hp⟩ := Option.isSome_iff_exists.1 (hall (i, j) hmem)
  obtain ⟨labels, hrun⟩ := hs.trans hst
  have hreal : Real hosts i t.sent (t.nodes i) := ((real_run hosts labels).last hrun).1 i
  obtain ⟨a, b, ⟨j', -, -, rfl⟩, ⟨k, -, -, rfl⟩, hkey, hkey', hhost, haddr, hfp⟩ :=
    hreal.entries _ p hp
  obtain rfl : j' = j := hdistinct (Prod.ext_iff.2 (Host.key_inj.1 hkey))
  obtain rfl : k = j' := hdistinct (Prod.ext_iff.2 (Host.key_inj.1 hkey'))
  refine ⟨p.lastSeen, hp.trans (congrArg some ?_)⟩
  obtain ⟨hostname, addr, fingerprint, lastSeen⟩ := p
  dsimp only at hhost haddr hfp
  rw [hhost, haddr, hfp]
  rfl

end Progress

theorem exists_reaches_discovered_sampleHosts :
    ∃ t, Reaches (step (lan sampleHosts)) (start .start) t ∧
      ∀ i j, (sampleHosts j).hostname ≠ (sampleHosts i).hostname → ∃ now,
        (t.nodes i).peers (sampleHosts j).announce.key =
          some ((sampleHosts j).announce.peer now) :=
  exists_reaches_discovered (by decide) (.refl _)

end Lan

end Kmflow
