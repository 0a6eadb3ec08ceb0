import Kmflow.Foundation.Infix
import Kmflow.Foundation.Transition
import Kmflow.Net.Announce
import Mathlib.Data.List.Chain

/-!
# The table of discovered peers

The receiver and the cleanup task of `browse_with_notify`, which share a table of peers behind one
read-write lock. The receiver looks a key up under the read lock and then, under the write lock,
inserts a new entry or updates the one it found; between the two the cleanup task may run.

A step is what happens between two awaits. The labels carry the datagrams and the times that
`Instant::now` gives, which never go back. The entry of a new peer is made, with its time, before
the write lock is asked for; an update reads the time while it has the lock. `Occurrence` is what
the two tasks have done so far, in order, as a history variable: announces handled, entries
inserted, cleanups.

Two things follow from the two locks. An update finds nothing when a cleanup came between, and then
the announce is lost; and it never touches the fingerprint. So the table reflects the latest
announce as long as neither happens (`reflects_iff`). Insertions and removals, on the other hand,
are in order whatever the interleaving (`presence`): only the receiver inserts, so between its look
at the table and its insertion no other entry of the key can appear.
-/

namespace Kmflow

open Transition

/-- `PEER_TTL`, in nanoseconds. -/
def peerTtl : ℕ := 10000000000

/-- `IpAddr`, as its bits. -/
inductive IpAddr where
  | v4 (octets : BitVec 32)
  | v6 (octets : BitVec 128)
  deriving DecidableEq

/-- `SocketAddr`. -/
structure SocketAddr where
  ip : IpAddr
  port : UInt16
  deriving DecidableEq

/-- `DiscoveredPeer`. -/
structure DiscoveredPeer where
  hostname : String
  addr : SocketAddr
  fingerprint : String
  /-- An `Instant`, in nanoseconds. -/
  lastSeen : ℕ
  deriving DecidableEq

/-- An announce from another host, with the address its datagram came from. -/
structure Announce where
  hostname : String
  port : UInt16
  fingerprint : String
  ip : IpAddr
  deriving DecidableEq

/-- `format!("{}:{}", peer_hostname, peer_port)`. -/
def peerKey (hostname : String) (port : UInt16) : String := s!"{hostname}:{port.toNat}"

namespace Announce

/-- The key of the table that an announce goes to. -/
def key (a : Announce) : String := peerKey a.hostname a.port

/-- The entry of the announce when it is handled at a time. -/
def peer (a : Announce) (now : ℕ) : DiscoveredPeer where
  hostname := a.hostname
  addr := ⟨a.ip, a.port⟩
  fingerprint := a.fingerprint
  lastSeen := now

end Announce

theorem toList_peerKey (hostname : String) (port : UInt16) :
    (peerKey hostname port).toList = hostname.toList ++ ':' :: Nat.toDigits 10 port.toNat := by
  have hrepr : (toString port.toNat).toList = Nat.toDigits 10 port.toNat := String.toList_ofList
  show (hostname ++ ":" ++ toString port.toNat).toList = _
  rw [String.toList_append, String.toList_append, hrepr, List.append_assoc]
  rfl

/-- **A key names one host and one port**, whatever colons the hostname has: the port has none. -/
theorem peerKey_inj {hostname hostname' : String} {port port' : UInt16} :
    peerKey hostname port = peerKey hostname' port' ↔ hostname = hostname' ∧ port = port' := by
  refine ⟨fun h ↦ ?_, fun ⟨hhost, hport⟩ ↦ by rw [hhost, hport]⟩
  have hcolon (n : ℕ) : ':' ∉ Nat.toDigits 10 n := fun hmem ↦ by
    have hdigit := Nat.isDigit_of_mem_toDigits (by decide) (by decide) hmem
    exact absurd hdigit (by decide)
  have hlist := congrArg String.toList h
  rw [toList_peerKey, toList_peerKey] at hlist
  obtain ⟨hhost, hport⟩ := List.append_cons_inj_of_notMem_right (hcolon _) (hcolon _) hlist
  refine ⟨String.toList_inj.1 hhost, UInt16.toNat_inj.1 ?_⟩
  rw [← @Nat.ofDigitChars_ten_toDigits port.toNat, hport, Nat.ofDigitChars_ten_toDigits]

/-- What the receiver is at. -/
inductive Receiver where
  /-- In `recv_from`. -/
  | waiting
  /-- It has looked the key up, and waits for the write lock to update the entry it found. -/
  | found (a : Announce)
  /-- It has found no entry. -/
  | missed (a : Announce)
  /-- It has made an entry, and waits for the write lock to insert it. -/
  | made (key : String) (peer : DiscoveredPeer)
  /-- It has inserted the entry, and has yet to tell about it. -/
  | inserted (addr : SocketAddr)
  deriving DecidableEq

/-- What the receiver is started with. -/
structure DiscoveryConfig where
  hostname : String
  /-- Whether `notify_tx` is there. -/
  notify : Bool

/-- The table of peers and the task that keeps it. -/
structure Discovery where
  peers : String → Option DiscoveredPeer
  receiver : Receiver
  /-- The last time that was read. -/
  clock : ℕ
  /-- What was handed to `notify_tx`. -/
  notified : List SocketAddr

namespace Discovery

/-- Before the tasks are spawned. -/
def start : Discovery where
  peers := fun _ ↦ none
  receiver := .waiting
  clock := 0
  notified := []

/-- The labels of the receiver and of the cleanup. -/
inductive Label where
  /-- A datagram arrives, and its key is looked up. -/
  | datagram (data : List UInt8) (ip : IpAddr)
  /-- `recv_from` fails. -/
  | recvError
  /-- The entry of a new peer is made. -/
  | make (now : ℕ)
  /-- It is inserted. -/
  | insert
  /-- Its address goes to `notify_tx`. -/
  | notify
  /-- The entry that was found is updated, if it is still there. -/
  | update (now : ℕ)
  | cleanup (now : ℕ)
  deriving DecidableEq

/-- `peers.retain(|_, p| p.last_seen.elapsed() < PEER_TTL)`; `elapsed` saturates at zero. -/
def retain (peers : String → Option DiscoveredPeer) (now : ℕ) : String → Option DiscoveredPeer :=
  fun key ↦ (peers key).filter fun p ↦ decide (now - p.lastSeen < peerTtl)

/-- One step of the discovery; `none` when the label is not enabled. -/
def step (cfg : DiscoveryConfig) (s : Discovery) : Label → Option Discovery
  | .datagram data ip =>
    match s.receiver with
    | .waiting =>
      -- the outer `none`, a panic of the parser, does not happen
      (parseAnnounce (received data)).map fun announce? ↦
        match announce? with
        | none => s
        | some (hostname, port, fingerprint) =>
          if hostname = cfg.hostname then s
          else
            let a : Announce := ⟨hostname, port, fingerprint, ip⟩
            { s with receiver := if (s.peers a.key).isSome then .found a else .missed a }
    | _ => none
  | .recvError =>
    match s.receiver with
    | .waiting => some s
    | _ => none
  | .make now =>
    match s.receiver with
    | .missed a =>
      if s.clock ≤ now then
        some { s with receiver := .made a.key (a.peer now), clock := now }
      else none
    | _ => none
  | .insert =>
    match s.receiver with
    | .made key peer =>
      some { s with
        peers := Function.update s.peers key (some peer)
        receiver := .inserted peer.addr }
    | _ => none
  | .notify =>
    match s.receiver with
    | .inserted addr =>
      some { s with
        receiver := .waiting
        notified := if cfg.notify then s.notified ++ [addr] else s.notified }
    | _ => none
  | .update now =>
    match s.receiver with
    | .found a =>
      if s.clock ≤ now then
        some { s with
          peers :=
            match s.peers a.key with
            | some p =>
              Function.update s.peers a.key
                (some { p with lastSeen := now, addr := ⟨a.ip, a.port⟩ })
            | none => s.peers
          receiver := .waiting
          clock := now }
      else none
    | _ => none
  | .cleanup now =>
    if s.clock ≤ now then some { s with peers := retain s.peers now, clock := now } else none

/-! ### What has happened so far -/

/-- What the two tasks have done. -/
inductive Occurrence where
  /-- An announce of the key was handled, at the time of the entry it stands for. -/
  | handled (key : String) (peer : DiscoveredPeer)
  | inserted (key : String) (addr : SocketAddr)
  /-- A cleanup, with the keys it removed. -/
  | cleaned (now : ℕ) (removed : String → Bool)

/-- What a step does. -/
def occurrences (s : Discovery) : Label → List Occurrence
  | .make now =>
    match s.receiver with
    | .missed a => [.handled a.key (a.peer now)]
    | _ => []
  | .update now =>
    match s.receiver with
    | .found a => [.handled a.key (a.peer now)]
    | _ => []
  | .insert =>
    match s.receiver with
    | .made key peer => [.inserted key peer.addr]
    | _ => []
  | .cleanup now => [.cleaned now fun key ↦ (s.peers key).isSome && (retain s.peers now key).isNone]
  | .datagram _ _ | .recvError | .notify => []

/-- The tasks, with what they have done so far. -/
def recorded (cfg : DiscoveryConfig) :
    Discovery × List Occurrence → Label → Option (Discovery × List Occurrence) :=
  withHistory (step cfg) fun log s l _ ↦ log ++ s.occurrences l

/-- The latest announce of a key, unless a cleanup has removed the key since. -/
def latest (key : String) (log : List Occurrence) : Option DiscoveredPeer :=
  log.foldl (fun last o ↦
    match o with
    | .handled key' peer => if key' = key then some peer else last
    | .inserted _ _ => last
    | .cleaned _ removed => if removed key then none else last) none

/-! ### One step -/

/-- **Everything a step does**, with the state it leads to and what it records. -/
inductive Move (cfg : DiscoveryConfig) (s : Discovery) : Label → Discovery → List Occurrence → Prop
  | skip {l : Label} (hreceiver : s.receiver = .waiting) : Move cfg s l s []
  | find {data : List UInt8} {ip : IpAddr} (a : Announce) (p : DiscoveredPeer)
      (hreceiver : s.receiver = .waiting) (hp : s.peers a.key = some p) :
    Move cfg s (.datagram data ip) { s with receiver := .found a } []
  | miss {data : List UInt8} {ip : IpAddr} (a : Announce) (hreceiver : s.receiver = .waiting)
      (hp : s.peers a.key = none) :
    Move cfg s (.datagram data ip) { s with receiver := .missed a } []
  | make (a : Announce) (now : ℕ) (hreceiver : s.receiver = .missed a) (hnow : s.clock ≤ now) :
    Move cfg s (.make now) { s with receiver := .made a.key (a.peer now), clock := now }
      [.handled a.key (a.peer now)]
  | insert (key : String) (peer : DiscoveredPeer) (hreceiver : s.receiver = .made key peer) :
    Move cfg s .insert { s with
      peers := Function.update s.peers key (some peer)
      receiver := .inserted peer.addr } [.inserted key peer.addr]
  | notify (addr : SocketAddr) (hreceiver : s.receiver = .inserted addr) :
    Move cfg s .notify { s with
      receiver := .waiting
      notified := if cfg.notify then s.notified ++ [addr] else s.notified } []
  | update (a : Announce) (now : ℕ) (p : DiscoveredPeer) (hreceiver : s.receiver = .found a)
      (hnow : s.clock ≤ now) (hp : s.peers a.key = some p) :
    Move cfg s (.update now) { s with
      peers :=
        Function.update s.peers a.key (some { p with lastSeen := now, addr := ⟨a.ip, a.port⟩ })
      receiver := .waiting
      clock := now } [.handled a.key (a.peer now)]
  | lose (a : Announce) (now : ℕ) (hreceiver : s.receiver = .found a) (hnow : s.clock ≤ now)
      (hp : s.peers a.key = none) :
    Move cfg s (.update now) { s with receiver := .waiting, clock := now }
      [.handled a.key (a.peer now)]
  | cleanup (now : ℕ) (hnow : s.clock ≤ now) :
    Move cfg s (.cleanup now) { s with peers := retain s.peers now, clock := now }
      [.cleaned now fun key ↦ (s.peers key).isSome && (retain s.peers now key).isNone]

/-- **A step is one of the moves.** -/
theorem move_of_step {cfg : DiscoveryConfig} {s s' : Discovery} {l : Label}
    (hs' : s' ∈ step cfg s l) : Move cfg s l s' (s.occurrences l) := by
  match l with
  | .datagram data ip =>
    cases hreceiver : s.receiver <;> simp only [step, hreceiver] at hs'
    case waiting =>
      obtain ⟨announce?, _, rfl⟩ := Option.map_eq_some_iff.1 hs'
      match announce? with
      | none => exact .skip hreceiver
      | some (hostname, port, fingerprint) =>
        dsimp only
        split_ifs with hown hknown
        · exact .skip hreceiver
        · obtain ⟨p, hp⟩ := Option.isSome_iff_exists.1 hknown
          exact .find ⟨hostname, port, fingerprint, ip⟩ p hreceiver hp
        · exact .miss ⟨hostname, port, fingerprint, ip⟩ hreceiver
            (Option.not_isSome_iff_eq_none.1 hknown)
    all_goals cases hs'
  | .recvError =>
    cases hreceiver : s.receiver <;> simp only [step, hreceiver] at hs'
    case waiting =>
      obtain rfl := Option.some.inj hs'
      exact .skip hreceiver
    all_goals cases hs'
  | .make now =>
    cases hreceiver : s.receiver <;> simp only [step, hreceiver] at hs'
    case missed a =>
      split_ifs at hs' with hnow
      · obtain rfl := Option.some.inj hs'
        rw [occurrences, hreceiver]
        exact .make a now hreceiver hnow
      · cases hs'
    all_goals cases hs'
  | .insert =>
    cases hreceiver : s.receiver <;> simp only [step, hreceiver] at hs'
    case made key peer =>
      obtain rfl := Option.some.inj hs'
      rw [occurrences, hreceiver]
      exact .insert key peer hreceiver
    all_goals cases hs'
  | .notify =>
    cases hreceiver : s.receiver <;> simp only [step, hreceiver] at hs'
    case inserted addr =>
      obtain rfl := Option.some.inj hs'
      exact .notify addr hreceiver
    all_goals cases hs'
  | .update now =>
    cases hreceiver : s.receiver <;> simp only [step, hreceiver] at hs'
    case found a =>
      split_ifs at hs' with hnow
      · obtain rfl := Option.some.inj hs'
        rw [occurrences, hreceiver]
        cases hp : s.peers a.key with
        | none => exact .lose a now hreceiver hnow hp
        | some p => exact .update a now p hreceiver hnow hp
      · cases hs'
    all_goals cases hs'
  | .cleanup now =>
    simp only [step] at hs'
    split_ifs at hs' with hnow
    · obtain rfl := Option.some.inj hs'
      exact .cleanup now hnow
    · cases hs'

/-- The same for the recorded tasks. -/
theorem move_of_recorded {cfg : DiscoveryConfig} {sl sl' : Discovery × List Occurrence} {l : Label}
    (h : sl' ∈ recorded cfg sl l) :
    ∃ os, Move cfg sl.1 l sl'.1 os ∧ sl'.2 = sl.2 ++ os := by
  obtain ⟨hs', hlog⟩ := mem_withHistory.1 h
  exact ⟨_, move_of_step hs', hlog⟩

/-! ### The latest announce -/

/-- The entry has the address, the fingerprint and the time of the announce. -/
structure Matches (p peer : DiscoveredPeer) : Prop where
  addr : p.addr = peer.addr
  fingerprint : p.fingerprint = peer.fingerprint
  lastSeen : p.lastSeen = peer.lastSeen

/-- No insertion is under way. -/
def Settled (s : Discovery) : Prop := ∀ key peer, s.receiver ≠ .made key peer

/-- The table has the latest announce of every key that no cleanup has removed since. -/
def Reflects (sl : Discovery × List Occurrence) : Prop :=
  sl.1.Settled → ∀ key, ∀ peer ∈ latest key sl.2, ∃ p ∈ sl.1.peers key, Matches p peer

/-- The condition: an update finds the entry that was there, with the fingerprint of the
announce. -/
def Confirms (sl : Discovery × List Occurrence) : Label → Prop
  | .update _ => ∀ a, sl.1.receiver = .found a →
      ∃ p ∈ sl.1.peers a.key, p.fingerprint = a.fingerprint
  | _ => True

/-- The table once the insertion that is under way is done. -/
def settledPeers (s : Discovery) : String → Option DiscoveredPeer :=
  match s.receiver with
  | .made key peer => Function.update s.peers key (some peer)
  | _ => s.peers

theorem settledPeers_of_settled {s : Discovery} (h : s.Settled) : s.settledPeers = s.peers := by
  cases hreceiver : s.receiver with
  | made key peer => exact absurd hreceiver (h key peer)
  | waiting | found a | missed a | inserted addr => rw [settledPeers, hreceiver]

/-- The invariant: the settled table has the latest announces. -/
def Tracks (sl : Discovery × List Occurrence) : Prop :=
  ∀ key, ∀ peer ∈ latest key sl.2, ∃ p ∈ sl.1.settledPeers key, Matches p peer

theorem Tracks.reflects {sl : Discovery × List Occurrence} (h : Tracks sl) : Reflects sl := by
  intro hsettled
  rw [← settledPeers_of_settled hsettled]
  exact h

section Latest

variable {key : String} {log : List Occurrence}

theorem latest_append_handled (key' : String) (peer : DiscoveredPeer) :
    latest key (log ++ [.handled key' peer]) =
      if key' = key then some peer else latest key log := by
  rw [latest, List.foldl_append]
  rfl

theorem latest_append_inserted (key' : String) (addr : SocketAddr) :
    latest key (log ++ [.inserted key' addr]) = latest key log := by
  rw [latest, List.foldl_append]
  rfl

theorem latest_append_cleaned (now : ℕ) (removed : String → Bool) :
    latest key (log ++ [.cleaned now removed]) =
      if removed key then none else latest key log := by
  rw [latest, List.foldl_append]
  rfl

end Latest

/-- An entry that a cleanup does not remove stays as it is. -/
theorem retain_eq_of_not_removed {peers : String → Option DiscoveredPeer} {now : ℕ} {key : String}
    {p : DiscoveredPeer} (hp : peers key = some p)
    (h : ((peers key).isSome && (retain peers now key).isNone) = false) :
    retain peers now key = some p := by
  rw [hp, Option.isSome_some, Bool.true_and, Option.isNone_eq_false_iff] at h
  rw [retain, hp, Option.filter_some] at h ⊢
  split_ifs at h ⊢ with hyoung
  · rfl
  · cases h

section Steps

variable {cfg : DiscoveryConfig} {s s' : Discovery} {log os : List Occurrence} {l : Label}

/-- **A step that confirms keeps the invariant.** -/
theorem tracks_step (h : Tracks (s, log)) (hC : Confirms (s, log) l) (hmove : Move cfg s l s' os) :
    Tracks (s', log ++ os) := by
  intro key peer hpeer
  dsimp only at hpeer ⊢
  cases hmove with
  | skip hreceiver =>
    rw [List.append_nil] at hpeer
    exact h key peer hpeer
  | find a p hreceiver _ | miss a hreceiver _ =>
    rw [List.append_nil] at hpeer
    have hold := h key peer hpeer
    rwa [settledPeers, hreceiver] at hold
  | make a now hreceiver _ =>
    rw [latest_append_handled] at hpeer
    rw [settledPeers]
    dsimp only
    split_ifs at hpeer with hkey
    · obtain rfl := Option.some.inj hpeer
      subst hkey
      exact ⟨a.peer now, Function.update_self .., rfl, rfl, rfl⟩
    · have hold := h key peer hpeer
      rw [settledPeers, hreceiver] at hold
      rwa [Function.update_of_ne (Ne.symm hkey)]
  | insert key' peer' hreceiver =>
    rw [latest_append_inserted] at hpeer
    have hold := h key peer hpeer
    rwa [settledPeers, hreceiver] at hold
  | notify addr hreceiver =>
    rw [List.append_nil] at hpeer
    have hold := h key peer hpeer
    rwa [settledPeers, hreceiver] at hold
  | update a now p hreceiver _ hp =>
    rw [latest_append_handled] at hpeer
    rw [settledPeers]
    dsimp only
    split_ifs at hpeer with hkey
    · obtain rfl := Option.some.inj hpeer
      subst hkey
      obtain ⟨p', hp', hfingerprint⟩ := hC a hreceiver
      obtain rfl := Option.some.inj (hp.symm.trans hp')
      exact ⟨_, Function.update_self .., rfl, hfingerprint, rfl⟩
    · have hold := h key peer hpeer
      rw [settledPeers, hreceiver] at hold
      rwa [Function.update_of_ne (Ne.symm hkey)]
  | lose a now hreceiver _ hp =>
    obtain ⟨p, hp', _⟩ := hC a hreceiver
    cases hp.symm.trans hp'
  | cleanup now _ =>
    rw [latest_append_cleaned] at hpeer
    split_ifs at hpeer with hremoved
    · cases hpeer
    · obtain ⟨p, hp, hmatches⟩ := h key peer hpeer
      refine ⟨p, ?_, hmatches⟩
      rw [settledPeers] at hp ⊢
      have hkept (hpeers : s.peers key = some p) : retain s.peers now key = some p :=
        retain_eq_of_not_removed hpeers (Bool.eq_false_iff.2 hremoved)
      cases hreceiver : s.receiver with
      | made key' peer' =>
        simp only [hreceiver] at hp ⊢
        by_cases hkey : key = key'
        · subst hkey
          rw [Function.update_self] at hp ⊢
          exact hp
        · rw [Function.update_of_ne hkey] at hp ⊢
          exact hkept hp
      | waiting | found a | missed a | inserted addr =>
        simp only [hreceiver] at hp ⊢
        exact hkept hp

/-- An update that finds nothing, or another fingerprint, leaves the announce out of the table. -/
theorem not_reflects_step (hC : ¬ Confirms (s, log) l) (hmove : Move cfg s l s' os) :
    ¬ Reflects (s', log ++ os) := by
  intro hreflects
  refine hC ?_
  cases hmove with
  | update a now p hreceiver _ hp =>
    intro a' ha'
    obtain rfl := Receiver.found.inj (hreceiver.symm.trans ha')
    have hlatest : a.peer now ∈ latest a.key (log ++ [.handled a.key (a.peer now)]) := by
      rw [latest_append_handled, if_pos rfl]
      rfl
    obtain ⟨p', hp', hmatches⟩ := hreflects (fun _ _ h ↦ by cases h) a.key _ hlatest
    dsimp only at hp'
    rw [Function.update_self] at hp'
    obtain rfl := Option.some.inj hp'
    exact ⟨p, hp, hmatches.fingerprint⟩
  | lose a now hreceiver _ hp =>
    have hlatest : a.peer now ∈ latest a.key (log ++ [.handled a.key (a.peer now)]) := by
      rw [latest_append_handled, if_pos rfl]
      rfl
    obtain ⟨p', hp', _⟩ := hreflects (fun _ _ h ↦ by cases h) a.key _ hlatest
    cases hp.symm.trans hp'
  | skip hreceiver =>
    match l with
    | .update _ =>
      intro a ha
      cases hreceiver.symm.trans ha
    | .datagram _ _ | .recvError | .make _ | .insert | .notify | .cleanup _ => trivial
  | find _ _ _ _ | miss _ _ _ | make _ _ _ _ | insert _ _ _ | notify _ _ | cleanup _ _ => trivial

end Steps

/-- **When the table reflects the latest announces.** In every run of the two tasks, from the start:
the table has the latest announce of every key that no cleanup has removed since, in every state of
the run, exactly when each update finds the entry that was there, with the fingerprint of the
announce. -/
theorem reflects_iff (cfg : DiscoveryConfig) (ls : List Label) :
    Throughout (recorded cfg) Reflects (start, []) ls ↔
      EachStep (recorded cfg) Confirms (start, []) ls := by
  refine throughout_iff_eachStep (I := Tracks) (fun _ h ↦ h.reflects) ?_ ?_ (fun _ _ h ↦ by cases h)
    ls
  · rintro ⟨s, log⟩ l h hC ⟨s', log'⟩ hs'
    obtain ⟨os, hmove, rfl⟩ := move_of_recorded hs'
    exact tracks_step h hC hmove
  · rintro ⟨s, log⟩ l h hC ⟨s', log'⟩ hs'
    obtain ⟨os, hmove, rfl⟩ := move_of_recorded hs'
    exact not_reflects_step hC hmove

/-- The host that listens in the runs below. -/
def listener : DiscoveryConfig := ⟨"a", true⟩

/-- A datagram of a host `b`. -/
def announceOfB (fingerprint : String) : Label :=
  .datagram (buildAnnounce "b" 4242 fingerprint) (.v4 0xC0A80002)

/-- The host is found, and announces itself again with another fingerprint. -/
def renewedRun : List Label :=
  [announceOfB "old", .make 0, .insert, .notify, announceOfB "new", .update 3000000000]

/-- The table has the time of the second announce and the fingerprint of the first. -/
theorem not_reflects_renewedRun :
    ¬ Throughout (recorded listener) Reflects (start, []) renewedRun := by
  have hlast : (run (recorded listener) (start, []) renewedRun).map
      (fun sl ↦ (sl.1.receiver, latest "b:4242" sl.2, sl.1.peers "b:4242")) =
      some (.waiting, some ⟨"b", ⟨.v4 0xC0A80002, 4242⟩, "new", 3000000000⟩,
        some ⟨"b", ⟨.v4 0xC0A80002, 4242⟩, "old", 3000000000⟩) := by
    decide +kernel
  obtain ⟨sl, hsl, hlast⟩ := Option.map_eq_some_iff.1 hlast
  obtain ⟨hreceiver, hlatest, hpeers⟩ : sl.1.receiver = _ ∧ latest "b:4242" sl.2 = _ ∧
      sl.1.peers "b:4242" = _ := by
    simpa only [Prod.mk.injEq] using hlast
  refine not_throughout_of_run hsl fun hreflects ↦ ?_
  obtain ⟨p, hp, hmatches⟩ := hreflects (fun key peer h ↦ by rw [hreceiver] at h; cases h)
    "b:4242" _ hlatest
  obtain rfl := Option.some.inj (hpeers.symm.trans hp)
  exact absurd hmatches.fingerprint (by decide)

/-- A cleanup between the two locks removes the entry that was found, and the announce is lost. -/
example : (run (recorded listener) (start, []) [announceOfB "old", .make 0, .insert, .notify,
    announceOfB "old", .cleanup 10000000000, .update 10000000001]).map
      (fun sl ↦ (latest "b:4242" sl.2, sl.1.peers "b:4242")) =
    some (some ⟨"b", ⟨.v4 0xC0A80002, 4242⟩, "old", 10000000001⟩, none) := by
  decide +kernel

/-! ### Insertions and removals -/

/-- The times at which announces of a key were handled. -/
def times (key : String) (log : List Occurrence) : List ℕ :=
  log.filterMap fun o ↦
    match o with
    | .handled key' peer => if key' = key then some peer.lastSeen else none
    | _ => none

/-- The addresses of the insertions. -/
def insertions (log : List Occurrence) : List SocketAddr :=
  log.filterMap fun o ↦
    match o with
    | .inserted _ addr => some addr
    | _ => none

/-- The address that is yet to be told. -/
def toTell (s : Discovery) : List SocketAddr :=
  match s.receiver with
  | .inserted addr => [addr]
  | _ => []

/-- One entry for each presence of a key, and one notification for each entry. -/
structure Presence (sl : Discovery × List Occurrence) : Prop where
  /-- An entry stands under the key of its host and port. -/
  keyed : ∀ key, ∀ p ∈ sl.1.peers key, key = peerKey p.hostname p.addr.port
  /-- Each insertion has been told once, the last one perhaps not yet, and nothing else has. -/
  notified : sl.1.notified ++ sl.1.toTell = insertions sl.2
  /-- Between two insertions of a key a cleanup has removed it, no sooner than `PEER_TTL` after
  every announce of the key up to then. -/
  reinserted : ∀ before key addr mid addr' after,
    sl.2 = before ++ .inserted key addr :: (mid ++ .inserted key addr' :: after) →
      ∃ mid₁ now removed mid₂, mid = mid₁ ++ .cleaned now removed :: mid₂ ∧ removed key = true ∧
        ∀ t ∈ times key (before ++ .inserted key addr :: mid₁), t + peerTtl ≤ now
  /-- From an announce on, as long as those of the key come less than `PEER_TTL` apart, the key is
  not removed before `PEER_TTL` after the last of them. -/
  steady : ∀ before key peer rest, sl.2 = before ++ .handled key peer :: rest →
    (times key (.handled key peer :: rest)).IsChain (fun t t' ↦ t' < t + peerTtl) →
      ∀ now removed, .cleaned now removed ∈ rest → removed key = true →
        ∀ t ∈ times key (.handled key peer :: rest), t + peerTtl ≤ now
  /-- Right after a cleanup every entry is younger than `PEER_TTL`. -/
  fresh : ∀ before now removed, sl.2 = before ++ [.cleaned now removed] →
    ∀ key, ∀ p ∈ sl.1.peers key, now < p.lastSeen + peerTtl

/-- Every insertion of the key has been followed by a removal. -/
def Gone (key : String) (log : List Occurrence) : Prop :=
  ∀ before addr after, log = before ++ .inserted key addr :: after →
    ∃ now removed, .cleaned now removed ∈ after ∧ removed key = true

/-- What is known of the times and the order of what has happened. -/
structure Ordered (s : Discovery) (log : List Occurrence) : Prop where
  cleaned_le : ∀ now removed, .cleaned now removed ∈ log → now ≤ s.clock
  times_le : ∀ key, ∀ t ∈ times key log, t ≤ s.clock
  seen : ∀ key, ∀ p ∈ s.peers key, ∀ t ∈ times key log, t ≤ p.lastSeen
  missed : ∀ a, s.receiver = .missed a → s.peers a.key = none
  made : ∀ key peer, s.receiver = .made key peer →
    s.peers key = none ∧ ∀ t ∈ times key log, t ≤ peer.lastSeen
  removal : ∀ before now removed after, log = before ++ .cleaned now removed :: after →
    ∀ key, removed key = true →
      (∀ t ∈ times key before, t + peerTtl ≤ now) ∧ ∀ t ∈ times key after, now ≤ t
  gone : ∀ key, s.peers key = none → Gone key log
  inserted : ∀ before key addr after, log = before ++ .inserted key addr :: after → Gone key before
  fresh : ∀ before now removed, log = before ++ [.cleaned now removed] →
    ∀ key, ∀ p ∈ s.peers key, now < p.lastSeen + peerTtl

section Log

variable {key : String} {log : List Occurrence}

theorem times_append (before after : List Occurrence) :
    times key (before ++ after) = times key before ++ times key after :=
  List.filterMap_append

/-- When a peer was handled is one of its times. -/
theorem mem_times_concat_handled {key' : String} {peer : DiscoveredPeer} {t : ℕ} :
    t ∈ times key (log ++ [.handled key' peer]) ↔
      t ∈ times key log ∨ key' = key ∧ t = peer.lastSeen := by
  rw [times_append, List.mem_append]
  refine or_congr_right ?_
  simp only [times, List.filterMap_cons, List.filterMap_nil]
  split_ifs with hkey <;> simp [hkey]

theorem gone_concat {o : Occurrence} (h : Gone key log) (ho : ∀ addr, o ≠ .inserted key addr) :
    Gone key (log ++ [o]) := by
  intro before addr after hlog
  rcases List.concat_eq_append_cons_iff.1 hlog with ⟨_, rfl, _⟩ | ⟨rest, rfl, hrest⟩
  · exact absurd rfl (ho addr)
  · obtain ⟨now, removed, hmem, hremoved⟩ := h before addr rest hrest
    exact ⟨now, removed, List.mem_append_left _ hmem, hremoved⟩

/-- After a removal the key is gone. -/
theorem gone_concat_cleaned {now : ℕ} {removed : String → Bool} (hremoved : removed key = true) :
    Gone key (log ++ [.cleaned now removed]) := by
  intro before addr after hlog
  rcases List.concat_eq_append_cons_iff.1 hlog with ⟨_, h, _⟩ | ⟨rest, rfl, _⟩
  · cases h
  · exact ⟨now, removed, by simp, hremoved⟩

end Log

/-! ### What each step keeps -/

theorem ordered_start : Ordered start [] where
  cleaned_le := nofun
  times_le := nofun
  seen := nofun
  missed := nofun
  made := nofun
  removal := fun before _ _ _ h ↦ by cases before <;> cases h
  gone := fun _ _ before _ _ h ↦ by cases before <;> cases h
  inserted := fun before _ _ _ h ↦ by cases before <;> cases h
  fresh := fun before _ _ h ↦ by cases before <;> cases h

section Ordered

variable {s s' : Discovery} {log : List Occurrence}

/-- A step that touches neither the table nor the clock, and makes no entry. -/
theorem Ordered.of_receiver (h : Ordered s log) (hpeers : s'.peers = s.peers)
    (hclock : s'.clock = s.clock) (hmissed : ∀ a, s'.receiver = .missed a → s.peers a.key = none)
    (hmade : ∀ key peer, s'.receiver ≠ .made key peer) : Ordered s' log where
  cleaned_le := hclock ▸ h.cleaned_le
  times_le := hclock ▸ h.times_le
  seen := hpeers ▸ h.seen
  missed := hpeers ▸ hmissed
  made := fun key peer hreceiver ↦ absurd hreceiver (hmade key peer)
  removal := h.removal
  gone := hpeers ▸ h.gone
  inserted := h.inserted
  fresh := hpeers ▸ h.fresh

/-- A removal stays in order with one more occurrence, if that is no announce from before it. -/
theorem Ordered.removal_concat {o : Occurrence} {key : String} (h : Ordered s log)
    (htimes : ∀ t ∈ times key [o], s.clock ≤ t) {before rest : List Occurrence} {now : ℕ}
    {removed : String → Bool} (hlog : log = before ++ .cleaned now removed :: rest)
    (hremoved : removed key = true) :
    (∀ t ∈ times key before, t + peerTtl ≤ now) ∧ ∀ t ∈ times key (rest ++ [o]), now ≤ t := by
  obtain ⟨hbefore, hafter⟩ := h.removal before now removed rest hlog key hremoved
  refine ⟨hbefore, fun t ht ↦ ?_⟩
  rw [times_append] at ht
  rcases List.mem_append.1 ht with ht | ht
  · exact hafter t ht
  · exact (h.cleaned_le now removed (by rw [hlog]; simp)).trans (htimes t ht)

/-- The insertions stay in order with one more occurrence that is none. -/
theorem Ordered.inserted_concat {o : Occurrence} (h : Ordered s log)
    (ho : ∀ key addr, o ≠ .inserted key addr) (before : List Occurrence) (key : String)
    (addr : SocketAddr) (after : List Occurrence)
    (hlog : log ++ [o] = before ++ .inserted key addr :: after) : Gone key before := by
  rcases List.concat_eq_append_cons_iff.1 hlog with ⟨_, heq, _⟩ | ⟨rest, rfl, hrest⟩
  · exact absurd heq (ho key addr)
  · exact h.inserted before key addr rest hrest

/-- An announce is handled: its time is later than all others, and no entry disappears. -/
theorem Ordered.concat_handled {key : String} {peer : DiscoveredPeer} (h : Ordered s log)
    (hnow : s.clock ≤ peer.lastSeen) (hclock : s'.clock = peer.lastSeen)
    (hpeers : ∀ key', s'.peers key' = none → s.peers key' = none)
    (hseen : ∀ key', ∀ p ∈ s'.peers key', ∀ t ∈ times key' (log ++ [.handled key peer]),
      t ≤ p.lastSeen)
    (hmissed : ∀ a, s'.receiver ≠ .missed a)
    (hmade : ∀ key' peer', s'.receiver = .made key' peer' →
      key' = key ∧ peer' = peer ∧ s'.peers key = none) :
    Ordered s' (log ++ [.handled key peer]) where
  cleaned_le now removed hmem := by
    rcases List.mem_append.1 hmem with hmem | hmem
    · rw [hclock]
      exact (h.cleaned_le now removed hmem).trans hnow
    · cases List.mem_singleton.1 hmem
  times_le key' t ht := by
    rw [hclock]
    rcases mem_times_concat_handled.1 ht with ht | ⟨_, rfl⟩
    · exact (h.times_le key' t ht).trans hnow
    · exact Nat.le_refl _
  seen := hseen
  missed a ha := absurd ha (hmissed a)
  made key' peer' hreceiver := by
    obtain ⟨rfl, rfl, hnone⟩ := hmade key' peer' hreceiver
    refine ⟨hnone, fun t ht ↦ ?_⟩
    rcases mem_times_concat_handled.1 ht with ht | ⟨_, rfl⟩
    · exact (h.times_le key' t ht).trans hnow
    · exact Nat.le_refl _
  removal before now removed after hlog key' hremoved := by
    rcases List.concat_eq_append_cons_iff.1 hlog with ⟨_, hne, _⟩ | ⟨rest, rfl, hrest⟩
    · cases hne
    · refine h.removal_concat (fun t ht ↦ ?_) hrest hremoved
      have hmem : t ∈ times key' ([] ++ [.handled key peer]) := ht
      rcases mem_times_concat_handled.1 hmem with hnil | ⟨_, rfl⟩
      · cases hnil
      · exact hnow
  gone key' hnone := gone_concat (h.gone key' (hpeers key' hnone)) nofun
  inserted := h.inserted_concat nofun
  fresh before now removed hlog := by
    obtain ⟨_, hne⟩ := List.append_inj' hlog rfl
    cases List.head_eq_of_cons_eq hne

/-- An entry is inserted that was made when the key had none. -/
theorem Ordered.concat_inserted {key : String} {peer : DiscoveredPeer} (h : Ordered s log)
    (hreceiver : s.receiver = .made key peer) :
    Ordered { s with
      peers := Function.update s.peers key (some peer)
      receiver := .inserted peer.addr } (log ++ [.inserted key peer.addr]) := by
  obtain ⟨hnone, htimes⟩ := h.made key peer hreceiver
  have htimes_eq (key' : String) :
      times key' (log ++ [.inserted key peer.addr]) = times key' log := by
    rw [times_append]
    exact List.append_nil _
  refine ⟨fun now removed hmem ↦ ?_, fun key' t ht ↦ ?_, fun key' p hp t ht ↦ ?_, nofun, nofun,
    fun before now removed after hlog key' hremoved ↦ ?_, fun key' hkey' ↦ ?_,
    fun before key' addr after hlog ↦ ?_, fun before now removed hlog ↦ ?_⟩
  · rcases List.mem_append.1 hmem with hmem | hmem
    · exact h.cleaned_le now removed hmem
    · cases List.mem_singleton.1 hmem
  · rw [htimes_eq] at ht
    exact h.times_le key' t ht
  · rw [htimes_eq] at ht
    dsimp only at hp
    by_cases hkey : key' = key
    · subst hkey
      rw [Function.update_self] at hp
      obtain rfl := Option.some.inj hp
      exact htimes t ht
    · rw [Function.update_of_ne hkey] at hp
      exact h.seen key' p hp t ht
  · rcases List.concat_eq_append_cons_iff.1 hlog with ⟨_, hne, _⟩ | ⟨rest, rfl, hrest⟩
    · cases hne
    · exact h.removal_concat (by simp [times]) hrest hremoved
  · have hkey : key' ≠ key := by
      rintro rfl
      simp at hkey'
    dsimp only at hkey'
    rw [Function.update_of_ne hkey] at hkey'
    exact gone_concat (h.gone key' hkey') fun addr heq ↦ hkey (Occurrence.inserted.inj heq).1.symm
  · rcases List.concat_eq_append_cons_iff.1 hlog with ⟨rfl, heq, _⟩ | ⟨rest, rfl, hrest⟩
    · obtain ⟨rfl, _⟩ := Occurrence.inserted.inj heq
      exact h.gone key hnone
    · exact h.inserted before key' addr rest hrest
  · obtain ⟨_, hne⟩ := List.append_inj' hlog rfl
    cases List.head_eq_of_cons_eq hne

/-- What a cleanup leaves was there, and is young. -/
theorem of_mem_retain {peers : String → Option DiscoveredPeer} {now : ℕ} {key : String}
    {p : DiscoveredPeer} (hp : p ∈ retain peers now key) :
    p ∈ peers key ∧ now < p.lastSeen + peerTtl := by
  rw [retain, Option.mem_def, Option.filter_eq_some_iff, decide_eq_true_eq] at hp
  exact ⟨hp.1, by omega⟩

/-- What a cleanup removes was there, and is old. -/
theorem of_removed {peers : String → Option DiscoveredPeer} {now : ℕ} {key : String}
    (h : ((peers key).isSome && (retain peers now key).isNone) = true) :
    ∃ p ∈ peers key, p.lastSeen + peerTtl ≤ now := by
  rw [Bool.and_eq_true, Option.isSome_iff_exists] at h
  obtain ⟨⟨p, hp⟩, hnone⟩ := h
  refine ⟨p, hp, ?_⟩
  rw [retain, hp, Option.filter_some] at hnone
  split_ifs at hnone with hyoung
  · cases hnone
  · rw [decide_eq_true_eq] at hyoung
    have : 0 < peerTtl := by decide
    omega

/-- Cleaning up keeps the order. -/
theorem Ordered.concat_cleaned {now : ℕ} (h : Ordered s log) (hnow : s.clock ≤ now) :
    Ordered { s with peers := retain s.peers now, clock := now }
      (log ++
        [.cleaned now fun key ↦ (s.peers key).isSome && (retain s.peers now key).isNone]) := by
  have htimes_eq (key : String) (removed : String → Bool) :
      times key (log ++ [.cleaned now removed]) = times key log := by
    rw [times_append]
    exact List.append_nil _
  have hretain {key : String} (hnone : s.peers key = none) : retain s.peers now key = none := by
    rw [retain, hnone, Option.filter_none]
  refine ⟨fun now' removed hmem ↦ ?_, fun key t ht ↦ ?_, fun key p hp t ht ↦ ?_,
    fun a ha ↦ hretain (h.missed a ha), fun key peer hreceiver ↦ ?_,
    fun before now' removed after hlog key hremoved ↦ ?_, fun key hnone ↦ ?_,
    h.inserted_concat nofun, fun before now' removed hlog key p hp ↦ ?_⟩
  · rcases List.mem_append.1 hmem with hmem | hmem
    · exact (h.cleaned_le now' removed hmem).trans hnow
    · obtain ⟨rfl, _⟩ := Occurrence.cleaned.inj (List.mem_singleton.1 hmem)
      exact Nat.le_refl _
  · rw [htimes_eq] at ht
    exact (h.times_le key t ht).trans hnow
  · rw [htimes_eq] at ht
    exact h.seen key p (of_mem_retain hp).1 t ht
  · obtain ⟨hnone, htimes⟩ := h.made key peer hreceiver
    refine ⟨hretain hnone, fun t ht ↦ htimes t ?_⟩
    rwa [htimes_eq] at ht
  · rcases List.concat_eq_append_cons_iff.1 hlog with ⟨rfl, heq, rfl⟩ | ⟨rest, rfl, hrest⟩
    · obtain ⟨rfl, rfl⟩ := Occurrence.cleaned.inj heq
      obtain ⟨p, hp, hold⟩ := of_removed hremoved
      exact ⟨fun t ht ↦ (Nat.add_le_add_right (h.seen key p hp t ht) _).trans hold, nofun⟩
    · exact h.removal_concat (by simp [times]) hrest hremoved
  · cases hpeers : s.peers key with
    | none => exact gone_concat (h.gone key hpeers) nofun
    | some p =>
      refine gone_concat_cleaned ?_
      dsimp only at hnone
      rw [hpeers, hnone]
      rfl
  · obtain ⟨_, heq⟩ := List.append_inj' hlog rfl
    obtain ⟨rfl, _⟩ := Occurrence.cleaned.inj (List.head_eq_of_cons_eq heq)
    exact (of_mem_retain hp).2

end Ordered

/-- **Every step keeps the order of things.** -/
theorem ordered_step {cfg : DiscoveryConfig} {s s' : Discovery} {log os : List Occurrence}
    {l : Label} (h : Ordered s log) (hmove : Move cfg s l s' os) : Ordered s' (log ++ os) := by
  cases hmove with
  | skip hreceiver => rwa [List.append_nil]
  | find a p hreceiver hp =>
    rw [List.append_nil]
    exact h.of_receiver rfl rfl nofun nofun
  | miss a hreceiver hp =>
    rw [List.append_nil]
    refine h.of_receiver rfl rfl (fun a' ha' ↦ ?_) nofun
    obtain rfl := Receiver.missed.inj ha'
    exact hp
  | make a now hreceiver hnow =>
    refine h.concat_handled hnow rfl (fun _ hnone ↦ hnone) (fun key p hp t ht ↦ ?_) nofun
      fun key peer hmade ↦ ?_
    · rcases mem_times_concat_handled.1 ht with ht | ⟨rfl, _⟩
      · exact h.seen key p hp t ht
      · cases (h.missed a hreceiver).symm.trans hp
    · obtain ⟨rfl, rfl⟩ := Receiver.made.inj hmade
      exact ⟨rfl, rfl, h.missed a hreceiver⟩
  | insert key peer hreceiver => exact h.concat_inserted hreceiver
  | notify addr hreceiver =>
    rw [List.append_nil]
    exact h.of_receiver rfl rfl nofun nofun
  | update a now p hreceiver hnow hp =>
    refine h.concat_handled hnow rfl (fun key hnone ↦ ?_) (fun key p' hp' t ht ↦ ?_) nofun nofun
    · dsimp only at hnone
      by_cases hkey : key = a.key
      · subst hkey
        rw [Function.update_self] at hnone
        cases hnone
      · rwa [Function.update_of_ne hkey] at hnone
    · dsimp only at hp'
      by_cases hkey : key = a.key
      · subst hkey
        rw [Function.update_self] at hp'
        obtain rfl := Option.some.inj hp'
        rcases mem_times_concat_handled.1 ht with ht | ⟨_, rfl⟩
        · exact (h.times_le _ t ht).trans hnow
        · exact Nat.le_refl _
      · rw [Function.update_of_ne hkey] at hp'
        rcases mem_times_concat_handled.1 ht with ht | ⟨heq, _⟩
        · exact h.seen key p' hp' t ht
        · exact absurd heq.symm hkey
  | lose a now hreceiver hnow hp =>
    refine h.concat_handled hnow rfl (fun _ hnone ↦ hnone) (fun key p hp' t ht ↦ ?_) nofun nofun
    rcases mem_times_concat_handled.1 ht with ht | ⟨rfl, _⟩
    · exact h.seen key p hp' t ht
    · cases hp.symm.trans hp'
  | cleanup now hnow => exact h.concat_cleaned hnow

/-- The table is keyed, and what has been inserted has been told. -/
structure Told (s : Discovery) (log : List Occurrence) : Prop where
  keyed : ∀ key, ∀ p ∈ s.peers key, key = peerKey p.hostname p.addr.port
  made : ∀ key peer, s.receiver = .made key peer → key = peerKey peer.hostname peer.addr.port
  notified : s.notified ++ s.toTell = insertions log

theorem told_start : Told start [] := ⟨nofun, nofun, rfl⟩

theorem insertions_append (log log' : List Occurrence) :
    insertions (log ++ log') = insertions log ++ insertions log' :=
  List.filterMap_append

/-- **Every step keeps the invariant**, for a daemon that is told of new peers. -/
theorem told_step {cfg : DiscoveryConfig} (hnotify : cfg.notify = true) {s s' : Discovery}
    {log os : List Occurrence} {l : Label} (h : Told s log) (hmove : Move cfg s l s' os) :
    Told s' (log ++ os) := by
  obtain ⟨hkeyed, hmade, hnotified⟩ := h
  rw [toTell] at hnotified
  cases hmove with
  | skip hreceiver =>
    rw [List.append_nil]
    exact ⟨hkeyed, hmade, hnotified⟩
  | find a p hreceiver _ | miss a hreceiver _ =>
    rw [hreceiver] at hnotified
    rw [List.append_nil]
    exact ⟨hkeyed, nofun, hnotified⟩
  | make a now hreceiver _ =>
    rw [hreceiver] at hnotified
    refine ⟨hkeyed, fun key peer hreceiver' ↦ ?_, ?_⟩
    · obtain ⟨rfl, rfl⟩ := Receiver.made.inj hreceiver'
      rfl
    · rw [insertions_append, ← hnotified]
      exact (List.append_nil _).symm
  | insert key peer hreceiver =>
    rw [hreceiver] at hnotified
    refine ⟨fun key' p hp ↦ ?_, nofun, ?_⟩
    · dsimp only at hp
      by_cases hkey : key' = key
      · subst hkey
        rw [Function.update_self] at hp
        obtain rfl := Option.some.inj hp
        exact hmade key' peer hreceiver
      · rw [Function.update_of_ne hkey] at hp
        exact hkeyed key' p hp
    · rw [insertions_append, ← hnotified, List.append_nil]
      rfl
  | notify addr hreceiver =>
    rw [hreceiver] at hnotified
    rw [List.append_nil]
    refine ⟨hkeyed, nofun, ?_⟩
    simp only [toTell, hnotify, if_true, List.append_nil]
    exact hnotified
  | update a now p hreceiver _ hp =>
    rw [hreceiver] at hnotified
    refine ⟨fun key p' hp' ↦ ?_, nofun, ?_⟩
    · dsimp only at hp'
      by_cases hkey : key = a.key
      · subst hkey
        rw [Function.update_self] at hp'
        obtain rfl := Option.some.inj hp'
        -- the entry has the host of its key, and the update gives it the port of the key
        show a.key = peerKey p.hostname a.port
        rw [← (peerKey_inj.1 (hkeyed a.key p hp)).1, Announce.key]
      · rw [Function.update_of_ne hkey] at hp'
        exact hkeyed key p' hp'
    · rw [insertions_append, ← hnotified, List.append_nil]
      rfl
  | lose a now hreceiver _ _ =>
    rw [hreceiver] at hnotified
    refine ⟨hkeyed, nofun, ?_⟩
    rw [insertions_append, ← hnotified, List.append_nil]
    rfl
  | cleanup now _ =>
    refine ⟨fun key p hp ↦ hkeyed key p (of_mem_retain hp).1, hmade, ?_⟩
    rw [insertions_append, ← hnotified]
    exact (List.append_nil _).symm

/-! ### Presence -/

theorem presence_of_ordered {s : Discovery} {log : List Occurrence} (ho : Ordered s log)
    (ht : Told s log) : Presence (s, log) where
  keyed := ht.keyed
  notified := ht.notified
  reinserted before key addr mid addr' after hlog := by
    rw [← List.cons_append, ← List.append_assoc] at hlog
    obtain ⟨now, removed, hmem, hremoved⟩ :=
      ho.inserted (before ++ .inserted key addr :: mid) key addr' after hlog before addr mid rfl
    obtain ⟨mid₁, mid₂, rfl⟩ := List.append_of_mem hmem
    refine ⟨mid₁, now, removed, mid₂, rfl, hremoved, ?_⟩
    refine (ho.removal (before ++ .inserted key addr :: mid₁) now removed
      (mid₂ ++ .inserted key addr' :: after) (hlog.trans ?_) key hremoved).1
    simp
  steady before key peer rest hlog hchain now removed hmem hremoved := by
    obtain ⟨mid, after, rfl⟩ := List.append_of_mem hmem
    obtain ⟨hbefore, hafter⟩ := ho.removal (before ++ .handled key peer :: mid) now removed after
      (hlog.trans (by simp)) key hremoved
    have hsplit : times key (.handled key peer :: (mid ++ .cleaned now removed :: after)) =
        times key (.handled key peer :: mid) ++ times key after := by
      rw [← List.cons_append, times_append]
      rfl
    have hmid : ∀ t ∈ times key (.handled key peer :: mid), t + peerTtl ≤ now := fun t ht ↦
      hbefore t (by rw [times_append]; exact List.mem_append_right _ ht)
    rw [hsplit] at hchain ⊢
    obtain ⟨_, _, hjoin⟩ := List.isChain_append.1 hchain
    intro t ht
    rcases List.mem_append.1 ht with ht | ht
    · exact hmid t ht
    · -- the next announce would come less than `PEER_TTL` after the last one, and after the cleanup
      exfalso
      have hne : times key (.handled key peer :: mid) ≠ [] := by simp [times]
      obtain ⟨u, us, hus⟩ := List.exists_cons_of_ne_nil (List.ne_nil_of_mem ht)
      have hgap := hjoin _ (List.getLast?_eq_some_getLast hne) u (by rw [hus]; rfl)
      have hlast := hmid _ (List.getLast_mem hne)
      have hnext := hafter u (by rw [hus]; exact List.mem_cons_self)
      omega
  fresh := ho.fresh

/-- **One entry and one notification for each presence of a peer, and only silent peers expire.**
Announces share a key exactly when they name the same host and port, and in every run of the two
tasks, from the start, each state is as `Presence` says. -/
theorem presence (cfg : DiscoveryConfig) (hnotify : cfg.notify = true) (ls : List Label) :
    (∀ a b : Announce, a.key = b.key ↔ a.hostname = b.hostname ∧ a.port = b.port) ∧
      Throughout (recorded cfg) Presence (start, []) ls := by
  refine ⟨fun a b ↦ peerKey_inj, ?_⟩
  have hinv : Throughout (recorded cfg) (fun sl ↦ Ordered sl.1 sl.2 ∧ Told sl.1 sl.2)
      (start, []) ls := by
    refine throughout_of_invariant ?_ ⟨ordered_start, told_start⟩ ls
    rintro ⟨s, log⟩ l ⟨ho, ht⟩ ⟨s', log'⟩ hs'
    obtain ⟨os, hmove, rfl⟩ := move_of_recorded hs'
    exact ⟨ordered_step ho hmove, told_step hnotify ht hmove⟩
  exact hinv.mono fun _ h ↦ presence_of_ordered h.1 h.2

theorem presence_renewedRun : Throughout (recorded listener) Presence (start, []) renewedRun :=
  (presence listener rfl renewedRun).2

end Discovery

end Kmflow
