import Kmflow.Foundation.Transition
import Kmflow.Net.Tls
import Mathlib.Data.Set.Function

/-!
# Who is already known

`handle_accepted_peer` and `connect_to` ask `TofuVerifier` about every peer they get a connection
to, under the fingerprint that `extract_peer_fingerprint` reads off the connection, and trust the
peer if it is not known.

Both TLS configurations are built with `with_no_client_auth`, so the side that accepts is shown no
certificate. It looks every peer up under `unknown`, and stores every peer under `unknown`: the
first one that is stored makes all others known. The side that dials sees the certificate it is
shown, and there the store answers for the certificate.

So a connection is known only after a peer with its certificate was trusted, as long as connections
are accepted only from peers that were trusted before once one accepted peer has been trusted
(`perCertificate_of_vouched`), however the file operations go; and when none of them fails, only
then (`perCertificate_iff`).
-/

namespace Kmflow

open Transition

/-! ### The peer's fingerprint -/

/-- How the connection came about. -/
inductive Role where
  | accepted
  | initiated
  deriving DecidableEq

/-- What rustls knows of the peer's certificates: the side that accepts asked for none. -/
def peerIdentity (role : Role) (chain : List CertificateDer) : Option (List CertificateDer) :=
  match role with
  | .accepted => none
  | .initiated => some chain

/-- `extract_peer_fingerprint`: that of the first certificate, if the peer has shown one. -/
def extractPeerFingerprint (sha256 : CertificateDer → Vector UInt8 32)
    (identity : Option (List CertificateDer)) : String :=
  match identity.bind List.head? with
  | some cert => computeFingerprint sha256 cert
  | none => "unknown"

/-- What is extracted has the form of a fingerprint, or is `unknown`. -/
theorem isFingerprint_extract (sha256 : CertificateDer → Vector UInt8 32)
    (identity : Option (List CertificateDer)) :
    IsFingerprint (extractPeerFingerprint sha256 identity) := by
  unfold extractPeerFingerprint
  split
  · exact .text _
  · exact .unknown

/-! ### Connections, one after the other -/

/-- A connection: who the peer is, and how the accesses to the known-peers file go. -/
structure Contact where
  role : Role
  /-- The certificate the peer holds. -/
  cert : CertificateDer
  /-- What the peer sends along with it. -/
  intermediates : List CertificateDer
  now : UInt64
  /-- The read of `is_known`. -/
  lookup : Access
  /-- The read of `trust_peer`. -/
  load : Access
  save : Save
  deriving DecidableEq

/-- A connection that has been looked up. A peer that was not known was trusted. -/
structure Checked where
  role : Role
  cert : CertificateDer
  known : Bool
  deriving DecidableEq

/-- The fingerprint under which the peer is looked up and stored. -/
def Contact.fingerprint (sha256 : CertificateDer → Vector UInt8 32) (c : Contact) : String :=
  extractPeerFingerprint sha256 (peerIdentity c.role (c.cert :: c.intermediates))

/-- The name the peer of a connection goes by in the file. -/
def Checked.fingerprint (sha256 : CertificateDer → Vector UInt8 32) (e : Checked) : String :=
  extractPeerFingerprint sha256 (peerIdentity e.role [e.cert])

/-- The check of a connection, with what the verifier has answered. -/
def Contact.checked (c : Contact) (known : Bool) : Checked := ⟨c.role, c.cert, known⟩

/-- The check keeps the fingerprint of the connection. -/
@[simp] theorem Contact.fingerprint_checked (sha256 : CertificateDer → Vector UInt8 32)
    (c : Contact) (known : Bool) : (c.checked known).fingerprint sha256 = c.fingerprint sha256 := by
  obtain ⟨role, cert, intermediates, _⟩ := c
  cases role <;> rfl

/-- The fingerprint of a connection has that form too. -/
theorem isFingerprint_contact (sha256 : CertificateDer → Vector UInt8 32) (c : Contact) :
    IsFingerprint (c.fingerprint sha256) :=
  isFingerprint_extract _ _

/-- Two peers go by one name when both were accepted, or when both were dialled and their
certificates have one digest. -/
theorem Checked.fingerprint_eq_iff {sha256 : CertificateDer → Vector UInt8 32} {e e' : Checked} :
    e.fingerprint sha256 = e'.fingerprint sha256 ↔
      e.role = e'.role ∧ (e.role = .initiated → sha256 e.cert = sha256 e'.cert) := by
  have hne (digest : Vector UInt8 32) : fingerprintText digest ≠ "unknown" := fun h ↦
    absurd (h ▸ colon_mem_fingerprintText digest) (by decide)
  obtain ⟨role, cert, _⟩ := e
  obtain ⟨role', cert', _⟩ := e'
  cases role <;> cases role'
  · exact ⟨fun _ ↦ ⟨rfl, nofun⟩, fun _ ↦ rfl⟩
  · exact ⟨fun h ↦ absurd h.symm (hne _), fun h ↦ by cases h.1⟩
  · exact ⟨fun h ↦ absurd h (hne _), fun h ↦ by cases h.1⟩
  · exact ⟨fun h ↦ ⟨rfl, fun _ ↦ fingerprintText_injective h⟩,
      fun h ↦ congrArg fingerprintText (h.2 rfl)⟩

/-- The verifier, with the checks it has been asked for. -/
structure Trust where
  tofu : TofuVerifier
  /-- The connections so far, oldest first. -/
  checks : List Checked

namespace Trust

/-- No known-peers file, and no connection yet. -/
def start : Trust := ⟨⟨none⟩, []⟩

/-- Look the peer up, and trust it if it is not known. -/
def step (sha256 : CertificateDer → Vector UInt8 32) (s : Trust) (c : Contact) : Option Trust :=
  let fingerprint := c.fingerprint sha256
  let known := match s.tofu.isKnown c.lookup fingerprint with
    | .ok known => known
    | .error _ => false
  let tofu :=
    if known then s.tofu else (s.tofu.trustPeer c.load c.save ⟨fingerprint, "", c.now⟩).1
  some ⟨tofu, s.checks ++ [c.checked known]⟩

/-- Every connection that was known comes after one that was trusted, of a peer with the same
certificate. -/
def PerCertificate (s : Trust) : Prop :=
  ∀ before c after, s.checks = before ++ c :: after → c.known = true →
    ∃ e ∈ before, e.cert = c.cert ∧ e.known = false

/-- A connection is accepted only while no accepted peer has been trusted, or from a peer whose
certificate has been trusted. -/
def Vouched (s : Trust) (c : Contact) : Prop :=
  c.role = .accepted →
    (∀ e ∈ s.checks, e.role = .accepted → e.known = true) ∨
      ∃ e ∈ s.checks, e.cert = c.cert ∧ e.known = false

instance (s : Trust) : DecidablePred (Vouched s) :=
  fun c ↦ inferInstanceAs (Decidable (c.role = .accepted → _ ∨ _))

/-! ### One connection -/

section Step

variable {sha256 : CertificateDer → Vector UInt8 32} {s s' : Trust} {c : Contact}

/-- A lookup that says yes found the fingerprint in the file; after any other the peer is
trusted. -/
theorem step_cases (hs' : s' ∈ step sha256 s c) :
    (s.tofu.Holds (c.fingerprint sha256) ∧ s' = ⟨s.tofu, s.checks ++ [c.checked true]⟩) ∨
      s' = ⟨(s.tofu.trustPeer c.load c.save ⟨c.fingerprint sha256, "", c.now⟩).1,
        s.checks ++ [c.checked false]⟩ := by
  obtain rfl := Option.some.inj hs'
  cases hknown : s.tofu.isKnown c.lookup (c.fingerprint sha256) with
  | error e => exact .inr rfl
  | ok known =>
    cases known with
    | false => exact .inr rfl
    | true => exact .inl ⟨TofuVerifier.holds_of_isKnown hknown, rfl⟩

/-- When the file can be read, the lookup says yes to what is in it. -/
theorem step_of_holds (hlookup : c.lookup = .ok) (hholds : s.tofu.Holds (c.fingerprint sha256)) :
    step sha256 s c = some ⟨s.tofu, s.checks ++ [c.checked true]⟩ := by
  simp [step, hlookup, TofuVerifier.isKnown_of_holds hholds]

end Step

/-! ### What the file holds -/

section Runs

variable {sha256 : CertificateDer → Vector UInt8 32} {s s' : Trust} {c : Contact}

/-- The file holds no name but those of the peers that were trusted. -/
def OnlyTrusted (sha256 : CertificateDer → Vector UInt8 32) (s : Trust) : Prop :=
  ∀ f, IsFingerprint f → s.tofu.Holds f →
    ∃ e ∈ s.checks, e.known = false ∧ e.fingerprint sha256 = f

/-- At the start nobody is known. -/
theorem onlyTrusted_start : OnlyTrusted sha256 start := by
  rintro f _ ⟨content, hcontent, _⟩
  cases hcontent

/-- **Who is known was trusted**, after every check. -/
theorem onlyTrusted_step (hs : OnlyTrusted sha256 s) (hs' : s' ∈ step sha256 s c) :
    OnlyTrusted sha256 s' := by
  intro f hf hholds
  rcases step_cases hs' with ⟨_, rfl⟩ | rfl
  · obtain ⟨e, he, htrusted⟩ := hs f hf hholds
    exact ⟨e, List.mem_append_left _ he, htrusted⟩
  · rcases TofuVerifier.holds_of_trustPeer hf (isFingerprint_contact sha256 c) rfl hholds with
      hold | rfl
    · obtain ⟨e, he, htrusted⟩ := hs f hf hold
      exact ⟨e, List.mem_append_left _ he, htrusted⟩
    · exact ⟨c.checked false, by simp, rfl, c.fingerprint_checked sha256 false⟩

/-- One more connection: it is known only after one that was trusted, of its certificate. -/
theorem perCertificate_concat {e : Checked} (hchecks : s'.checks = s.checks ++ [e]) :
    s'.PerCertificate ↔ s.PerCertificate ∧
      (e.known = true → ∃ e' ∈ s.checks, e'.cert = e.cert ∧ e'.known = false) := by
  constructor
  · intro h
    refine ⟨fun before c after hs hknown ↦ ?_, h _ _ [] hchecks⟩
    refine h before c (after ++ [e]) ?_ hknown
    rw [hchecks, hs, List.append_assoc, List.cons_append]
  · rintro ⟨hs, he⟩ before c after hs' hknown
    rw [hchecks] at hs'
    rcases List.concat_eq_append_cons_iff.1 hs' with ⟨rfl, rfl, -⟩ | ⟨rest, -, hsplit⟩
    · exact he hknown
    · exact hs before c rest hsplit hknown

/-- The invariant of a run whose certificates have different digests. -/
structure Inv (sha256 : CertificateDer → Vector UInt8 32) (certs : Set CertificateDer)
    (s : Trust) : Prop where
  cert_mem : ∀ e ∈ s.checks, e.cert ∈ certs
  onlyTrusted : OnlyTrusted sha256 s
  perCertificate : s.PerCertificate

/-- At the start nothing was checked. -/
theorem inv_start (certs : Set CertificateDer) : Inv sha256 certs start where
  cert_mem := nofun
  onlyTrusted := onlyTrusted_start
  perCertificate := fun before c after h ↦ by cases before <;> cases h

/-- Whom the store takes a peer for: one that was trusted, and either both were accepted or both
have the same certificate. -/
theorem Inv.exists_trusted {certs : Set CertificateDer} (hinv : Inv sha256 certs s)
    (hsha : Set.InjOn sha256 certs) (hc : c.cert ∈ certs)
    (hholds : s.tofu.Holds (c.fingerprint sha256)) :
    ∃ e ∈ s.checks, e.known = false ∧ e.role = c.role ∧
      (c.role = .initiated → e.cert = c.cert) := by
  obtain ⟨e, he, hknown, hname⟩ := hinv.onlyTrusted _ (isFingerprint_contact sha256 c) hholds
  rw [← c.fingerprint_checked sha256 true, Checked.fingerprint_eq_iff] at hname
  refine ⟨e, he, hknown, hname.1, fun hrole ↦ ?_⟩
  exact hsha (hinv.cert_mem e he) hc (hname.2 (hname.1.trans hrole))

/-- **A check that is vouched for keeps the invariant.** -/
theorem inv_step {certs : Set CertificateDer} (hsha : Set.InjOn sha256 certs)
    (hinv : Inv sha256 certs s) (hc : c.cert ∈ certs) (hvouched : s.Vouched c)
    (hs' : s' ∈ step sha256 s c) : Inv sha256 certs s' := by
  have honly := onlyTrusted_step hinv.onlyTrusted hs'
  have hmem (known : Bool) : ∀ e ∈ s.checks ++ [c.checked known], e.cert ∈ certs := by
    intro e he
    rcases List.mem_append.1 he with he | he
    · exact hinv.cert_mem e he
    · obtain rfl := List.mem_singleton.1 he
      exact hc
  rcases step_cases hs' with ⟨hholds, rfl⟩ | rfl
  · refine ⟨hmem true, honly, (perCertificate_concat rfl).2 ⟨hinv.perCertificate, fun _ ↦ ?_⟩⟩
    obtain ⟨e, he, hknown, hrole, hcert⟩ := hinv.exists_trusted hsha hc hholds
    cases hcrole : c.role with
    | initiated => exact ⟨e, he, hcert hcrole, hknown⟩
    | accepted =>
      rcases hvouched hcrole with hnone | hsome
      · -- an accepted peer was trusted
        rw [hnone e he (hrole.trans hcrole)] at hknown
        cases hknown
      · exact hsome
  · exact ⟨hmem false, honly, (perCertificate_concat rfl).2 ⟨hinv.perCertificate, nofun⟩⟩

/-- The certificates of the peers of a run. -/
def certs (cs : List Contact) : Set CertificateDer := {cert | ∃ c ∈ cs, c.cert = cert}

/-- **Trust is per certificate while accepted peers are vouched for.** For every sequence of
connections, with certificates of different digests, and however the file operations go: if a
connection is accepted only while no accepted peer has been trusted, or from a peer whose
certificate has been, then every connection that is known comes after one of the same certificate
that was trusted. -/
theorem perCertificate_of_vouched (sha256 : CertificateDer → Vector UInt8 32) {cs : List Contact}
    (hsha : Set.InjOn sha256 (certs cs))
    (hcs : EachStep (step sha256) Vouched start cs) :
    Throughout (step sha256) PerCertificate start cs := by
  have hguard := hcs.and_mem (D := fun c ↦ c.cert ∈ certs cs)
    fun c hc ↦ ⟨c, hc, rfl⟩
  have hinv : Throughout (step sha256) (Inv sha256 (certs cs)) start cs :=
    throughout_of_guarded (fun _ _ hinv hc _ hs' ↦ inv_step hsha hinv hc.2 hc.1 hs')
      (inv_start _) hguard
  exact hinv.mono fun _ hinv ↦ hinv.perCertificate

/-- A connection over which every file operation succeeds. -/
def contact (role : Role) (cert : CertificateDer) (now : UInt64) : Contact :=
  ⟨role, cert, [], now, .ok, .ok, .ok⟩

/-- SHA-256 on the two certificates of the runs below. -/
def sampleSha256 (cert : CertificateDer) : Vector UInt8 32 :=
  if cert = [1] then
    #v[75, 245, 18, 47, 52, 69, 84, 197, 59, 222, 46, 187, 140, 210, 183, 227, 209, 96, 10, 214, 49,
      195, 133, 165, 215, 204, 226, 60, 119, 133, 69, 154]
  else
    #v[219, 193, 180, 201, 0, 255, 228, 141, 87, 91, 93, 165, 198, 56, 4, 1, 37, 246, 93, 176, 254,
      62, 36, 73, 75, 118, 234, 152, 100, 87, 217, 134]

/-- A peer is dialled and then dials in twice. -/
def dialledRun : List Contact :=
  [contact .initiated [1] 100, contact .accepted [1] 200, contact .accepted [1] 300]

/-- The certificates of the run have different digests. -/
theorem injOn_sampleSha256 : Set.InjOn sampleSha256 (certs dialledRun) := by
  have hall : ∀ c ∈ dialledRun, ∀ c' ∈ dialledRun,
      sampleSha256 c.cert = sampleSha256 c'.cert → c.cert = c'.cert := by
    decide
  rintro _ ⟨c, hc, rfl⟩ _ ⟨c', hc', rfl⟩ h
  exact hall c hc c' hc' h

/-- Peers that are dialled are told apart by their certificates. -/
theorem perCertificate_of_vouched_dialledRun :
    Throughout (step sampleSha256) PerCertificate start dialledRun :=
  perCertificate_of_vouched sampleSha256 injOn_sampleSha256 (by decide +kernel)

/-- Two strangers dial in, one after the other. -/
def strangersRun : List Contact := [contact .accepted [1] 100, contact .accepted [2] 200]

/-- The second stranger is known, on the trust in the first. -/
theorem not_perCertificate_strangersRun :
    ¬ Throughout (step sampleSha256) PerCertificate start strangersRun := by
  have hchecks : (run (step sampleSha256) start strangersRun).map checks =
      some [⟨.accepted, [1], false⟩, ⟨.accepted, [2], true⟩] := by
    decide +kernel
  obtain ⟨t, ht, hchecks⟩ := Option.map_eq_some_iff.1 hchecks
  refine not_throughout_of_run ht fun hper ↦ ?_
  have hknown := hper [⟨.accepted, [1], false⟩] ⟨.accepted, [2], true⟩ [] hchecks rfl
  exact absurd hknown (by decide)

/-! ### When no file operation fails -/

/-- Every access to the file succeeds. -/
def Smooth (c : Contact) : Prop := c.lookup = .ok ∧ c.load = .ok ∧ c.save = .ok

instance : DecidablePred Smooth := fun _ ↦ inferInstanceAs (Decidable (_ ∧ _))

/-- The file holds the name of every peer that was trusted. -/
def AllTrusted (sha256 : CertificateDer → Vector UInt8 32) (s : Trust) : Prop :=
  ∀ e ∈ s.checks, e.known = false → s.tofu.Holds (e.fingerprint sha256)

/-- **Without failures of the file, who was trusted is known.** -/
theorem allTrusted_step (hs : AllTrusted sha256 s) (hc : Smooth c) (hs' : s' ∈ step sha256 s c) :
    AllTrusted sha256 s' := by
  obtain ⟨_, hload, hsave⟩ := hc
  rcases step_cases hs' with ⟨_, rfl⟩ | rfl
  · intro e he hknown
    rcases List.mem_append.1 he with he | he
    · exact hs e he hknown
    · obtain rfl := List.mem_singleton.1 he
      cases hknown
  · intro e he hknown
    simp only [hload, hsave]
    refine (TofuVerifier.holds_trustPeer_iff (isFingerprint_extract _ _) _
      (isFingerprint_contact sha256 c) rfl).2 ?_
    rcases List.mem_append.1 he with he | he
    · exact .inl (hs e he hknown)
    · obtain rfl := List.mem_singleton.1 he
      exact .inr (c.fingerprint_checked sha256 false)

/-- A peer that is accepted and not vouched for is known, with nothing to show for it. -/
theorem not_perCertificate_step (hs : AllTrusted sha256 s) (hc : Smooth c)
    (hvouched : ¬ s.Vouched c) (hs' : s' ∈ step sha256 s c) : ¬ s'.PerCertificate := by
  simp only [Vouched, Classical.not_imp, not_or, not_forall] at hvouched
  obtain ⟨hrole, ⟨e, he, herole, hknown⟩, hnone⟩ := hvouched
  have hholds : s.tofu.Holds (c.fingerprint sha256) := by
    have hname : e.fingerprint sha256 = (c.checked true).fingerprint sha256 :=
      Checked.fingerprint_eq_iff.2 ⟨herole.trans hrole.symm, fun h ↦ by rw [herole] at h; cases h⟩
    rw [← c.fingerprint_checked sha256 true, ← hname]
    exact hs e he (eq_false_of_ne_true hknown)
  obtain rfl := Option.some.inj ((step_of_holds hc.1 hholds).symm.trans hs')
  exact fun h ↦ hnone (((perCertificate_concat rfl).1 h).2 rfl)

/-- **Exactly then**, when no file operation fails. -/
theorem perCertificate_iff (sha256 : CertificateDer → Vector UInt8 32) {cs : List Contact}
    (hsha : Set.InjOn sha256 (certs cs)) (hcs : ∀ c ∈ cs, Smooth c) :
    Throughout (step sha256) PerCertificate start cs ↔
      EachStep (step sha256) Vouched start cs := by
  refine throughout_iff_eachStep_of_forall
    (I := fun s ↦ Inv sha256 (certs cs) s ∧ AllTrusted sha256 s)
    (D := fun c ↦ c.cert ∈ certs cs ∧ Smooth c)
    (fun _ hs ↦ hs.1.perCertificate) (fun s c hs hc hvouched s' hs' ↦ ?_)
    (fun s c hs hc hvouched s' hs' ↦ not_perCertificate_step hs.2 hc.2 hvouched hs')
    ⟨inv_start _, nofun⟩ fun c hc ↦ ⟨⟨c, hc, rfl⟩, hcs c hc⟩
  exact ⟨inv_step hsha hs.1 hc.1 hvouched hs', allTrusted_step hs.2 hc.2 hs'⟩

end Runs

end Trust

end Kmflow
