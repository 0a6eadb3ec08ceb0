import Kmflow.Foundation.Transition
import Kmflow.Foundation.Utf8
import Kmflow.Net.Tls

/-!
# What is left of the configuration directory after a failure

`TlsIdentity::load_or_generate` and `TofuVerifier` over the three files of the directory, byte by
byte. Every call says how it is answered: a read may fail, and a write may fail before the file is
opened or stop anywhere (`Save`), the last byte included, which is also how a process dies.

`load_or_generate` tests only that both files of the identity exist, and `trust_peer` rewrites the
whole list of peers in place. So an identity whose key was cut short is loaded for good, and a list
that was cut short has lost what stood behind the cut. Nothing else does harm: the certificate is
written before the key, so a certificate that was cut short has no key and is generated anew
(`survives_iff`).

What makes a private key belong to a certificate is a parameter.
-/

namespace Kmflow

open Transition

/-- The bytes of `cert.der`, `key.der` and `known_peers.toml`, where there are such files. -/
structure ConfigDir where
  cert : Option (List UInt8)
  key : Option (List UInt8)
  knownPeers : Option (List UInt8)
  deriving DecidableEq

/-- `TlsIdentity`. -/
structure TlsIdentity where
  certDer : CertificateDer
  keyDer : List UInt8
  fingerprint : String

/-- What `fs::write` leaves of a file. -/
def Save.write (save : Save) (file : Option (List UInt8)) (bytes : List UInt8) :
    Option (List UInt8) :=
  match save with
  | .ok => some bytes
  | .refused => file
  | .torn written => some (bytes.take written)

/-- A certificate and the private key that belongs to it. -/
structure KeyPair (belongs : CertificateDer → List UInt8 → Prop) where
  certDer : CertificateDer
  keyDer : List UInt8
  belongs : belongs certDer keyDer

/-- A call of `load_or_generate`, and how it is answered. -/
structure LoadCall (belongs : CertificateDer → List UInt8 → Prop) where
  /-- What `generate` returns. -/
  generated : Option (KeyPair belongs)
  readable : Bool
  certSave : Save
  keySave : Save

/-- A call of `trust_peer`, and how it is answered. -/
structure TrustCall where
  identity : PeerIdentity
  readable : Bool
  save : Save

namespace ConfigDir

variable {belongs : CertificateDer → List UInt8 → Prop}

/-- What `load_or_generate` does when one of the two files is missing. -/
def generateAndSave (sha256 : CertificateDer → Vector UInt8 32) (d : ConfigDir)
    (call : LoadCall belongs) : ConfigDir × Except Unit TlsIdentity :=
  match call.generated with
  | none => (d, .error ())
  | some pair =>
    let d := { d with cert := call.certSave.write d.cert pair.certDer }
    if call.certSave = .ok then
      let d := { d with key := call.keySave.write d.key pair.keyDer }
      if call.keySave = .ok then
        (d, .ok ⟨pair.certDer, pair.keyDer, computeFingerprint sha256 pair.certDer⟩)
      else (d, .error ())
    else (d, .error ())

/-- `TlsIdentity::load_or_generate`: both files are read, or a new pair is written. -/
def loadOrGenerate (sha256 : CertificateDer → Vector UInt8 32) (d : ConfigDir)
    (call : LoadCall belongs) : ConfigDir × Except Unit TlsIdentity :=
  match d.cert, d.key with
  | some certBytes, some keyBytes =>
    if call.readable then
      (d, .ok ⟨certBytes, keyBytes, computeFingerprint sha256 certBytes⟩)
    else (d, .error ())
  | _, _ => d.generateAndSave sha256 call

/-- `exists`, then `read_to_string`, which fails on bytes that are not UTF-8. -/
def readPeers (d : ConfigDir) (readable : Bool) : Except Unit (Option String) :=
  match d.knownPeers with
  | none => .ok none
  | some bytes =>
    match String.fromUTF8? bytes.toByteArray with
    | some text => if readable then .ok (some text) else .error ()
    | none => .error ()

/-- `TofuVerifier::is_known`, on the file of the directory. -/
def isKnown (d : ConfigDir) (readable : Bool) (fingerprint : String) : Except Unit Bool := do
  match ← d.readPeers readable with
  | none => return false
  | some content => return contains content fingerprint

/-- The text that a call of `trust_peer` comes to write. -/
def newContent (d : ConfigDir) (call : TrustCall) : Except Unit String :=
  (d.readPeers call.readable).map fun old ↦
    old.getD TofuVerifier.header ++ TofuVerifier.entry call.identity

/-- `TofuVerifier::trust_peer`, on the file of the directory. -/
def trustPeer (d : ConfigDir) (call : TrustCall) : ConfigDir × Except Unit Unit :=
  match d.newContent call with
  | .error e => (d, .error e)
  | .ok content =>
    ({ d with knownPeers := call.save.write d.knownPeers (Utf8.encode content) },
      if call.save = .ok then .ok () else .error ())

/-! ### The list of peers, as a text -/

/-- The bytes are a text that holds the fingerprint. -/
def HoldsText (f : String) (bytes : List UInt8) : Prop :=
  ∃ text, Utf8.encode text = bytes ∧ f.toList <:+: text.toList

/-- `known_peers.toml` is there, is a text, and holds the fingerprint. -/
def Holds (d : ConfigDir) (f : String) : Prop := ∃ bytes ∈ d.knownPeers, HoldsText f bytes

/-- The file of a verifier, byte by byte. -/
def Shows (d : ConfigDir) (t : TofuVerifier) : Prop := d.knownPeers = t.knownPeers.map Utf8.encode

theorem holds_iff_shows {d : ConfigDir} {f : String} :
    d.Holds f ↔ ∃ t, d.Shows t ∧ t.Holds f := by
  constructor
  · rintro ⟨bytes, hbytes, text, rfl, hlisted⟩
    exact ⟨⟨some text⟩, hbytes, text, rfl, hlisted⟩
  · rintro ⟨⟨file⟩, hshows, text, rfl, hlisted⟩
    exact ⟨Utf8.encode text, hshows, text, rfl, hlisted⟩

/-- A file that is a text is read as that text. -/
theorem readPeers_of_text {d : ConfigDir} {text : String}
    (h : d.knownPeers = some (Utf8.encode text)) (readable : Bool) :
    d.readPeers readable = if readable then .ok (some text) else .error () := by
  have hread : String.fromUTF8? (Utf8.encode text).toByteArray = some text :=
    Utf8.fromUTF8?_eq_some_iff.2 rfl
  rw [readPeers, h]
  simp only [hread]

theorem readPeers_of_shows {d : ConfigDir} {t : TofuVerifier} (h : d.Shows t) :
    d.readPeers true = .ok t.knownPeers := by
  obtain ⟨file⟩ := t
  cases file with
  | none => rw [readPeers, h]; rfl
  | some text => rw [readPeers_of_text h, if_pos rfl]

/-- **While the file is a text, this is the verifier over the text**: for the lookup, and for the
writes that are not cut short. -/
theorem isKnown_of_shows {d : ConfigDir} {t : TofuVerifier} (h : d.Shows t) (f : String) :
    d.isKnown true f = t.isKnown .ok f := by
  rw [isKnown, readPeers_of_shows h]
  rfl

/-- A write that is not cut short leaves the text that the verifier would leave. -/
theorem trustPeer_of_shows {d : ConfigDir} {t : TofuVerifier} (h : d.Shows t)
    (identity : PeerIdentity) :
    (d.trustPeer ⟨identity, true, .ok⟩).1.Shows (t.trustPeer .ok .ok identity).1 := by
  rw [trustPeer, newContent, readPeers_of_shows h]
  rfl

/-- A fingerprint is known exactly when the file holds it. -/
theorem isKnown_iff {d : ConfigDir} {f : String} : d.isKnown true f = .ok true ↔ d.Holds f := by
  constructor
  · intro h
    rw [isKnown, readPeers] at h
    cases hfile : d.knownPeers with
    | none =>
      rw [hfile] at h
      cases h
    | some bytes =>
      rw [hfile] at h
      cases hread : String.fromUTF8? bytes.toByteArray with
      | none =>
        simp only [hread] at h
        cases h
      | some text =>
        simp only [hread, if_true] at h
        exact ⟨bytes, hfile, text, Utf8.fromUTF8?_eq_some_iff.1 hread,
          contains_iff.1 (Except.ok.inj h)⟩
  · intro h
    obtain ⟨t, hshows, hholds⟩ := holds_iff_shows.1 h
    rw [isKnown_of_shows hshows, TofuVerifier.isKnown_of_holds hholds]

/-! ### What a call does -/

/-- Both files are there, or one of them is missing. -/
theorem loadOrGenerate_eq (sha256 : CertificateDer → Vector UInt8 32) (d : ConfigDir)
    (call : LoadCall belongs) :
    (∃ certBytes keyBytes, d.cert = some certBytes ∧ d.key = some keyBytes ∧
      d.loadOrGenerate sha256 call = if call.readable then
          (d, .ok ⟨certBytes, keyBytes, computeFingerprint sha256 certBytes⟩)
        else (d, .error ())) ∨
      (d.cert = none ∨ d.key = none) ∧
        d.loadOrGenerate sha256 call = d.generateAndSave sha256 call := by
  rw [loadOrGenerate]
  cases hcert : d.cert with
  | none => exact .inr ⟨.inl rfl, rfl⟩
  | some certBytes =>
    cases hkey : d.key with
    | none => exact .inr ⟨.inr rfl, rfl⟩
    | some keyBytes => exact .inl ⟨certBytes, keyBytes, rfl, rfl, rfl⟩

/-- **Everything `load_or_generate` does to the directory**: nothing, or it leaves a part of a
certificate, or a certificate and what becomes of the key. It writes only when one of the two files
is missing. -/
theorem loadOrGenerate_cases (sha256 : CertificateDer → Vector UInt8 32) (d : ConfigDir)
    (call : LoadCall belongs) :
    (d.loadOrGenerate sha256 call).1 = d ∨
      (d.cert = none ∨ d.key = none) ∧ ∃ pair ∈ call.generated,
        (∃ written, (d.loadOrGenerate sha256 call).1 =
          { d with cert := some (pair.certDer.take written) }) ∨
        call.certSave = .ok ∧ (d.loadOrGenerate sha256 call).1 =
          { d with
            cert := some pair.certDer
            key := call.keySave.write d.key pair.keyDer } := by
  rcases loadOrGenerate_eq sha256 d call with ⟨_, _, _, _, heq⟩ | ⟨hmissing, heq⟩
  · rw [heq]
    exact .inl (by cases call.readable <;> rfl)
  · rw [heq, generateAndSave]
    cases hgenerated : call.generated with
    | none => exact .inl rfl
    | some pair =>
      cases hcertSave : call.certSave with
      | refused => exact .inl rfl
      | torn written => exact .inr ⟨hmissing, pair, rfl, .inl ⟨written, rfl⟩⟩
      | ok =>
        refine .inr ⟨hmissing, pair, rfl, .inr ⟨rfl, ?_⟩⟩
        cases call.keySave <;> rfl

/-- A key that is cut short stands beside its certificate. -/
theorem loadOrGenerate_torn (sha256 : CertificateDer → Vector UInt8 32) {d : ConfigDir}
    {call : LoadCall belongs} (hmissing : d.cert = none ∨ d.key = none) {pair : KeyPair belongs}
    (hpair : pair ∈ call.generated) (hcertSave : call.certSave = .ok) {written : ℕ}
    (hkeySave : call.keySave = .torn written) :
    (d.loadOrGenerate sha256 call).1 =
      { d with
        cert := some pair.certDer
        key := some (pair.keyDer.take written) } := by
  rcases loadOrGenerate_eq sha256 d call with ⟨_, _, hcert, hkey, _⟩ | ⟨_, heq⟩
  · rw [hcert, hkey] at hmissing
    rcases hmissing with h | h <;> cases h
  · rw [heq, generateAndSave, hpair, hcertSave, hkeySave]
    rfl

/-- A call that has one of the files missing, and succeeds, returns what it has generated. -/
theorem loadOrGenerate_of_missing (sha256 : CertificateDer → Vector UInt8 32) {d : ConfigDir}
    (hmissing : d.cert = none ∨ d.key = none) (pair : KeyPair belongs) (readable : Bool) :
    (d.loadOrGenerate sha256 ⟨some pair, readable, .ok, .ok⟩).2 =
      .ok ⟨pair.certDer, pair.keyDer, computeFingerprint sha256 pair.certDer⟩ := by
  rcases loadOrGenerate_eq sha256 d ⟨some pair, readable, .ok, .ok⟩ with
    ⟨_, _, hcert, hkey, _⟩ | ⟨_, heq⟩
  · rw [hcert, hkey] at hmissing
    rcases hmissing with h | h <;> cases h
  · rw [heq]
    rfl

/-- **Everything `trust_peer` does**: it fails and leaves the directory, or it completes, or its
write is cut short. -/
theorem trustPeer_cases (d : ConfigDir) (call : TrustCall) :
    d.trustPeer call = (d, .error ()) ∨
      ∃ content, d.newContent call = .ok content ∧
        (d.trustPeer call = ({ d with knownPeers := some (Utf8.encode content) }, .ok ()) ∨
          ∃ written, call.save = .torn written ∧ d.trustPeer call =
            ({ d with knownPeers := some ((Utf8.encode content).take written) }, .error ())) := by
  rw [trustPeer]
  cases hcontent : d.newContent call with
  | error e => exact .inl rfl
  | ok content =>
    cases hsave : call.save with
    | refused => exact .inl rfl
    | ok => exact .inr ⟨content, rfl, .inl rfl⟩
    | torn written => exact .inr ⟨content, rfl, .inr ⟨written, rfl, rfl⟩⟩

/-- A torn write leaves the beginning of the new content. -/
theorem trustPeer_torn {d : ConfigDir} {call : TrustCall} {content : String}
    (hcontent : d.newContent call = .ok content) {written : ℕ} (hsave : call.save = .torn written) :
    d.trustPeer call =
      ({ d with knownPeers := some ((Utf8.encode content).take written) }, .error ()) := by
  rw [trustPeer, hcontent, hsave]
  rfl

/-- The new text holds what the file held, and the fingerprint of the peer. -/
theorem holdsText_newContent {d : ConfigDir} {call : TrustCall} {content : String}
    (h : d.newContent call = .ok content) {f : String}
    (hf : d.Holds f ∨ f = call.identity.fingerprint) : HoldsText f (Utf8.encode content) := by
  rw [newContent] at h
  cases hread : d.readPeers call.readable with
  | error e => rw [hread] at h; cases h
  | ok old =>
    rw [hread] at h
    obtain rfl := Except.ok.inj h
    refine ⟨_, rfl, ?_⟩
    rw [String.toList_append]
    rcases hf with ⟨_, hfile, text, rfl, hlisted⟩ | rfl
    · obtain rfl : old = some text := by
        rw [readPeers_of_text hfile] at hread
        split_ifs at hread
        exact (Except.ok.inj hread).symm
      exact List.infix_append_of_infix_left hlisted
    · exact List.infix_append_of_infix_right (TofuVerifier.fingerprint_infix_entry _)

end ConfigDir

/-! ### Runs -/

/-- The calls that look at the directory. -/
inductive Call (belongs : CertificateDer → List UInt8 → Prop) where
  | loadOrGenerate (call : LoadCall belongs)
  | trustPeer (call : TrustCall)

/-- The directory, with what the calls so far have come to. -/
structure Store where
  dir : ConfigDir
  /-- The fingerprints of the calls of `trust_peer` that have completed. -/
  trusted : List String

namespace Store

open ConfigDir

variable {belongs : CertificateDer → List UInt8 → Prop}
  {sha256 : CertificateDer → Vector UInt8 32}

/-- The first start: no file at all. -/
def start : Store := ⟨⟨none, none, none⟩, []⟩

/-- One call, which may fail or be cut short. -/
def step (sha256 : CertificateDer → Vector UInt8 32) (s : Store) : Call belongs → Option Store
  | .loadOrGenerate call => some ⟨(s.dir.loadOrGenerate sha256 call).1, s.trusted⟩
  | .trustPeer call =>
    match s.dir.trustPeer call with
    | (dir, .ok ()) => some ⟨dir, s.trusted ++ [call.identity.fingerprint]⟩
    | (dir, .error ()) => some ⟨dir, s.trusted⟩

/-- The next `load_or_generate` returns a certificate with its key, and every peer that was trusted
is known. -/
def Survives (sha256 : CertificateDer → Vector UInt8 32)
    (belongs : CertificateDer → List UInt8 → Prop) (s : Store) : Prop :=
  (∀ pair : KeyPair belongs, ∃ identity,
    (s.dir.loadOrGenerate sha256 ⟨some pair, true, .ok, .ok⟩).2 = .ok identity ∧
      belongs identity.certDer identity.keyDer) ∧
  ∀ f ∈ s.trusted, s.dir.isKnown true f = .ok true

/-- A write that is cut short is cut late enough: a key behind its last byte, and the list of peers
where it has become a text again that holds every peer trusted so far. -/
def CutsLate (s : Store) : Call belongs → Prop
  | .loadOrGenerate call =>
    s.dir.cert = none ∨ s.dir.key = none → call.certSave = .ok →
      ∀ pair ∈ call.generated, ∀ written, call.keySave = .torn written →
        pair.keyDer.length ≤ written
  | .trustPeer call =>
    ∀ content, s.dir.newContent call = .ok content → ∀ written, call.save = .torn written →
      ∀ f ∈ s.trusted, HoldsText f ((Utf8.encode content).take written)

/-- The invariant: the two files of the identity belong together, no key is without its certificate,
and the list holds every peer that was trusted. -/
structure Inv (belongs : CertificateDer → List UInt8 → Prop) (s : Store) : Prop where
  pair : ∀ certBytes ∈ s.dir.cert, ∀ keyBytes ∈ s.dir.key, belongs certBytes keyBytes
  key_eq_none : s.dir.cert = none → s.dir.key = none
  holds : ∀ f ∈ s.trusted, s.dir.Holds f

/-- At the start there is nothing in the directory. -/
theorem inv_start : Inv belongs start := ⟨nofun, fun _ ↦ rfl, nofun⟩

/-- The invariant says that what matters survives. -/
theorem Inv.survives {s : Store} (h : Inv belongs s) : Survives sha256 belongs s := by
  refine ⟨fun pair ↦ ?_, fun f hf ↦ isKnown_iff.2 (h.holds f hf)⟩
  rcases loadOrGenerate_eq sha256 s.dir ⟨some pair, true, .ok, .ok⟩ with
    ⟨certBytes, keyBytes, hcert, hkey, heq⟩ | ⟨hmissing, _⟩
  · exact ⟨_, congrArg Prod.snd heq, h.pair certBytes hcert keyBytes hkey⟩
  · exact ⟨_, loadOrGenerate_of_missing sha256 hmissing pair true, pair.belongs⟩

/-- **A step that cuts late keeps the invariant.** -/
theorem inv_step {s s' : Store} {call : Call belongs} (h : Inv belongs s) (hlate : s.CutsLate call)
    (hs' : s' ∈ step sha256 s call) : Inv belongs s' := by
  cases call with
  | loadOrGenerate call =>
    obtain rfl := Option.some.inj hs'
    rcases loadOrGenerate_cases sha256 s.dir call with
      hdir | ⟨hmissing, pair, hpair, ⟨written, hdir⟩ | ⟨hcertSave, hdir⟩⟩
    · rw [hdir]
      exact h
    · -- a certificate that is cut short is without a key
      have hkey : s.dir.key = none := hmissing.elim h.key_eq_none id
      rw [hdir]
      refine ⟨fun _ _ keyBytes hkeyBytes ↦ ?_, fun _ ↦ hkey, h.holds⟩
      rw [Option.mem_def, hkey] at hkeyBytes
      cases hkeyBytes
    · have hkey : s.dir.key = none := hmissing.elim h.key_eq_none id
      rw [hdir]
      refine ⟨fun certBytes hcert keyBytes hkeyBytes ↦ ?_, nofun, h.holds⟩
      obtain rfl := Option.some.inj hcert
      cases hkeySave : call.keySave with
      | refused =>
        simp only [hkeySave, Save.write, hkey] at hkeyBytes
        cases hkeyBytes
      | ok =>
        simp only [hkeySave, Save.write] at hkeyBytes
        obtain rfl := Option.some.inj hkeyBytes
        exact pair.belongs
      | torn written =>
        simp only [hkeySave, Save.write] at hkeyBytes
        obtain rfl := Option.some.inj hkeyBytes
        rw [List.take_of_length_le (hlate hmissing hcertSave pair hpair written hkeySave)]
        exact pair.belongs
  | trustPeer call =>
    rw [step] at hs'
    rcases trustPeer_cases s.dir call with
      heq | ⟨content, hcontent, heq | ⟨written, hsave, heq⟩⟩
    · rw [heq] at hs'
      obtain rfl := Option.some.inj hs'
      exact h
    · rw [heq] at hs'
      obtain rfl := Option.some.inj hs'
      refine ⟨h.pair, h.key_eq_none, fun f hf ↦ ⟨_, rfl, holdsText_newContent hcontent ?_⟩⟩
      exact (List.mem_append.1 hf).imp (h.holds f) List.mem_singleton.1
    · rw [heq] at hs'
      obtain rfl := Option.some.inj hs'
      exact ⟨h.pair, h.key_eq_none, fun f hf ↦ ⟨_, rfl, hlate content hcontent written hsave f hf⟩⟩

/-- **A step that cuts early does harm that stays.** -/
theorem not_survives_step
    (hcut : ∀ certDer keyDer written, belongs certDer keyDer → written < keyDer.length →
      ¬ belongs certDer (keyDer.take written))
    {s s' : Store} {call : Call belongs} (hlate : ¬ s.CutsLate call)
    (hs' : s' ∈ step sha256 s call) : ¬ Survives sha256 belongs s' := by
  rintro ⟨hidentity, hknown⟩
  cases call with
  | loadOrGenerate call =>
    obtain rfl := Option.some.inj hs'
    simp only [CutsLate, not_forall, not_le] at hlate
    obtain ⟨hmissing, hcertSave, pair, hpair, written, hkeySave, hwritten⟩ := hlate
    -- both files are there now, so the next call loads them
    obtain ⟨identity, hload, hbelongs⟩ := hidentity pair
    rw [loadOrGenerate_torn sha256 hmissing hpair hcertSave hkeySave] at hload
    obtain rfl := Except.ok.inj hload
    exact hcut _ _ _ pair.belongs hwritten hbelongs
  | trustPeer call =>
    simp only [CutsLate, not_forall] at hlate
    obtain ⟨content, hcontent, written, hsave, f, hf, hnot⟩ := hlate
    rw [step, trustPeer_torn hcontent hsave] at hs'
    obtain rfl := Option.some.inj hs'
    obtain ⟨bytes, hbytes, hholds⟩ := isKnown_iff.1 (hknown f hf)
    obtain rfl := Option.some.inj hbytes
    exact hnot hholds

/-- **What survives.** For every run of the two functions from the first start, and however its
calls fail or are cut short: in every state the next `load_or_generate` returns a certificate with
its key and every peer that was trusted is known, exactly when no key is cut short, and no list of
peers before all of them are in it again. A part of a key is taken to belong to no certificate. -/
theorem survives_iff (sha256 : CertificateDer → Vector UInt8 32)
    (hcut : ∀ certDer keyDer written, belongs certDer keyDer → written < keyDer.length →
      ¬ belongs certDer (keyDer.take written))
    (calls : List (Call belongs)) :
    Throughout (step sha256) (Survives sha256 belongs) start calls ↔
      EachStep (step sha256) CutsLate start calls :=
  throughout_iff_eachStep (fun _ h ↦ h.survives) (fun _ _ h hlate _ hs' ↦ inv_step h hlate hs')
    (fun _ _ _ hlate _ hs' ↦ not_survives_step hcut hlate hs') inv_start calls

/-! ### Two failures -/

/-- Certificates and keys of one number: a certificate is a sequence of one byte, and its key one of
two. -/
def sampleBelongs (certDer keyDer : List UInt8) : Prop :=
  ∃ number, certDer = [0x30, 1, number] ∧ keyDer = [0x30, 2, number, number]

theorem not_sampleBelongs_take (certDer : CertificateDer) (keyDer : List UInt8) (written : ℕ)
    (h : sampleBelongs certDer keyDer) (hwritten : written < keyDer.length) :
    ¬ sampleBelongs certDer (keyDer.take written) := by
  rintro ⟨_, _, hkey⟩
  obtain ⟨_, _, rfl⟩ := h
  have hlength := congrArg List.length hkey
  simp only [List.length_take, List.length_cons, List.length_nil] at hlength hwritten
  omega

/-- A certificate and its key. -/
def samplePair : KeyPair sampleBelongs := ⟨[0x30, 1, 7], [0x30, 2, 7, 7], 7, rfl, rfl⟩

/-- One digest for everything. -/
def sampleHash (_ : CertificateDer) : Vector UInt8 32 := TofuVerifier.sampleDigest

/-- A peer whose hostname is not known yet. -/
def samplePeer : PeerIdentity := ⟨"ab:cd", "", 1700000000⟩

/-- The process dies when the first byte of the key is written. -/
def cutKeyRun : List (Call sampleBelongs) :=
  [.loadOrGenerate ⟨some samplePair, true, .ok, .torn 1⟩]

/-- The process dies when it has opened the list for another peer. -/
def cutCall : TrustCall := ⟨⟨"unknown", "", 1700000001⟩, true, .torn 0⟩

/-- A peer is trusted before that. -/
def cutPeersRun : List (Call sampleBelongs) :=
  [.trustPeer ⟨samplePeer, true, .ok⟩, .trustPeer cutCall]

/-- The list with the first peer. -/
def trustedOne : Store :=
  ⟨⟨none, none, some (Utf8.encode (TofuVerifier.header ++ TofuVerifier.entry samplePeer))⟩,
    [samplePeer.fingerprint]⟩

/-- Nothing of the first peer is left. -/
theorem not_cutsLate_trustedOne :
    ¬ trustedOne.CutsLate (@Call.trustPeer sampleBelongs cutCall) := by
  intro hlate
  have hcontent : trustedOne.dir.newContent cutCall = .ok (TofuVerifier.header ++
      TofuVerifier.entry samplePeer ++ TofuVerifier.entry cutCall.identity) := by
    rw [newContent, readPeers_of_text rfl]
    rfl
  obtain ⟨text, hempty, hlisted⟩ := hlate _ hcontent 0 rfl samplePeer.fingerprint (.head _)
  have htext : text = "" := by rw [← Utf8.decodeLossy_encode text, hempty]; rfl
  rw [htext] at hlisted
  exact absurd hlisted (by decide)

/-- A certificate that is cut short is generated anew, and so is one whose key has not been
written. -/
def restartRun : List (Call sampleBelongs) :=
  [.loadOrGenerate ⟨some samplePair, true, .torn 2, .ok⟩,
    .loadOrGenerate ⟨some samplePair, true, .ok, .refused⟩,
    .loadOrGenerate ⟨some samplePair, true, .ok, .ok⟩]

theorem survives_restartRun :
    Throughout (step sampleHash) (Survives sampleHash sampleBelongs) start restartRun :=
  (survives_iff sampleHash not_sampleBelongs_take restartRun).2
    fun _ _ ↦ ⟨nofun, fun _ _ ↦ ⟨nofun, fun _ _ ↦ ⟨nofun, trivial⟩⟩⟩

/-- After the first run the certificate comes with one byte of its key, and after the second a peer
that was trusted is a stranger. -/
theorem not_survives_cut :
    ¬ Throughout (step sampleHash) (Survives sampleHash sampleBelongs) start cutKeyRun ∧
      ¬ Throughout (step sampleHash) (Survives sampleHash sampleBelongs) start cutPeersRun := by
  constructor
  · intro h
    have hlate : ¬ start.CutsLate (.loadOrGenerate ⟨some samplePair, true, .ok, .torn 1⟩) :=
      fun hlate ↦ absurd (hlate (.inl rfl) rfl samplePair rfl 1 rfl) (by decide)
    exact not_survives_step not_sampleBelongs_take hlate rfl (h.2 _ rfl).head
  · intro h
    obtain ⟨s, hs⟩ : ∃ s,
        s ∈ step sampleHash trustedOne (@Call.trustPeer sampleBelongs cutCall) := by
      rw [step]
      split <;> exact ⟨_, rfl⟩
    exact not_survives_step not_sampleBelongs_take not_cutsLate_trustedOne hs
      ((h.2 trustedOne rfl).2 s hs).head

end Store

end Kmflow
