import Kmflow.Foundation.Infix
import Kmflow.Proto.Types
import Mathlib.Tactic.IntervalCases

/-!
# Fingerprints and the known-peers file

`tls.rs`: the fingerprint of a certificate, and `TofuVerifier`, which looks a fingerprint up in
`known_peers.toml` by searching the text of the file and adds one by writing the file anew.

SHA-256 is a parameter, a function from the bytes of a certificate to 32 bytes. An access to the
file carries how it goes: `exists` may miss a file, a read may fail, and a write may fail before it
starts or after it has put a part of the text in place of the old one.

Only two kinds of texts are ever looked up, the fingerprint of a digest and the word `unknown`
(`IsFingerprint`). Neither shares all its characters with anything else in the file, so what a file
with one more entry holds is what it held and the fingerprint of that entry (`infix_append_entry`).
-/

namespace Kmflow

/-! ### Fingerprints -/

/-- The DER bytes of a certificate. -/
abbrev CertificateDer := List UInt8

/-- `{byte:02x}`. -/
def hexByte (byte : UInt8) : List Char :=
  [Nat.digitChar (byte.toNat / 16), Nat.digitChar (byte.toNat % 16)]

/-- The loop of `compute_fingerprint` from its `i`-th byte on. -/
def pushBytes : ℕ → List UInt8 → List Char
  | _, [] => []
  | i, byte :: digest => (if 0 < i then [':'] else []) ++ hexByte byte ++ pushBytes (i + 1) digest

/-- The text of a digest. -/
def fingerprintText (digest : Vector UInt8 32) : String := .ofList (pushBytes 0 digest.toList)

/-- `compute_fingerprint`. -/
def computeFingerprint (sha256 : CertificateDer → Vector UInt8 32) (certDer : CertificateDer) :
    String :=
  fingerprintText (sha256 certDer)

theorem length_pushBytes_succ (i : ℕ) (digest : List UInt8) :
    (pushBytes (i + 1) digest).length = 3 * digest.length := by
  induction digest generalizing i with
  | nil => rfl
  | cons byte digest ih =>
    simp only [pushBytes, Nat.zero_lt_succ, if_true, hexByte, List.length_append,
      List.length_cons, List.length_nil, ih]
    omega

/-- Thirty-two bytes of two digits each, and the colons between them. -/
theorem length_fingerprintText (digest : Vector UInt8 32) :
    (fingerprintText digest).toList.length = 95 := by
  obtain ⟨byte, bytes, hbytes⟩ := List.exists_cons_of_length_pos
    (by rw [Vector.length_toList]; decide : 0 < digest.toList.length)
  have hlength : bytes.length + 1 = 32 := by
    rw [← List.length_cons (a := byte), ← hbytes, Vector.length_toList]
  rw [fingerprintText, String.toList_ofList, hbytes, pushBytes]
  simp only [Nat.lt_irrefl, if_false, List.nil_append, hexByte, List.length_append,
    List.length_cons, List.length_nil, length_pushBytes_succ]
  omega

/-- The characters of a fingerprint. -/
def fingerprintChars : List Char := "0123456789abcdef:".toList

theorem digitChar_mem_fingerprintChars {n : ℕ} (hn : n < 16) :
    Nat.digitChar n ∈ fingerprintChars := by
  interval_cases n <;> decide

theorem hexByte_subset (byte : UInt8) : hexByte byte ⊆ fingerprintChars := by
  have hbyte : byte.toNat < 256 := byte.toNat_lt
  intro c hc
  rcases List.mem_pair.1 hc with rfl | rfl
  · exact digitChar_mem_fingerprintChars (by omega)
  · exact digitChar_mem_fingerprintChars (by omega)

theorem pushBytes_subset (i : ℕ) (digest : List UInt8) :
    pushBytes i digest ⊆ fingerprintChars := by
  induction digest generalizing i with
  | nil => exact List.nil_subset _
  | cons byte digest ih =>
    have hcolon : (if 0 < i then [':'] else []) ⊆ fingerprintChars := by
      split
      · exact List.cons_subset.2 ⟨by decide, List.nil_subset _⟩
      · exact List.nil_subset _
    exact List.append_subset.2 ⟨List.append_subset.2 ⟨hcolon, hexByte_subset byte⟩, ih _⟩

theorem fingerprintText_subset (digest : Vector UInt8 32) :
    (fingerprintText digest).toList ⊆ fingerprintChars := by
  rw [fingerprintText, String.toList_ofList]
  exact pushBytes_subset 0 _

/-- A fingerprint has a colon. -/
theorem colon_mem_fingerprintText (digest : Vector UInt8 32) :
    ':' ∈ (fingerprintText digest).toList := by
  obtain ⟨a, rest, hrest⟩ := List.exists_cons_of_length_pos
    (by rw [Vector.length_toList]; decide : 0 < digest.toList.length)
  obtain ⟨b, rest', rfl⟩ := List.exists_cons_of_length_pos (l := rest) (by
    have := digest.length_toList
    rw [hrest, List.length_cons] at this
    omega)
  rw [fingerprintText, String.toList_ofList, hrest, pushBytes, pushBytes]
  simp

theorem digitChar_inj {m n : ℕ} (hm : m < 16) (hn : n < 16)
    (h : Nat.digitChar m = Nat.digitChar n) : m = n := by
  have hall : ∀ m n : Fin 16, Nat.digitChar m = Nat.digitChar n → m = n := by decide
  exact congrArg Fin.val (hall ⟨m, hm⟩ ⟨n, hn⟩ h)

/-- Two bytes have different texts. -/
theorem hexByte_injective : Function.Injective hexByte := by
  intro a b h
  have ha : a.toNat < 256 := a.toNat_lt
  have hb : b.toNat < 256 := b.toNat_lt
  obtain ⟨hhigh, hlow⟩ := List.cons.inj h
  have hdiv := digitChar_inj (by omega) (by omega) hhigh
  have hmod := digitChar_inj (by omega) (by omega) (List.cons.inj hlow).1
  exact UInt8.toNat_inj.1 (by omega)

/-- So have two digests. -/
theorem pushBytes_injective (i : ℕ) : Function.Injective (pushBytes i) := by
  intro digest digest' h
  induction digest generalizing i digest' with
  | nil =>
    cases digest' with
    | nil => rfl
    | cons => simp [pushBytes, hexByte] at h
  | cons byte digest ih =>
    cases digest' with
    | nil => simp [pushBytes, hexByte] at h
    | cons byte' digest' =>
      rw [pushBytes, pushBytes, List.append_assoc, List.append_assoc] at h
      obtain ⟨hbyte, hrest⟩ := List.append_inj (List.append_cancel_left h) rfl
      rw [hexByte_injective hbyte, ih _ hrest]

/-- Two digests with one fingerprint are one digest. -/
theorem fingerprintText_injective : Function.Injective fingerprintText := by
  intro digest digest' h
  exact Vector.toList_inj.1 (pushBytes_injective 0 (String.ofList_injective h))

/-- The texts that are looked up and stored: the fingerprint of a digest, and the word that stands
for a peer that has shown no certificate. -/
inductive IsFingerprint : String → Prop
  | text (digest : Vector UInt8 32) : IsFingerprint (fingerprintText digest)
  | unknown : IsFingerprint "unknown"

namespace IsFingerprint

variable {f g : String}

/-- What is certain of the characters of a fingerprint: none of them cuts an entry of the file into
fields, and one of them is found nowhere in an entry outside the field of the fingerprint. -/
theorem notMem {c : Char} (hf : IsFingerprint f) (hc : c ∈ "[\"\n".toList) : c ∉ f.toList := by
  have hall : "[\"\n".toList.all (· ∉ fingerprintChars ++ "unknown".toList) = true := by decide
  have hother : c ∉ fingerprintChars ++ "unknown".toList :=
    of_decide_eq_true (List.all_eq_true.1 hall c hc)
  intro hmem
  cases hf with
  | text digest =>
    exact hother (List.mem_append_left _ (fingerprintText_subset digest hmem))
  | unknown => exact hother (List.mem_append_right _ hmem)

theorem exists_mark (hf : IsFingerprint f) : ∃ c ∈ [':', 'u'], c ∈ f.toList := by
  cases hf with
  | text digest => exact ⟨':', by decide, colon_mem_fingerprintText digest⟩
  | unknown => exact ⟨'u', by decide, by decide⟩

/-- A text that lacks both marks holds no fingerprint. -/
theorem not_infix (hf : IsFingerprint f) {l : List Char} (hcolon : ':' ∉ l) (hu : 'u' ∉ l) :
    ¬ f.toList <:+: l := by
  obtain ⟨c, hc, hcf⟩ := hf.exists_mark
  refine List.not_infix_of_notMem hcf ?_
  rcases List.mem_pair.1 hc with rfl | rfl
  · exact hcolon
  · exact hu

/-- A fingerprint holds no other fingerprint. -/
theorem infix_iff (hf : IsFingerprint f) (hg : IsFingerprint g) :
    f.toList <:+: g.toList ↔ f = g := by
  refine ⟨fun h ↦ ?_, fun h ↦ h ▸ List.infix_rfl⟩
  cases hf with
  | text digest =>
    cases hg with
    | text digest' =>
      exact String.toList_inj.1 (h.eq_of_length
        ((length_fingerprintText digest).trans (length_fingerprintText digest').symm))
    | unknown => exact absurd (h.subset (colon_mem_fingerprintText digest)) (by decide)
  | unknown =>
    cases hg with
    | text digest' =>
      have hu : 'u' ∈ fingerprintChars :=
        fingerprintText_subset digest' (h.subset (by decide : 'u' ∈ "unknown".toList))
      exact absurd hu (by decide)
    | unknown => rfl

end IsFingerprint

/-! ### The file -/

/-- `known_peers.toml`: its text, or `none` when there is no such file. -/
structure TofuVerifier where
  knownPeers : Option String

/-- How looking for the file and reading it go. -/
inductive Access where
  | ok
  /-- `exists` says there is no file. -/
  | hidden
  /-- The file is there and cannot be read. -/
  | unreadable
  deriving DecidableEq

/-- How writing the file goes. -/
inductive Save where
  | ok
  /-- The directory cannot be made, or the file not be opened. -/
  | refused
  /-- The old text is gone, and so many characters of the new one are in its place. -/
  | torn (written : ℕ)
  deriving DecidableEq

/-- `str::contains`. -/
def contains (content pattern : String) : Bool := decide (pattern.toList <:+: content.toList)

@[simp] theorem contains_iff {content pattern : String} :
    contains content pattern = true ↔ pattern.toList <:+: content.toList :=
  decide_eq_true_iff

namespace TofuVerifier

/-- `exists`, then `read_to_string`. -/
def read (t : TofuVerifier) : Access → Except Unit (Option String)
  | .ok => .ok t.knownPeers
  | .hidden => .ok none
  | .unreadable => if t.knownPeers.isSome then .error () else .ok none

/-- `TofuVerifier::is_known`: the fingerprint occurs in the text of the file. -/
def isKnown (t : TofuVerifier) (access : Access) (fingerprint : String) : Except Unit Bool := do
  match ← t.read access with
  | none => return false
  | some content => return contains content fingerprint

/-- The text a new file begins with. -/
def header : String := "# KMFlow known peers\n\n"

/-- The entry of one peer. -/
def entry (identity : PeerIdentity) : String :=
  "[[peers]]\nfingerprint = \"" ++ identity.fingerprint ++ "\"\nhostname = \"" ++
    identity.hostname ++ "\"\nlast_seen = " ++ toString identity.lastSeen ++ "\n\n"

/-- `TofuVerifier::trust_peer`: an entry is put after what was read, and the file written anew. -/
def trustPeer (t : TofuVerifier) (access : Access) (save : Save) (identity : PeerIdentity) :
    TofuVerifier × Except Unit Unit :=
  match t.read access with
  | .error e => (t, .error e)
  | .ok old =>
    let content := old.getD header ++ entry identity
    match save with
    | .ok => (⟨some content⟩, .ok ())
    | .refused => (t, .error ())
    | .torn written => (⟨some (.ofList (content.toList.take written))⟩, .error ())

/-! ### What the file holds -/

variable {f : String}

/-- A fingerprint is not found in a time stamp. -/
theorem not_infix_lastSeen (hf : IsFingerprint f) (lastSeen : UInt64) :
    ¬ f.toList <:+: "\nlast_seen = ".toList ++ ((toString lastSeen).toList ++ "\n\n".toList) := by
  have hdigit : ∀ c ∈ (toString lastSeen).toList, c.isDigit = true := by
    intro c hc
    rw [show toString lastSeen = lastSeen.toNat.repr from rfl, Nat.toList_repr] at hc
    exact Nat.isDigit_of_mem_toDigits (by decide) (by decide) hc
  have hnot : ∀ c : Char, c.isDigit = false → c ∉ "\nlast_seen = ".toList ++ "\n\n".toList →
      c ∉ "\nlast_seen = ".toList ++ ((toString lastSeen).toList ++ "\n\n".toList) := by
    intro c hc hconst hmem
    rcases List.mem_append.1 hmem with h | h
    · exact hconst (List.mem_append_left _ h)
    · rcases List.mem_append.1 h with h | h
      · exact absurd (hdigit c h) (by simp [hc])
      · exact hconst (List.mem_append_right _ h)
  exact hf.not_infix (hnot _ (by decide) (by decide)) (hnot _ (by decide) (by decide))

/-- The header holds no fingerprint. -/
theorem not_infix_header (hf : IsFingerprint f) : ¬ f.toList <:+: header.toList :=
  hf.not_infix (by decide) (by decide)

/-- The entry, cut at its bracket and at its four quotes. -/
def entryFields (identity : PeerIdentity) : List (Char × List Char) :=
  [('[', "[peers]]\nfingerprint = ".toList), ('"', identity.fingerprint.toList),
    ('"', "\nhostname = ".toList), ('"', identity.hostname.toList),
    ('"', "\nlast_seen = ".toList ++ ((toString identity.lastSeen).toList ++ "\n\n".toList))]

theorem toList_entry (identity : PeerIdentity) :
    (entry identity).toList = (entryFields identity).flatMap fun field ↦ field.1 :: field.2 := by
  have hpeers : "[[peers]]\nfingerprint = \"".toList =
      '[' :: ("[peers]]\nfingerprint = ".toList ++ ['"']) := by decide
  have hname : "\"\nhostname = \"".toList = '"' :: ("\nhostname = ".toList ++ ['"']) := by decide
  have hseen : "\"\nlast_seen = ".toList = '"' :: "\nlast_seen = ".toList := by decide
  unfold entry entryFields
  simp only [String.toList_append, hpeers, hname, hseen, List.flatMap_cons, List.flatMap_nil,
    List.append_assoc, List.cons_append, List.nil_append, List.append_nil]

/-- An entry holds its fingerprint, whatever it is. -/
theorem fingerprint_infix_entry (identity : PeerIdentity) :
    identity.fingerprint.toList <:+: (entry identity).toList := by
  have hmem : '"' :: identity.fingerprint.toList ∈
      (entryFields identity).map fun field ↦ field.1 :: field.2 :=
    List.mem_map.2 ⟨('"', identity.fingerprint.toList), .tail _ (.head _), rfl⟩
  rw [toList_entry, List.flatMap_def]
  exact (List.suffix_cons _ _).isInfix.trans (List.infix_of_mem_flatten hmem)

/-- **One more entry adds one fingerprint**, wherever the text before it was cut off. -/
theorem infix_append_entry (hf : IsFingerprint f) {identity : PeerIdentity}
    (hid : IsFingerprint identity.fingerprint) (hhost : identity.hostname = "") (l : List Char) :
    f.toList <:+: l ++ (entry identity).toList ↔
      f.toList <:+: l ∨ f = identity.fingerprint := by
  have hcut : ∀ field ∈ entryFields identity, field.1 ∉ f.toList := by
    simp only [entryFields, List.forall_mem_cons]
    exact ⟨hf.notMem (by decide), hf.notMem (by decide), hf.notMem (by decide),
      hf.notMem (by decide), hf.notMem (by decide), nofun⟩
  have hpeers : ¬ f.toList <:+: "[peers]]\nfingerprint = ".toList :=
    hf.not_infix (by decide) (by decide)
  have hhostname : ¬ f.toList <:+: "\nhostname = ".toList := hf.not_infix (by decide) (by decide)
  have hempty : ¬ f.toList <:+: "".toList := hf.not_infix (by decide) (by decide)
  rw [toList_entry, List.infix_append_fields_iff hcut, entryFields, hhost]
  simp only [List.mem_cons, exists_eq_or_imp, hpeers, hf.infix_iff hid, hhostname, hempty,
    not_infix_lastSeen hf, exists_eq_left, List.not_mem_nil, false_or, or_false]

/-- The file is there and holds a fingerprint. -/
def Holds (t : TofuVerifier) (f : String) : Prop :=
  ∃ content ∈ t.knownPeers, f.toList <:+: content.toList

@[simp] theorem holds_some (content f : String) :
    Holds ⟨some content⟩ f ↔ f.toList <:+: content.toList := by
  simp [Holds]

/-- What `is_known` finds is in the file. -/
theorem holds_of_isKnown {t : TofuVerifier} {access : Access}
    (h : t.isKnown access f = .ok true) : t.Holds f := by
  obtain ⟨file⟩ := t
  cases access with
  | hidden => cases h
  | unreadable => cases file <;> cases h
  | ok =>
    cases file with
    | none => cases h
    | some content => exact ⟨content, rfl, contains_iff.1 (Except.ok.inj h)⟩

/-- `is_known` finds what is in a file it can read. -/
theorem isKnown_of_holds {t : TofuVerifier} (h : t.Holds f) : t.isKnown .ok f = .ok true := by
  obtain ⟨content, hcontent, hlisted⟩ := h
  obtain ⟨file⟩ := t
  obtain rfl : file = some content := hcontent
  exact congrArg Except.ok (contains_iff.2 hlisted)

/-- Whatever becomes of it, `trust_peer` adds at most its own fingerprint to the file. -/
theorem holds_of_trustPeer (hf : IsFingerprint f) {t : TofuVerifier} {access : Access} {save : Save}
    {identity : PeerIdentity} (hid : IsFingerprint identity.fingerprint)
    (hhost : identity.hostname = "") (h : (t.trustPeer access save identity).1.Holds f) :
    t.Holds f ∨ f = identity.fingerprint := by
  unfold trustPeer at h
  cases hread : t.read access with
  | error e => rw [hread] at h; exact .inl h
  | ok old =>
    rw [hread] at h
    -- what was read is the file, or the header of a new one
    have hold : f.toList <:+: (old.getD header).toList → t.Holds f := by
      intro hlisted
      cases old with
      | none => exact absurd hlisted (not_infix_header hf)
      | some content =>
        refine ⟨content, ?_, hlisted⟩
        cases access with
        | ok => exact Except.ok.inj hread
        | hidden => cases hread
        | unreadable => cases hfile : t.knownPeers <;> simp [read, hfile] at hread
    have hnew : f.toList <:+: (old.getD header ++ entry identity).toList →
        t.Holds f ∨ f = identity.fingerprint := by
      intro hlisted
      rw [String.toList_append, infix_append_entry hf hid hhost] at hlisted
      exact hlisted.imp_left hold
    cases save with
    | refused => exact .inl h
    | ok => exact hnew ((holds_some _ f).1 h)
    | torn written =>
      have hlisted := (holds_some _ f).1 h
      rw [String.toList_ofList] at hlisted
      exact hnew (hlisted.trans (List.take_prefix _ _).isInfix)

/-- When nothing fails, the file holds what it held and the new fingerprint. -/
theorem holds_trustPeer_iff (hf : IsFingerprint f) (t : TofuVerifier) {identity : PeerIdentity}
    (hid : IsFingerprint identity.fingerprint) (hhost : identity.hostname = "") :
    (t.trustPeer .ok .ok identity).1.Holds f ↔ t.Holds f ∨ f = identity.fingerprint := by
  refine ⟨holds_of_trustPeer hf hid hhost, fun h ↦ ⟨_, rfl, ?_⟩⟩
  rw [String.toList_append, infix_append_entry hf hid hhost]
  refine h.imp_left fun ⟨content, hcontent, hlisted⟩ ↦ ?_
  obtain ⟨file⟩ := t
  obtain rfl : file = some content := hcontent
  exact hlisted

/-! ### When nothing fails -/

/-- A lookup that can read the file says what the file holds. -/
theorem isKnown_ok (t : TofuVerifier) (f : String) [Decidable (t.Holds f)] :
    t.isKnown .ok f = .ok (decide (t.Holds f)) := by
  by_cases h : t.Holds f
  · rw [isKnown_of_holds h, decide_eq_true h]
  · obtain ⟨file⟩ := t
    cases file with
    | none => rw [decide_eq_false h]; rfl
    | some content =>
      have hnot : contains content f = false :=
        eq_false_of_ne_true fun hlisted ↦ h ⟨content, rfl, contains_iff.1 hlisted⟩
      rw [decide_eq_false h, ← hnot]
      rfl

/-- The file after `trust_peer` has been called for each of the peers. -/
def trustAll (t : TofuVerifier) (identities : List PeerIdentity) : TofuVerifier :=
  identities.foldl (fun t identity ↦ (t.trustPeer .ok .ok identity).1) t

theorem holds_trustAll_iff (hf : IsFingerprint f) {identities : List PeerIdentity}
    (hids : ∀ identity ∈ identities, IsFingerprint identity.fingerprint ∧ identity.hostname = "")
    (t : TofuVerifier) :
    (t.trustAll identities).Holds f ↔
      t.Holds f ∨ ∃ identity ∈ identities, identity.fingerprint = f := by
  induction identities generalizing t with
  | nil => simp [trustAll]
  | cons identity identities ih =>
    obtain ⟨⟨hid, hhost⟩, hids⟩ := List.forall_mem_cons.1 hids
    have hfirst := holds_trustPeer_iff hf t hid hhost
    have hrest := ih hids (t.trustPeer .ok .ok identity).1
    rw [hfirst, or_assoc, eq_comm (a := f)] at hrest
    rw [List.exists_mem_cons_iff]
    exact hrest

/-- **The store answers exactly.** From no file on, with every file operation succeeding, a
fingerprint is known exactly when it has been trusted, whatever the order of the calls, their number
and the times they are made at. -/
theorem isKnown_trustAll (hf : IsFingerprint f) {identities : List PeerIdentity}
    (hids : ∀ identity ∈ identities,
      IsFingerprint identity.fingerprint ∧ identity.hostname = "") :
    (trustAll ⟨none⟩ identities).isKnown .ok f =
      .ok (decide (∃ identity ∈ identities, identity.fingerprint = f)) := by
  have hnone : ¬ Holds ⟨none⟩ f := by rintro ⟨_, hcontent, _⟩; cases hcontent
  have hiff := holds_trustAll_iff hf hids ⟨none⟩
  rw [or_iff_right hnone] at hiff
  have : Decidable ((trustAll ⟨none⟩ identities).Holds f) := decidable_of_iff _ hiff.symm
  rw [isKnown_ok]
  exact congrArg Except.ok (decide_eq_decide.2 hiff)

/-- The digest of one byte. -/
def sampleDigest : Vector UInt8 32 := .replicate 32 0xab

/-- A peer that was dialled, one that dialled in, and the first once more. -/
def samplePeers : List PeerIdentity :=
  [⟨fingerprintText sampleDigest, "", 1700000000⟩, ⟨"unknown", "", 0⟩,
    ⟨fingerprintText sampleDigest, "", 18446744073709551615⟩]

theorem isKnown_trustAll_samplePeers :
    (trustAll ⟨none⟩ samplePeers).isKnown .ok "unknown" =
      .ok (decide (∃ identity ∈ samplePeers, identity.fingerprint = "unknown")) :=
  isKnown_trustAll .unknown
    (List.forall_mem_cons.2 ⟨⟨.text _, rfl⟩, List.forall_mem_cons.2 ⟨⟨.unknown, rfl⟩,
      List.forall_mem_singleton.2 ⟨.text _, rfl⟩⟩⟩)

end TofuVerifier

end Kmflow
