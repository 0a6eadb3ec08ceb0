import Kmflow.Proto.Types
import Kmflow.Foundation.Transition

/-!
# One end of the clipboard synchronisation

`ClipboardManager::start_sync`: the poller, which reads the local clipboard and hands what is new to
the session, and the incoming task, which writes what the peer sent. The two share one atomic, the
hash of the text that needs no sending: the poller stores it when it sends, the incoming task stores
it before it writes.

One step is one access to something shared: the clipboard is read, the atomic is loaded, compared
and stored, the payload is sent; the atomic is stored, the clipboard is written. In between anything
may happen, and the local user may copy a text at any time.

Every user copy has a number, and a text on the clipboard remembers which copy put it there, or that
the incoming task did. The program sees the text alone. What the suppression is for, `NoEcho`, is a
statement about the numbers: what is sent is a user's copy, and no copy is sent twice. It holds as
long as the poller's pass and the incoming task's pass do not overlap around a change
(`noEcho_of_apart`), and nothing in the code keeps them apart.
-/

namespace Kmflow

open Transition

/-- `simple_hash`, and the value that the shared atomic starts with. -/
structure SimpleHash (η : Type) where
  zero : η
  hash : String → η

/-- A hash without collisions: the text itself. -/
def SimpleHash.perfect : SimpleHash (Option String) where
  zero := none
  hash := some

/-- The contents of the clipboard. -/
structure Clip where
  text : String
  /-- The user's copy that put it there; `none` when the incoming task did. -/
  copy : Option ℕ
  deriving DecidableEq

/-- Where the poller stands in its loop. -/
inductive PollPoint (η : Type) where
  /-- In `select!`, waiting for the interval to pass. -/
  | sleeping
  /-- `read_clipboard` has returned. -/
  | read (content : Clip)
  /-- The shared hash has been loaded. -/
  | loaded (content : Clip) (prev : η)
  /-- In `outgoing_tx.send`. -/
  | sending (content : Clip)
  | ended
  deriving DecidableEq

/-- Where the incoming task stands in its loop. -/
inductive IncomingPoint where
  | waiting
  /-- The hash of the text is stored, the clipboard not yet written. -/
  | writing (text : String)
  | ended
  deriving DecidableEq

/-- One end: its clipboard, the two tasks and what they share. -/
structure ClipboardSync (η : Type) where
  peerId : String
  clipboard : Clip
  sharedHash : η
  poller : PollPoint η
  incoming : IncomingPoint
  /-- What the user has put on the clipboard, oldest first. -/
  copies : List Clip
  /-- What the poller has handed to the outgoing channel, oldest first. -/
  sent : List Clip
  deriving DecidableEq

namespace ClipboardSync

variable {η : Type}

/-- The labels: who moves, and what the tools and channels answer. -/
inductive Label where
  | copy (text : String)
  /-- `read_clipboard`; when every tool fails it returns the empty text, not an error. -/
  | read (ok : Bool)
  | load
  /-- Compare, and store when there is something to send. -/
  | compare
  | sent (ok : Bool)
  | stopPoller
  /-- Take a payload from the incoming channel and store its hash. -/
  | receive (payload : ClipboardPayload)
  /-- `write_clipboard`. -/
  | write (ok : Bool)
  | stopIncoming
  deriving DecidableEq

/-- A session begins, with `text` on the clipboard. -/
def start (h : SimpleHash η) (peerId text : String) : ClipboardSync η where
  peerId := peerId
  clipboard := ⟨text, some 0⟩
  sharedHash := h.zero
  poller := .sleeping
  incoming := .waiting
  copies := [⟨text, some 0⟩]
  sent := []

/-- The payload a text is sent in. -/
def payload (s : ClipboardSync η) (c : Clip) : ClipboardPayload := ⟨s.peerId, .text c.text⟩

/-- The payloads handed to the outgoing channel, oldest first. -/
def payloads (s : ClipboardSync η) : List ClipboardPayload := s.sent.map s.payload

variable (h : SimpleHash η)

/-- One step; `none` when the label is not enabled. -/
def step [DecidableEq η] (s : ClipboardSync η) (l : Label) : Option (ClipboardSync η) :=
  match l, s.poller, s.incoming with
  | .copy text, _, _ =>
    let c : Clip := ⟨text, some s.copies.length⟩
    some { s with clipboard := c, copies := s.copies ++ [c] }
  | .read ok, .sleeping, _ =>
    some { s with poller := .read (if ok then s.clipboard else { s.clipboard with text := "" }) }
  | .load, .read content, _ => some { s with poller := .loaded content s.sharedHash }
  | .compare, .loaded content prev, _ =>
    if h.hash content.text ≠ prev ∧ content.text ≠ "" then
      some { s with sharedHash := h.hash content.text, poller := .sending content }
    else some { s with poller := .sleeping }
  | .sent true, .sending content, _ =>
    some { s with poller := .sleeping, sent := s.sent ++ [content] }
  | .sent false, .sending _, _ => some { s with poller := .ended }
  | .stopPoller, .sleeping, _ => some { s with poller := .ended }
  | .receive ⟨_, .text text⟩, _, .waiting =>
    -- pre-update the hash to suppress the echo
    some { s with sharedHash := h.hash text, incoming := .writing text }
  | .receive ⟨_, .image _ _⟩, _, .waiting | .receive ⟨_, .fileUri _⟩, _, .waiting => some s
  | .write ok, _, .writing text =>
    some { s with clipboard := if ok then ⟨text, none⟩ else s.clipboard, incoming := .waiting }
  | .stopIncoming, _, .waiting => some { s with incoming := .ended }
  | _, _, _ => none

/-! ### What must not be sent -/

/-- The text the poller is about to hand to the channel. -/
def inHand (s : ClipboardSync η) : List Clip :=
  match s.poller with
  | .sending content => [content]
  | _ => []

/-- A user's copy that has not been sent. -/
def Unsent (s : ClipboardSync η) (c : Clip) : Prop := c ∈ s.copies ∧ c ∉ s.sent ++ s.inHand

instance (s : ClipboardSync η) (c : Clip) : Decidable (s.Unsent c) :=
  inferInstanceAs (Decidable (_ ∧ _))

/-- What is sent was put on the clipboard by the local user, and no copy of his is sent twice. So
nothing that the incoming task wrote is sent, and no payload received makes the poller send. -/
structure NoEcho (s : ClipboardSync η) : Prop where
  own : ∀ c ∈ s.sent, c ∈ s.copies
  once : s.sent.Nodup

/-- The text the incoming task has announced in the shared hash and not yet written. -/
def announced? (s : ClipboardSync η) : Option String :=
  match s.incoming with
  | .writing text => some text
  | _ => none

/-- The history variable: since the poller read the clipboard, the incoming task has been between
its store and its write. -/
def recordOverlap (overlap : Bool) (s : ClipboardSync η) (l : Label) (_ : ClipboardSync η) : Bool :=
  match l with
  | .read _ => s.announced?.isSome
  | .receive ⟨_, .text _⟩ => true
  | _ => overlap

/-- The session, with the overlap recorded. -/
def overlapStep [DecidableEq η] :
    ClipboardSync η × Bool → Label → Option (ClipboardSync η × Bool) :=
  withHistory (step h) recordOverlap

/-- The passes stay apart. A pass of the poller that finds something to send does not overlap with
one of the incoming task; and a write that fails leaves a text on the clipboard that may be sent, or
that the announcement covers. -/
def Apart (so : ClipboardSync η × Bool) : Label → Prop
  | .compare =>
    match so.1.poller with
    | .loaded content prev =>
      h.hash content.text ≠ prev → content.text ≠ "" → so.2 = false
    | _ => True
  | .write false =>
    so.1.Unsent so.1.clipboard ∨ so.1.clipboard.text = "" ∨
      so.1.announced? = some so.1.clipboard.text
  | _ => True

instance [DecidableEq η] (so : ClipboardSync η × Bool) : DecidablePred (Apart h so)
  | .compare => by
    unfold Apart
    cases so.1.poller <;> infer_instance
  | .write false => inferInstanceAs (Decidable (_ ∨ _ ∨ _))
  | .copy _ | .read _ | .load | .sent _ | .stopPoller | .receive _ | .write true | .stopIncoming =>
    instDecidableTrue

/-! ### One step -/

/-- **Everything a step can do**, with the state it leads to. -/
inductive Move (s : ClipboardSync η) : Label → ClipboardSync η → Prop
  | copy (text : String) : Move s (.copy text)
    { s with
      clipboard := ⟨text, some s.copies.length⟩
      copies := s.copies ++ [⟨text, some s.copies.length⟩] }
  | read (content : Clip) (ok : Bool) (hpoller : s.poller = .sleeping)
      (hcontent : content = s.clipboard ∨ content.text = "") :
    Move s (.read ok) { s with poller := .read content }
  | load (content : Clip) (hpoller : s.poller = .read content) :
    Move s .load { s with poller := .loaded content s.sharedHash }
  | change (content : Clip) (prev : η) (hpoller : s.poller = .loaded content prev)
      (hhash : h.hash content.text ≠ prev) (htext : content.text ≠ "") :
    Move s .compare { s with sharedHash := h.hash content.text, poller := .sending content }
  | same (content : Clip) (prev : η) (hpoller : s.poller = .loaded content prev) :
    Move s .compare { s with poller := .sleeping }
  | sent (content : Clip) (hpoller : s.poller = .sending content) :
    Move s (.sent true) { s with poller := .sleeping, sent := s.sent ++ [content] }
  | unsent (content : Clip) (hpoller : s.poller = .sending content) :
    Move s (.sent false) { s with poller := .ended }
  | stopPoller (hpoller : s.poller = .sleeping) : Move s .stopPoller { s with poller := .ended }
  | announce (origin text : String) (hincoming : s.incoming = .waiting) :
    Move s (.receive ⟨origin, .text text⟩)
      { s with sharedHash := h.hash text, incoming := .writing text }
  | ignore (payload : ClipboardPayload) (hcontent : ∀ text, payload.content ≠ .text text) :
    Move s (.receive payload) s
  | write (text : String) (hincoming : s.incoming = .writing text) :
    Move s (.write true) { s with clipboard := ⟨text, none⟩, incoming := .waiting }
  | failWrite (text : String) (hincoming : s.incoming = .writing text) :
    Move s (.write false) { s with incoming := .waiting }
  | stopIncoming (hincoming : s.incoming = .waiting) :
    Move s .stopIncoming { s with incoming := .ended }

/-- **A step is one of the moves.** -/
theorem move_of_step [DecidableEq η] {s s' : ClipboardSync η} {l : Label} (hs' : s' ∈ step h s l) :
    Move h s l s' := by
  unfold step at hs'
  split at hs'
  case h_1 text => obtain rfl := Option.some.inj hs'; exact .copy text
  case h_2 ok hpoller =>
    obtain rfl := Option.some.inj hs'
    refine .read _ ok hpoller ?_
    cases ok
    · exact .inr rfl
    · exact .inl rfl
  case h_3 content hpoller => obtain rfl := Option.some.inj hs'; exact .load content hpoller
  case h_4 content prev hpoller =>
    split_ifs at hs' with hchange
    · obtain rfl := Option.some.inj hs'
      exact .change content prev hpoller hchange.1 hchange.2
    · obtain rfl := Option.some.inj hs'
      exact .same content prev hpoller
  case h_5 content hpoller => obtain rfl := Option.some.inj hs'; exact .sent content hpoller
  case h_6 content hpoller => obtain rfl := Option.some.inj hs'; exact .unsent content hpoller
  case h_7 hpoller => obtain rfl := Option.some.inj hs'; exact .stopPoller hpoller
  case h_8 origin text hincoming =>
    obtain rfl := Option.some.inj hs'
    exact .announce origin text hincoming
  case h_9 => obtain rfl := Option.some.inj hs'; exact .ignore _ nofun
  case h_10 => obtain rfl := Option.some.inj hs'; exact .ignore _ nofun
  case h_11 ok text hincoming =>
    obtain rfl := Option.some.inj hs'
    cases ok
    · exact .failWrite text hincoming
    · exact .write text hincoming
  case h_12 hincoming => obtain rfl := Option.some.inj hs'; exact .stopIncoming hincoming
  case h_13 => cases hs'

/-! ### The invariant -/

/-- Polling this text sends nothing that must not be sent. -/
def Suppressed (s : ClipboardSync η) (c : Clip) : Prop :=
  s.Unsent c ∨ c.text = "" ∨ s.sharedHash = h.hash c.text

/-- A text the poller holds may be sent, and once it is, so may what is on the clipboard by then:
the same text, or a later copy. -/
structure Held (s : ClipboardSync η) (c : Clip) : Prop where
  settled : s.announced? = none
  suppressed : s.Suppressed h c
  clipboard : c.text = "" ∨ s.clipboard = c ∨ s.Unsent s.clipboard

/-- The invariant of the runs whose passes stay apart. -/
structure Inv (so : ClipboardSync η × Bool) : Prop where
  numbered : ∀ c ∈ so.1.copies, ∃ n < so.1.copies.length, c.copy = some n
  own : ∀ c ∈ so.1.sent ++ so.1.inHand, c ∈ so.1.copies
  once : (so.1.sent ++ so.1.inHand).Nodup
  clipboard : so.1.announced? = none → so.1.Suppressed h so.1.clipboard
  announced : ∀ text, so.1.announced? = some text → so.1.sharedHash = h.hash text
  read : ∀ c, so.1.poller = .read c → so.2 = false → so.1.Held h c
  loaded : ∀ c prev, so.1.poller = .loaded c prev → so.2 = false →
    so.1.Held h c ∧ prev = so.1.sharedHash

variable {h} {so : ClipboardSync η × Bool}

/-- The invariant says that there is no echo. -/
theorem Inv.noEcho (hinv : Inv h so) : so.1.NoEcho where
  own c hc := hinv.own c (List.mem_append_left _ hc)
  once := hinv.once.sublist (List.sublist_append_left _ _)

/-- A new copy has not been sent. -/
theorem Inv.newCopy_not_mem (hinv : Inv h so) (text : String) :
    ⟨text, some so.1.copies.length⟩ ∉ so.1.sent ++ so.1.inHand := by
  intro hmem
  obtain ⟨n, hn, hcopy⟩ := hinv.numbered _ (hinv.own _ hmem)
  exact absurd hn (Nat.lt_irrefl _ ∘ (Option.some.inj hcopy ▸ ·))

/-- Fewer texts sent, more copies, the same hash: what was suppressed still is. -/
theorem Unsent.mono {s s' : ClipboardSync η} (hcopies : s.copies ⊆ s'.copies)
    (hsent : s'.sent ++ s'.inHand ⊆ s.sent ++ s.inHand) {c : Clip} (hc : s.Unsent c) :
    s'.Unsent c :=
  ⟨hcopies hc.1, fun hmem ↦ hc.2 (hsent hmem)⟩

/-- As long as the shared hash stays, what need not be sent need not be sent later. -/
theorem Suppressed.mono {s s' : ClipboardSync η} (hhash : s'.sharedHash = s.sharedHash)
    (hcopies : s.copies ⊆ s'.copies) (hsent : s'.sent ++ s'.inHand ⊆ s.sent ++ s.inHand)
    {c : Clip} (hc : s.Suppressed h c) : s'.Suppressed h c :=
  hc.imp (Unsent.mono hcopies hsent) (Or.imp_right (hhash.trans ·))

/-- As long as hash, announcement and clipboard stay, what the poller holds may be sent later. -/
theorem Held.mono {s s' : ClipboardSync η} (hhash : s'.sharedHash = s.sharedHash)
    (hannounced : s'.announced? = s.announced?) (hclipboard : s'.clipboard = s.clipboard)
    (hcopies : s.copies ⊆ s'.copies) (hsent : s'.sent ++ s'.inHand ⊆ s.sent ++ s.inHand)
    {c : Clip} (hc : s.Held h c) : s'.Held h c where
  settled := hannounced.trans hc.settled
  suppressed := hc.suppressed.mono hhash hcopies hsent
  clipboard := hclipboard ▸ hc.clipboard.imp_right (Or.imp_right (Unsent.mono hcopies hsent))

/-- A move that leaves the clipboard, the copies, the shared hash and the announcement, and adds
nothing to what was sent. -/
theorem Inv.of_quiet {s s' : ClipboardSync η} {overlap overlap' : Bool} (hinv : Inv h (s, overlap))
    (hhash : s'.sharedHash = s.sharedHash) (hannounced : s'.announced? = s.announced?)
    (hclipboard : s'.clipboard = s.clipboard) (hcopies : s'.copies = s.copies)
    (hsent : List.Sublist (s'.sent ++ s'.inHand) (s.sent ++ s.inHand))
    (hread : ∀ c, s'.poller = .read c → overlap' = false → s.Held h c)
    (hloaded : ∀ c prev, s'.poller = .loaded c prev → overlap' = false →
      s.Held h c ∧ prev = s.sharedHash) : Inv h (s', overlap') := by
  have hsub : s.copies ⊆ s'.copies := hcopies ▸ List.Subset.refl _
  refine ⟨hcopies ▸ hinv.numbered, fun c hc ↦ hsub (hinv.own c (hsent.subset hc)),
    hinv.once.sublist hsent, fun hnone ↦ ?_, fun text htext ↦ ?_, fun c hpoller hoverlap ↦ ?_,
    fun c prev hpoller hoverlap ↦ ?_⟩
  · rw [hclipboard]
    exact (hinv.clipboard (hannounced.symm.trans hnone)).mono hhash hsub hsent.subset
  · exact hhash.trans (hinv.announced text (hannounced.symm.trans htext))
  · exact (hread c hpoller hoverlap).mono hhash hannounced hclipboard hsub hsent.subset
  · obtain ⟨hheld, hprev⟩ := hloaded c prev hpoller hoverlap
    exact ⟨hheld.mono hhash hannounced hclipboard hsub hsent.subset, hprev.trans hhash.symm⟩

section Cases

variable {s : ClipboardSync η} {overlap : Bool}

/-! #### The user -/

/-- The user copies a text. -/
def copied (s : ClipboardSync η) (text : String) : ClipboardSync η :=
  { s with
    clipboard := ⟨text, some s.copies.length⟩
    copies := s.copies ++ [⟨text, some s.copies.length⟩] }

theorem copies_subset_copied (text : String) : s.copies ⊆ (s.copied text).copies :=
  List.subset_append_left _ _

/-- The new copy may be sent. -/
theorem Inv.unsent_copied (hinv : Inv h (s, overlap)) (text : String) :
    (s.copied text).Unsent (s.copied text).clipboard :=
  ⟨List.mem_append_right _ (List.mem_singleton_self _), hinv.newCopy_not_mem text⟩

/-- A text the poller holds may still be sent, and then the new copy. -/
theorem Inv.held_copied (hinv : Inv h (s, overlap)) (text : String) {c : Clip}
    (hheld : s.Held h c) : (s.copied text).Held h c where
  settled := hheld.settled
  suppressed := by
    refine hheld.suppressed.mono ?_ (copies_subset_copied text) ?_
    · rfl
    · exact List.Subset.refl _
  clipboard := .inr (.inr (hinv.unsent_copied text))

/-- The user's copies do no harm. -/
theorem Inv.copied (hinv : Inv h (s, overlap)) (text : String) :
    Inv h (s.copied text, overlap) := by
  refine ⟨fun c hc ↦ ?_, fun c hc ↦ copies_subset_copied text (hinv.own c hc), hinv.once,
    fun _ ↦ .inl (hinv.unsent_copied text), hinv.announced, fun c hpoller hoverlap ↦ ?_,
    fun c prev hpoller hoverlap ↦ ?_⟩
  · have hlength : (s.copied text).copies.length = s.copies.length + 1 := List.length_append
    rw [hlength]
    rcases List.mem_append.1 hc with hc | hc
    · obtain ⟨n, hn, hcopy⟩ := hinv.numbered c hc
      exact ⟨n, Nat.lt_succ_of_lt hn, hcopy⟩
    · rw [List.mem_singleton] at hc
      exact ⟨s.copies.length, Nat.lt_succ_self _, hc ▸ rfl⟩
  · exact hinv.held_copied text (hinv.read c hpoller hoverlap)
  · obtain ⟨hheld, hprev⟩ := hinv.loaded c prev hpoller hoverlap
    exact ⟨hinv.held_copied text hheld, hprev⟩

/-! #### The poller -/

/-- Where the poller has nothing in hand, it goes on to where it has nothing in hand either. -/
theorem sublist_of_inHand {s' : ClipboardSync η} (hsent : s'.sent = s.sent)
    (hhand : s'.inHand = []) : List.Sublist (s'.sent ++ s'.inHand) (s.sent ++ s.inHand) := by
  rw [hsent, hhand]
  exact (List.nil_sublist _).append_left _

/-- The clipboard is read. What was read is what is there, as long as no write was announced. -/
theorem Inv.pollRead (hinv : Inv h (s, overlap)) {content : Clip}
    (hcontent : content = s.clipboard ∨ content.text = "") :
    Inv h ({ s with poller := .read content }, s.announced?.isSome) := by
  refine hinv.of_quiet rfl rfl rfl rfl (sublist_of_inHand rfl rfl) (fun c hc hoverlap ↦ ?_) nofun
  obtain rfl := PollPoint.read.inj hc
  have hnone : s.announced? = none := by simpa using hoverlap
  rcases hcontent with hcontent | hempty
  · exact ⟨hnone, hcontent ▸ hinv.clipboard hnone, .inr (.inl hcontent.symm)⟩
  · exact ⟨hnone, .inr (.inl hempty), .inl hempty⟩

/-- The hash is loaded. -/
theorem Inv.pollLoad (hinv : Inv h (s, overlap)) {content : Clip}
    (hpoller : s.poller = .read content) :
    Inv h ({ s with poller := .loaded content s.sharedHash }, overlap) := by
  refine hinv.of_quiet rfl rfl rfl rfl (sublist_of_inHand rfl rfl) nofun fun c prev hc hoverlap ↦ ?_
  obtain ⟨rfl, rfl⟩ := PollPoint.loaded.inj hc
  exact ⟨hinv.read content hpoller hoverlap, rfl⟩

/-- A text that is not suppressed by its hash has not been sent. -/
theorem Held.unsent {content : Clip} (hheld : s.Held h content)
    (hhash : h.hash content.text ≠ s.sharedHash) (htext : content.text ≠ "") :
    s.Unsent content := by
  rcases hheld.suppressed with hunsent | hempty | hsame
  · exact hunsent
  · exact absurd hempty htext
  · exact absurd hsame.symm hhash

/-- A change is found, and its hash stored. -/
theorem Inv.pollChange (hinv : Inv h (s, overlap)) {content : Clip} (hhand : s.inHand = [])
    (hheld : s.Held h content) (hhash : h.hash content.text ≠ s.sharedHash)
    (htext : content.text ≠ "") :
    Inv h ({ s with sharedHash := h.hash content.text, poller := .sending content }, overlap) := by
  have hunsent : content ∈ s.copies ∧ content ∉ s.sent := by
    have hunsent := hheld.unsent hhash htext
    rwa [Unsent, hhand, List.append_nil] at hunsent
  have hown := hinv.own
  have honce := hinv.once
  rw [hhand, List.append_nil] at hown honce
  refine ⟨hinv.numbered, fun c hc ↦ ?_, ?_, fun _ ↦ ?_, fun text hannounced ↦ ?_, nofun, nofun⟩
  · rcases List.mem_append.1 hc with hc | hc
    · exact hown c hc
    · exact List.mem_singleton.1 hc ▸ hunsent.1
  · exact List.nodup_append.2 ⟨honce, List.nodup_singleton _, fun c hc c' hc' heq ↦
      hunsent.2 (List.mem_singleton.1 hc' ▸ heq ▸ hc)⟩
  · -- on the clipboard is the text just sent, or a later copy of the user
    by_cases hsame : s.clipboard = content
    · exact .inr (.inr (congrArg (fun c ↦ h.hash c.text) hsame).symm)
    · rcases hheld.clipboard with hempty | heq | ⟨hcopy, hnew⟩
      · exact absurd hempty htext
      · exact absurd heq hsame
      · refine .inl ⟨hcopy, fun hmem ↦ ?_⟩
        rw [hhand, List.append_nil] at hnew
        rcases List.mem_append.1 hmem with hmem | hmem
        · exact hnew hmem
        · exact hsame (List.mem_singleton.1 hmem)
  · exact absurd (hheld.settled.symm.trans hannounced) nofun

/-- What the poller has in hand is handed over. -/
theorem Inv.pollSent (hinv : Inv h (s, overlap)) {content : Clip}
    (hpoller : s.poller = .sending content) :
    Inv h ({ s with poller := .sleeping, sent := s.sent ++ [content] }, overlap) := by
  have hhand : s.inHand = [content] := by rw [inHand, hpoller]
  refine hinv.of_quiet rfl rfl rfl rfl ?_ nofun nofun
  show List.Sublist (s.sent ++ [content] ++ []) _
  rw [hhand, List.append_nil]

/-- The poller gives up what it has in hand, or has nothing. -/
theorem Inv.pollIdle (hinv : Inv h (s, overlap)) {poller : PollPoint η}
    (hpoller : poller = .sleeping ∨ poller = .ended) :
    Inv h ({ s with poller := poller }, overlap) := by
  rcases hpoller with rfl | rfl
  all_goals exact hinv.of_quiet rfl rfl rfl rfl (sublist_of_inHand rfl rfl) nofun nofun

/-! #### The incoming task -/

/-- A text is announced, which the passes must not overlap with. -/
theorem Inv.announce (hinv : Inv h (s, overlap)) (text : String) :
    Inv h ({ s with sharedHash := h.hash text, incoming := .writing text }, true) := by
  refine ⟨hinv.numbered, hinv.own, hinv.once, nofun, fun text' htext ↦ ?_,
    fun _ _ hoverlap ↦ (by cases hoverlap), fun _ _ _ hoverlap ↦ (by cases hoverlap)⟩
  obtain rfl := Option.some.inj htext
  rfl

/-- The announced text is written, or what was there stays; no pass of the poller is under way that
has not seen the announcement. -/
theorem Inv.written (hinv : Inv h (s, overlap)) {text : String}
    (hincoming : s.incoming = .writing text) {clipboard : Clip}
    (hsuppressed : s.Suppressed h clipboard) :
    Inv h ({ s with clipboard := clipboard, incoming := .waiting }, overlap) := by
  have hannounced : s.announced? = some text := by rw [announced?, hincoming]
  refine ⟨hinv.numbered, hinv.own, hinv.once, fun _ ↦ hsuppressed, nofun,
    fun c hpoller hoverlap ↦ ?_, fun c prev hpoller hoverlap ↦ ?_⟩
  · exact absurd (hannounced.symm.trans (hinv.read c hpoller hoverlap).settled) nofun
  · exact absurd (hannounced.symm.trans (hinv.loaded c prev hpoller hoverlap).1.settled) nofun

end Cases

/-- **Passes that stay apart keep the invariant.** -/
theorem inv_step [DecidableEq η] {so' : ClipboardSync η × Bool} {l : Label} (hinv : Inv h so)
    (hapart : Apart h so l) (hso' : so' ∈ overlapStep h so l) : Inv h so' := by
  obtain ⟨s, overlap⟩ := so
  obtain ⟨s', overlap'⟩ := so'
  obtain ⟨hs', hoverlap⟩ := mem_withHistory.1 hso'
  dsimp only at hs' hoverlap
  subst hoverlap
  cases move_of_step h hs' with
  | copy text => exact hinv.copied text
  | read content ok _ hcontent => exact hinv.pollRead hcontent
  | load content hpoller => exact hinv.pollLoad hpoller
  | change content prev hpoller hhash htext =>
    have hoverlap : overlap = false := by
      have hcompare : Apart h (s, overlap) .compare := hapart
      rw [Apart, hpoller] at hcompare
      exact hcompare hhash htext
    obtain ⟨hheld, rfl⟩ := hinv.loaded content prev hpoller hoverlap
    exact hinv.pollChange (by rw [inHand, hpoller]) hheld hhash htext
  | same => exact hinv.pollIdle (.inl rfl)
  | sent content hpoller => exact hinv.pollSent hpoller
  | unsent | stopPoller => exact hinv.pollIdle (.inr rfl)
  | announce origin text => exact hinv.announce text
  | ignore payload hcontent =>
    have hoverlap : recordOverlap overlap s (.receive payload) s = overlap := by
      obtain ⟨origin, content⟩ := payload
      match content with
      | .text text => exact absurd rfl (hcontent text)
      | .image _ _ | .fileUri _ => rfl
    rw [hoverlap]
    exact hinv
  | write text hincoming =>
    have hannounced : s.announced? = some text := by rw [announced?, hincoming]
    exact hinv.written hincoming (.inr (.inr (hinv.announced text hannounced)))
  | failWrite text hincoming =>
    refine hinv.written hincoming ?_
    rcases hapart with hunsent | hempty | hsame
    · exact .inl hunsent
    · exact .inr (.inl hempty)
    · exact .inr (.inr (hinv.announced _ hsame))
  | stopIncoming hincoming =>
    have hannounced : s.announced? = none := by rw [announced?, hincoming]
    exact hinv.of_quiet rfl hannounced.symm rfl rfl (.refl _) hinv.read hinv.loaded

/-- A session begins with nothing sent and nothing announced. -/
theorem inv_start (h : SimpleHash η) (peerId text : String) :
    Inv h (start h peerId text, false) where
  numbered _ hc := ⟨0, Nat.one_pos, List.mem_singleton.1 hc ▸ rfl⟩
  own := nofun
  once := List.nodup_nil
  clipboard _ := .inl ⟨List.mem_singleton_self _, List.not_mem_nil⟩
  announced := nofun
  read := nofun
  loaded := nofun

/-- **No echo while the passes stay apart.** For every hash, collisions or not, every text that is
on the clipboard when the session begins and every interleaving: as long as no pass of the poller
that finds a change overlaps with a pass of the incoming task, and no failed write leaves a text
that must not be sent, what is sent is the user's own, and no copy is sent twice. -/
theorem noEcho_of_apart [DecidableEq η] (h : SimpleHash η) (peerId text : String) {ls : List Label}
    (hls : EachStep (overlapStep h) (Apart h) (start h peerId text, false) ls) :
    Throughout (step h) NoEcho (start h peerId text) ls := by
  rw [← throughout_withHistory recordOverlap false]
  have hinv : Throughout (overlapStep h) (Inv h) (start h peerId text, false) ls :=
    throughout_of_guarded (fun _ _ hinv hapart _ hso' ↦ inv_step hinv hapart hso')
      (inv_start h peerId text) hls
  exact hinv.mono fun _ hinv ↦ hinv.noEcho

/-- A text is sent, the peer's answer is written, and the user copies something else. -/
def answeredRun : List Label :=
  [.read true, .load, .compare, .sent true, .receive ⟨"desk", .text "b"⟩, .write true, .read true,
    .load, .compare, .copy "c", .read true, .load, .compare, .sent true]

/-- Passes that come one after the other make no echo. -/
theorem noEcho_of_apart_answeredRun :
    Throughout (step .perfect) NoEcho (start .perfect "lap" "a") answeredRun :=
  noEcho_of_apart .perfect "lap" "a" (by decide +kernel)

/-- The peer's payload arrives just after the poller has read the clipboard. -/
def overtakenRun : List Label :=
  [.read true, .load, .compare, .sent true, .read true, .receive ⟨"desk", .text "b"⟩, .load,
    .compare, .sent true, .write true, .read true, .load, .compare, .sent true]

/-- The poller sends the old text again, and then the peer's text back. -/
theorem not_noEcho_overtakenRun :
    ¬ Throughout (step .perfect) NoEcho (start .perfect "lap" "a") overtakenRun := by
  have hsent : (run (step .perfect) (start .perfect "lap" "a") overtakenRun).map sent =
      some [⟨"a", some 0⟩, ⟨"a", some 0⟩, ⟨"b", none⟩] := by
    decide +kernel
  obtain ⟨t, ht, hsent⟩ := Option.map_eq_some_iff.1 hsent
  refine not_throughout_of_run ht fun hecho ↦ ?_
  have honce := hecho.once
  rw [hsent] at honce
  exact absurd honce (by decide)

end ClipboardSync

end Kmflow
