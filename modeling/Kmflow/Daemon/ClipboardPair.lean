import Kmflow.Daemon.Clipboard
import Kmflow.Foundation.Exchange

/-!
# Two daemons and the clipboard

Two ends of the clipboard synchronisation (`ClipboardSync`), joined by payloads that arrive in order
in each direction. A poll and the arrival of a payload are one step each, and every access to a
clipboard succeeds; the two users copy what they like, when they like.

The shared hash of each end is the hash of the text that end last sent or received. So the pair is
two parties that take over each other's value (`Exchange`), the value being the shared hash: a poll
that finds a change announces it, a payload that arrives is taken over. When both pollers have seen
their clipboard the two values are those of the two texts.

So the clipboards come to agree as long as no poll sends a text while another text is on its way to
its own end (`agree_of_uncrossed`). Two texts that cross are swapped, and suppressed on both sides,
for good (`exists_not_agree`): nothing orders them.
-/

namespace Kmflow

open Transition Handover

/-! ### One end, in atomic steps -/

namespace ClipboardSync

variable {η : Type} [DecidableEq η] (h : SimpleHash η)

/-- One pass of the poller. -/
def poll (s : ClipboardSync η) : Option (ClipboardSync η) :=
  (run (step h) s [.read true, .load, .compare]).bind fun t ↦
    match t.poller with
    | .sending _ => step h t (.sent true)
    | _ => some t

/-- One pass of the incoming task. -/
def accept (s : ClipboardSync η) (payload : ClipboardPayload) : Option (ClipboardSync η) :=
  (step h s (.receive payload)).bind fun t ↦
    match t.incoming with
    | .writing _ => step h t (.write true)
    | _ => some t

/-- Both tasks are between two passes. -/
structure Resting (s : ClipboardSync η) : Prop where
  poller : s.poller = .sleeping
  incoming : s.incoming = .waiting

/-- A poll would send what is on the clipboard. -/
def Sends (s : ClipboardSync η) : Prop :=
  h.hash s.clipboard.text ≠ s.sharedHash ∧ s.clipboard.text ≠ ""

instance (s : ClipboardSync η) : Decidable (s.Sends h) := inferInstanceAs (Decidable (_ ∧ _))

/-- A text from the peer, announced in the shared hash and written. -/
def accepted (s : ClipboardSync η) (text : String) : ClipboardSync η :=
  { s with clipboard := ⟨text, none⟩, sharedHash := h.hash text }

variable {h} {s : ClipboardSync η}

/-- A poll that finds a change sends it. -/
theorem poll_of_sends (hs : s.Resting) (hsends : s.Sends h) :
    s.poll h = some { s with
      sharedHash := h.hash s.clipboard.text
      sent := s.sent ++ [s.clipboard] } := by
  obtain ⟨peerId, clipboard, sharedHash, poller, incoming, copies, sent⟩ := s
  obtain ⟨rfl, rfl⟩ := hs
  simp only [Sends] at hsends
  simp [poll, run, step, hsends]

/-- A poll that finds none changes nothing. -/
theorem poll_of_not_sends (hs : s.Resting) (hsends : ¬ s.Sends h) : s.poll h = some s := by
  obtain ⟨peerId, clipboard, sharedHash, poller, incoming, copies, sent⟩ := s
  obtain ⟨rfl, rfl⟩ := hs
  simp only [Sends] at hsends
  simp [poll, run, step, hsends]

/-- A text from the peer is announced and written. -/
theorem accept_text (hs : s.Resting) (origin text : String) :
    s.accept h ⟨origin, .text text⟩ = some (s.accepted h text) := by
  obtain ⟨peerId, clipboard, sharedHash, poller, incoming, copies, sent⟩ := s
  obtain ⟨rfl, rfl⟩ := hs
  simp [accept, step, accepted]

end ClipboardSync

/-! ### The pair -/

/-- The two ends, and the payloads queued or in flight towards each, oldest first. -/
structure ClipboardPair (η : Type) where
  daemon : Side → ClipboardSync η
  inFlight : Side → List ClipboardPayload
  /-- The poller has run since its clipboard last changed. -/
  polled : Side → Bool

namespace ClipboardPair

variable {η : Type}

/-- The labels of the two ends. -/
inductive Label where
  /-- A user copies a text. -/
  | copy (x : Side) (text : String)
  | poll (x : Side)
  /-- The oldest payload on its way to one end is written to the clipboard. -/
  | deliver (x : Side)
  deriving DecidableEq

/-- Two sessions begin, with any texts on the two clipboards. -/
def start (h : SimpleHash η) (peerId text : Side → String) : ClipboardPair η where
  daemon x := .start h (peerId x) (text x)
  inFlight _ := []
  polled _ := false

/-- One end moves on, with what is on its way to it as given; what it sends is queued for the other
end. -/
def advance (p : ClipboardPair η) (x : Side) (s : ClipboardSync η)
    (inFlight : List ClipboardPayload) (polled : Bool) : ClipboardPair η where
  daemon := Function.update p.daemon x s
  inFlight := Function.update (Function.update p.inFlight x inFlight) x.other
    (p.inFlight x.other ++ s.payloads.drop (p.daemon x).payloads.length)
  polled := Function.update p.polled x
    (decide (s.clipboard.text = (p.daemon x).clipboard.text) && (polled || p.polled x))

/-- One step of the pair; `none` when the label is not enabled. -/
def step [DecidableEq η] (h : SimpleHash η) (p : ClipboardPair η) :
    Label → Option (ClipboardPair η)
  | .copy x text =>
    (ClipboardSync.step h (p.daemon x) (.copy text)).map fun s ↦
      p.advance x s (p.inFlight x) false
  | .poll x => ((p.daemon x).poll h).map fun s ↦ p.advance x s (p.inFlight x) true
  | .deliver x =>
    match p.inFlight x with
    | [] => none
    | payload :: inFlight =>
      ((p.daemon x).accept h payload).map fun s ↦ p.advance x s inFlight false

/-- Nothing is on its way, and both pollers have seen what is on their clipboard. -/
def Quiet (p : ClipboardPair η) : Prop := ∀ x, p.inFlight x = [] ∧ p.polled x = true

/-- When the pair is quiet and neither clipboard is empty, they hold the same text. -/
def Agree (p : ClipboardPair η) : Prop :=
  p.Quiet → (∀ x, (p.daemon x).clipboard.text ≠ "") →
    (p.daemon .left).clipboard.text = (p.daemon .right).clipboard.text

/-- A poll that sends a text finds no other text last on its way to its own end. -/
def Uncrossed [DecidableEq η] (h : SimpleHash η) (p : ClipboardPair η) : Label → Prop
  | .poll x => (p.daemon x).Sends h →
    ∀ payload ∈ (p.inFlight x).getLast?, payload.content = .text (p.daemon x).clipboard.text
  | _ => True

instance [DecidableEq η] (h : SimpleHash η) (p : ClipboardPair η) : DecidablePred (Uncrossed h p)
  | .poll _ => inferInstanceAs (Decidable (_ → _))
  | .copy _ _ | .deliver _ => instDecidableTrue

/-! ### The pair as an exchange of values -/

/-- The text a payload carries. -/
def text? (payload : ClipboardPayload) : Option String :=
  match payload.content with
  | .text text => some text
  | _ => none

/-- The hashes of the texts some payloads carry. -/
def hashes (h : SimpleHash η) (payloads : List ClipboardPayload) : List η :=
  payloads.filterMap fun payload ↦ (text? payload).map h.hash

/-- The values that the two ends hold and send each other: the hashes. -/
def exchange (h : SimpleHash η) (p : ClipboardPair η) : Exchange.State η where
  value x := (p.daemon x).sharedHash
  inbox x := hashes h (p.inFlight x)

/-- What every run keeps, whatever crosses. -/
structure Regular (h : SimpleHash η) (p : ClipboardPair η) : Prop where
  resting : ∀ x, (p.daemon x).Resting
  texts : ∀ x, ∀ payload ∈ p.inFlight x, ∃ text, payload.content = .text text ∧ text ≠ ""
  polled : ∀ x, p.polled x = true →
    (p.daemon x).clipboard.text = "" ∨ (p.daemon x).sharedHash = h.hash (p.daemon x).clipboard.text

/-- At the start both tasks of both ends are between two passes. -/
theorem regular_start (h : SimpleHash η) (peerId text : Side → String) :
    Regular h (start h peerId text) :=
  ⟨fun _ ↦ ⟨rfl, rfl⟩, nofun, nofun⟩

section Moves

variable {h : SimpleHash η} {p : ClipboardPair η} {x : Side} {s : ClipboardSync η}

@[simp] theorem advance_daemon_self (inFlight : List ClipboardPayload) (polled : Bool) :
    (p.advance x s inFlight polled).daemon x = s := Function.update_self ..

@[simp] theorem advance_daemon_other (inFlight : List ClipboardPayload) (polled : Bool) :
    (p.advance x s inFlight polled).daemon x.other = p.daemon x.other :=
  Function.update_of_ne (Side.other_ne x) ..

/-- A move that sends nothing leaves the other inbox. -/
theorem advance_inFlight_of_quiet (inFlight : List ClipboardPayload) (polled : Bool)
    (hsent : s.payloads = (p.daemon x).payloads) :
    (p.advance x s inFlight polled).inFlight = Function.update p.inFlight x inFlight := by
  rw [advance, hsent, List.drop_length, List.append_nil]
  funext y
  rcases Side.eq_or_eq_other x y with rfl | rfl
  · exact Function.update_of_ne (Side.other_ne y).symm ..
  · show Function.update _ x.other _ x.other = _
    rw [Function.update_self, Function.update_of_ne (Side.other_ne x)]

/-- A move that sends nothing sets the value, and leaves the inbox as given. -/
theorem exchange_of_quiet (inFlight : List ClipboardPayload) (polled : Bool)
    (hsent : s.payloads = (p.daemon x).payloads) :
    (p.advance x s inFlight polled).exchange h =
      (p.exchange h).receive x s.sharedHash (hashes h inFlight) := by
  rw [exchange, advance_inFlight_of_quiet inFlight polled hsent]
  simp only [exchange, Exchange.State.receive, Exchange.State.mk.injEq]
  refine ⟨?_, ?_⟩
  · funext y
    rcases Side.eq_or_eq_other x y with rfl | rfl
    · simp
    · simp [Function.update_of_ne (Side.other_ne x)]
  · funext y
    rcases Side.eq_or_eq_other x y with rfl | rfl
    · rw [Function.update_self, Function.update_self]
    · rw [Function.update_of_ne (Side.other_ne x), Function.update_of_ne (Side.other_ne x)]

/-- A poll that finds a change announces the hash of what it sends. -/
theorem exchange_of_sends (polled : Bool) (payload : ClipboardPayload) {text : String}
    (hsent : s.payloads = (p.daemon x).payloads ++ [payload]) (htext : text? payload = some text)
    (hhash : s.sharedHash = h.hash text) :
    (p.advance x s (p.inFlight x) polled).exchange h = (p.exchange h).announce x (h.hash text) := by
  simp only [exchange, Exchange.State.announce, Exchange.State.mk.injEq]
  refine ⟨?_, ?_⟩
  · funext y
    rcases Side.eq_or_eq_other x y with rfl | rfl
    · simp [hhash]
    · simp [Function.update_of_ne (Side.other_ne x)]
  · funext y
    rw [advance, hsent, List.drop_left]
    rcases Side.eq_or_eq_other x y with rfl | rfl
    · simp [Function.update_of_ne (Side.other_ne y).symm]
    · simp [hashes, htext]

/-- One end's move keeps the pair regular, if it leaves that end so. -/
theorem Regular.advance (hp : Regular h p) {inFlight : List ClipboardPayload} {polled : Bool}
    (hresting : s.Resting) (hin : inFlight ⊆ p.inFlight x)
    (hout : ∀ payload ∈ s.payloads.drop (p.daemon x).payloads.length,
      ∃ text, payload.content = .text text ∧ text ≠ "")
    (hpolled : s.clipboard.text = (p.daemon x).clipboard.text → polled = true ∨ p.polled x = true →
      s.clipboard.text = "" ∨ s.sharedHash = h.hash s.clipboard.text) :
    Regular h (p.advance x s inFlight polled) := by
  refine ⟨fun y ↦ ?_, fun y payload hpayload ↦ ?_, fun y hy ↦ ?_⟩
  · rcases Side.eq_or_eq_other x y with rfl | rfl
    · rwa [advance_daemon_self]
    · rw [advance_daemon_other]
      exact hp.resting _
  · rcases Side.eq_or_eq_other x y with rfl | rfl
    · rw [ClipboardPair.advance] at hpayload
      simp only [Function.update_of_ne (Side.other_ne y).symm, Function.update_self] at hpayload
      exact hp.texts y payload (hin hpayload)
    · simp only [ClipboardPair.advance, Function.update_self] at hpayload
      rcases List.mem_append.1 hpayload with hpayload | hpayload
      · exact hp.texts _ payload hpayload
      · exact hout payload hpayload
  · rcases Side.eq_or_eq_other x y with rfl | rfl
    · rw [advance_daemon_self]
      simp only [ClipboardPair.advance, Function.update_self, Bool.and_eq_true, Bool.or_eq_true,
        decide_eq_true_eq] at hy
      exact hpolled hy.1 hy.2
    · rw [advance_daemon_other]
      simp only [ClipboardPair.advance, Function.update_of_ne (Side.other_ne x)] at hy
      exact hp.polled _ hy

end Moves

/-- **Everything a step of the pair can do**, with the exchange it is. -/
inductive Move (h : SimpleHash η) (p : ClipboardPair η) : Label → ClipboardPair η → Prop
  | copy (x : Side) (text : String) (p' : ClipboardPair η)
      (hexchange : p'.exchange h = p.exchange h) : Move h p (.copy x text) p'
  | announce (x : Side) (p' : ClipboardPair η) (hsends : (p.daemon x).Sends h)
      (hexchange : p'.exchange h =
        (p.exchange h).announce x (h.hash (p.daemon x).clipboard.text)) : Move h p (.poll x) p'
  | seen (x : Side) (p' : ClipboardPair η) (hsends : ¬ (p.daemon x).Sends h)
      (hexchange : p'.exchange h = p.exchange h) : Move h p (.poll x) p'
  | receive (x : Side) (v : η) (inbox : List η) (p' : ClipboardPair η)
      (hinbox : (p.exchange h).inbox x = v :: inbox)
      (hexchange : p'.exchange h = (p.exchange h).receive x v inbox) : Move h p (.deliver x) p'

/-- Setting a value and an inbox to what they are. -/
theorem receive_self (q : Exchange.State η) (x : Side) :
    q.receive x (q.value x) (q.inbox x) = q := by
  simp only [Exchange.State.receive, Function.update_eq_self]

/-- A delivery, spelled out: the payload carries a text, which goes to the clipboard. -/
theorem step_deliver [DecidableEq η] {h : SimpleHash η} {p : ClipboardPair η} (hp : Regular h p)
    {x : Side} {payload : ClipboardPayload} {inFlight : List ClipboardPayload}
    (hinFlight : p.inFlight x = payload :: inFlight) :
    ∃ text, text ≠ "" ∧ payload.content = .text text ∧ step h p (.deliver x) =
      some (p.advance x ((p.daemon x).accepted h text) inFlight false) := by
  obtain ⟨text, htext, hne⟩ := hp.texts x payload (by rw [hinFlight]; exact List.mem_cons_self)
  obtain ⟨origin, content⟩ := payload
  obtain rfl : content = .text text := htext
  refine ⟨text, hne, rfl, ?_⟩
  rw [step, hinFlight]
  dsimp only
  rw [ClipboardSync.accept_text (hp.resting x), Option.map_some]

/-- **A step is one of the moves**, and between two steps the tasks are between two passes. -/
theorem move_of_step [DecidableEq η] {h : SimpleHash η} {p p' : ClipboardPair η} {l : Label}
    (hp : Regular h p) (hp' : p' ∈ step h p l) : Regular h p' ∧ Move h p l p' := by
  cases l with
  | copy x text =>
    rw [step] at hp'
    obtain ⟨s, hs, rfl⟩ := Option.map_eq_some_iff.1 hp'
    obtain rfl := Option.some.inj hs
    refine ⟨hp.advance ?_ (List.Subset.refl _) ?_ ?_, .copy x text _ ?_⟩
    · exact ⟨(hp.resting x).poller, (hp.resting x).incoming⟩
    · show ∀ payload ∈ (p.daemon x).payloads.drop _, _
      rw [List.drop_length]
      nofun
    · rintro htext (hpolled | hpolled)
      · cases hpolled
      · rw [htext]
        exact hp.polled x hpolled
    · refine (exchange_of_quiet _ _ ?_).trans (receive_self _ x)
      rfl
  | poll x =>
    rw [step] at hp'
    by_cases hsends : (p.daemon x).Sends h
    · rw [ClipboardSync.poll_of_sends (hp.resting x) hsends, Option.map_some] at hp'
      obtain rfl := Option.some.inj hp'
      have hsent : ClipboardSync.payloads { p.daemon x with
          sharedHash := h.hash (p.daemon x).clipboard.text
          sent := (p.daemon x).sent ++ [(p.daemon x).clipboard] } =
          (p.daemon x).payloads ++ [(p.daemon x).payload (p.daemon x).clipboard] :=
        List.map_append
      refine ⟨hp.advance ?_ (List.Subset.refl _) ?_ fun _ _ ↦ .inr rfl, .announce x _ hsends ?_⟩
      · exact ⟨(hp.resting x).poller, (hp.resting x).incoming⟩
      · rw [hsent, List.drop_left]
        intro payload hpayload
        exact ⟨_, List.mem_singleton.1 hpayload ▸ rfl, hsends.2⟩
      · exact exchange_of_sends _ _ hsent rfl rfl
    · rw [ClipboardSync.poll_of_not_sends (hp.resting x) hsends, Option.map_some] at hp'
      obtain rfl := Option.some.inj hp'
      refine ⟨hp.advance (hp.resting x) (List.Subset.refl _) ?_ fun _ _ ↦ ?_, .seen x _ hsends ?_⟩
      · rw [List.drop_length]
        nofun
      · rw [ClipboardSync.Sends, not_and_or, not_not, not_not] at hsends
        exact hsends.symm.imp_right Eq.symm
      · exact (exchange_of_quiet _ _ rfl).trans (receive_self _ x)
  | deliver x =>
    cases hinFlight : p.inFlight x with
    | nil =>
      rw [step, hinFlight] at hp'
      cases hp'
    | cons payload inFlight =>
      obtain ⟨text, -, hcontent, hdeliver⟩ := step_deliver hp hinFlight
      rw [hdeliver] at hp'
      obtain rfl := Option.some.inj hp'
      refine ⟨hp.advance ?_ ?_ ?_ fun _ _ ↦ .inr rfl,
        .receive x (h.hash text) (hashes h inFlight) _ ?_ ?_⟩
      · exact ⟨(hp.resting x).poller, (hp.resting x).incoming⟩
      · rw [hinFlight]
        exact List.subset_cons_self _ _
      · show ∀ payload ∈ (p.daemon x).payloads.drop _, _
        rw [List.drop_length]
        nofun
      · show hashes h (p.inFlight x) = _
        rw [hinFlight, hashes, List.filterMap_cons, text?, hcontent]
        rfl
      · refine exchange_of_quiet _ _ ?_
        rfl

/-! ### Agreement -/

/-- The invariant of the runs in which nothing crosses. -/
structure Inv (h : SimpleHash η) (p : ClipboardPair η) : Prop where
  regular : Regular h p
  agreed : (p.exchange h).Agreed

/-- At the start nothing is on the way. -/
theorem inv_start (h : SimpleHash η) (peerId text : Side → String) : Inv h (start h peerId text) :=
  ⟨regular_start h peerId text, fun _ ↦ rfl⟩

/-- The texts of a quiet pair are those whose hashes the two ends hold. -/
theorem Regular.hash_of_quiet {h : SimpleHash η} {p : ClipboardPair η} (hp : Regular h p)
    (hquiet : p.Quiet) {x : Side} (hne : (p.daemon x).clipboard.text ≠ "") :
    (p.exchange h).value x = h.hash (p.daemon x).clipboard.text :=
  (hp.polled x (hquiet x).2).resolve_left hne

/-- The invariant says that the clipboards agree, if no two texts have the same hash. -/
theorem Inv.agree {h : SimpleHash η} (hinj : Function.Injective h.hash) {p : ClipboardPair η}
    (hinv : Inv h p) : p.Agree := by
  intro hquiet hne
  have hempty : ∀ x, (p.exchange h).inbox x = [] := fun x ↦ by
    show hashes h (p.inFlight x) = []
    rw [(hquiet x).1]
    rfl
  have hvalue := hinv.agreed.value_eq hempty .left
  rw [hinv.regular.hash_of_quiet hquiet (hne _),
    hinv.regular.hash_of_quiet hquiet (hne _)] at hvalue
  exact hinj hvalue

/-- The last value on its way to an end is the hash of the text in the last payload. -/
theorem Regular.getLast?_inbox {h : SimpleHash η} {p : ClipboardPair η} (hp : Regular h p)
    (x : Side) : ((p.exchange h).inbox x).getLast? =
      (p.inFlight x).getLast?.bind fun payload ↦ (text? payload).map h.hash := by
  show (hashes h (p.inFlight x)).getLast? = _
  rcases List.eq_nil_or_concat (p.inFlight x) with hnil | ⟨init, payload, hlast⟩
  · rw [hnil]
    rfl
  · rw [List.concat_eq_append] at hlast
    obtain ⟨text, htext, -⟩ := hp.texts x payload (by simp [hlast])
    simp [hlast, hashes, text?, htext]

/-- Nothing crosses when the last value on its way to an end is the one that the end announces. -/
theorem Regular.uncrossed_iff {h : SimpleHash η} (hinj : Function.Injective h.hash)
    {p : ClipboardPair η} (hp : Regular h p) (x : Side) (text : String) :
    (∀ w ∈ ((p.exchange h).inbox x).getLast?, w = h.hash text) ↔
      ∀ payload ∈ (p.inFlight x).getLast?, payload.content = .text text := by
  rw [hp.getLast?_inbox x]
  cases hlast : (p.inFlight x).getLast? with
  | none => simp
  | some payload =>
    obtain ⟨text', htext, -⟩ := hp.texts x payload (List.mem_of_getLast? hlast)
    simp [text?, htext, hinj.eq_iff]

/-- **A step that crosses nothing keeps the invariant.** -/
theorem inv_step [DecidableEq η] {h : SimpleHash η} (hinj : Function.Injective h.hash)
    {p p' : ClipboardPair η} {l : Label} (hinv : Inv h p) (huncrossed : Uncrossed h p l)
    (hp' : p' ∈ step h p l) : Inv h p' := by
  obtain ⟨hregular, hmove⟩ := move_of_step hinv.regular hp'
  refine ⟨hregular, ?_⟩
  cases hmove with
  | copy _ _ _ hexchange | seen _ _ _ hexchange => exact hexchange ▸ hinv.agreed
  | receive x v inbox _ hinbox hexchange =>
    rw [hexchange]
    exact (Exchange.State.agreed_receive_iff hinbox).2 hinv.agreed
  | announce x _ hsends hexchange =>
    rw [hexchange, Exchange.State.agreed_announce_iff, hinv.regular.uncrossed_iff hinj]
    exact huncrossed hsends

/-- **The clipboards come to agree when nothing crosses.** For every hash without collisions, any
texts on the two clipboards to begin with and every interleaving of copies, polls and deliveries: if
no poll sends a text while the last payload on its way to its own end carries another, then in every
quiet state two clipboards that are not empty hold the same text. -/
theorem agree_of_uncrossed [DecidableEq η] (h : SimpleHash η) (hinj : Function.Injective h.hash)
    (peerId text : Side → String) {ls : List Label}
    (hls : EachStep (step h) (Uncrossed h) (start h peerId text) ls) :
    Throughout (step h) Agree (start h peerId text) ls :=
  (throughout_of_guarded (fun _ _ hinv huncrossed _ hp' ↦ inv_step hinj hinv huncrossed hp')
    (inv_start h peerId text) hls).mono fun _ hinv ↦ hinv.agree hinj

/-- A text is sent to an empty clipboard, seen there, and answered with another. -/
def answeredRun : List Label :=
  [.poll .left, .poll .right, .deliver .right, .poll .right, .copy .right "b", .poll .right,
    .deliver .left, .poll .left]

/-- Copies that do not cross leave one text on both clipboards. -/
theorem agree_of_uncrossed_answeredRun :
    Throughout (step .perfect) Agree
      (start .perfect (fun _ ↦ "host") fun | .left => "a" | .right => "") answeredRun :=
  agree_of_uncrossed .perfect (fun _ _ h ↦ Option.some.inj h) _ _ (by decide +kernel)

/-- A poll of each end, from different clipboards, and two more: each text has been sent, and each
end has seen the other's. -/
def crossingRun : List Label :=
  [.poll .left, .poll .right, .deliver .left, .deliver .right, .poll .left, .poll .right]

/-- After the run the clipboards have been swapped. -/
theorem not_agree_crossingRun :
    ¬ Throughout (step .perfect) Agree
      (start .perfect (fun _ ↦ "host") fun | .left => "a" | .right => "b") crossingRun := by
  have hview : (run (step .perfect)
      (start .perfect (fun _ ↦ "host") fun | .left => "a" | .right => "b") crossingRun).map
      (fun p ↦ [Side.left, Side.right].map fun x ↦
        (p.inFlight x, p.polled x, (p.daemon x).clipboard.text)) =
      some [([], true, "b"), ([], true, "a")] := by
    decide +kernel
  obtain ⟨t, ht, hview⟩ := Option.map_eq_some_iff.1 hview
  simp only [List.map_cons, List.map_nil, List.cons.injEq, Prod.mk.injEq, and_true] at hview
  obtain ⟨⟨hleft, hpolled, htext⟩, hright, hpolled', htext'⟩ := hview
  refine not_throughout_of_run ht fun hagree ↦ ?_
  have hquiet : t.Quiet := fun | .left => ⟨hleft, hpolled⟩ | .right => ⟨hright, hpolled'⟩
  have hne : ∀ x, (t.daemon x).clipboard.text ≠ "" := by
    rintro (_ | _)
    · rw [htext]
      decide
    · rw [htext']
      decide
  have hsame := hagree hquiet hne
  rw [htext, htext'] at hsame
  exact absurd hsame (by decide)

/-! ### Texts that cross stay swapped -/

section Crossing

variable [DecidableEq η] {h : SimpleHash η} {p p' : ClipboardPair η}

/-- Delivering everything on its way to one end leaves it with its final value, on its clipboard and
as its hash, and the other end as it was. -/
theorem exists_drained (hp : Regular h p) (x : Side) (hne : p.inFlight x ≠ []) :
    ∃ ls, ∃ t ∈ run (step h) p ls, Regular h t ∧ t.inFlight x = [] ∧
      t.inFlight x.other = p.inFlight x.other ∧ t.daemon x.other = p.daemon x.other ∧
        (t.daemon x).clipboard.text ≠ "" ∧
          (t.daemon x).sharedHash = h.hash (t.daemon x).clipboard.text ∧
            ∀ y, (t.exchange h).final y = (p.exchange h).final y := by
  induction hin : p.inFlight x generalizing p with
  | nil => exact absurd hin hne
  | cons payload inFlight ih =>
    obtain ⟨text, htext, -, hdeliver⟩ := step_deliver hp hin
    obtain ⟨hregular, hmove⟩ := move_of_step hp hdeliver
    have hquiet : (p.advance x ((p.daemon x).accepted h text) inFlight false).inFlight = _ :=
      advance_inFlight_of_quiet inFlight false rfl
    have hfinal : ∀ y, ((p.advance x ((p.daemon x).accepted h text) inFlight false).exchange
        h).final y = (p.exchange h).final y := by
      cases hmove with
      | receive _ v inbox _ hinbox hexchange =>
        intro y
        rw [hexchange, Exchange.State.final_receive hinbox]
    by_cases hrest : inFlight = []
    · refine ⟨[.deliver x], _, Option.bind_eq_some_iff.2 ⟨_, hdeliver, rfl⟩, hregular, ?_, ?_, ?_,
        ?_, ?_, hfinal⟩
      · rw [hquiet, Function.update_self, hrest]
      · rw [hquiet, Function.update_of_ne (Side.other_ne x)]
      · rw [advance_daemon_other]
      · rwa [advance_daemon_self]
      · rw [advance_daemon_self]
        rfl
    · have hleft : (p.advance x ((p.daemon x).accepted h text) inFlight false).inFlight x =
          inFlight := by
        rw [hquiet, Function.update_self]
      obtain ⟨ls, t, ht, hregular, hempty, hother, hdaemon, hclip, hhash, hend⟩ :=
        ih hregular (by rwa [hleft]) hleft
      refine ⟨.deliver x :: ls, t, Option.bind_eq_some_iff.2 ⟨_, hdeliver, ht⟩, hregular, hempty,
        ?_, ?_, hclip, hhash, fun y ↦ (hend y).trans (hfinal y)⟩
      · rw [hother, hquiet, Function.update_of_ne (Side.other_ne x)]
      · rw [hdaemon, advance_daemon_other]

/-- A poll of an end that has seen its clipboard marks it as polled, and changes nothing else. -/
theorem step_poll_seen {x : Side} (hp : Regular h p)
    (hseen : (p.daemon x).sharedHash = h.hash (p.daemon x).clipboard.text) :
    step h p (.poll x) = some { p with polled := Function.update p.polled x true } := by
  have hnot : ¬ (p.daemon x).Sends h := fun hsends ↦ hsends.1 hseen.symm
  rw [step, ClipboardSync.poll_of_not_sends (hp.resting x) hnot, Option.map_some,
    show p.advance x (p.daemon x) (p.inFlight x) true = ⟨_, _, _⟩ from rfl]
  have hinFlight := advance_inFlight_of_quiet (p := p) (x := x) (p.inFlight x) true rfl
  rw [Function.update_eq_self] at hinFlight
  rw [Option.some.injEq, mk.injEq]
  exact ⟨Function.update_eq_self .., hinFlight, by simp⟩

omit [DecidableEq η] in
/-- What is in an inbox after the exchange was on the way. -/
theorem inFlight_ne_nil {x : Side} (hinbox : (p.exchange h).inbox x ≠ []) : p.inFlight x ≠ [] := by
  intro hnil
  refine hinbox ?_
  show hashes h (p.inFlight x) = []
  rw [hnil]
  rfl

/-- Delivering everything and polling both ends leads to a quiet state, in which the hashes of the
two texts are the final values. -/
theorem exists_quiet (hp : Regular h p) (hne : ∀ x, p.inFlight x ≠ []) :
    ∃ ls, ∃ t ∈ run (step h) p ls, t.Quiet ∧ ∀ x, (t.daemon x).clipboard.text ≠ "" ∧
      h.hash (t.daemon x).clipboard.text = (p.exchange h).final x := by
  obtain ⟨ls, t, ht, htp, hempty, hother, -, hclip, hhash, hfinal⟩ :=
    exists_drained hp .left (hne _)
  have hright : t.inFlight .right ≠ [] := by
    rw [show Side.right = Side.left.other from rfl, hother]
    exact hne _
  obtain ⟨ms, u, hu, hup, hempty', hother', hdaemon, hclip', hhash', hfinal'⟩ :=
    exists_drained htp .right hright
  have hleft : u.daemon .left = t.daemon .left := hdaemon
  have hseen : ∀ x, (u.daemon x).sharedHash = h.hash (u.daemon x).clipboard.text
    | .left => hleft ▸ hhash
    | .right => hhash'
  have hgone : ∀ x, u.inFlight x = []
    | .left => hother'.trans hempty
    | .right => hempty'
  have hpoll := step_poll_seen hup (hseen .left)
  have hpoll' := step_poll_seen (move_of_step hup hpoll).1 (hseen .right)
  refine ⟨ls ++ (ms ++ [.poll .left, .poll .right]),
    ⟨u.daemon, u.inFlight, Function.update (Function.update u.polled .left true) .right true⟩, ?_,
    fun x ↦ ⟨hgone x, ?_⟩, fun x ↦ ⟨?_, ?_⟩⟩
  · rw [run_append]
    refine Option.bind_eq_some_iff.2 ⟨t, ht, ?_⟩
    rw [run_append]
    refine Option.bind_eq_some_iff.2 ⟨u, hu, ?_⟩
    rw [run_cons, hpoll, Option.bind_some, run_cons, hpoll', Option.bind_some, run_nil]
  · cases x <;> rfl
  · cases x
    · exact hleft ▸ hclip
    · exact hclip'
  · -- with nothing on its way, an end holds its final value
    have hvalue : (u.exchange h).final x = (u.daemon x).sharedHash := by
      show ((hashes h (u.inFlight x)).getLast?).getD _ = _
      rw [hgone x]
      rfl
    exact (hseen x).symm.trans (hvalue.symm.trans ((hfinal' x).trans (hfinal x)))

/-- **Texts that cross stay swapped.** From every regular state, a poll that sends a text while the
last payload on its way to its own end carries another can be continued to a quiet state in which
the clipboards differ. -/
theorem exists_not_agree (hinj : Function.Injective h.hash) {x : Side} (hp : Regular h p)
    (hcrossed : ¬ Uncrossed h p (.poll x)) (hp' : p' ∈ step h p (.poll x)) :
    ∃ ls, ∃ t ∈ run (step h) p' ls, ¬ t.Agree := by
  obtain ⟨hsends, hother⟩ := Classical.not_imp.1 hcrossed
  obtain ⟨hregular, hmove⟩ := move_of_step hp hp'
  cases hmove with
  | seen _ _ hnot => exact absurd hsends hnot
  | announce _ _ _ hexchange =>
    rw [← hp.uncrossed_iff hinj] at hother
    have hdiffer : ¬ (p'.exchange h).Agreed := by
      rwa [hexchange, Exchange.State.agreed_announce_iff]
    have hne : ∀ y, p'.inFlight y ≠ [] := by
      intro y
      refine inFlight_ne_nil (h := h) ?_
      rw [hexchange]
      rcases Side.eq_or_eq_other x y with rfl | rfl
      · intro hnil
        simp only [Exchange.State.announce, Function.update_of_ne (Side.other_ne y).symm] at hnil
        rw [hnil] at hother
        exact hother fun _ hlast ↦ by cases hlast
      · simp [Exchange.State.announce]
    obtain ⟨ls, t, ht, hquiet, hfinal⟩ := exists_quiet hregular hne
    refine ⟨ls, t, ht, fun hagree ↦ hdiffer ?_⟩
    rw [Exchange.State.agreed_iff _ .left, ← (hfinal _).2, ← (hfinal _).2]
    exact congrArg h.hash (hagree hquiet fun y ↦ (hfinal y).1)

end Crossing

end ClipboardPair

end Kmflow
