import Kmflow.Daemon.FocusAgreement
import Kmflow.Daemon.FrameSize
import Kmflow.Daemon.Received
import Kmflow.Daemon.StuckKeys
import Kmflow.Foundation.Datagrams

/-!
# Two daemons and the network between them

The pair of sessions once more, now with the frames as well: what one side hands to `send_datagram`
is in the air, where it may be lost or overtaken, until the other side's `recv_datagram` gets it.
The control messages arrive reliably and in order, as before.

Whatever the network does, a side's emulator is given whole frames of the other side, each at most
once (`emulated_of_run`): the other side numbers its frames without a gap, so no two of those that
are emulated have the same number until the counter wraps.

When the datagrams towards one side arrive in order and none is lost, and the frames find that side
undisturbed, its emulator has been given exactly what the other side forwarded, but for what is in
the air. Then no key is held down that is not held down on the other side's devices, and once the
other side has given its focus up cleanly, none at all (`held_of_run`).
-/

namespace Kmflow

open Transition Handover Datagrams

/-! ### The numbers of the frames -/

namespace Session

section Numbers

variable {cfg : SessionConfig} {d : DaemonState} {s s' : Session} {i : Input}

/-- A frame that a step sends has the next number, and leaves the counter there. -/
theorem seq_of_step (hs' : s' ∈ step cfg s i) :
    (∀ f ∈ s.sent? i, f.seq = s.daemon.seqCounter + 1) ∧
      s'.daemon.seqCounter = (s.sent? i).elim s.daemon.seqCounter EventFrame.seq := by
  have htrack (event : InputEvent) :
      (trackKeyState s.daemon event).seqCounter = s.daemon.seqCounter :=
    tracked_seqCounter s.daemon [event]
  cases outcome_of_step hs' with
  | push | captureClosed | handBack | receiveOnlyHandBack =>
    exact ⟨fun f hf ↦ (by cases hf), rfl⟩
  | idle d outs phase hrun hd houts hphase hpush hcapt hclean hctrl =>
    have hsent : s.sent? i = none := by
      match i with
      | .captured env ready => exact absurd rfl (hcapt env ready)
      | .cleanup env => exact absurd rfl (hclean env)
      | .push _ | .shutdown | .clipboardOutgoing _ _ | .clipboardReceived _ | .captureClosed
      | .frame _ _ | .control _ _ => rfl
    obtain ⟨cursorX, cursorY, rfl⟩ := hd
    rw [hsent]
    exact ⟨fun f hf ↦ (by cases hf), rfl⟩
  | keep event rest d phase hphase hch hfocus hd =>
    obtain ⟨cursorX, cursorY, rfl⟩ := hd
    simpa [sent?, hch, hfocus] using htrack event
  | edgeHit event rest d hphase hch hfocus hd =>
    obtain ⟨cursorX, cursorY, rfl⟩ := hd
    simpa [sent?, hch, hfocus] using htrack event
  | emergency event rest hphase hch hfocus hkey =>
    simp [sent?, hch, hfocus, hkey, emergencyRelease, nextSeq, htrack event]
  | forward event rest hphase hch hfocus hkey =>
    simp [sent?, hch, hfocus, hkey, nextSeq, tracked_seqCounter]
  | frameHit d hphase hfocus hd | receiveOnlyFrameHit d hphase hfocus hd =>
    obtain ⟨cursorX, cursorY, rfl⟩ := hd
    exact ⟨fun f hf ↦ (by cases hf), rfl⟩
  | cleanup env hphase =>
    simp only [sent?, Kmflow.cleanup, cleanupFlush]
    cases s.daemon.focusIsRemote with
    | false => simp
    | true => cases flushPressedKeys env.order s.daemon <;> simp [nextSeq]

/-- The frames are numbered one after the other, and the counter is where the last one left it. -/
structure Numbered (d : DaemonState) (s : Session) : Prop where
  seq : ∀ k f, s.frames[k]? = some f → f.seq = d.seqCounter + .ofNat (k + 1)
  counter : s.daemon.seqCounter = d.seqCounter + .ofNat s.frames.length

theorem numbered_start (d : DaemonState) : Numbered d (start d) where
  seq k f hf := by simp [frames, start] at hf
  counter := by simp [frames, start]

/-- **The numbering goes on** at every step. -/
theorem Numbered.step (h : Numbered d s) (hs' : s' ∈ step cfg s i) : Numbered d s' := by
  have hframes := frames_of_step hs'
  obtain ⟨hseq, hcounter⟩ := seq_of_step hs'
  cases hsent : s.sent? i with
  | none =>
    rw [hsent, Option.toList_none, List.append_nil] at hframes
    rw [hsent] at hcounter
    exact ⟨hframes ▸ h.seq, by rw [hframes]; exact hcounter.trans h.counter⟩
  | some f =>
    rw [hsent, Option.toList_some] at hframes
    rw [hsent] at hcounter
    have hnext : f.seq = d.seqCounter + .ofNat (s.frames.length + 1) := by
      rw [hseq f hsent, h.counter, UInt32.ofNat_add, UInt32.add_assoc]
      rfl
    refine ⟨fun k g hg ↦ ?_, by simpa [hframes] using hcounter.trans hnext⟩
    rw [hframes] at hg
    rcases Nat.lt_trichotomy k s.frames.length with hk | rfl | hk
    · rw [List.getElem?_append_left hk] at hg
      exact h.seq k g hg
    · rw [List.getElem?_concat_length] at hg
      rw [← Option.some.inj hg, hnext]
    · rw [List.getElem?_eq_none (by simpa using Nat.succ_le_of_lt hk)] at hg
      cases hg

/-- Until the counter wraps, the numbers are different. -/
theorem Numbered.nodup (h : Numbered d s) (hlength : s.frames.length ≤ 4294967296) :
    (s.frames.map EventFrame.seq).Nodup := by
  refine List.pairwise_map.2 (List.pairwise_iff_getElem.2 fun j k hj hk hjk heq ↦ ?_)
  rw [h.seq j _ (List.getElem?_eq_getElem hj), h.seq k _ (List.getElem?_eq_getElem hk)] at heq
  have hnat := congrArg UInt32.toNat ((UInt32.add_right_inj _).1 heq)
  simp only [UInt32.toNat_ofNat'] at hnat
  omega

end Numbers

end Session

/-! ### The network -/

/-- Whether `send_datagram` succeeds, in the steps that may send. -/
def Input.datagramOk : Input → Bool
  | .captured env _ | .cleanup env => env.datagramOk
  | _ => true

/-- The pair, and the frames on their way to each side, each of them as its encoding. -/
structure Link where
  pair : Pair
  air : Side → List EventFrame

/-- The labels of the two sides and the network. -/
inductive LinkInput where
  /-- A step of one side that receives nothing from the other. -/
  | move (x : Side) (i : Input)
  /-- The oldest control message on its way to one side is delivered. -/
  | deliver (x : Side) (env : Env)
  /-- One of the frames on their way to one side is received. -/
  | receive (x : Side) (env : Env) (k : ℕ)
  /-- One of them is lost. -/
  | lose (x : Side) (k : ℕ)

namespace Link

/-- Both sessions at their first head, with nothing on the way. -/
def start (daemon : Side → DaemonState) : Link where
  pair := .start daemon
  air _ := []

/-- The side that takes a step, its label there, and what the step leaves in its inbox. -/
def taken (fmt : FloatFormat) (l : Link) : LinkInput → Option (Side × Input × List ControlCommand)
  | .move _ (.frame _ (some _)) | .move _ (.control _ (some _)) => none
  | .move x i => some (x, i, l.pair.inbox x)
  | .deliver x env =>
    match l.pair.inbox x with
    | [] => none
    | c :: inbox => some (x, .control env (some c), inbox)
  | .receive x env k => (l.air x)[k]?.map fun f ↦
    (x, .frame env (decodeFrame fmt (encodeFrame fmt f)), l.pair.inbox x)
  | .lose _ _ => none

/-- What a label leaves in the air. -/
def left (l : Link) : LinkInput → Side → List EventFrame
  | .receive x _ k | .lose x k => Function.update l.air x ((l.air x).eraseIdx k)
  | _ => l.air

/-- The frames that a step puts into the air. -/
def sent (i : Input) (s s' : Session) : List EventFrame :=
  if i.datagramOk then s'.frames.drop s.frames.length else []

/-- One step of the two sides and the network; `none` when the label is not enabled. -/
def step (cfg : Side → SessionConfig) (fmt : FloatFormat) (l : Link) (e : LinkInput) :
    Option Link :=
  match e with
  | .lose x k => if k < (l.air x).length then some { l with air := l.left e } else none
  | _ => do
    let (x, i, inbox) ← l.taken fmt e
    let s ← Session.step (cfg x) (l.pair.session x) i
    some ⟨l.pair.advance x s inbox, Function.update (l.left e) x.other
      (l.left e x.other ++ sent i (l.pair.session x) s)⟩

section Moves

variable {cfg : Side → SessionConfig} {fmt : FloatFormat} {l l' : Link} {e : LinkInput}

/-- A frame is lost, or a session takes a step and what it sends is added to the air. -/
inductive Move (cfg : Side → SessionConfig) (fmt : FloatFormat) (l : Link) (e : LinkInput)
    (l' : Link) : Prop
  | lost (x : Side) (k : ℕ) (he : e = .lose x k) (hpair : l'.pair = l.pair)
    (hair : l'.air = Function.update l.air x ((l.air x).eraseIdx k))
  | moved (x : Side) (i : Input) (s : Session) (inbox : List ControlCommand)
    (htaken : l.taken fmt e = some (x, i, inbox))
    (hs : s ∈ Session.step (cfg x) (l.pair.session x) i)
    (hsession : l'.pair.session = Function.update l.pair.session x s)
    (hair : l'.air = Function.update (l.left e) x.other
      (l.left e x.other ++ sent i (l.pair.session x) s))

/-- **A step is one of the moves.** -/
theorem move_of_step (hl' : l' ∈ step cfg fmt l e) : Move cfg fmt l e l' := by
  unfold step at hl'
  split at hl'
  case h_1 x k =>
    rw [Option.mem_def, Option.ite_none_right_eq_some] at hl'
    obtain ⟨-, hl'⟩ := hl'
    cases hl'
    exact .lost x k rfl rfl rfl
  case h_2 =>
    obtain ⟨⟨x, i, inbox⟩, htaken, hl'⟩ := Option.bind_eq_some_iff.1 hl'
    obtain ⟨s, hs, hl'⟩ := Option.bind_eq_some_iff.1 hl'
    cases hl'
    exact .moved x i s inbox htaken hs rfl rfl

/-- Where a label takes its step, and what it receives there. -/
inductive Takes (fmt : FloatFormat) (l : Link) (e : LinkInput) (x : Side) (i : Input) : Prop
  | nothing (hleft : l.left e = l.air) (hi : ∀ env f, i ≠ .frame env (some f))
  | frame (env : Env) (k : ℕ) (f : EventFrame) (he : e = .receive x env k)
    (hf : (l.air x)[k]? = some f) (hi : i = .frame env (decodeFrame fmt (encodeFrame fmt f)))
    (hleft : l.left e = Function.update l.air x ((l.air x).eraseIdx k))

/-- What a label makes a session take, the session takes. -/
theorem takes_of_taken {x : Side} {i : Input} {inbox : List ControlCommand}
    (htaken : l.taken fmt e = some (x, i, inbox)) : Takes fmt l e x i := by
  unfold taken at htaken
  split at htaken
  case h_1 => cases htaken
  case h_2 => cases htaken
  case h_3 y j hframe hcontrol =>
    cases htaken
    exact .nothing rfl fun env f hi ↦ hframe env f hi
  case h_4 y env =>
    split at htaken
    · cases htaken
    · cases htaken
      exact .nothing rfl fun env f hi ↦ by cases hi
  case h_5 y env k =>
    obtain ⟨f, hf, htaken⟩ := Option.map_eq_some_iff.1 htaken
    cases htaken
    exact .frame env k f rfl hf rfl rfl
  case h_6 => cases htaken

end Moves

/-! ### Whatever the network does -/

/-- The floats of the frames that were sent are written exactly. -/
def Exact (fmt : FloatFormat) (l : Link) : Prop :=
  ∀ x, ∀ f ∈ (l.pair.session x).frames, ∀ q, .finite q ∈ f.floats → fmt.Exact q

/-- A side's emulator is given frames of the other side, each as a whole and at most once. -/
def Faithful (l : Link) (x : Side) : Prop :=
  ∃ frames, AtMostOnce (l.pair.session x.other).frames frames (l.air x) ∧
    (l.pair.session x).emitted = frames.flatMap EventFrame.events

/-- The invariant: the frames are numbered, and what is on its way or was emulated was sent. -/
structure Sound (d : Side → DaemonState) (fmt : FloatFormat) (l : Link) : Prop where
  numbered : ∀ x, (l.pair.session x).Numbered (d x)
  faithful : l.Exact fmt → ∀ x, l.Faithful x

section Sound

variable {cfg : Side → SessionConfig} {fmt : FloatFormat} {d : Side → DaemonState} {l l' : Link}
  {e : LinkInput} {x y : Side} {i : Input}

/-- What is on its way to the other side stays there. -/
theorem Takes.left_of_ne (h : Takes fmt l e y i) (hxy : x ≠ y) : l.left e x = l.air x := by
  cases h with
  | nothing hleft => rw [hleft]
  | frame env k f he hf hi hleft => rw [hleft, Function.update_of_ne hxy]

/-- What gets into the air has been sent. -/
theorem sent_sublist {s s' : Session} {new : List EventFrame} (h : s'.frames = s.frames ++ new) :
    (sent i s s').Sublist new := by
  rw [sent, h, List.drop_left]
  split_ifs
  · exact .refl _
  · exact List.nil_sublist _

/-- A frame that is received is given to the emulator as a whole or not at all. -/
theorem emulated_frame (cfg : SessionConfig) (s : Session) (env : Env) (f : EventFrame) :
    emulated cfg s (.frame env (some f)) = f.events ∨
      emulated cfg s (.frame env (some f)) = [] := by
  rw [emulated]
  split_ifs
  · exact .inl rfl
  · exact .inr rfl

/-- Without a frame nothing is emulated. -/
theorem emulated_eq_nil {cfg : SessionConfig} {s : Session}
    (hi : ∀ env f, i ≠ .frame env (some f)) : emulated cfg s i = [] := by
  match i with
  | .frame env (some f) => exact absurd rfl (hi env f)
  | .frame _ none | .push _ | .shutdown | .clipboardOutgoing _ _ | .clipboardReceived _
  | .captured _ _ | .captureClosed | .control _ _ | .cleanup _ => rfl

/-- The receiving side takes a step. -/
theorem Faithful.receive {s : Session} (h : l.Faithful x) (hexact : l.Exact fmt)
    (htakes : Takes fmt l e x i) (hs : s ∈ Session.step (cfg x) (l.pair.session x) i)
    (hsender : l'.pair.session x.other = l.pair.session x.other) (hsession : l'.pair.session x = s)
    (hair : l'.air x = l.left e x) : l'.Faithful x := by
  obtain ⟨frames, hframes, hemitted⟩ := h
  have hemitted' := emitted_of_step hs
  rw [Faithful, hsender, hsession, hair]
  cases htakes with
  | nothing hleft hi =>
    rw [hleft, hemitted', emulated_eq_nil hi, List.append_nil]
    exact ⟨frames, hframes, hemitted⟩
  | frame env k f he hf hi hleft =>
    have hmem : f ∈ (l.pair.session x.other).frames :=
      hframes.subset (List.mem_append_right _ (List.mem_of_getElem? hf))
    have hemulated : emulated (cfg x) (l.pair.session x) i = f.events ∨
        emulated (cfg x) (l.pair.session x) i = [] := by
      rw [hi]
      cases hdecode : decodeFrame fmt (encodeFrame fmt f) with
      | none => exact .inr rfl
      | some g =>
        rw [EventFrame.eq_of_decode (hexact x.other f hmem) hdecode]
        exact emulated_frame _ _ _ _
    rw [hleft, Function.update_self, hemitted', hemitted]
    rcases hemulated with hevents | hevents
    · exact ⟨frames ++ [f], hframes.arrive hf, by simp [hevents]⟩
    · exact ⟨frames, hframes.lose k, by simp [hevents]⟩

/-- The sending side takes a step. -/
theorem Faithful.send {new : List EventFrame} (h : l.Faithful x)
    (hsender : (l'.pair.session x.other).frames = (l.pair.session x.other).frames ++ new)
    (hsession : l'.pair.session x = l.pair.session x) {out : List EventFrame}
    (hout : out.Sublist new) (hair : l'.air x = l.air x ++ out) : l'.Faithful x := by
  obtain ⟨frames, hframes, hemitted⟩ := h
  rw [Faithful, hsender, hsession, hair]
  exact ⟨frames, hframes.send hout, hemitted⟩

/-- At the start nothing is on the way. -/
theorem sound_start : Sound d fmt (start d) where
  numbered x := Session.numbered_start (d x)
  faithful _ _ := ⟨[], .refl _, rfl⟩

/-- **A step keeps the invariant**, whatever the network does. -/
theorem Sound.step (h : Sound d fmt l) (hl' : l' ∈ Link.step cfg fmt l e) : Sound d fmt l' := by
  cases move_of_step hl' with
  | lost y k he hpair hair =>
    refine ⟨fun x ↦ hpair ▸ h.numbered x, fun hexact x ↦ ?_⟩
    obtain ⟨frames, hframes, hemitted⟩ := h.faithful (by rwa [Exact, hpair] at hexact) x
    rw [Faithful, hpair, hair]
    rcases eq_or_ne x y with rfl | hxy
    · rw [Function.update_self]
      exact ⟨frames, hframes.lose k, hemitted⟩
    · rw [Function.update_of_ne hxy]
      exact ⟨frames, hframes, hemitted⟩
  | moved y i s inbox htaken hs hsession hair =>
    have htakes := takes_of_taken htaken
    have hself : l'.pair.session y = s := by rw [hsession, Function.update_self]
    have hother : l'.pair.session y.other = l.pair.session y.other := by
      rw [hsession, Function.update_of_ne y.other_ne]
    have hframes := Session.frames_of_step hs
    refine ⟨fun x ↦ ?_, fun hexact x ↦ ?_⟩
    · rcases Side.eq_or_eq_other y x with rfl | rfl
      · rw [hself]
        exact (h.numbered x).step hs
      · rw [hother]
        exact h.numbered y.other
    · have hexact' : l.Exact fmt := fun z f hf ↦ hexact z f (by
        rcases Side.eq_or_eq_other y z with rfl | rfl
        · rw [hself, hframes]
          exact List.mem_append_left _ hf
        · rwa [hother])
      rcases Side.eq_or_eq_other y x with rfl | rfl
      · refine (h.faithful hexact' x).receive hexact' htakes hs hother hself ?_
        rw [hair, Function.update_of_ne x.other_ne.symm]
      · have hout : (sent i (l.pair.session y) s).Sublist _ := sent_sublist hframes
        refine (h.faithful hexact' y.other).send ?_ hother hout ?_
        · rw [Side.other_other, hself, hframes]
        · rw [hair, Function.update_self, htakes.left_of_ne y.other_ne]

/-- **Whatever the network does**, the emulators are given frames of the other side. -/
theorem sound_run (is : List LinkInput) :
    Throughout (Link.step cfg fmt) (Sound d fmt) (start d) is :=
  throughout_of_invariant (fun _ _ h _ hl' ↦ h.step hl') sound_start is

/-- **Nothing is made up and nothing is repeated.** However frames are lost and overtaken, and
whatever the control messages do to the focus in between, a side's emulator has been given frames
that the other side sent, in some order, each of them as a whole and at most once. The frames are
numbered one after the other as they are sent, so those that were emulated have different numbers as
long as the counter has not come round. -/
theorem emulated_of_run {is : List LinkInput} (hrun : l ∈ run (Link.step cfg fmt) (start d) is)
    (hexact : l.Exact fmt) (x : Side) :
    (∀ k f, (l.pair.session x.other).frames[k]? = some f →
      f.seq = (d x.other).seqCounter + .ofNat (k + 1)) ∧
    ∃ frames : List EventFrame, frames.Subperm (l.pair.session x.other).frames ∧
      (l.pair.session x).emitted = frames.flatMap EventFrame.events ∧
      ((l.pair.session x.other).frames.length ≤ 4294967296 →
        (frames.map EventFrame.seq).Nodup) := by
  have hsound : Sound d fmt l := (sound_run is).last hrun
  obtain ⟨frames, hframes, hemitted⟩ := hsound.faithful hexact x
  have hnumbered := hsound.numbered x.other
  refine ⟨hnumbered.seq, frames, hframes.arrived_subperm, hemitted, fun hlength ↦ ?_⟩
  obtain ⟨sublist, hperm, hsub⟩ := hframes.arrived_subperm
  exact (hperm.map _).nodup_iff.1 ((hnumbered.nodup hlength).sublist (hsub.map _))

end Sound

/-- Focus goes to the right, a key is pressed and released, and the release overtakes the press,
which is lost. -/
def overtakenRun : List LinkInput :=
  [.move .left (.push (.mouseMove (.finite 1000) (.finite 0))), .move .left (.captured (.at 0) 0),
    .deliver .right (.at 0), .move .left (.push (.key 30 .pressed)),
    .move .left (.captured (.at 0) 0), .move .left (.push (.key 30 .released)),
    .move .left (.captured (.at 0) 0), .receive .right (.at edgeCooldown) 1, .lose .right 0]

/-- How the run ends: the release is emulated, and the press was sent before it. -/
theorem overtakenRun_end :
    (run (step (fun _ ↦ .fallback) .tenths) (start fun _ ↦ .new .fallback 0) overtakenRun).map
      (fun l ↦ ((l.pair.session .right).emitted, (l.pair.session .left).frames,
        (l.pair.session .right).frames)) =
      some ([.key 30 .released],
        [⟨1, 0, [.key 30 .pressed]⟩, ⟨2, 0, [.key 30 .released]⟩], []) := by
  decide +kernel

/-- The release is all that is emulated. -/
theorem emulated_of_run_overtakenRun :
    ∃ l ∈ run (step (fun _ ↦ .fallback) .tenths) (start fun _ ↦ .new .fallback 0) overtakenRun,
      ∃ frames : List EventFrame, frames.Subperm (l.pair.session .left).frames ∧
        frames.flatMap EventFrame.events = [.key 30 .released] ∧
        (frames.map EventFrame.seq).Nodup := by
  obtain ⟨l, hrun, hend⟩ := Option.map_eq_some_iff.1 overtakenRun_end
  obtain ⟨hemitted, hend⟩ := Prod.mk.inj hend
  obtain ⟨hleft, hright⟩ := Prod.mk.inj hend
  have hexact : l.Exact .tenths := by
    intro x f hf q hq
    cases x with
    | left =>
      rw [hleft] at hf
      simp only [List.mem_cons, List.not_mem_nil, or_false] at hf
      rcases hf with rfl | rfl <;> exact absurd hq List.not_mem_nil
    | right =>
      rw [hright] at hf
      exact absurd hf List.not_mem_nil
  obtain ⟨-, frames, hsub, hemulated, hnodup⟩ := emulated_of_run hrun hexact .right
  exact ⟨l, hrun, frames, hsub, hemulated.symm.trans hemitted, hnodup (by
    show (l.pair.session .left).frames.length ≤ _
    rw [hleft]
    decide)⟩

/-! ### When the datagrams arrive in order -/

/-- The condition on a step, for the frames towards one side: none is lost, they arrive in order,
and each is read and finds the side undisturbed. -/
def InTurn (cfg : Side → SessionConfig) (fmt : FloatFormat) (x : Side) (l : Link) :
    LinkInput → Prop
  | .lose y _ => y ≠ x
  | .receive y env k => y = x → k = 0 ∧ ∀ f ∈ (l.air x).head?,
      decodeFrame fmt (encodeFrame fmt f) = some f ∧
        Session.Undisturbed (cfg x) (l.pair.session x) (.frame env (some f))
  | .move y i => y = x.other → i.datagramOk = true
  | .deliver _ _ => True

instance (cfg : Side → SessionConfig) (fmt : FloatFormat) (x : Side) (l : Link) :
    DecidablePred (InTurn cfg fmt x l)
  | .lose _ _ => inferInstanceAs (Decidable (_ ≠ _))
  | .receive y env k => inferInstanceAs (Decidable (y = x → k = 0 ∧ ∀ f ∈ (l.air x).head?,
      decodeFrame fmt (encodeFrame fmt f) = some f ∧
        Session.Undisturbed (cfg x) (l.pair.session x) (.frame env (some f))))
  | .move y i => inferInstanceAs (Decidable (y = x.other → i.datagramOk = true))
  | .deliver _ _ => instDecidableTrue

/-- The history variable: what each side captured since its focus last became remote. -/
def recordStretch (fmt : FloatFormat) (stretch : Side → List InputEvent) (l : Link) (e : LinkInput)
    (l' : Link) : Side → List InputEvent :=
  match l.taken fmt e with
  | some (x, i, _) => Function.update stretch x
      (Session.recordStretch (stretch x) (l.pair.session x) i (l'.pair.session x))
  | none => stretch

/-- The link, with the stretches recorded. -/
def stretchStep (cfg : Side → SessionConfig) (fmt : FloatFormat) :
    Link × (Side → List InputEvent) → LinkInput → Option (Link × (Side → List InputEvent)) :=
  withHistory (step cfg fmt) (recordStretch fmt)

/-- The condition on a step of one side: it gives its focus up cleanly. -/
def GivesUpCleanly (fmt : FloatFormat) (x : Side) (lh : Link × (Side → List InputEvent))
    (e : LinkInput) : Prop :=
  ∀ t ∈ lh.1.taken fmt e, t.1 = x →
    Session.GivesUpCleanly (lh.1.pair.session x, lh.2 x) t.2.1

/-- It can be decided whether an event releases nothing that is held. -/
instance decidableForallUp (t : Option (Toggle Switch)) (held : Finset Switch) :
    Decidable (∀ a, t = some (.up a) → a ∉ held) :=
  match t with
  | some (.up a) => decidable_of_iff (a ∉ held) (by simp)
  | some (.down _) => isTrue fun _ h ↦ (by cases h)
  | none => isTrue fun _ h ↦ (by cases h)

instance (st : Session × List InputEvent) : DecidablePred (Session.GivesUpCleanly st)
  | .control _ (some c) => inferInstanceAs (Decidable (st.1.daemon.focusIsRemote = true →
      c.handsBack = true → replayEvents ∅ st.2 = ∅))
  | .captured _ _ => inferInstanceAs (Decidable (st.1.daemon.focusIsRemote = true →
      ∀ event ∈ st.1.channel.head?,
        checkEmergencyHotkey (trackKeyState st.1.daemon event) = true →
          ∀ a, event.toggle? = some (.up a) → a ∉ replayEvents ∅ st.2))
  | .control _ none | .push _ | .shutdown | .clipboardOutgoing _ _ | .clipboardReceived _
  | .captureClosed | .frame _ _ | .cleanup _ => isTrue fun _ ↦ trivial

instance (fmt : FloatFormat) (x : Side) (lh : Link × (Side → List InputEvent)) :
    DecidablePred (GivesUpCleanly fmt x lh) := fun e ↦
  inferInstanceAs (Decidable (∀ t ∈ lh.1.taken fmt e, t.1 = x →
    Session.GivesUpCleanly (lh.1.pair.session x, lh.2 x) t.2.1))

/-- Both conditions, for the frames towards one side. -/
def Settles (cfg : Side → SessionConfig) (fmt : FloatFormat) (x : Side)
    (lh : Link × (Side → List InputEvent)) (e : LinkInput) : Prop :=
  InTurn cfg fmt x lh.1 e ∧ GivesUpCleanly fmt x.other lh e

instance (cfg : Side → SessionConfig) (fmt : FloatFormat) (x : Side)
    (lh : Link × (Side → List InputEvent)) : DecidablePred (Settles cfg fmt x lh) :=
  fun _ ↦ inferInstanceAs (Decidable (_ ∧ _))

/-- The frames towards one side are in order, and what the sender's peer holds is accounted for. -/
structure Settled (x : Side) (lh : Link × (Side → List InputEvent)) : Prop where
  inOrder : ∃ frames, InOrder (lh.1.pair.session x.other).frames frames (lh.1.air x) ∧
    (lh.1.pair.session x).emitted = frames.flatMap EventFrame.events
  accounted : Session.Accounted (lh.1.pair.session x.other, lh.2 x.other)

section Settled

variable {cfg : Side → SessionConfig} {fmt : FloatFormat} {d : Side → DaemonState} {l l' : Link}
  {e : LinkInput} {x : Side} {i : Input} {stretch : Side → List InputEvent}

/-- What the sender sends gets into the air. -/
theorem InTurn.datagramOk {inbox : List ControlCommand} (h : InTurn cfg fmt x l e)
    (htaken : l.taken fmt e = some (x.other, i, inbox)) : i.datagramOk = true := by
  unfold taken at htaken
  split at htaken
  case h_1 => cases htaken
  case h_2 => cases htaken
  case h_3 =>
    cases htaken
    exact h rfl
  case h_4 =>
    split at htaken <;> cases htaken
    rfl
  case h_5 =>
    obtain ⟨f, hf, htaken⟩ := Option.map_eq_some_iff.1 htaken
    cases htaken
    rfl
  case h_6 => cases htaken

/-- The receiver takes a step. -/
theorem inOrder_receive (hemu : (cfg x).hasEmulator = true) (hturn : InTurn cfg fmt x l e)
    {frames : List EventFrame}
    (hframes : InOrder (l.pair.session x.other).frames frames (l.air x))
    (htakes : Takes fmt l e x i) :
    ∃ new, InOrder (l.pair.session x.other).frames (frames ++ new) (l.left e x) ∧
      emulated (cfg x) (l.pair.session x) i = new.flatMap EventFrame.events := by
  cases htakes with
  | nothing hleft hi =>
    refine ⟨[], ?_, emulated_eq_nil hi⟩
    rw [hleft, List.append_nil]
    exact hframes
  | frame env k f he hf hi hleft =>
    subst he
    obtain ⟨rfl, hread⟩ := hturn rfl
    obtain ⟨hdecode, hquiet⟩ := hread f (by rwa [List.head?_eq_getElem?])
    obtain ⟨rest, hrest⟩ : ∃ rest, l.air x = f :: rest := by
      cases hair : l.air x with
      | nil => simp [hair] at hf
      | cons g rest =>
        rw [hair, List.getElem?_cons_zero] at hf
        exact ⟨rest, by rw [Option.some.inj hf]⟩
    rw [hrest] at hframes hleft
    refine ⟨[f], ?_, ?_⟩
    · rw [hleft, Function.update_self]
      exact hframes.arrive
    · rw [hi, hdecode, List.flatMap_singleton]
      exact if_pos ⟨hemu, hquiet⟩

/-- At the start nothing is held down. -/
theorem settled_start : Settled x (start d, fun _ ↦ []) where
  inOrder := ⟨[], rfl, rfl⟩
  accounted := ⟨fun _ ↦ ⟨rfl, Finset.empty_subset _⟩, fun _ ↦ rfl⟩

/-- **A step that settles keeps the invariant.** -/
theorem Settled.step {lh lh' : Link × (Side → List InputEvent)} (h : Settled x lh)
    (hemu : (cfg x).hasEmulator = true) (hsettles : Settles cfg fmt x lh e)
    (hlh' : lh' ∈ stretchStep cfg fmt lh e) : Settled x lh' := by
  obtain ⟨l, stretch⟩ := lh
  obtain ⟨l', stretch'⟩ := lh'
  obtain ⟨hl', hstretch⟩ := mem_withHistory.1 hlh'
  obtain ⟨hturn, hclean⟩ := hsettles
  obtain ⟨⟨frames, hframes, hemitted⟩, haccounted⟩ := h
  dsimp only at hl' hstretch hturn hclean hframes hemitted haccounted
  subst hstretch
  cases move_of_step hl' with
  | lost y k he hpair hair =>
    subst he
    have hne : x ≠ y := fun hxy ↦ hturn hxy.symm
    refine ⟨⟨frames, ?_, by rw [hpair]; exact hemitted⟩, by rw [hpair]; exact haccounted⟩
    dsimp only
    rw [hpair, hair, Function.update_of_ne hne]
    exact hframes
  | moved y i s inbox htaken hs hsession hair =>
    have htakes := takes_of_taken htaken
    have hself : l'.pair.session y = s := by rw [hsession, Function.update_self]
    have hother : l'.pair.session y.other = l.pair.session y.other := by
      rw [hsession, Function.update_of_ne y.other_ne]
    have hrecord : recordStretch fmt stretch l e l' = Function.update stretch y
        (Session.recordStretch (stretch y) (l.pair.session y) i s) := by
      rw [recordStretch, htaken]
      dsimp only
      rw [hself]
    rw [hrecord]
    rcases Side.eq_or_eq_other y x with rfl | rfl
    · obtain ⟨new, hnew, hevents⟩ := inOrder_receive hemu hturn hframes htakes
      refine ⟨⟨frames ++ new, ?_, ?_⟩, ?_⟩
      · dsimp only
        rw [hother, hair, Function.update_of_ne x.other_ne.symm]
        exact hnew
      · dsimp only
        rw [hself, emitted_of_step hs, hemitted, hevents, List.flatMap_append]
      · dsimp only
        rw [hother, Function.update_of_ne x.other_ne]
        exact haccounted
    · rw [Side.other_other] at hframes haccounted hclean
      have hsent : sent i (l.pair.session y) s = ((l.pair.session y).sent? i).toList := by
        rw [sent, if_pos (hturn.datagramOk (by rwa [Side.other_other])),
          Session.frames_of_step hs, List.drop_left]
      refine ⟨⟨frames, ?_, by dsimp only; rw [hother]; exact hemitted⟩, ?_⟩
      · dsimp only
        rw [Side.other_other, hself, hair, Function.update_self, htakes.left_of_ne y.other_ne,
          hsent, Session.frames_of_step hs]
        exact hframes.send _
      · dsimp only
        rw [Side.other_other, hself, Function.update_self]
        exact Session.accounted_step haccounted (hclean _ htaken rfl)
          (mem_withHistory.2 ⟨hs, rfl⟩)

/-- What the emulator has been given, and what it holds down. -/
theorem Settled.held (h : Settled x (l, stretch)) :
    (l.pair.session x.other).forwarded =
        (l.pair.session x).emitted ++ (l.air x).flatMap EventFrame.events ∧
      (l.air x = [] →
        if (l.pair.session x.other).daemon.focusIsRemote then
          (l.pair.session x).held ⊆ (l.pair.session x.other).daemon.pressed
        else (l.pair.session x).held = ∅) := by
  obtain ⟨⟨frames, hframes, hemitted⟩, haccounted⟩ := h
  dsimp only at hframes hemitted haccounted
  have hforwarded : (l.pair.session x.other).forwarded =
      (l.pair.session x).emitted ++ (l.air x).flatMap EventFrame.events := by
    show (l.pair.session x.other).frames.flatMap EventFrame.events = _
    rw [hframes, List.flatMap_append, hemitted]
  refine ⟨hforwarded, fun hair ↦ ?_⟩
  have hheld : (l.pair.session x.other).peerHolds = (l.pair.session x).held := by
    rw [Session.peerHolds, Session.held, hforwarded, hair, List.flatMap_nil, List.append_nil]
  obtain ⟨hremote, hlocal⟩ := haccounted
  dsimp only at hremote hlocal
  rw [hheld] at hremote hlocal
  cases hfocus : (l.pair.session x.other).daemon.focusIsRemote with
  | false => exact hlocal hfocus
  | true => exact (hremote hfocus).2

/-- **What one side does, the other does.** When the datagrams towards one side arrive in order and
none is lost, and each is read and finds the side undisturbed, its emulator has been given exactly
what the other side forwarded, but for what is in the air. Once nothing is in the air, no key or
button is held down there that is not held down on the other side's devices, and if the other side
has its focus back, and has given it up cleanly each time, none is. -/
theorem held_of_run {is : List LinkInput} (hemu : (cfg x).hasEmulator = true)
    (hsettles : EachStep (stretchStep cfg fmt) (Settles cfg fmt x) (start d, fun _ ↦ []) is)
    (hrun : (l, stretch) ∈ run (stretchStep cfg fmt) (start d, fun _ ↦ []) is) :
    (l.pair.session x.other).forwarded =
        (l.pair.session x).emitted ++ (l.air x).flatMap EventFrame.events ∧
      (l.air x = [] →
        if (l.pair.session x.other).daemon.focusIsRemote then
          (l.pair.session x).held ⊆ (l.pair.session x.other).daemon.pressed
        else (l.pair.session x).held = ∅) := by
  have hsettled : Throughout (stretchStep cfg fmt) (Settled x) (start d, fun _ ↦ []) is :=
    throughout_of_guarded (fun _ _ h hC _ hlh' ↦ h.step hemu hC hlh')
      settled_start hsettles
  exact (hsettled.last hrun).held

end Settled

/-- Focus goes to the right, and a key is pressed there. -/
def pressRun : List LinkInput :=
  [.move .left (.push (.mouseMove (.finite 1000) (.finite 0))), .move .left (.captured (.at 0) 0),
    .deliver .right (.at 0), .move .left (.push (.key 30 .pressed)),
    .move .left (.captured (.at 0) 0), .receive .right (.at edgeCooldown) 0]

/-- In this run every frame arrives in its turn and finds the side undisturbed. -/
theorem settles_pressRun :
    EachStep (stretchStep (fun _ ↦ .fallback) .tenths) (Settles (fun _ ↦ .fallback) .tenths .right)
      (start fun _ ↦ .new .fallback 0, fun _ ↦ []) pressRun := by
  decide +kernel

/-- The key is held down on the right, and on the left where it was pressed. -/
theorem held_of_run_pressRun :
    ∃ lh ∈ run (stretchStep (fun _ ↦ .fallback) .tenths)
        (start fun _ ↦ .new .fallback 0, fun _ ↦ []) pressRun,
      (lh.1.pair.session .right).held = {.key 30} ∧
        {.key 30} ⊆ (lh.1.pair.session .left).daemon.pressed := by
  have hend : (run (stretchStep (fun _ ↦ .fallback) .tenths)
      (start fun _ ↦ .new .fallback 0, fun _ ↦ []) pressRun).map
        (fun lh ↦ ((lh.1.pair.session .left).daemon.focusIsRemote, lh.1.air .right,
          (lh.1.pair.session .right).held)) = some (true, [], {.key 30}) := by
    decide +kernel
  obtain ⟨⟨l, stretch⟩, hrun, hend⟩ := Option.map_eq_some_iff.1 hend
  obtain ⟨hfocus, hend⟩ := Prod.mk.inj hend
  obtain ⟨hair, hheld⟩ := Prod.mk.inj hend
  dsimp only at hfocus hair hheld
  have hsettled : if (l.pair.session .left).daemon.focusIsRemote then
      (l.pair.session .right).held ⊆ (l.pair.session .left).daemon.pressed
    else (l.pair.session .right).held = ∅ := (held_of_run rfl settles_pressRun hrun).2 hair
  rw [if_pos hfocus, hheld] at hsettled
  exact ⟨(l, stretch), hrun, hheld, hsettled⟩

end Link

end Kmflow
