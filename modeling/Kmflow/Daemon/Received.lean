import Kmflow.Daemon.Outcome
import Kmflow.Daemon.Scan

/-!
# What the emulator is given

A frame that arrives while focus is local is gone over twice: first its moves, to track the cursor
and look for the edge, and then, unless a move has hit it, all of its events, to give them to the
emulator. So a frame is emulated as a whole or not at all, and what decides is where its moves take
the cursor (`Passes`). `emitted_of_step` says so for every step of a session.

From this follow three facts about keys and buttons. A frame whose moves do not pass loses all its
transitions, those before the hit included (`keepsTransitions_iff`). Frames are emulated in the
order of their arrival, whatever their numbers say, so reordering matters as soon as it changes
which frame touches some switch last (`held_eq_iff`). And the cleanup gives the emulator nothing, so
what the frames of a session have pressed and not released stays held (`leavesNothingHeld_iff`).
-/

namespace Kmflow

open Transition

/-! ### What one step gives to the emulator -/

/-- The events a step gives to the emulator: those of a frame that arrives while focus is local and
whose moves pass. -/
def emulated (cfg : SessionConfig) (s : Session) : Input → List InputEvent
  | .frame env (some frame) =>
    if cfg.hasEmulator = true ∧ s.daemon.focusIsRemote = false ∧
        Passes cfg (inCooldown env s.daemon) s.daemon frame.events then
      frame.events
    else []
  | _ => []

/-- Plain outputs give the emulator nothing. -/
theorem emitted_of_isPlain {outs : List Output} (h : outs.all Output.isPlain = true) :
    Output.emitted outs = [] :=
  filterMap_eq_nil_of_isPlain (fun o ho ↦ by cases o <;> first | rfl | cases ho) h

/-- Of a frame the emulator is given what the definition says. -/
theorem emitted_of_frameReaction {cfg : SessionConfig} {env : Env} {s : Session}
    {onHit : List Output} {frame : EventFrame} {r : Reaction}
    (h : FrameReaction cfg env s.daemon onHit (some frame) r)
    (hplain : onHit.all Output.isPlain = true) :
    Output.emitted r.outputs = emulated cfg s (.frame env (some frame)) := by
  rw [emulated]
  cases h with
  | ignored _ hfocus => simp [hfocus, Output.emitted]
  | panicked _ t _ hscan =>
    rw [if_neg fun hpasses ↦ ?_]
    · rfl
    · obtain ⟨u, hu⟩ := passes_iff_scanMoves.1 hpasses.2.2
      cases hscan.symm.trans hu
  | hit _ t _ hscan =>
    rw [if_neg fun hpasses ↦ ?_, emitted_of_isPlain hplain]
    obtain ⟨u, hu⟩ := passes_iff_scanMoves.1 hpasses.2.2
    cases hscan.symm.trans hu
  | passed _ t hfocus hscan =>
    have hpasses := passes_iff_scanMoves.2 ⟨t, hscan⟩
    cases hemu : cfg.hasEmulator with
    | true =>
      simp [hfocus, hpasses, Output.emitted, List.filterMap_map, Function.comp_def, Output.emit?]
    | false => simp [Output.emitted]

/-- **Only frames reach the emulator**, in the order of their arrival. -/
theorem emitted_of_step {cfg : SessionConfig} {s s' : Session} {i : Input}
    (hs' : s' ∈ Session.step cfg s i) : s'.emitted = s.emitted ++ emulated cfg s i := by
  have habsorb {r : Reaction} {channel : List InputEvent} :
      (s.absorb r channel).emitted = s.emitted ++ Output.emitted r.outputs :=
    Output.emitted_append _ _
  have hplain {r : Reaction} {channel : List InputEvent}
      (hr : r.outputs.all Output.isPlain = true) :
      (s.absorb r channel).emitted = s.emitted ++ [] := by
    rw [habsorb, emitted_of_isPlain hr]
  cases armStep_of_step hs' with
  | push => exact (List.append_nil _).symm
  | captured => exact hplain (isPlain_capturedArm _ _ _ _ _)
  | captureClosed | shutdown => exact hplain rfl
  | clipboardReceived => exact habsorb
  | frame env result =>
    cases result with
    | none => exact hplain rfl
    | some frame => rw [habsorb, emitted_of_frameReaction (frameReaction_arms _ _ _ _).1 rfl]
  | control => exact hplain (isPlain_controlArm _ _ _ _)
  | receiveOnlyFrame env result =>
    cases result with
    | none => exact hplain rfl
    | some frame => rw [habsorb, emitted_of_frameReaction (frameReaction_arms _ _ _ _).2 rfl]
  | receiveOnlyControl => exact hplain (isPlain_receiveOnlyControlArm _ _ _)
  | clipboardOutgoing payload sent => cases sent <;> exact habsorb
  | cleanup env =>
    exact (Output.emitted_append _ _).trans
      (congrArg (s.emitted ++ ·) (emitted_of_isPlain (isPlain_cleanup env s.daemon)))

namespace Session

/-! ### The keys and buttons of one frame -/

/-- The key and button events of a frame have all been given to the emulator, once and in order, and
no others. -/
def KeepsTransitions (s : Session) (frame : EventFrame) (s' : Session) : Prop :=
  s'.emitted.filter InputEvent.isSwitch =
    s.emitted.filter InputEvent.isSwitch ++ frame.events.filter InputEvent.isSwitch

instance (s : Session) (frame : EventFrame) (s' : Session) :
    Decidable (KeepsTransitions s frame s') :=
  inferInstanceAs (Decidable (_ = _))

/-- **A frame keeps its keys and buttons when its moves pass**, or when it has none. In either loop,
with focus local and an emulator at hand, these are the only cases. -/
theorem keepsTransitions_iff {cfg : SessionConfig} (hemu : cfg.hasEmulator = true)
    {s s' : Session} {env : Env} {frame : EventFrame} (hfocus : s.daemon.focusIsRemote = false)
    (hs' : s' ∈ step cfg s (.frame env (some frame))) :
    KeepsTransitions s frame s' ↔
      Passes cfg (inCooldown env s.daemon) s.daemon frame.events ∨
        frame.events.filter InputEvent.isSwitch = [] := by
  rw [KeepsTransitions, emitted_of_step hs', List.filter_append, List.append_cancel_left_eq,
    emulated]
  by_cases hpasses : Passes cfg (inCooldown env s.daemon) s.daemon frame.events
  · rw [if_pos ⟨hemu, hfocus, hpasses⟩]
    simp [hpasses]
  · rw [if_neg fun h ↦ hpasses h.2.2]
    simp only [hpasses, false_or, List.filter_nil]
    exact eq_comm

/-- A key goes down, the pointer moves, and the key comes up. -/
def dragFrame : EventFrame :=
  ⟨1, 0, [.key 30 .pressed, .mouseMove (.finite 10) (.finite 0), .key 30 .released]⟩

/-- The session after `dragFrame`. -/
def dragged : Session where
  daemon := { DaemonState.new .fallback 0 with cursorX := 970 }
  channel := []
  phase := .mainLoop
  outputs := dragFrame.events.map .emit

/-- The move passes, and press and release come through. -/
theorem keepsTransitions_iff_dragFrame :
    KeepsTransitions (start (.new .fallback 0)) dragFrame dragged := by
  have hpasses : Passes .fallback (inCooldown (.at edgeCooldown) (.new .fallback 0))
      (.new .fallback 0) dragFrame.events := by
    decide +kernel
  exact (@keepsTransitions_iff .fallback rfl _ _ (.at edgeCooldown) _ rfl rfl).2 (.inl hpasses)

/-- A key that was pressed comes up, and the pointer goes to the right edge. -/
def pressFrame : EventFrame := ⟨1, 0, [.key 30 .pressed]⟩

/-- The release of the key, together with the move that hits the edge. -/
def swipeFrame : EventFrame := ⟨2, 0, [.key 30 .released, .mouseMove (.finite 2000) (.finite 0)]⟩

/-- The release is lost with the frame, and the key stays down. -/
theorem not_keepsTransitions_swipeFrame :
    ∃ s ∈ run (step .fallback) (start (.new .fallback 0)) [.frame (.at edgeCooldown) pressFrame],
      ∃ s' ∈ step .fallback s (.frame (.at edgeCooldown) swipeFrame),
        s.daemon.focusIsRemote = false ∧ ¬ KeepsTransitions s swipeFrame s' ∧
          replayEvents ∅ s'.emitted = {.key 30} := by
  have hview : ((run (step .fallback) (start (.new .fallback 0))
      [.frame (.at edgeCooldown) pressFrame]).bind fun s ↦
        (step .fallback s (.frame (.at edgeCooldown) swipeFrame)).map fun s' ↦
          (s.daemon.focusIsRemote, s.emitted, s'.emitted)) =
        some (false, [.key 30 .pressed], [.key 30 .pressed]) := by
    decide +kernel
  obtain ⟨s, hs, hview⟩ := Option.bind_eq_some_iff.1 hview
  obtain ⟨s', hs', hview⟩ := Option.map_eq_some_iff.1 hview
  simp only [Prod.mk.injEq] at hview
  obtain ⟨hfocus, hemitted, hemitted'⟩ := hview
  refine ⟨s, hs, s', hs', hfocus, ?_, ?_⟩
  · rw [KeepsTransitions, hemitted, hemitted']
    decide
  · rw [hemitted']
    decide

/-! ### Frames out of order -/

/-- What the emulator holds down. -/
def held (s : Session) : Finset Switch := replayEvents ∅ s.emitted

/-- The frame a step receives. -/
def received : Input → Option EventFrame
  | .frame _ (some frame) => some frame
  | _ => none

/-- Focus is local, and a frame that arrives does not hit the edge. -/
def Undisturbed (cfg : SessionConfig) (s : Session) : Input → Prop
  | .frame env (some frame) =>
    s.daemon.focusIsRemote = false ∧ Passes cfg (inCooldown env s.daemon) s.daemon frame.events
  | _ => s.daemon.focusIsRemote = false

instance (cfg : SessionConfig) (s : Session) : DecidablePred (Undisturbed cfg s)
  | .frame _ (some _) => inferInstanceAs (Decidable (_ ∧ _))
  | .push _ | .shutdown | .clipboardOutgoing _ _ | .clipboardReceived _ | .captured _ _
  | .captureClosed | .frame _ none | .control _ _ | .cleanup _ =>
    inferInstanceAs (Decidable (_ = _))

/-- An undisturbed run gives the emulator the events of the frames it receives, frame by frame. -/
theorem emitted_of_undisturbed {cfg : SessionConfig} (hemu : cfg.hasEmulator = true)
    {s t : Session} {is : List Input} (ht : t ∈ run (step cfg) s is)
    (his : EachStep (step cfg) (Undisturbed cfg) s is) :
    t.emitted = s.emitted ++ (is.filterMap received).flatMap EventFrame.events := by
  induction is generalizing s with
  | nil =>
    obtain rfl := Option.some.inj ht
    simp
  | cons i is ih =>
    obtain ⟨s', hs', ht⟩ := Option.bind_eq_some_iff.1 ht
    obtain ⟨hquiet, his⟩ := his s' hs'
    have hi : emulated cfg s i = ((received i).map EventFrame.events).getD [] := by
      cases i with
      | frame env result =>
        cases result with
        | none => rfl
        | some frame => exact if_pos ⟨hemu, hquiet⟩
      | _ => rfl
    rw [ih ht his, emitted_of_step hs', hi, List.append_assoc, List.filterMap_cons]
    cases received i <;> rfl

/-- The frames a sender makes of its batches: each gets a time and the next number. -/
def numberFrames (s : DaemonState) : List (UInt64 × List InputEvent) → List EventFrame
  | [] => []
  | (timestampUs, events) :: batches =>
    let (s, seq) := nextSeq s
    ⟨seq, timestampUs, events⟩ :: numberFrames s batches

/-- Each batch makes a frame. -/
theorem length_numberFrames (s : DaemonState) (batches : List (UInt64 × List InputEvent)) :
    (numberFrames s batches).length = batches.length := by
  induction batches generalizing s with
  | nil => rfl
  | cons batch batches ih => exact congrArg (· + 1) (ih (nextSeq s).1)

/-- The frames are numbered one after the other, from the counter on. -/
theorem seq_getElem_numberFrames {s : DaemonState} {batches : List (UInt64 × List InputEvent)}
    {k : ℕ} (hk : k < (numberFrames s batches).length) :
    (numberFrames s batches)[k].seq = s.seqCounter + .ofNat (k + 1) := by
  induction batches generalizing s k with
  | nil => exact absurd hk (Nat.not_lt_zero k)
  | cons batch batches ih =>
    cases k with
    | zero => rfl
    | succ k =>
      refine (ih (s := (nextSeq s).1) (Nat.lt_of_succ_lt_succ hk)).trans ?_
      show s.seqCounter + 1 + .ofNat (k + 1) = s.seqCounter + .ofNat (k + 1 + 1)
      rw [UInt32.add_assoc, UInt32.ofNat_add (k + 1) 1, UInt32.add_comm 1]
      rfl

/-- Frames in the order of their numbers. As the counter may come round, the numbers are counted
from where it was when the sender began. -/
def bySeq (counter : UInt32) (frames : List EventFrame) : List EventFrame :=
  frames.mergeSort fun f g ↦ decide (f.seq - counter ≤ g.seq - counter)

/-- Until the counter is back where it was, the frames are in the order of their numbers. -/
theorem pairwise_numberFrames {s : DaemonState} {batches : List (UInt64 × List InputEvent)}
    (hlength : batches.length < 4294967296) :
    (numberFrames s batches).Pairwise fun f g ↦ f.seq - s.seqCounter < g.seq - s.seqCounter := by
  refine List.pairwise_iff_getElem.2 fun j k hj hk hjk ↦ ?_
  have hcount (n : ℕ) : s.seqCounter + .ofNat n - s.seqCounter = .ofNat n := by
    rw [UInt32.add_comm, UInt32.add_sub_cancel]
  rw [seq_getElem_numberFrames, seq_getElem_numberFrames, hcount, hcount, UInt32.lt_iff_toNat_lt,
    UInt32.toNat_ofNat', UInt32.toNat_ofNat']
  rw [length_numberFrames] at hk
  omega

/-- **However the frames arrive, their numbers tell the order** in which they were sent. -/
theorem bySeq_eq_numberFrames {s : DaemonState} {batches : List (UInt64 × List InputEvent)}
    {frames : List EventFrame} (hperm : frames.Perm (numberFrames s batches))
    (hlength : batches.length < 4294967296) :
    bySeq s.seqCounter frames = numberFrames s batches := by
  have hpairwise := pairwise_numberFrames (s := s) hlength
  have hdistinct : ((numberFrames s batches).map fun f ↦ f.seq - s.seqCounter).Nodup :=
    List.pairwise_map.2 (hpairwise.imp UInt32.ne_of_lt)
  have hsort : (bySeq s.seqCounter frames).Perm (numberFrames s batches) :=
    (List.mergeSort_perm ..).trans hperm
  have hsorted : (bySeq s.seqCounter frames).Pairwise
      fun f g ↦ f.seq - s.seqCounter ≤ g.seq - s.seqCounter := by
    refine (List.pairwise_mergeSort (fun f g h hfg hgh ↦ ?_) (fun f g ↦ ?_) _).imp
      of_decide_eq_true
    · exact decide_eq_true (UInt32.le_trans (of_decide_eq_true hfg) (of_decide_eq_true hgh))
    · simpa using UInt32.le_total _ _
  refine List.Perm.eq_of_pairwise (fun f g hf hg hfg hgf ↦ ?_) hsorted
    (hpairwise.imp UInt32.le_of_lt) hsort
  exact List.inj_on_of_nodup_map hdistinct (hsort.subset hf) hg (UInt32.le_antisymm hfg hgf)

/-- How a key or button is left by the last of the frames that touch it. -/
def lastLeft (a : Switch) (frames : List EventFrame) : Option Bool :=
  (Toggle.lefts a (frames.map fun f ↦ f.events.filterMap InputEvent.toggle?)).getLast?

/-- **When reordering does not matter.** A sender numbers its frames, and they arrive in some order,
each once, while focus is local and no edge is hit. What the receiver's emulator holds down at the
end is what replaying the frames in the order of their numbers would leave exactly when each key and
button is left the same by the last frame that touches it. Until the counter is back where it was,
that order is the one the receiver could tell from the numbers. -/
theorem held_eq_iff {cfg : SessionConfig} (hemu : cfg.hasEmulator = true) {d sender : DaemonState}
    {batches : List (UInt64 × List InputEvent)} {is : List Input} {t : Session}
    (ht : t ∈ run (step cfg) (start d) is)
    (his : EachStep (step cfg) (Undisturbed cfg) (start d) is)
    (hperm : (is.filterMap received).Perm (numberFrames sender batches)) :
    (t.held = replayEvents ∅ ((numberFrames sender batches).flatMap EventFrame.events) ↔
      ∀ a, lastLeft a (is.filterMap received) = lastLeft a (numberFrames sender batches)) ∧
    (batches.length < 4294967296 →
      bySeq sender.seqCounter (is.filterMap received) = numberFrames sender batches) := by
  refine ⟨?_, bySeq_eq_numberFrames hperm⟩
  have hflatten (frames : List EventFrame) : replayEvents ∅ (frames.flatMap EventFrame.events) =
      Toggle.replay ∅ (frames.map fun f ↦ f.events.filterMap InputEvent.toggle?).flatten := by
    rw [replayEvents, List.filterMap_flatMap, ← List.flatMap_def]
  have hemitted : t.emitted = (is.filterMap received).flatMap EventFrame.events :=
    emitted_of_undisturbed hemu ht his
  rw [held, hemitted, hflatten, hflatten]
  exact Toggle.replay_flatten_eq_iff (hperm.map _) ∅

/-- The frames arrive at once, in the order given. -/
def arrive (frames : List EventFrame) : List Input :=
  frames.map fun frame ↦ .frame (.at edgeCooldown) (some frame)

/-- The session after some frames without moves. -/
def afterFrames (frames : List EventFrame) : Session where
  daemon := .new .fallback 0
  channel := []
  phase := .mainLoop
  outputs := (frames.flatMap EventFrame.events).map .emit

/-- Two keys are pressed. -/
def chordFrames : List EventFrame :=
  numberFrames (.new .fallback 0) [(0, [.key 30 .pressed]), (5, [.key 31 .pressed])]

/-- It does not matter which of the two frames arrives first. -/
theorem held_eq_iff_chordFrames :
    (afterFrames chordFrames.reverse).held =
      replayEvents ∅ ((bySeq 0 chordFrames.reverse).flatMap EventFrame.events) := by
  have hperm : ((arrive chordFrames.reverse).filterMap received).Perm chordFrames := by
    decide +kernel
  obtain ⟨hiff, hseq⟩ := @held_eq_iff .fallback rfl (.new .fallback 0) (.new .fallback 0)
    [(0, [.key 30 .pressed]), (5, [.key 31 .pressed])] (arrive chordFrames.reverse)
    (afterFrames chordFrames.reverse) rfl (by decide +kernel) hperm
  have hsorted : bySeq 0 chordFrames.reverse = chordFrames := hseq (by decide)
  rw [hsorted]
  refine hiff.2 fun a ↦ ?_
  show (Toggle.lefts a [[.down (.key 31)], [.down (.key 30)]]).getLast? =
    (Toggle.lefts a [[.down (.key 30)], [.down (.key 31)]]).getLast?
  have hlast (c : UInt32) : Toggle.last a [.down (.key c)] = none ∨
      Toggle.last a [.down (.key c)] = some true := by
    rw [Toggle.last_singleton]
    split_ifs
    · exact .inr rfl
    · exact .inl rfl
  rcases hlast 30 with h30 | h30 <;> rcases hlast 31 with h31 | h31 <;>
    simp [Toggle.lefts, h30, h31]

/-- A key is pressed and released, in two frames. -/
def tapFrames : List EventFrame :=
  numberFrames (.new .fallback 0) [(0, [.key 30 .pressed]), (5, [.key 30 .released])]

/-- The release arrives before the press, and the key stays down. -/
theorem not_held_eq_tapFrames :
    ((arrive tapFrames.reverse).filterMap received).Perm tapFrames ∧
      EachStep (step .fallback) (Undisturbed .fallback) (start (.new .fallback 0))
        (arrive tapFrames.reverse) ∧
      ∃ t ∈ run (step .fallback) (start (.new .fallback 0)) (arrive tapFrames.reverse),
        t.held = {.key 30} ∧ replayEvents ∅ (tapFrames.flatMap EventFrame.events) = ∅ :=
  ⟨by decide +kernel, by decide +kernel, afterFrames tapFrames.reverse, rfl, by decide, by decide⟩

/-! ### What is left when the session ends -/

/-- After the cleanup, every press given to the emulator has been followed by a release. -/
def LeavesNothingHeld (s : Session) : Prop :=
  s.phase = .cleanedUp → ∀ before a after,
    s.emitted.filterMap InputEvent.toggle? = before ++ .down a :: after → .up a ∈ after

/-- The history variable: what the frames that were emulated have pressed and not released. -/
def recordPressed (cfg : SessionConfig) (pressed : Finset Switch) (s : Session) (i : Input)
    (_ : Session) : Finset Switch :=
  replayEvents pressed (emulated cfg s i)

/-- The session, with the record. -/
def pressedStep (cfg : SessionConfig) :
    Session × Finset Switch → Input → Option (Session × Finset Switch) :=
  withHistory (step cfg) (recordPressed cfg)

/-- The condition on a step: when the cleanup comes, the frames have released what they pressed. -/
def Released (sp : Session × Finset Switch) : Input → Prop
  | .cleanup _ => sp.2 = ∅
  | _ => True

instance (sp : Session × Finset Switch) : DecidablePred (Released sp)
  | .cleanup _ => inferInstanceAs (Decidable (_ = _))
  | .push _ | .shutdown | .clipboardOutgoing _ _ | .clipboardReceived _ | .captured _ _
  | .captureClosed | .frame _ _ | .control _ _ => instDecidableTrue

/-- The cleanup comes last, and it gives the emulator nothing. -/
theorem phase_cleanedUp_of_step {cfg : SessionConfig} {s s' : Session} {i : Input}
    (hs' : s' ∈ step cfg s i) : s'.phase = .cleanedUp ↔ ∃ env, i = .cleanup env := by
  cases outcome_of_step hs' with
  | idle d outs phase hrun hd houts hphase hpush hcapt hclean hctrl =>
    refine ⟨fun h ↦ ?_, fun ⟨env, h⟩ ↦ absurd h (hclean env)⟩
    obtain rfl : phase = .cleanedUp := h
    rcases hphase with h | h | h
    · rcases hrun with hrun | hrun <;> rw [hrun] at h <;> cases h
    · cases h
    · cases h.1
  | push _ hphase => simp [hphase]
  | cleanup env => simp
  | keep _ _ _ _ _ _ _ _ hp => rcases hp with rfl | rfl <;> simp
  | forward => split_ifs <;> simp
  | _ => simp

/-- The invariant: the record is what the emulator holds down, and after the cleanup it is empty. -/
structure HeldRecorded (sp : Session × Finset Switch) : Prop where
  pressed : sp.2 = sp.1.held
  released : sp.1.phase = .cleanedUp → sp.2 = ∅

/-- Nothing is held exactly when every press was followed by a release. -/
theorem held_eq_empty_iff {s : Session} : s.held = ∅ ↔ ∀ before a after,
    s.emitted.filterMap InputEvent.toggle? = before ++ .down a :: after → .up a ∈ after :=
  Toggle.replay_empty_eq_empty_iff

/-- The invariant says that the session leaves nothing held. -/
theorem HeldRecorded.leavesNothingHeld {sp : Session × Finset Switch} (hsp : HeldRecorded sp) :
    sp.1.LeavesNothingHeld :=
  fun hphase ↦ held_eq_empty_iff.1 (hsp.pressed.symm.trans (hsp.released hphase))

/-- What is held changes with what is emulated. -/
theorem held_of_step {cfg : SessionConfig} {s s' : Session} {i : Input}
    (hs' : s' ∈ step cfg s i) : s'.held = replayEvents s.held (emulated cfg s i) := by
  rw [held, emitted_of_step hs', replayEvents_append, held]

/-- A step that meets the condition keeps the invariant. -/
theorem heldRecorded_step {cfg : SessionConfig} {sp sp' : Session × Finset Switch} {i : Input}
    (hsp : HeldRecorded sp) (hi : Released sp i) (hsp' : sp' ∈ pressedStep cfg sp i) :
    HeldRecorded sp' := by
  obtain ⟨hs', hpressed⟩ := mem_withHistory.1 hsp'
  refine ⟨?_, fun hphase ↦ ?_⟩
  · rw [hpressed, held_of_step hs', hsp.pressed, recordPressed]
  · obtain ⟨env, rfl⟩ := (phase_cleanedUp_of_step hs').1 hphase
    exact hpressed.trans hi

/-- A cleanup that finds something pressed leaves it held. -/
theorem not_leavesNothingHeld_step {cfg : SessionConfig} {sp sp' : Session × Finset Switch}
    {i : Input} (hsp : HeldRecorded sp) (hi : ¬ Released sp i) (hsp' : sp' ∈ pressedStep cfg sp i) :
    ¬ sp'.1.LeavesNothingHeld := by
  obtain ⟨hs', _⟩ := mem_withHistory.1 hsp'
  cases i with
  | cleanup env =>
    intro hnothing
    have hempty := held_eq_empty_iff.2 (hnothing ((phase_cleanedUp_of_step hs').2 ⟨env, rfl⟩))
    rw [held_of_step hs'] at hempty
    exact hi (hsp.pressed.trans hempty)
  | _ => exact absurd trivial hi

/-- **The session leaves nothing held exactly when its frames do**: in every run from the start of a
session, the last state has a release after every press if and only if, when the cleanup came, the
frames that were emulated had themselves released all they pressed. -/
theorem leavesNothingHeld_iff (cfg : SessionConfig) (d : DaemonState) (is : List Input) :
    Throughout (step cfg) LeavesNothingHeld (start d) is ↔
      EachStep (pressedStep cfg) Released (start d, ∅) is := by
  rw [← throughout_withHistory (recordPressed cfg) ∅]
  refine throughout_iff_eachStep (I := HeldRecorded) (fun sp hsp ↦ hsp.leavesNothingHeld)
    (fun sp i hsp hi sp' hsp' ↦ heldRecorded_step hsp hi hsp')
    (fun sp i hsp hi sp' hsp' ↦ not_leavesNothingHeld_step hsp hi hsp')
    ⟨rfl, fun hphase ↦ by cases hphase⟩ is

/-- A key is pressed over the network, and the connection is cut. -/
def cutRun : List Input :=
  [.frame (.at edgeCooldown) (some pressFrame), .frame (.at edgeCooldown) none,
    .cleanup (.at edgeCooldown)]

/-- The key stays down after the cleanup. -/
theorem not_leavesNothingHeld_cutRun :
    ¬ Throughout (step .fallback) LeavesNothingHeld (start (.new .fallback 0)) cutRun := by
  have hview : (run (step .fallback) (start (.new .fallback 0)) cutRun).map
      (fun s ↦ (s.phase, s.emitted)) = some (.cleanedUp, [.key 30 .pressed]) := by
    decide +kernel
  obtain ⟨t, ht, hview⟩ := Option.map_eq_some_iff.1 hview
  obtain ⟨hphase, hemitted⟩ := Prod.mk.inj hview
  refine not_throughout_of_run ht fun hnothing ↦ ?_
  have hup := hnothing hphase [] (.key 30) [] (by rw [hemitted]; rfl)
  cases hup

end Session

end Kmflow
