import Mathlib.Data.Nat.Notation
import Mathlib.Logic.Function.Basic

/-!
# Two parties that take a flag from each other

Each of two parties has a flag and an inbox, a queue of messages from the other. A party may raise
its flag at any time, and announces it to the other one in the same step; it may lower its flag at
any time without a word; and it lowers it when it receives an announcement. Messages arrive in order
and none is lost. Nothing else is assumed: other messages may be mixed in, and both parties may
raise their flags at the same moment, so that the announcements cross.

The state carries the moment at which each party last raised its flag, on a clock that counts the
raises. `Settling` says that when both flags are up, the announcement of the later party is still on
its way to the earlier one; it is an invariant of every step (`Step.settling`). So two parties whose
inboxes are empty never both have their flags up (`Settling.not_both`).
-/

namespace Handover

/-- The two parties. -/
inductive Side where
  | left
  | right
  deriving DecidableEq

namespace Side

/-- The one across. -/
def other : Side → Side
  | left => right
  | right => left

@[simp] theorem other_other (x : Side) : x.other.other = x := by cases x <;> rfl

theorem other_ne (x : Side) : x.other ≠ x := by cases x <;> nofun

theorem eq_or_eq_other (x y : Side) : y = x ∨ y = x.other := by
  cases x <;> cases y <;> simp [other]

end Side

/-- The flags, the inboxes (oldest message first) and the moments of the last raises. -/
structure State (M : Type*) where
  flag : Side → Bool
  inbox : Side → List M
  clock : ℕ
  raisedAt : Side → ℕ

variable {M : Type*} (announces : M → Prop)

/-- A party's move: its flag, its inbox and the messages it appends to the other inbox change. -/
def State.move (p : State M) (x : Side) (flag : Bool) (inbox sent : List M) : State M where
  flag := Function.update p.flag x flag
  inbox := Function.update (Function.update p.inbox x inbox) x.other (p.inbox x.other ++ sent)
  clock := if p.flag x = false ∧ flag = true then p.clock + 1 else p.clock
  raisedAt :=
    if p.flag x = false ∧ flag = true then Function.update p.raisedAt x (p.clock + 1)
    else p.raisedAt

/-- One step of one party. -/
inductive Step (p : State M) : State M → Prop
  /-- Raise the flag and announce it, whatever happens to the inbox. -/
  | raise (x : Side) (inbox sent : List M) (hflag : p.flag x = false)
      (hsent : ∃ m ∈ sent, announces m) : Step p (p.move x true inbox sent)
  /-- Keep or lower the flag, without reading the inbox. -/
  | hold (x : Side) (flag : Bool) (sent : List M) (hflag : flag = true → p.flag x = true) :
      Step p (p.move x flag (p.inbox x) sent)
  /-- Read one message; an announcement lowers the flag. -/
  | receive (x : Side) (flag : Bool) (m : M) (inbox sent : List M) (hinbox : p.inbox x = m :: inbox)
      (hflag : flag = true → p.flag x = true) (hm : announces m → flag = false) :
      Step p (p.move x flag inbox sent)

/-- When both flags are up, one party raised its own later, and its announcement is still on the way
to the other one. -/
structure Settling (p : State M) : Prop where
  raisedAt_le : ∀ x, p.raisedAt x ≤ p.clock
  raisedAt_ne : ∀ x, p.flag x = true → p.flag x.other = true → p.raisedAt x ≠ p.raisedAt x.other
  inFlight : ∀ x, p.flag x = true → p.flag x.other = true → p.raisedAt x < p.raisedAt x.other →
    ∃ m ∈ p.inbox x, announces m

section Move

variable (p : State M) (x : Side) (flag : Bool) (inbox sent : List M)

@[simp] theorem move_flag_self : (p.move x flag inbox sent).flag x = flag :=
  Function.update_self ..

@[simp] theorem move_flag_other : (p.move x flag inbox sent).flag x.other = p.flag x.other :=
  Function.update_of_ne x.other_ne ..

@[simp] theorem move_inbox_self : (p.move x flag inbox sent).inbox x = inbox := by
  show Function.update (Function.update p.inbox x inbox) x.other _ x = inbox
  rw [Function.update_of_ne x.other_ne.symm, Function.update_self]

@[simp] theorem move_inbox_other :
    (p.move x flag inbox sent).inbox x.other = p.inbox x.other ++ sent :=
  Function.update_self ..

end Move

variable {announces} {p q : State M}

/-- A step that does not raise the flag settles, when the mover's own inbox keeps the announcement
it needs. -/
theorem Settling.move {x : Side} {flag : Bool} {inbox sent : List M} (h : Settling announces p)
    (hflag : flag = true → p.flag x = true)
    (hinbox : flag = true → (∃ m ∈ p.inbox x, announces m) → ∃ m ∈ inbox, announces m) :
    Settling announces (p.move x flag inbox sent) := by
  have hquiet : ¬ (p.flag x = false ∧ flag = true) := fun hraise ↦ by
    simp [hflag hraise.2] at hraise
  have hclock : (p.move x flag inbox sent).clock = p.clock := if_neg hquiet
  have hraised : (p.move x flag inbox sent).raisedAt = p.raisedAt := if_neg hquiet
  have hboth : ∀ y, (p.move x flag inbox sent).flag y = true →
      (p.move x flag inbox sent).flag y.other = true →
        flag = true ∧ p.flag y = true ∧ p.flag y.other = true := by
    intro y hy hy'
    rcases Side.eq_or_eq_other x y with rfl | rfl
    · simp only [move_flag_self, move_flag_other] at hy hy'
      exact ⟨hy, hflag hy, hy'⟩
    · simp only [Side.other_other, move_flag_self, move_flag_other] at hy hy' ⊢
      exact ⟨hy', hy, hflag hy'⟩
  refine ⟨fun y ↦ ?_, fun y hy hy' ↦ ?_, fun y hy hy' hlt ↦ ?_⟩
  · rw [hclock, hraised]
    exact h.raisedAt_le y
  · rw [hraised]
    exact h.raisedAt_ne y (hboth y hy hy').2.1 (hboth y hy hy').2.2
  · rw [hraised] at hlt
    obtain ⟨hup, hpy, hpy'⟩ := hboth y hy hy'
    have hbefore := h.inFlight y hpy hpy' hlt
    rcases Side.eq_or_eq_other x y with rfl | rfl
    · rw [move_inbox_self]
      exact hinbox hup hbefore
    · -- the mover only appends to the other inbox
      obtain ⟨m, hm, hannounce⟩ := hbefore
      rw [move_inbox_other]
      exact ⟨m, List.mem_append_left _ hm, hannounce⟩

/-- Raising a flag settles: the mover is the later party now, and its announcement is on the way. -/
theorem Settling.raise {x : Side} {inbox sent : List M} (h : Settling announces p)
    (hflag : p.flag x = false) (hsent : ∃ m ∈ sent, announces m) :
    Settling announces (p.move x true inbox sent) := by
  have hclock : (p.move x true inbox sent).clock = p.clock + 1 := if_pos ⟨hflag, rfl⟩
  have hraised : (p.move x true inbox sent).raisedAt =
      Function.update p.raisedAt x (p.clock + 1) := if_pos ⟨hflag, rfl⟩
  have hself : (p.move x true inbox sent).raisedAt x = p.clock + 1 := by
    rw [hraised, Function.update_self]
  have hother : (p.move x true inbox sent).raisedAt x.other ≤ p.clock := by
    rw [hraised, Function.update_of_ne x.other_ne]
    exact h.raisedAt_le _
  refine ⟨fun y ↦ ?_, fun y _ _ ↦ ?_, fun y _ _ hlt ↦ ?_⟩
  · rw [hclock]
    rcases Side.eq_or_eq_other x y with rfl | rfl
    · exact Nat.le_of_eq hself
    · omega
  · rcases Side.eq_or_eq_other x y with rfl | rfl
    · rw [hself]
      omega
    · rw [Side.other_other, hself]
      omega
  · rcases Side.eq_or_eq_other x y with rfl | rfl
    · rw [hself] at hlt
      omega
    · obtain ⟨m, hm, hannounce⟩ := hsent
      rw [move_inbox_other]
      exact ⟨m, List.mem_append_right _ hm, hannounce⟩

/-- **Every step settles.** -/
theorem Step.settling (hstep : Step announces p q) (h : Settling announces p) :
    Settling announces q := by
  cases hstep with
  | raise x inbox sent hflag hsent => exact h.raise hflag hsent
  | hold x flag sent hflag => exact h.move hflag fun _ hm ↦ hm
  | receive x flag m inbox sent hinbox hflag hm =>
    refine h.move hflag fun hup hbefore ↦ ?_
    obtain ⟨m', hm', hannounce⟩ := hbefore
    rw [hinbox] at hm'
    rcases List.mem_cons.1 hm' with rfl | hm'
    · simp [hm hannounce] at hup
    · exact ⟨m', hm', hannounce⟩

/-- With both flags up, the earlier party has an announcement to read. -/
theorem Settling.exists_inFlight (h : Settling announces p) (hboth : ∀ x, p.flag x = true) :
    ∃ x, p.raisedAt x < p.raisedAt x.other ∧ ∃ m ∈ p.inbox x, announces m := by
  have hne := h.raisedAt_ne .left (hboth _) (hboth _)
  rcases Nat.lt_or_gt_of_ne hne with hlt | hlt
  · exact ⟨.left, hlt, h.inFlight _ (hboth _) (hboth _) hlt⟩
  · exact ⟨.right, hlt, h.inFlight .right (hboth _) (hboth _) hlt⟩

/-- With nothing in flight, the two flags are not both up. -/
theorem Settling.not_both (h : Settling announces p) (hquiet : ∀ x, p.inbox x = []) :
    ¬ ∀ x, p.flag x = true := by
  intro hboth
  obtain ⟨x, -, m, hm, -⟩ := h.exists_inFlight hboth
  rw [hquiet x] at hm
  cases hm

end Handover
