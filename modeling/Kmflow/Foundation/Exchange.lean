import Kmflow.Foundation.Handover
import Mathlib.Data.List.Basic

/-!
# Two parties that take over each other's value

Each of two parties holds a value and has an inbox. A party may announce a value: it holds it from
then on, and puts it at the end of the other inbox. A party takes over the oldest value in its
inbox. Values arrive in order and none is lost.

What a party will hold once it has taken over everything on its way to it is its `final` value.
Taking a value over changes no final value (`final_receive`). Announcing one makes the final values
equal exactly when nothing else is on its way to the party that announces (`agreed_announce_iff`):
otherwise the two values cross, and the parties have swapped them when both inboxes are empty.
-/

namespace Exchange

open Handover

/-- The values and the inboxes, oldest value first. -/
structure State (V : Type*) where
  value : Side → V
  inbox : Side → List V

variable {V : Type*}

namespace State

/-- A party takes a value of its own and sends it. -/
def announce (p : State V) (x : Side) (v : V) : State V where
  value := Function.update p.value x v
  inbox := Function.update p.inbox x.other (p.inbox x.other ++ [v])

/-- A party takes over a value that leaves its inbox as given. -/
def receive (p : State V) (x : Side) (v : V) (inbox : List V) : State V where
  value := Function.update p.value x v
  inbox := Function.update p.inbox x inbox

/-- What a party holds once its inbox is empty, if nothing is announced before. -/
def final (p : State V) (x : Side) : V := (p.inbox x).getLast?.getD (p.value x)

/-- The parties are going to hold the same value. -/
def Agreed (p : State V) : Prop := ∀ x : Side, p.final x = p.final x.other

/-- One equation settles it. -/
theorem agreed_iff (p : State V) (x : Side) : p.Agreed ↔ p.final x = p.final x.other := by
  refine ⟨fun h ↦ h x, fun h y ↦ ?_⟩
  rcases Side.eq_or_eq_other x y with rfl | rfl
  · exact h
  · rw [Side.other_other]
    exact h.symm

theorem Agreed.value_eq {p : State V} (h : p.Agreed) (hempty : ∀ x, p.inbox x = []) (x : Side) :
    p.value x = p.value x.other := by
  have hfinal := h x
  rwa [final, final, hempty x, hempty x.other] at hfinal

/-- **Taking over changes no final value.** -/
theorem final_receive {p : State V} {x : Side} {v : V} {inbox : List V}
    (h : p.inbox x = v :: inbox) (y : Side) : (p.receive x v inbox).final y = p.final y := by
  rcases Side.eq_or_eq_other x y with rfl | rfl
  · simp only [final, receive, Function.update_self, h]
    cases inbox with
    | nil => rfl
    | cons w inbox => rw [List.getLast?_cons_cons, List.getLast?_cons]; rfl
  · simp only [final, receive, Function.update_of_ne (Side.other_ne x)]

/-- Receiving a value keeps the agreement, and does not make it. -/
theorem agreed_receive_iff {p : State V} {x : Side} {v : V} {inbox : List V}
    (h : p.inbox x = v :: inbox) : (p.receive x v inbox).Agreed ↔ p.Agreed := by
  rw [agreed_iff _ x, agreed_iff _ x, final_receive h, final_receive h]

/-- **Announcing makes the parties agree exactly when the values do not cross.** -/
theorem agreed_announce_iff (p : State V) (x : Side) (v : V) :
    (p.announce x v).Agreed ↔ ∀ w ∈ (p.inbox x).getLast?, w = v := by
  have hself : (p.announce x v).final x = (p.inbox x).getLast?.getD v := by
    simp only [final, announce, Function.update_self, Function.update_of_ne (Side.other_ne x).symm]
  have hother : (p.announce x v).final x.other = v := by
    simp only [final, announce, Function.update_self, List.getLast?_concat, Option.getD_some]
  rw [agreed_iff _ x, hself, hother]
  cases (p.inbox x).getLast? with
  | none => simp
  | some w => simp

end State

end Exchange
