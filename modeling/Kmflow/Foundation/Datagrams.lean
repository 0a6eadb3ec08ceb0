import Mathlib.Data.List.Perm.Subperm

/-!
# Messages in the air

One direction of an unreliable network, as three lists: what was sent, what has arrived, and what is
in the air. A message is put into the air or lost at once; from there it arrives, whatever was sent
before or after it, or it is lost. None arrives twice.

`AtMostOnce` is what holds whatever the network does: every message that was sent has arrived or is
in the air at most once. `InOrder` is what holds of a network that keeps the order and loses
nothing: what has arrived is the beginning of what was sent, and the rest is in the air.
-/

namespace Datagrams

open List

variable {α : Type*} {sent arrived air : List α}

/-- Each message that was sent has arrived or is in the air at most once. -/
def AtMostOnce (sent arrived air : List α) : Prop := arrived ++ air <+~ sent

/-- What was sent has arrived, but for the end of it, which is in the air. -/
def InOrder (sent arrived air : List α) : Prop := sent = arrived ++ air

section AtMostOnce

theorem AtMostOnce.arrived_subperm (h : AtMostOnce sent arrived air) : arrived <+~ sent :=
  (sublist_append_left arrived air).subperm.trans h

/-- Messages are sent, and some of them get into the air. -/
theorem AtMostOnce.send (h : AtMostOnce sent arrived air) {new out : List α} (hout : out <+ new) :
    AtMostOnce (sent ++ new) arrived (air ++ out) := by
  rw [AtMostOnce, ← append_assoc]
  exact h.append hout.subperm

/-- A message is lost. -/
theorem AtMostOnce.lose (h : AtMostOnce sent arrived air) (k : ℕ) :
    AtMostOnce sent arrived (air.eraseIdx k) :=
  ((eraseIdx_sublist air k).append_left arrived).subperm.trans h

/-- A message arrives. -/
theorem AtMostOnce.arrive (h : AtMostOnce sent arrived air) {k : ℕ} {a : α}
    (ha : air[k]? = some a) : AtMostOnce sent (arrived ++ [a]) (air.eraseIdx k) := by
  obtain ⟨hk, rfl⟩ := List.getElem?_eq_some_iff.1 ha
  have hperm : arrived ++ [air[k]] ++ air.eraseIdx k ~ arrived ++ air := by
    rw [append_assoc, singleton_append]
    exact (getElem_cons_eraseIdx_perm hk).append_left arrived
  exact hperm.subperm.trans h

end AtMostOnce

section InOrder

/-- Messages are sent, and all of them get into the air. -/
theorem InOrder.send (h : InOrder sent arrived air) (new : List α) :
    InOrder (sent ++ new) arrived (air ++ new) := by
  rw [InOrder, ← append_assoc, ← h]

/-- The oldest message arrives. -/
theorem InOrder.arrive {a : α} (h : InOrder sent arrived (a :: air)) :
    InOrder sent (arrived ++ [a]) air :=
  h.trans (append_cons arrived a air)

end InOrder

end Datagrams
