import Mathlib.Algebra.Order.BigOperators.Group.List
import Mathlib.Algebra.Order.Group.Nat
import Mathlib.Algebra.Ring.Nat

/-!
# Passes over a list

A pass that overwrites a value whenever an element gives one ends with what the last such element
gave (`foldl_getD_eq_getLastD`). Two passes of which one never gives more than the other come to the
same only if they agree on every element: for sums (`sum_map_eq_iff`), and for lists that are put
together from pieces (`flatMap_eq_iff`).
-/

namespace List

variable {α β : Type*}

/-- A pass that overwrites a value whenever an element gives one. -/
theorem foldl_getD_eq_getLastD (f : α → Option β) (d : β) (l : List α) :
    l.foldl (fun b a ↦ (f a).getD b) d = (l.filterMap f).getLastD d := by
  induction l generalizing d with
  | nil => rfl
  | cons a l ih =>
    rw [foldl_cons, ih]
    cases h : f a with
    | none => rw [filterMap_cons_none h, Option.getD_none]
    | some b => rw [filterMap_cons_some h, getLastD_cons, Option.getD_some]

/-- The sum of a list put together from pieces. -/
theorem sum_flatMap {M : Type*} [AddMonoid M] (f : α → List M) (l : List α) :
    (l.flatMap f).sum = (l.map fun a ↦ (f a).sum).sum := by
  induction l with
  | nil => rfl
  | cons a l ih => rw [flatMap_cons, sum_append, ih, map_cons, sum_cons]

/-- Sums of which one is the smaller element by element. -/
theorem sum_map_eq_iff {f g : α → ℕ} {l : List α} (h : ∀ a ∈ l, f a ≤ g a) :
    (l.map f).sum = (l.map g).sum ↔ ∀ a ∈ l, f a = g a := by
  induction l with
  | nil => simp
  | cons a l ih =>
    obtain ⟨ha, hl⟩ := forall_mem_cons.1 h
    have hsum : (l.map f).sum ≤ (l.map g).sum := sum_le_sum hl
    rw [forall_mem_cons, ← ih hl, map_cons, map_cons, sum_cons, sum_cons]
    omega

/-- Lists put together from pieces, where a piece that differs is the longer one. -/
theorem flatMap_eq_iff {f g : α → List β} {l : List α}
    (h : ∀ a ∈ l, f a = g a ∨ (g a).length < (f a).length) :
    l.flatMap f = l.flatMap g ↔ ∀ a ∈ l, f a = g a := by
  refine ⟨fun heq ↦ ?_, fun heq ↦ flatMap_congr heq⟩
  have hle : ∀ a ∈ l, (g a).length ≤ (f a).length := fun a ha ↦
    (h a ha).elim (fun hfg ↦ (congrArg length hfg).ge) le_of_lt
  have hlength : (l.map fun a ↦ (g a).length).sum = (l.map fun a ↦ (f a).length).sum := by
    rw [← length_flatMap, ← length_flatMap, heq]
  intro a ha
  exact (h a ha).resolve_right ((sum_map_eq_iff hle).1 hlength a ha).not_lt

end List
