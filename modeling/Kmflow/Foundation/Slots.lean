import Mathlib.Logic.Function.Basic

/-!
# Numbers that are given out again

A table says what each number in use stands for. A number that is given back is free, and may be
given out again for something else. On the other side each thing has, or has not, the number it was
given. `Backed` says that the two sides agree about the things that are kept track of: it is kept
when a free number is given out, when a number is given back by the thing it stands for, and by all
that happens to numbers of other things.

So a copy of a number that somebody else has kept is good for as long as the thing has its number.
Once the thing has given it back the copy does not stand for the thing, whatever else it may stand
for by then: that is the two directions of `Backed`.
-/

variable {ν κ : Type*}

/-- The table and the numbers that the things have agree. Nothing is said about things outside
`T`. -/
def Backed (T : κ → Prop) (table : ν → Option κ) (number : κ → Option ν) : Prop :=
  ∀ n k, T k → (table n = some k ↔ number k = some n)

namespace Backed

variable {T : κ → Prop} {table : ν → Option κ} {number : κ → Option ν} {n : ν} {k : κ}

/-- A free number is nobody's. -/
theorem ne_of_free (h : Backed T table number) (hfree : table n = none) (hk : T k) :
    number k ≠ some n := by
  intro hn
  rw [(h n k hk).2 hn] at hfree
  cases hfree

section Update

variable [DecidableEq ν]

/-- A free number is given to a thing that has none. -/
theorem acquire [DecidableEq κ] (h : Backed T table number) (hfree : table n = none)
    (hk : number k = none) :
    Backed T (Function.update table n (some k)) (Function.update number k (some n)) := by
  intro m j hj
  rcases eq_or_ne m n with rfl | hm
  · rw [Function.update_self]
    rcases eq_or_ne j k with rfl | hjk
    · simp
    · rw [Function.update_of_ne hjk]
      exact iff_of_false (fun heq ↦ hjk (Option.some.inj heq).symm) (h.ne_of_free hfree hj)
  · rw [Function.update_of_ne hm]
    rcases eq_or_ne j k with rfl | hjk
    · rw [Function.update_self, h m j hj, hk]
      exact iff_of_false nofun fun heq ↦ hm (Option.some.inj heq).symm
    · rw [Function.update_of_ne hjk]
      exact h m j hj

/-- A thing gives its number back. -/
theorem release [DecidableEq κ] (h : Backed T table number) (hk : T k) (hn : number k = some n) :
    Backed T (Function.update table n none) (Function.update number k none) := by
  intro m j hj
  rcases eq_or_ne j k with rfl | hjk
  · rw [Function.update_self]
    refine iff_of_false (fun hm ↦ ?_) nofun
    rcases eq_or_ne m n with rfl | hmn
    · rw [Function.update_self] at hm
      cases hm
    · rw [Function.update_of_ne hmn, h m j hj, hn] at hm
      exact hmn (Option.some.inj hm).symm
  · rw [Function.update_of_ne hjk]
    rcases eq_or_ne m n with rfl | hmn
    · rw [Function.update_self, ← h m j hj, (h m k hk).2 hn]
      exact iff_of_false nofun fun heq ↦ hjk (Option.some.inj heq).symm
    · rw [Function.update_of_ne hmn]
      exact h m j hj

/-- A number that stands for nothing that is kept track of changes its meaning, and stands for
nothing that is kept track of. -/
theorem update_other {before after : Option κ} (h : Backed T table number)
    (hn : table n = before) (hbefore : ∀ j ∈ before, ¬ T j) (hafter : ∀ j ∈ after, ¬ T j) :
    Backed T (Function.update table n after) number := by
  intro m j hj
  rcases eq_or_ne m n with rfl | hm
  · rw [Function.update_self, ← h m j hj, hn]
    exact iff_of_false (fun heq ↦ hafter j heq hj) fun heq ↦ hbefore j heq hj
  · rw [Function.update_of_ne hm]
    exact h m j hj

end Update

end Backed
