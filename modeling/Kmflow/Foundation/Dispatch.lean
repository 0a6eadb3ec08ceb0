import Mathlib.Data.List.Nodup
import Mathlib.Data.List.Perm.Subperm

/-!
# Items that are delivered at most once

Items are stamped with the time they are issued at and wait until they are delivered or discarded.
What a concrete queueing system needs, to deliver nothing twice, is to make only the moves of
`Step`: issue under a fresh stamp, deliver what is pending and forget it, discard. Where and in
which order the pending items are kept is left open, so pending items are compared up to
permutation.

The one invariant is `Sound`: what is delivered and what is pending carry pairwise different
stamps, all of them in the past. It is what makes a second delivery impossible
(`Sound.nodup_delivered`), and every move keeps it (`Sound.step`).
-/

/-- The clock, the stamps of what is pending, and the stamps of what was delivered, in order. -/
structure Dispatch where
  clock : ℕ
  pending : List ℕ
  delivered : List ℕ

namespace Dispatch

open List

/-- The moves that deliver nothing twice. -/
inductive Step (s : Dispatch) : Dispatch → Prop
  /-- A new item, under the next stamp. -/
  | issue {pending : List ℕ} (h : pending ~ s.clock :: s.pending) :
    Step s ⟨s.clock + 1, pending, s.delivered⟩
  /-- A stamp is spent on something that nobody waits for. -/
  | skip {pending : List ℕ} (h : pending ~ s.pending) :
    Step s ⟨s.clock + 1, pending, s.delivered⟩
  | deliver {t : ℕ} {pending : List ℕ} (h : s.pending ~ t :: pending) :
    Step s ⟨s.clock, pending, s.delivered ++ [t]⟩
  | discard {pending : List ℕ} (h : pending <+~ s.pending) : Step s ⟨s.clock, pending, s.delivered⟩

/-- Every item is delivered or pending once, under a stamp of the past. -/
structure Sound (s : Dispatch) : Prop where
  nodup : (s.delivered ++ s.pending).Nodup
  past : ∀ t ∈ s.delivered ++ s.pending, t < s.clock

variable {s s' : Dispatch}

theorem Sound.nodup_delivered (h : s.Sound) : s.delivered.Nodup :=
  h.nodup.sublist (sublist_append_left _ _)

/-- A move that brings in no stamp but those already known. -/
theorem Sound.of_subperm (h : s.Sound) {ts : List ℕ} (hts : ts <+~ s.delivered ++ s.pending) :
    ts.Nodup ∧ ∀ t ∈ ts, t < s.clock := by
  obtain ⟨us, hperm, hsub⟩ := hts
  exact ⟨hperm.nodup_iff.1 (h.nodup.sublist hsub), fun t ht ↦
    h.past t (hsub.subset (hperm.symm.subset ht))⟩

/-- **Every move keeps the invariant.** -/
theorem Sound.step (h : s.Sound) (hs : Step s s') : s'.Sound := by
  cases hs with
  | @issue pending hpending =>
    have hperm : s.delivered ++ pending ~ s.clock :: (s.delivered ++ s.pending) :=
      (hpending.append_left _).trans perm_middle
    refine ⟨hperm.nodup_iff.2 (nodup_cons.2 ⟨fun hmem ↦ ?_, h.nodup⟩), fun t ht ↦ ?_⟩
    · exact absurd (h.past _ hmem) (Nat.lt_irrefl _)
    · rcases mem_cons.1 (hperm.subset ht) with rfl | ht
      · exact Nat.lt_succ_self _
      · exact Nat.lt_succ_of_lt (h.past t ht)
  | skip hpending =>
    obtain ⟨hnodup, hpast⟩ := h.of_subperm (hpending.append_left _).subperm
    exact ⟨hnodup, fun t ht ↦ Nat.lt_succ_of_lt (hpast t ht)⟩
  | @deliver t pending hpending =>
    have hperm : s.delivered ++ [t] ++ pending ~ s.delivered ++ s.pending := by
      rw [append_assoc, singleton_append]
      exact hpending.symm.append_left _
    obtain ⟨hnodup, hpast⟩ := h.of_subperm hperm.subperm
    exact ⟨hnodup, hpast⟩
  | discard hpending =>
    obtain ⟨hnodup, hpast⟩ := h.of_subperm ((subperm_append_left _).2 hpending)
    exact ⟨hnodup, hpast⟩

end Dispatch
