import Mathlib.Data.List.Perm.Basic
import Mathlib.Data.List.Perm.Subperm
import Mathlib.Logic.Function.Basic

/-!
# Many queues and two logs

Items are put at the end of named queues and taken from the front of them, one queue at a time, by
whom and in whatever order. A queue that is full may overrun: what it holds is lost, and a mark is
left in its place. Two logs say what was put where and what was taken from where. Between them
nothing is made up or turned round, and nothing is lost without a mark (`Gapped`), as long as every
queue holds what was put into it and not yet taken or lost (`Conserved`); all three moves keep that.

Where no mark was taken, what was taken is a merge of the queues: one of the ways to shuffle them
that keeps the order within each. A log is known by its parts up to the order in which the parts are
shuffled (`perm_of_on_eq`), so nothing that does not depend on that order can tell the two logs
apart once the queues are empty.
-/

namespace Channels

variable {ι α : Type*} [DecidableEq ι]

/-- The part of a log about one queue. -/
def on (i : ι) (log : List (ι × α)) : List α :=
  log.filterMap fun entry ↦ if entry.1 = i then some entry.2 else none

@[simp] theorem on_nil (i : ι) : on i ([] : List (ι × α)) = [] := rfl

theorem on_append (i : ι) (log more : List (ι × α)) :
    on i (log ++ more) = on i log ++ on i more := List.filterMap_append

theorem on_cons_self (i : ι) (a : α) (log : List (ι × α)) :
    on i ((i, a) :: log) = a :: on i log := List.filterMap_cons_some (if_pos rfl)

theorem on_cons_of_ne {i j : ι} (h : j ≠ i) (a : α) (log : List (ι × α)) :
    on i ((j, a) :: log) = on i log := List.filterMap_cons_none (if_neg h)

@[simp] theorem on_singleton_self (i : ι) (a : α) : on i [(i, a)] = [a] := on_cons_self i a []

theorem on_singleton_of_ne {i j : ι} (h : j ≠ i) (a : α) : on i [(j, a)] = [] :=
  on_cons_of_ne h a []

theorem mem_on {i : ι} {a : α} {log : List (ι × α)} : a ∈ on i log ↔ (i, a) ∈ log := by
  simp [on]

/-- The part of a log about some of the queues. -/
theorem on_filter (P : ι → Prop) [DecidablePred P] (i : ι) (log : List (ι × α)) :
    on i (log.filter fun entry ↦ P entry.1) = if P i then on i log else [] := by
  induction log with
  | nil => simp
  | cons entry log ih =>
    obtain ⟨j, a⟩ := entry
    rw [List.filter_cons]
    rcases eq_or_ne j i with rfl | hj
    · by_cases hP : P j
      · rw [if_pos (decide_eq_true hP), on_cons_self, ih, if_pos hP, if_pos hP, on_cons_self]
      · rw [if_neg (by simpa using hP), ih, if_neg hP, if_neg hP]
    · rw [on_cons_of_ne hj, ← ih]
      split_ifs
      · rw [on_cons_of_ne hj]
      · rfl

/-- **A log is known by its parts**, but for how they are shuffled. -/
theorem perm_of_on_eq {log log' : List (ι × α)} (h : ∀ i, on i log = on i log') :
    log.Perm log' := by
  classical
  have hcount (i : ι) (a : α) (l : List (ι × α)) : l.count (i, a) = (on i l).count a := by
    induction l with
    | nil => rfl
    | cons entry l ih =>
      obtain ⟨j, b⟩ := entry
      rw [List.count_cons, ih]
      rcases eq_or_ne j i with rfl | hj
      · rw [on_cons_self, List.count_cons]
        simp
      · rw [on_cons_of_ne hj]
        simp [hj]
  refine List.perm_iff_count.2 fun entry ↦ ?_
  rw [hcount, hcount, h]

/-! ### Lists with gaps -/

/-- The second list is the first, with a mark in the place of each stretch that was lost. -/
inductive Gapped (mark : α) : List α → List α → Prop
  | nil : Gapped mark [] []
  | keep (a : α) {whole seen : List α} (h : Gapped mark whole seen) :
    Gapped mark (a :: whole) (a :: seen)
  | lose (lost : List α) {whole seen : List α} (h : Gapped mark whole seen) :
    Gapped mark (lost ++ whole) (mark :: seen)

namespace Gapped

variable {mark : α} {whole whole' seen seen' : List α}

/-- What is seen of two parts is seen of the whole. -/
theorem append (h : Gapped mark whole seen) (h' : Gapped mark whole' seen') :
    Gapped mark (whole ++ whole') (seen ++ seen') := by
  induction h with
  | nil => exact h'
  | keep a _ ih => exact .keep a ih
  | lose lost _ ih =>
    rw [List.append_assoc]
    exact .lose lost ih

/-- Each part of what is seen is seen of a part. -/
theorem exists_of_append (h : Gapped mark whole (seen ++ seen')) :
    ∃ part part', whole = part ++ part' ∧ Gapped mark part seen ∧ Gapped mark part' seen' := by
  induction seen generalizing whole with
  | nil => exact ⟨[], whole, rfl, .nil, h⟩
  | cons a seen ih =>
    rcases h with _ | ⟨_, h⟩ | ⟨lost, h⟩
    case keep =>
      obtain ⟨part, part', rfl, hpart, hpart'⟩ := ih h
      exact ⟨a :: part, part', rfl, .keep a hpart, hpart'⟩
    case lose =>
      obtain ⟨part, part', rfl, hpart, hpart'⟩ := ih h
      exact ⟨lost ++ part, part', (List.append_assoc ..).symm, .lose lost hpart, hpart'⟩

/-- **Without a mark nothing is missing.** -/
theorem eq_of_notMem (h : Gapped mark whole seen) (hmark : mark ∉ seen) : whole = seen := by
  induction h with
  | nil => rfl
  | keep a _ ih => rw [ih (List.not_mem_of_not_mem_cons hmark)]
  | lose => exact absurd (List.mem_cons_self ..) hmark

/-- What has not been looked at yet is lost. -/
theorem overrun (h : Gapped mark whole (seen ++ seen')) (a : α) :
    Gapped mark (whole ++ [a]) (seen ++ [mark, a]) := by
  obtain ⟨part, part', rfl, hpart, -⟩ := h.exists_of_append
  have hlost : Gapped mark (part' ++ [a]) [mark, a] := .lose part' (.keep a .nil)
  rw [List.append_assoc]
  exact hpart.append hlost

end Gapped

/-- What one of the lists begins with has been seen as the other. -/
def BeginsGapped (mark : α) (whole seen : List α) : Prop :=
  ∃ part, part <+: whole ∧ Gapped mark part seen

/-- What was seen so far is the beginning of the whole, with gaps. -/
theorem Gapped.begins {mark : α} {whole seen seen' : List α}
    (h : Gapped mark whole (seen ++ seen')) : BeginsGapped mark whole seen := by
  obtain ⟨part, part', rfl, hpart, -⟩ := h.exists_of_append
  exact ⟨part, List.prefix_append _ _, hpart⟩

/-! ### What the logs say -/

/-- What was put into a queue was taken from it, in the same order, or is still there, but for what
was lost and has left a mark. -/
def Conserved (mark : α) (queue : ι → List α) (put taken : List (ι × α)) : Prop :=
  ∀ i, Gapped mark (on i put) (on i taken ++ queue i)

namespace Conserved

variable {mark : α} {queue : ι → List α} {before after : List (ι × α)}

/-- At the start nothing was put into a queue. -/
theorem nil : Conserved mark (fun _ : ι ↦ ([] : List α)) [] [] := fun _ ↦ .nil

/-- Putting an item in loses nothing. -/
theorem put (h : Conserved mark queue before after) (i : ι) (a : α) :
    Conserved mark (Function.update queue i (queue i ++ [a])) (before ++ [(i, a)]) after := by
  intro j
  rw [on_append]
  rcases eq_or_ne i j with rfl | hj
  · rw [on_singleton_self, Function.update_self, ← List.append_assoc]
    exact (h i).append (.keep a .nil)
  · rw [on_singleton_of_ne hj, Function.update_of_ne hj.symm, List.append_nil]
    exact h j

/-- A queue overruns, and keeps the mark and what is put in. -/
theorem overrun (h : Conserved mark queue before after) (i : ι) (a : α) :
    Conserved mark (Function.update queue i [mark, a]) (before ++ [(i, a)]) after := by
  intro j
  rw [on_append]
  rcases eq_or_ne i j with rfl | hj
  · rw [on_singleton_self, Function.update_self]
    exact (h i).overrun a
  · rw [on_singleton_of_ne hj, Function.update_of_ne hj.symm, List.append_nil]
    exact h j

/-- Nor does taking one. -/
theorem take (h : Conserved mark queue before after) {i : ι} {a : α} {rest : List α}
    (hqueue : queue i = a :: rest) :
    Conserved mark (Function.update queue i rest) before (after ++ [(i, a)]) := by
  intro j
  rw [on_append, List.append_assoc]
  rcases eq_or_ne i j with rfl | hj
  · rw [on_singleton_self, Function.update_self, List.singleton_append, ← hqueue]
    exact h i
  · rw [on_singleton_of_ne hj, Function.update_of_ne hj.symm, List.nil_append]
    exact h j

/-- A queue that is empty, and of which no mark was taken, has been read to its end. -/
theorem on_eq_of_nil (h : Conserved mark queue before after) {i : ι} (hqueue : queue i = [])
    (hmark : mark ∉ on i after) : on i after = on i before := by
  have hgapped := h i
  rw [hqueue, List.append_nil] at hgapped
  exact (hgapped.eq_of_notMem hmark).symm

end Conserved

end Channels
