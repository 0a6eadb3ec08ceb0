import Mathlib.Data.List.Infix

/-!
# Searching and cutting a text

When does a word occur in a text that was put together from pieces? Cutting the text at a character
the word does not have loses no occurrence (`infix_append_cons_iff`, and `infix_append_fields_iff`
for many cuts), and a piece that lacks one of the word's characters holds none
(`not_infix_of_notMem`). With the two a substring search over a text made of fields and separators
becomes a search of the fields.

Where can a list be cut? At the last occurrence of an element in one way only
(`append_cons_inj_of_notMem_right`), and after one more element at its end either there or where it
could be cut before (`concat_eq_append_cons_iff`).
-/

namespace List

variable {α : Type*}

/-- A word occurs in a text exactly when it occurs on one side of a character it does not have. -/
theorem infix_append_cons_iff {w l r : List α} {c : α} (hc : c ∉ w) :
    w <:+: l ++ c :: r ↔ w <:+: l ∨ w <:+: r := by
  constructor
  · intro h
    rcases List.infix_append_iff.1 h with h | h | ⟨w₁, w₂, rfl, hl, hr⟩
    · exact .inl h
    · rcases List.infix_cons_iff.1 h with h | h
      · -- a nonempty word would begin with `c`
        cases w with
        | nil => exact .inl (List.nil_prefix.isInfix)
        | cons a w => exact absurd (List.cons_prefix_cons.1 h).1 fun ha ↦ hc (ha ▸ mem_cons_self)
      · exact .inr h
    · cases w₂ with
      | nil => rw [append_nil]; exact .inl hl.isInfix
      | cons a w₂ =>
        exact absurd (List.cons_prefix_cons.1 hr).1 fun ha ↦ hc (by simp [ha])
  · rintro (h | h)
    · exact h.trans (prefix_append l _).isInfix
    · exact h.trans ((suffix_cons c r).trans (suffix_append l _)).isInfix

/-- A word occurs in a text that goes on with fields, each after a character the word does not have,
exactly when it occurs in the text or in a field. -/
theorem infix_append_fields_iff {w l : List α} {fields : List (α × List α)}
    (hfields : ∀ field ∈ fields, field.1 ∉ w) :
    w <:+: l ++ fields.flatMap (fun field ↦ field.1 :: field.2) ↔
      w <:+: l ∨ ∃ field ∈ fields, w <:+: field.2 := by
  induction fields generalizing l with
  | nil => simp
  | cons field fields ih =>
    obtain ⟨hfield, hfields⟩ := forall_mem_cons.1 hfields
    rw [flatMap_cons, cons_append, infix_append_cons_iff hfield, ih hfields]
    simp only [mem_cons, exists_eq_or_imp]

/-- A text that lacks a character of the word does not hold the word. -/
theorem not_infix_of_notMem {w l : List α} {c : α} (hw : c ∈ w) (hl : c ∉ l) : ¬ w <:+: l :=
  fun h ↦ hl (h.subset hw)

/-! ### Cutting a list in two -/

/-- The last occurrence of a separator cuts a list in one way only. -/
theorem append_cons_inj_of_notMem_right {l l' r r' : List α} {c : α} (hr : c ∉ r) (hr' : c ∉ r')
    (h : l ++ c :: r = l' ++ c :: r') : l = l' ∧ r = r' := by
  rcases List.append_eq_append_iff.1 h with ⟨m, rfl, hm⟩ | ⟨m, rfl, hm⟩
  · cases m with
    | nil => exact ⟨(List.append_nil l).symm, (List.cons.inj hm).2⟩
    | cons a m => exact absurd (by rw [(List.cons.inj hm).2]; simp) hr
  · cases m with
    | nil => exact ⟨List.append_nil l', (List.cons.inj hm).2.symm⟩
    | cons a m => exact absurd (by rw [(List.cons.inj hm).2]; simp) hr'

/-- A cut of a list with one more element at its end: at that element, or before it. -/
theorem concat_eq_append_cons_iff {l before after : List α} {a b : α} :
    l ++ [a] = before ++ b :: after ↔
      l = before ∧ a = b ∧ after = [] ∨ ∃ rest, after = rest ++ [a] ∧ l = before ++ b :: rest := by
  constructor
  · intro h
    rcases List.eq_nil_or_concat after with rfl | ⟨rest, last, rfl⟩
    · obtain ⟨rfl, hab⟩ := List.append_inj' h rfl
      exact .inl ⟨rfl, List.head_eq_of_cons_eq hab, rfl⟩
    · rw [List.concat_eq_append, ← List.cons_append, ← List.append_assoc] at h
      obtain ⟨rfl, hlast⟩ := List.append_inj' h rfl
      rw [List.concat_eq_append, List.head_eq_of_cons_eq hlast]
      exact .inr ⟨rest, rfl, rfl⟩
  · rintro (⟨rfl, rfl, rfl⟩ | ⟨rest, rfl, rfl⟩)
    · rfl
    · rw [List.append_assoc, List.cons_append]

end List
