import Mathlib.Data.Option.Basic
import Mathlib.Data.List.Infix

/-!
# Guarded transition systems and their runs

A system is a partial step `step : σ → ι → Option σ`: in state `s` the label `i` is enabled exactly
when `step s i` is defined, and then it leads to one state. All nondeterminism (which party moves,
what the environment answers, how much of a buffer is visible) sits in the labels, so a run is a
list of labels, and "for every interleaving" is "for every list of labels".

Two predicates speak about whole runs:

* `Throughout step P s is` — `P` holds in every state the run visits, the first and the last
  included;
* `EachStep step C s is` — every step the run takes satisfies `C` in the state **before** it.

Both stop where the run does: a label that is not enabled ends it.

The rules are the usual ones (`throughout_of_invariant`, `throughout_of_guarded`) and one for
exactness, `throughout_iff_eachStep`: when a step that meets `C` keeps the invariant and a step that
violates `C` leads straight out of `P`, a run is good throughout exactly when each of its steps
meets `C`. A condition that needs memory is put on the run of `withHistory`, which carries a value
computed from the past and otherwise moves as the original system does.
-/

namespace Transition

variable {σ τ η ι : Type*}

section Runs

variable (step : σ → ι → Option σ)

/-- The state a list of labels leads to, when every one of them is enabled in turn. -/
def run (s : σ) : List ι → Option σ
  | [] => some s
  | i :: is => (step s i).bind fun s' ↦ run s' is

/-- `P` holds in every state the run visits. -/
def Throughout (P : σ → Prop) (s : σ) : List ι → Prop
  | [] => P s
  | i :: is => P s ∧ ∀ s' ∈ step s i, Throughout P s' is

/-- Every step the run takes satisfies `C` in the state before it. -/
def EachStep (C : σ → ι → Prop) (s : σ) : List ι → Prop
  | [] => True
  | i :: is => ∀ s' ∈ step s i, C s i ∧ EachStep C s' is

variable {step}

instance Throughout.decidable {P : σ → Prop} [DecidablePred P] :
    ∀ (s : σ) (is : List ι), Decidable (Throughout step P s is)
  | s, [] => inferInstanceAs (Decidable (P s))
  | s, i :: is =>
    have : ∀ s', Decidable (Throughout step P s' is) := fun s' ↦ Throughout.decidable s' is
    inferInstanceAs (Decidable (P s ∧ ∀ s' ∈ step s i, Throughout step P s' is))

instance EachStep.decidable {C : σ → ι → Prop} [∀ s, DecidablePred (C s)] :
    ∀ (s : σ) (is : List ι), Decidable (EachStep step C s is)
  | _, [] => instDecidableTrue
  | s, i :: is =>
    have : ∀ s', Decidable (EachStep step C s' is) := fun s' ↦ EachStep.decidable s' is
    inferInstanceAs (Decidable (∀ s' ∈ step s i, C s i ∧ EachStep step C s' is))

@[simp] theorem run_nil (s : σ) : run step s [] = some s := rfl

theorem run_cons (s : σ) (i : ι) (is : List ι) :
    run step s (i :: is) = (step s i).bind fun s' ↦ run step s' is := rfl

theorem run_singleton (s : σ) (i : ι) : run step s [i] = step s i := Option.bind_fun_some _

theorem run_append (s : σ) (is js : List ι) :
    run step s (is ++ js) = (run step s is).bind fun s' ↦ run step s' js := by
  induction is generalizing s with
  | nil => rfl
  | cons i is ih =>
    rw [List.cons_append, run_cons, run_cons, Option.bind_assoc]
    exact congrArg _ (funext ih)

/-- What holds throughout a run holds at its start. -/
theorem Throughout.head {P : σ → Prop} {s : σ} {is : List ι} (h : Throughout step P s is) :
    P s := by
  cases is with
  | nil => exact h
  | cons i is => exact h.1

theorem Throughout.mono {P Q : σ → Prop} (hPQ : ∀ s, P s → Q s) {s : σ} {is : List ι}
    (h : Throughout step P s is) : Throughout step Q s is := by
  induction is generalizing s with
  | nil => exact hPQ s h
  | cons i is ih => exact ⟨hPQ s h.1, fun s' hs' ↦ ih (h.2 s' hs')⟩

/-- A property that holds throughout holds in the state the run ends in. -/
theorem Throughout.last {P : σ → Prop} {s t : σ} {is : List ι} (h : Throughout step P s is)
    (ht : t ∈ run step s is) : P t := by
  induction is generalizing s with
  | nil => exact Option.some.inj ht ▸ h
  | cons i is ih =>
    obtain ⟨s', hs', ht'⟩ := Option.bind_eq_some_iff.1 ht
    exact ih (h.2 s' hs') ht'

/-- A condition on the labels alone can be added to the condition on the steps. -/
theorem EachStep.and_mem {C : σ → ι → Prop} {D : ι → Prop} {s : σ} {is : List ι}
    (h : EachStep step C s is) (hD : ∀ i ∈ is, D i) :
    EachStep step (fun s i ↦ C s i ∧ D i) s is := by
  induction is generalizing s with
  | nil => trivial
  | cons i is ih =>
    have hDs : ∀ j ∈ is, D j := fun j hj ↦ hD j (.tail _ hj)
    exact fun s' hs' ↦ ⟨⟨(h s' hs').1, hD i (.head _)⟩, ih (h s' hs').2 hDs⟩

/-- Under an invariant that the steps meeting `C` keep, a weaker condition follows. -/
theorem EachStep.of_invariant {I : σ → Prop} {C D : σ → ι → Prop}
    (hstep : ∀ s i, I s → C s i → ∀ s' ∈ step s i, D s i ∧ I s') {s : σ} (hs : I s)
    {is : List ι} (hC : EachStep step C s is) : EachStep step D s is := by
  induction is generalizing s with
  | nil => trivial
  | cons i is ih =>
    intro s' hs'
    obtain ⟨hCi, hCs⟩ := hC s' hs'
    obtain ⟨hD, hI⟩ := hstep s i hs hCi s' hs'
    exact ⟨hD, ih hI hCs⟩

/-- In a run whose steps all meet a condition, the step after a part of it meets the condition. -/
theorem EachStep.of_run {C : σ → ι → Prop} {s t t' : σ} {is : List ι} {i : ι}
    (h : EachStep step C s (is ++ [i])) (ht : t ∈ run step s is) (ht' : t' ∈ step t i) : C t i := by
  induction is generalizing s with
  | nil =>
    obtain rfl := Option.some.inj ht
    exact (h t' ht').1
  | cons j is ih =>
    obtain ⟨s', hs', ht⟩ := Option.bind_eq_some_iff.1 ht
    exact ih (h s' hs').2 ht

/-- A run that ends where the property fails refutes it. -/
theorem not_throughout_of_run {P : σ → Prop} {s t : σ} {is : List ι} (ht : run step s is = some t)
    (hP : ¬ P t) : ¬ Throughout step P s is :=
  fun h ↦ hP (h.last ht)

/-- **Simulation.** If every step of one system is answered by a step of another under the same
label, then every run is answered by a run. -/
theorem run_of_simulation {step' : τ → ι → Option τ} {R : σ → τ → Prop} {is : List ι}
    (hsim : ∀ s t, R s t → ∀ i ∈ is, ∀ s' ∈ step s i, ∃ t' ∈ step' t i, R s' t') {s s' : σ}
    {t : τ} (hR : R s t) (hs' : s' ∈ run step s is) : ∃ t' ∈ run step' t is, R s' t' := by
  induction is generalizing s t with
  | nil => exact ⟨t, rfl, Option.some.inj hs' ▸ hR⟩
  | cons i is ih =>
    obtain ⟨u, hu, hs'⟩ := Option.bind_eq_some_iff.1 hs'
    obtain ⟨v, hv, hR⟩ := hsim s t hR i (.head _) u hu
    obtain ⟨t', ht', hR'⟩ := ih (fun s t hR j hj ↦ hsim s t hR j (.tail _ hj)) hR hs'
    exact ⟨t', Option.bind_eq_some_iff.2 ⟨v, hv, ht'⟩, hR'⟩

/-- **Erasure.** If the labels that another system does not see change nothing for it, and it
answers the others, then every run is answered by the run of what it sees. -/
theorem run_of_erasure {κ : Type*} {step' : τ → κ → Option τ} {view : ι → Option κ}
    {R : σ → τ → Prop} {is : List ι}
    (hunseen : ∀ s t i, view i = none → R s t → ∀ s' ∈ step s i, R s' t)
    (hseen : ∀ s t i k, view i = some k → R s t → ∀ s' ∈ step s i, ∃ t' ∈ step' t k, R s' t')
    {s s' : σ} {t : τ} (hR : R s t) (hs' : s' ∈ run step s is) :
    ∃ t' ∈ run step' t (is.filterMap view), R s' t' := by
  induction is generalizing s t with
  | nil => exact ⟨t, rfl, Option.some.inj hs' ▸ hR⟩
  | cons i is ih =>
    obtain ⟨u, hu, hs'⟩ := Option.bind_eq_some_iff.1 hs'
    rcases hview : view i with _ | k
    · rw [List.filterMap_cons_none hview]
      exact ih (hunseen s t i hview hR u hu) hs'
    · obtain ⟨v, hv, hR⟩ := hseen s t i k hview hR u hu
      obtain ⟨t', ht', hR'⟩ := ih hR hs'
      rw [List.filterMap_cons_some hview]
      exact ⟨t', Option.bind_eq_some_iff.2 ⟨v, hv, ht'⟩, hR'⟩

/-- A relation that every step respects relates the two ends of a run. -/
theorem run_of_step {R : σ → σ → Prop} (hrefl : ∀ s, R s s)
    (htrans : ∀ s t u, R s t → R t u → R s u) (hstep : ∀ s i, ∀ s' ∈ step s i, R s s') {s s' : σ}
    {is : List ι} (hs' : s' ∈ run step s is) : R s s' := by
  induction is generalizing s with
  | nil => exact Option.some.inj hs' ▸ hrefl s
  | cons i is ih =>
    obtain ⟨u, hu, hs'⟩ := Option.bind_eq_some_iff.1 hs'
    exact htrans _ _ _ (hstep s i u hu) (ih hs')

/-- A list that every step extends by what its label adds to it is extended in a run by what all
the labels add, as long as the steps keep to an invariant. -/
theorem append_of_run {α : Type*} {I : σ → Prop} (f : σ → List α) {added : ι → List α}
    (hI : ∀ s i, I s → ∀ s' ∈ step s i, I s')
    (hf : ∀ s i, I s → ∀ s' ∈ step s i, f s' = f s ++ added i) {s s' : σ} {is : List ι} (hs : I s)
    (hs' : s' ∈ run step s is) : f s' = f s ++ is.flatMap added := by
  induction is generalizing s with
  | nil =>
    obtain rfl := Option.some.inj hs'
    exact (List.append_nil _).symm
  | cons i is ih =>
    obtain ⟨u, hu, hs'⟩ := Option.bind_eq_some_iff.1 hs'
    rw [ih (hI s i hs u hu) hs', hf s i hs u hu, List.flatMap_cons, List.append_assoc]

/-! ### What can be reached -/

/-- Some run leads from the one state to the other. -/
def Reaches (step : σ → ι → Option σ) (s t : σ) : Prop := ∃ is, t ∈ run step s is

theorem Reaches.refl (s : σ) : Reaches step s s := ⟨[], rfl⟩

theorem Reaches.of_step {s t : σ} {i : ι} (h : t ∈ step s i) : Reaches step s t :=
  ⟨[i], (run_singleton s i).trans h⟩

/-- Runs can be joined. -/
theorem Reaches.trans {s t u : σ} (hst : Reaches step s t) (htu : Reaches step t u) :
    Reaches step s u := by
  obtain ⟨is, hs⟩ := hst
  obtain ⟨js, ht⟩ := htu
  exact ⟨is ++ js, by rw [run_append]; exact Option.bind_eq_some_iff.2 ⟨t, hs, ht⟩⟩

/-! ### Runs of one label -/

/-- The run that repeats one label until it is no longer enabled passes through every state that
repeating the label reaches. -/
theorem run_replicate_of_halted {s t u : σ} {i : ι} {k m : ℕ}
    (ht : t ∈ run step s (List.replicate k i)) (hhalt : step t i = none)
    (hu : u ∈ run step s (List.replicate m i)) :
    ∃ j, t ∈ run step u (List.replicate j i) := by
  rcases Nat.lt_or_ge k m |>.symm with hle | hlt
  · refine ⟨k - m, ?_⟩
    rw [← Nat.add_sub_of_le hle, List.replicate_add, run_append] at ht
    obtain ⟨u', hu', ht⟩ := Option.bind_eq_some_iff.1 ht
    cases hu.symm.trans hu'
    exact ht
  · -- the label would still be enabled where the run halted
    exfalso
    obtain ⟨j, rfl⟩ : ∃ j, m = k + (j + 1) := ⟨m - k - 1, by omega⟩
    rw [List.replicate_add, run_append] at hu
    obtain ⟨t', ht', hu⟩ := Option.bind_eq_some_iff.1 hu
    cases ht.symm.trans ht'
    rw [List.replicate_succ, run_cons, hhalt] at hu
    cases hu

end Runs

/-! ### Invariant rules -/

section Rules

variable {step : σ → ι → Option σ} {I P : σ → Prop} {C : σ → ι → Prop}

/-- **Invariance.** What every step preserves holds throughout every run. -/
theorem throughout_of_invariant (hstep : ∀ s i, I s → ∀ s' ∈ step s i, I s') {s : σ}
    (hs : I s) (is : List ι) : Throughout step I s is := by
  induction is generalizing s with
  | nil => exact hs
  | cons i is ih => exact ⟨hs, fun s' hs' ↦ ih (hstep s i hs s' hs')⟩

/-- What every step preserves holds of whatever can be reached. -/
theorem Reaches.invariant (hstep : ∀ s i, I s → ∀ s' ∈ step s i, I s') {s t : σ}
    (h : Reaches step s t) (hs : I s) : I t := by
  obtain ⟨is, ht⟩ := h
  exact (throughout_of_invariant hstep hs is).last ht

/-- Invariance under labels that meet a condition. -/
theorem throughout_of_forall {D : ι → Prop}
    (hstep : ∀ s i, I s → D i → ∀ s' ∈ step s i, I s') {s : σ} (hs : I s) {is : List ι}
    (hD : ∀ i ∈ is, D i) : Throughout step I s is := by
  induction is generalizing s with
  | nil => exact hs
  | cons i is ih =>
    obtain ⟨hi, his⟩ := List.forall_mem_cons.1 hD
    exact ⟨hs, fun s' hs' ↦ ih (hstep s i hs hi s' hs') his⟩

/-- **Guarded invariance.** What every step that meets `C` preserves holds throughout every run
whose steps all meet `C`. -/
theorem throughout_of_guarded (hstep : ∀ s i, I s → C s i → ∀ s' ∈ step s i, I s') {s : σ}
    (hs : I s) {is : List ι} (hC : EachStep step C s is) : Throughout step I s is := by
  induction is generalizing s with
  | nil => exact hs
  | cons i is ih =>
    exact ⟨hs, fun s' hs' ↦ ih (hstep s i hs (hC s' hs').1 s' hs') (hC s' hs').2⟩

/-- **Exactness**, for runs under labels that meet `D`. If a step that meets `C` keeps the
invariant, and a step that violates `C` leaves `P` at once, then a run stays in `P` exactly when
each of its steps meets `C`. -/
theorem throughout_iff_eachStep_of_forall {D : ι → Prop} (hP : ∀ s, I s → P s)
    (hgood : ∀ s i, I s → D i → C s i → ∀ s' ∈ step s i, I s')
    (hbad : ∀ s i, I s → D i → ¬ C s i → ∀ s' ∈ step s i, ¬ P s') {s : σ} (hs : I s)
    {is : List ι} (hD : ∀ i ∈ is, D i) : Throughout step P s is ↔ EachStep step C s is := by
  refine ⟨fun h ↦ ?_, fun h ↦ ?_⟩
  · induction is generalizing s with
    | nil => trivial
    | cons i is ih =>
      obtain ⟨hi, his⟩ := List.forall_mem_cons.1 hD
      intro s' hs'
      have hC : C s i := by
        by_contra hC
        exact hbad s i hs hi hC s' hs' (h.2 s' hs').head
      exact ⟨hC, ih (hgood s i hs hi hC s' hs') his (h.2 s' hs')⟩
  · exact (throughout_of_guarded (fun s i hs hC ↦ hgood s i hs hC.2 hC.1) hs (h.and_mem hD)).mono hP

/-- **Exactness.** If a step that meets `C` keeps the invariant, and a step that violates `C` leaves
`P` at once, then a run stays in `P` exactly when each of its steps meets `C`. -/
theorem throughout_iff_eachStep (hP : ∀ s, I s → P s)
    (hgood : ∀ s i, I s → C s i → ∀ s' ∈ step s i, I s')
    (hbad : ∀ s i, I s → ¬ C s i → ∀ s' ∈ step s i, ¬ P s') {s : σ} (hs : I s)
    (is : List ι) : Throughout step P s is ↔ EachStep step C s is :=
  throughout_iff_eachStep_of_forall (D := fun _ ↦ True) hP (fun s i hs _ ↦ hgood s i hs)
    (fun s i hs _ ↦ hbad s i hs) hs fun _ _ ↦ trivial

end Rules

/-! ### History variables -/

section History

variable (step : σ → ι → Option σ) (record : η → σ → ι → σ → η)

/-- The system with a history variable: it moves as `step` does and updates the recorded value from
the state before, the label and the state after. -/
def withHistory (sh : σ × η) (i : ι) : Option (σ × η) :=
  (step sh.1 i).map fun s' ↦ (s', record sh.2 sh.1 i s')

variable {step}

theorem mem_withHistory {record : η → σ → ι → σ → η} {sh sh' : σ × η} {i : ι} :
    sh' ∈ withHistory step record sh i ↔
      sh'.1 ∈ step sh.1 i ∧ sh'.2 = record sh.2 sh.1 i sh'.1 := by
  simp only [withHistory, Option.mem_def, Option.map_eq_some_iff]
  constructor
  · rintro ⟨s', hs', rfl⟩
    exact ⟨hs', rfl⟩
  · rintro ⟨hs', hh⟩
    exact ⟨sh'.1, hs', Prod.ext rfl hh.symm⟩

/-- Recording the past changes no run: a property of the states holds throughout the recorded run
exactly when it holds throughout the original one. -/
theorem throughout_withHistory (h : η) {P : σ → Prop} {s : σ} {is : List ι} :
    Throughout (withHistory step record) (fun sh ↦ P sh.1) (s, h) is ↔
      Throughout step P s is := by
  induction is generalizing s h with
  | nil => exact Iff.rfl
  | cons i is ih =>
    refine and_congr Iff.rfl ⟨fun hall s' hs' ↦ ?_, fun hall sh' hsh' ↦ ?_⟩
    · exact (ih _).1 (hall (s', record h s i s') (mem_withHistory.2 ⟨hs', rfl⟩))
    · exact (ih _).2 (hall sh'.1 (mem_withHistory.1 hsh').1)

end History

end Transition
