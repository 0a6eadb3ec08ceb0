import Kmflow.Foundation.Transition
import Mathlib.Logic.Function.Basic

/-!
# Machines on a broadcast network

A family of machines and the messages they have put on the network. Any machine may take any of the
messages, at any time and any number of times, or never take it: nothing is assumed of the network
but that it makes no message up.

`throughout_of_nodes` is the rule for such a system. The invariant is one of the single machine; it
may refer to what has been sent so far, as long as more messages do not break it. What a message
from the network says is known from what every machine takes care of when it sends one.
-/

namespace Broadcast

open Transition

/-- The machines: what each does, and what it sends and receives. -/
structure Protocol (ι σ α μ : Type*) where
  step : ι → σ → α → Option σ
  /-- A step that takes no message of the machines. -/
  isOwn : α → Bool
  emit : ι → σ → Option μ
  receive : μ → α

/-- The machines, and everything that any of them has sent. -/
structure Network (ι σ μ : Type*) where
  nodes : ι → σ
  /-- What has been sent, the oldest message first. -/
  sent : List μ

/-- The labels of the machines on their network. -/
inductive Label (ι α : Type*) where
  | own (i : ι) (l : α)
  | send (i : ι)
  /-- A machine takes the message of an index. -/
  | deliver (i : ι) (n : ℕ)

variable {ι σ α μ : Type*} [DecidableEq ι]

namespace Network

/-- One of the machines is now in another state. -/
def set (s : Network ι σ μ) (i : ι) (t : σ) : Network ι σ μ :=
  { s with nodes := Function.update s.nodes i t }

@[simp] theorem set_sent (s : Network ι σ μ) (i : ι) (t : σ) : (s.set i t).sent = s.sent := rfl

@[simp] theorem set_nodes_self (s : Network ι σ μ) (i : ι) (t : σ) : (s.set i t).nodes i = t := by
  simp [set]

theorem set_nodes_of_ne (s : Network ι σ μ) {i k : ι} (h : k ≠ i) (t : σ) :
    (s.set i t).nodes k = s.nodes k := by
  simp [set, h]

theorem set_set (s : Network ι σ μ) (i : ι) (t u : σ) : (s.set i t).set i u = s.set i u := by
  rw [set, set, Function.update_idem, set]

theorem set_nodes (s : Network ι σ μ) (i : ι) : s.set i (s.nodes i) = s := by
  rw [set, Function.update_eq_self]

/-- What holds of every machine, with one of them in another state. -/
theorem forall_set {P : ι → σ → Prop} {s : Network ι σ μ} {i : ι} {t : σ}
    (h : ∀ k, P k (s.nodes k)) (ht : P i t) (k : ι) : P k ((s.set i t).nodes k) := by
  rcases eq_or_ne k i with rfl | hk
  · rw [set_nodes_self]
    exact ht
  · rw [set_nodes_of_ne s hk]
    exact h k

end Network

section Step

variable (p : Protocol ι σ α μ)

/-- One step of the machines on their network; `none` when the label is not enabled. -/
def step (s : Network ι σ μ) : Label ι α → Option (Network ι σ μ)
  | .own i l => if p.isOwn l then (p.step i (s.nodes i) l).map (s.set i) else none
  | .send i => (p.emit i (s.nodes i)).map fun m ↦ { s with sent := s.sent ++ [m] }
  | .deliver i n =>
    s.sent[n]?.bind fun m ↦ (p.step i (s.nodes i) (p.receive m)).map (s.set i)

/-- Every machine in one state, and nothing sent. -/
def start (s : σ) : Network ι σ μ := ⟨fun _ ↦ s, []⟩

end Step

section Rules

variable {p : Protocol ι σ α μ}

/-- **An invariant of the machines**, with what is known of every message. -/
theorem throughout_of_nodes {I : ι → List μ → σ → Prop} {P : μ → Prop} {s₀ : σ}
    (hstart : ∀ i, I i [] s₀)
    (hmore : ∀ i sent m s, I i sent s → I i (sent ++ [m]) s)
    (hemit : ∀ i sent s, I i sent s → ∀ m ∈ p.emit i s, P m)
    (hown : ∀ i sent s l, I i sent s → p.isOwn l → ∀ s' ∈ p.step i s l, I i sent s')
    (hdeliver : ∀ i sent s m, I i sent s → m ∈ sent → P m →
      ∀ s' ∈ p.step i s (p.receive m), I i sent s')
    (labels : List (Label ι α)) :
    Throughout (step p) (fun s ↦ (∀ i, I i s.sent (s.nodes i)) ∧ ∀ m ∈ s.sent, P m) (start s₀)
      labels := by
  refine throughout_of_invariant ?_ ⟨hstart, nofun⟩ labels
  rintro s (⟨i, l⟩ | i | ⟨i, n⟩) ⟨hI, hP⟩ s' hs'
  · simp only [step, Option.mem_def, Option.ite_none_right_eq_some] at hs'
    obtain ⟨hl, hs'⟩ := hs'
    obtain ⟨t, ht, rfl⟩ := Option.map_eq_some_iff.1 hs'
    exact ⟨Network.forall_set hI (hown i s.sent _ l (hI i) hl t ht), hP⟩
  · obtain ⟨m, hm, rfl⟩ := Option.map_eq_some_iff.1 hs'
    refine ⟨fun k ↦ hmore k _ m _ (hI k), fun m' hm' ↦ ?_⟩
    rcases List.mem_append.1 hm' with hm' | hm'
    · exact hP m' hm'
    · obtain rfl := List.mem_singleton.1 hm'
      exact hemit i s.sent _ (hI i) m' hm
  · obtain ⟨m, hm, hs'⟩ := Option.bind_eq_some_iff.1 hs'
    obtain ⟨t, ht, rfl⟩ := Option.map_eq_some_iff.1 hs'
    have hsent : m ∈ s.sent := List.mem_of_getElem? hm
    exact ⟨Network.forall_set hI (hdeliver i s.sent _ m (hI i) hsent (hP m hsent) t ht), hP⟩

/-- What one machine can do by itself, the whole system can. -/
theorem run_own {i : ι} {ls : List α} (hls : ∀ l ∈ ls, p.isOwn l) {s : Network ι σ μ} {t : σ}
    (ht : t ∈ run (p.step i) (s.nodes i) ls) :
    s.set i t ∈ run (step p) s (ls.map (.own i)) := by
  induction ls generalizing s with
  | nil =>
    obtain rfl : s.nodes i = t := Option.some.inj ht
    rw [s.set_nodes]
    rfl
  | cons l ls ih =>
    obtain ⟨u, hu, ht⟩ := Option.bind_eq_some_iff.1 ht
    have hstep : step p s (.own i l) = some (s.set i u) := by
      simp only [step]
      rw [if_pos (hls l List.mem_cons_self), hu, Option.map_some]
    rw [List.map_cons, run_cons, hstep, Option.bind_some, ← s.set_set i u t]
    exact ih (fun l hl ↦ hls l (List.mem_cons_of_mem _ hl)) (by rwa [Network.set_nodes_self])

end Rules

end Broadcast
