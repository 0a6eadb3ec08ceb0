import Mathlib.Algebra.BigOperators.Group.Finset.Basic
import Mathlib.Data.Finset.Basic
import Mathlib.Data.Finset.Dedup
import Mathlib.Data.List.Sort
import Mathlib.Tactic.SplitIfs

/-!
# Switches that are held down and let go

A `Toggle α` is one transition of a switch `a : α`: it goes down or it comes up. Replaying a list of
transitions from a set of held switches gives the set held afterwards. The facts here are about the
replay as a whole: it is monotone in the set it starts from, two replays of one list differ at most
in what they started from, and a list of releases takes exactly the released switches away. The last
transition of a switch decides whether it is held (`mem_replay_iff`), so nothing is left held
exactly when every press has a later release, and transitions that come in groups may come in any
order that keeps, for each switch, what the last group does to it.

An `IterOrder α` is the order in which a container whose iteration order is unspecified hands out a
finite set: any enumeration of the set, each element once. It is a structure so that a walk over the
set in such an order needs no side condition.
-/

/-- One transition of a switch. -/
inductive Toggle (α : Type*) where
  | down (a : α)
  | up (a : α)
  deriving DecidableEq

namespace Toggle

variable {α : Type*} [DecidableEq α]

/-- The held set after one transition. -/
def apply (held : Finset α) : Toggle α → Finset α
  | down a => insert a held
  | up a => held.erase a

/-- The held set after a list of transitions. -/
def replay (held : Finset α) (ts : List (Toggle α)) : Finset α :=
  ts.foldl apply held

@[simp] theorem replay_nil (held : Finset α) : replay held [] = held := rfl

@[simp] theorem replay_cons (held : Finset α) (t : Toggle α) (ts : List (Toggle α)) :
    replay held (t :: ts) = replay (apply held t) ts := rfl

theorem replay_append (held : Finset α) (ts us : List (Toggle α)) :
    replay held (ts ++ us) = replay (replay held ts) us :=
  List.foldl_append

/-- More is held when more was held before. -/
theorem apply_subset_apply {held held' : Finset α} (h : held ⊆ held') (t : Toggle α) :
    apply held t ⊆ apply held' t := by
  cases t with
  | down a => exact Finset.insert_subset_insert a h
  | up a => exact Finset.erase_subset_erase a h

/-- Replay is monotone in the set it starts from. -/
theorem replay_subset_replay {held held' : Finset α} (h : held ⊆ held') (ts : List (Toggle α)) :
    replay held ts ⊆ replay held' ts := by
  induction ts generalizing held held' with
  | nil => exact h
  | cons t ts ih => exact ih (apply_subset_apply h t)

/-- The transitions that change something. -/
def effective (held : Finset α) : List (Toggle α) → List (Toggle α)
  | [] => []
  | t :: ts =>
    if apply held t = held then effective held ts else t :: effective (apply held t) ts

theorem effective_append (held : Finset α) (ts us : List (Toggle α)) :
    effective held (ts ++ us) = effective held ts ++ effective (replay held ts) us := by
  induction ts generalizing held with
  | nil => rfl
  | cons t ts ih =>
    rw [List.cons_append, effective, effective, replay_cons]
    split_ifs with hsame
    · rw [ih, hsame]
    · rw [ih, List.cons_append]

/-- **The other transitions are not missed.** -/
theorem replay_effective (held : Finset α) (ts : List (Toggle α)) :
    replay held (effective held ts) = replay held ts := by
  induction ts generalizing held with
  | nil => rfl
  | cons t ts ih =>
    rw [effective, replay_cons]
    split_ifs with hsame
    · rw [ih, hsame]
    · rw [replay_cons, ih]

/-- A list of releases takes exactly the released switches away. -/
theorem replay_map_up (held : Finset α) (l : List α) :
    replay held (l.map up) = held \ l.toFinset := by
  induction l generalizing held with
  | nil => simp
  | cons a l ih =>
    rw [List.map_cons, replay_cons, ih, List.toFinset_cons]
    show held.erase a \ l.toFinset = held \ insert a l.toFinset
    rw [Finset.sdiff_insert, Finset.erase_sdiff_comm]

/-! ### The last transition of a switch -/

/-- The switch a transition is of. -/
def switch : Toggle α → α
  | down a => a
  | up a => a

/-- Whether a transition leaves its switch down. -/
def isDown : Toggle α → Bool
  | down _ => true
  | up _ => false

/-- How the last transition of a switch leaves it, when there is one. -/
def last (a : α) (ts : List (Toggle α)) : Option Bool :=
  (ts.filter fun t ↦ t.switch = a).getLast?.map isDown

@[simp] theorem last_nil (a : α) : last a [] = none := rfl

theorem last_append (a : α) (ts us : List (Toggle α)) :
    last a (ts ++ us) = (last a us).or (last a ts) := by
  rw [last, List.filter_append, List.getLast?_append, last, last]
  cases (us.filter fun t ↦ t.switch = a).getLast? <;> rfl

theorem last_singleton (a : α) (t : Toggle α) :
    last a [t] = if t.switch = a then some t.isDown else none := by
  by_cases h : t.switch = a <;> simp [last, h]

/-- What is held after a toggle is what it says, or else what was held. -/
theorem mem_apply_iff {held : Finset α} {a : α} {t : Toggle α} :
    a ∈ apply held t ↔ (last a [t]).getD (decide (a ∈ held)) = true := by
  rw [last_singleton]
  cases t with
  | down b =>
    rcases eq_or_ne b a with rfl | hne
    · simp [apply, switch, isDown]
    · simp [apply, switch, hne, hne.symm]
  | up b =>
    rcases eq_or_ne b a with rfl | hne
    · simp [apply, switch, isDown]
    · simp [apply, switch, hne, hne.symm]

/-- **The last transition decides.** A switch is held after a replay exactly when its last
transition leaves it down or, if it has none, when it was held before. -/
theorem mem_replay_iff {held : Finset α} {a : α} {ts : List (Toggle α)} :
    a ∈ replay held ts ↔ (last a ts).getD (decide (a ∈ held)) = true := by
  induction ts generalizing held with
  | nil => simp
  | cons t ts ih =>
    rw [replay_cons, ih, ← List.singleton_append, last_append]
    cases last a ts with
    | some b => rfl
    | none =>
      rw [Option.none_or, ← mem_apply_iff]
      simp

/-- A switch has no last toggle when none of them is of it. -/
theorem last_eq_none_iff {a : α} {ts : List (Toggle α)} :
    last a ts = none ↔ ∀ t ∈ ts, t.switch ≠ a := by
  simp [last]

/-- The last transition of a switch, and what comes after it. -/
theorem exists_last_split {a : α} {ts : List (Toggle α)} {b : Bool} (h : last a ts = some b) :
    ∃ pre t post, ts = pre ++ t :: post ∧ t.switch = a ∧ t.isDown = b ∧
      ∀ u ∈ post, u.switch ≠ a := by
  induction ts with
  | nil => cases h
  | cons t ts ih =>
    rw [← List.singleton_append, last_append] at h
    cases hlast : last a ts with
    | some c =>
      rw [hlast, Option.some_or] at h
      obtain rfl := Option.some.inj h
      obtain ⟨pre, u, post, rfl, hu⟩ := ih hlast
      exact ⟨t :: pre, u, post, rfl, hu⟩
    | none =>
      rw [hlast, Option.none_or, last_singleton] at h
      split_ifs at h with hswitch
      exact ⟨[], t, ts, rfl, hswitch, Option.some.inj h, last_eq_none_iff.1 hlast⟩

/-- From nothing held, a switch is held afterwards exactly when its last transition is a press. -/
theorem mem_replay_empty_iff {a : α} {ts : List (Toggle α)} :
    a ∈ replay ∅ ts ↔ last a ts = some true := by
  rw [mem_replay_iff]
  cases last a ts <;> simp

/-- Nothing is left held exactly when every press has a later release. -/
theorem replay_empty_eq_empty_iff {ts : List (Toggle α)} :
    replay ∅ ts = ∅ ↔ ∀ pre a post, ts = pre ++ down a :: post → up a ∈ post := by
  constructor
  · rintro hempty pre a post rfl
    have hnot : a ∉ replay (insert a (replay ∅ pre)) post := by
      rw [replay_append, replay_cons] at hempty
      exact hempty.symm ▸ Finset.notMem_empty a
    rw [mem_replay_iff] at hnot
    cases hlast : last a post with
    | none => simp [hlast] at hnot
    | some b =>
      obtain ⟨_, t, _, rfl, hswitch, hdown, _⟩ := exists_last_split hlast
      rw [hlast, Option.getD_some] at hnot
      obtain rfl := eq_false_of_ne_true hnot
      cases t with
      | down _ => cases hdown
      | up _ => simp [← hswitch, switch]
  · intro hup
    rw [Finset.eq_empty_iff_forall_notMem]
    intro a ha
    rw [mem_replay_iff] at ha
    cases hlast : last a ts with
    | none => simp [hlast] at ha
    | some b =>
      obtain ⟨pre, t, post, rfl, hswitch, hdown, hpost⟩ := exists_last_split hlast
      rw [hlast, Option.getD_some] at ha
      subst ha
      cases t with
      | down _ =>
        obtain rfl : _ = a := hswitch
        exact hpost _ (hup pre _ post rfl) rfl
      | up _ => cases hdown

/-! ### A part of the transitions -/

section Kept

variable {ε : Type*} (toggle? : ε → Option (Toggle α))

/-- What is left of a history in which every event is marked as kept or missing. -/
def kept (marked : List (ε × Bool)) : List ε := (marked.filter Prod.snd).map Prod.fst

/-- No final release is missing: after a release that is, there is another event of its switch. -/
def KeepsFinalReleases (marked : List (ε × Bool)) : Prop :=
  ∀ before e after, marked = before ++ (e, false) :: after → ∀ a, toggle? e = some (up a) →
    ∃ t ∈ (after.map Prod.fst).filterMap toggle?, t.switch = a

variable {toggle?}

/-- Only what was marked is kept. -/
theorem kept_subset (marked : List (ε × Bool)) : kept marked ⊆ marked.map Prod.fst :=
  (List.filter_sublist.map Prod.fst).subset

theorem last_kept_eq_none {marked : List (ε × Bool)} {a : α}
    (h : last a ((marked.map Prod.fst).filterMap toggle?) = none) :
    last a ((kept marked).filterMap toggle?) = none := by
  rw [last_eq_none_iff] at h ⊢
  intro t ht
  obtain ⟨e, he, het⟩ := List.mem_filterMap.1 ht
  exact h t (List.mem_filterMap.2 ⟨e, kept_subset marked he, het⟩)

theorem last_filterMap_cons (a : α) (e : ε) (es : List ε) :
    last a ((e :: es).filterMap toggle?) =
      (last a (es.filterMap toggle?)).or (last a ([e].filterMap toggle?)) := by
  rw [← List.singleton_append, List.filterMap_append, last_append]

/-- A switch that ends up released ends up released in the part as well. -/
theorem last_kept_eq_false {marked : List (ε × Bool)} (hfinal : KeepsFinalReleases toggle? marked)
    {a : α} (h : last a ((marked.map Prod.fst).filterMap toggle?) = some false) :
    last a ((kept marked).filterMap toggle?) = some false := by
  induction marked with
  | nil => cases h
  | cons m rest ih =>
    obtain ⟨e, isKept⟩ := m
    have hrest : KeepsFinalReleases toggle? rest := fun before e' after hsplit ↦
      hfinal ((e, isKept) :: before) e' after (by rw [hsplit, List.cons_append])
    rw [List.map_cons, last_filterMap_cons] at h
    cases hlast : last a ((rest.map Prod.fst).filterMap toggle?) with
    | some down =>
      rw [hlast, Option.some_or] at h
      have hkept := ih hrest (hlast.trans h)
      cases isKept with
      | false => exact hkept
      | true => exact (last_filterMap_cons a e (kept rest)).trans (by rw [hkept, Option.some_or])
    | none =>
      -- the event is the last one of its switch, so it is not missing
      rw [hlast, Option.none_or] at h
      cases isKept with
      | true =>
        refine (last_filterMap_cons a e (kept rest)).trans ?_
        rw [last_kept_eq_none hlast, Option.none_or, h]
      | false =>
        obtain ⟨_, t, _, hsplit, hswitch, hdown, _⟩ := exists_last_split h
        have ht : t ∈ [e].filterMap toggle? := by rw [hsplit]; simp
        obtain ⟨_, he, htoggle⟩ := List.mem_filterMap.1 ht
        obtain rfl := List.mem_singleton.1 he
        cases t with
        | down _ => cases hdown
        | up _ =>
          obtain rfl : _ = a := hswitch
          obtain ⟨u, hu, hua⟩ := hfinal [] _ rest rfl _ htoggle
          exact absurd hua (last_eq_none_iff.1 hlast u hu)

/-- **The rest is let go.** Replaying a part that misses no final release, and then releases of
everything the whole history leaves down, leaves nothing down. -/
theorem replay_kept_releases {marked : List (ε × Bool)}
    (hfinal : KeepsFinalReleases toggle? marked) {us : List (Toggle α)}
    (hup : ∀ u ∈ us, u.isDown = false)
    (hus : ∀ a, last a ((marked.map Prod.fst).filterMap toggle?) = some true → up a ∈ us) :
    replay ∅ ((kept marked).filterMap toggle? ++ us) = ∅ := by
  rw [Finset.eq_empty_iff_forall_notMem]
  intro a ha
  rw [mem_replay_empty_iff, last_append] at ha
  cases hlast : last a us with
  | some down =>
    rw [hlast, Option.some_or] at ha
    obtain ⟨_, t, _, hsplit, _, hdown, _⟩ := exists_last_split (hlast.trans ha)
    cases (hup t (by rw [hsplit]; simp)).symm.trans hdown
  | none =>
    rw [hlast, Option.none_or] at ha
    cases hall : last a ((marked.map Prod.fst).filterMap toggle?) with
    | none => cases (last_kept_eq_none hall).symm.trans ha
    | some down =>
      cases down with
      | true => exact last_eq_none_iff.1 hlast _ (hus a hall) rfl
      | false => cases (last_kept_eq_false hfinal hall).symm.trans ha

end Kept

/-! ### Transitions that come in groups -/

/-- How a switch is left by each of the groups that touch it, in order. -/
def lefts (a : α) (groups : List (List (Toggle α))) : List Bool := groups.filterMap (last a)

/-- The last group that touches a switch decides. -/
theorem last_flatten (a : α) (groups : List (List (Toggle α))) :
    last a groups.flatten = (lefts a groups).getLast? := by
  induction groups with
  | nil => rfl
  | cons ts groups ih =>
    rw [List.flatten_cons, last_append, ih, lefts, lefts, List.filterMap_cons]
    cases last a ts with
    | none => rw [Option.or_none]
    | some b => rw [List.getLast?_cons]; cases (groups.filterMap (last a)).getLast? <;> rfl

/-- **When the order of the groups does not matter.** Replaying the same groups in another order
leaves the same switches held exactly when each switch is left the same by the last group that
touches it. -/
theorem replay_flatten_eq_iff {groups groups' : List (List (Toggle α))}
    (hperm : groups.Perm groups') (held : Finset α) :
    replay held groups.flatten = replay held groups'.flatten ↔
      ∀ a, (lefts a groups).getLast? = (lefts a groups').getLast? := by
  have hmem (a : α) : (a ∈ replay held groups.flatten ↔ a ∈ replay held groups'.flatten) ↔
      (lefts a groups).getLast? = (lefts a groups').getLast? := by
    rw [mem_replay_iff, mem_replay_iff, last_flatten, last_flatten, Bool.coe_iff_coe]
    have hlefts : (lefts a groups).Perm (lefts a groups') := hperm.filterMap _
    cases hl : (lefts a groups).getLast? with
    | none =>
      rw [List.getLast?_eq_none_iff] at hl
      rw [hl, List.nil_perm] at hlefts
      simp [hlefts]
    | some b =>
      cases hl' : (lefts a groups').getLast? with
      | none =>
        rw [List.getLast?_eq_none_iff] at hl'
        rw [hl', List.perm_nil] at hlefts
        rw [hlefts] at hl
        cases hl
      | some b' => simp
  rw [Finset.ext_iff]
  exact forall_congr' hmem

end Toggle

/-! ### Unspecified iteration orders -/

/-- An enumeration of every finite set, each element once: the order in which a container with
unspecified iteration order hands out its elements. -/
structure IterOrder (α : Type*) where
  /-- The elements in the order they are handed out. -/
  iter : Finset α → List α
  /-- No element is handed out twice. -/
  nodup : ∀ s, (iter s).Nodup
  /-- Exactly the elements of the set are handed out. -/
  mem_iter : ∀ s a, a ∈ iter s ↔ a ∈ s

namespace IterOrder

variable {α : Type*}

/-- The order of increasing keys, for an injective numbering of the elements. -/
def ofKey (key : α → ℕ) (hkey : Function.Injective key) : IterOrder α where
  iter s := Quot.liftOn s.1 (List.insertionSort fun a b ↦ key a ≤ key b) fun l₁ l₂ h ↦ by
    have : IsTrans α fun a b ↦ key a ≤ key b := ⟨fun _ _ _ ↦ le_trans⟩
    have : Std.Total fun a b : α ↦ key a ≤ key b := ⟨fun a b ↦ le_total (key a) (key b)⟩
    have hsorted (l : List α) : (l.insertionSort fun a b ↦ key a ≤ key b).Pairwise
        fun a b ↦ key a ≤ key b := List.pairwise_insertionSort _ l
    have hperm := (List.perm_insertionSort (fun a b ↦ key a ≤ key b) l₁).trans
      (h.trans (List.perm_insertionSort (fun a b ↦ key a ≤ key b) l₂).symm)
    exact hperm.eq_of_pairwise (fun a b _ _ hab hba ↦ hkey (le_antisymm hab hba)) (hsorted l₁)
      (hsorted l₂)
  nodup s := by
    obtain ⟨⟨l⟩, hl⟩ := s
    exact (List.perm_insertionSort _ l).nodup_iff.2 hl
  mem_iter s a := by
    obtain ⟨⟨l⟩, hl⟩ := s
    exact (List.perm_insertionSort _ l).mem_iff

section Finite

variable [DecidableEq α]

theorem toFinset_iter (o : IterOrder α) (s : Finset α) : (o.iter s).toFinset = s :=
  Finset.ext fun a ↦ List.mem_toFinset.trans (o.mem_iter s a)

theorem length_iter (o : IterOrder α) (s : Finset α) : (o.iter s).length = s.card := by
  rw [← List.toFinset_card_of_nodup (o.nodup s), o.toFinset_iter]

theorem sum_map_iter {M : Type*} [AddCommMonoid M] (o : IterOrder α) (s : Finset α) (f : α → M) :
    ((o.iter s).map f).sum = ∑ a ∈ s, f a := by
  rw [← List.sum_toFinset f (o.nodup s), o.toFinset_iter]

end Finite

end IterOrder
