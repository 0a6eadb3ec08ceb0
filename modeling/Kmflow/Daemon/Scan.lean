import Kmflow.Daemon.Session

/-!
# Where the moves of a frame take the cursor

`scanMoves` is one loop with two ends: it goes through, or it stops at the first move that takes the
cursor to the edge (or panics in `clamp`). Here the two ends are told apart by what the moves do and
not by what the loop returns. `walkMoves` is where a list of events takes the cursor; a frame
`Passes` when no move of it takes the cursor to the edge, and it `Reaches` the edge when some move
does. The scan goes through exactly when the frame passes (`passes_iff_scanMoves`) and stops at the
edge exactly when the frame reaches it (`reaches_iff_scanMoves`).
-/

namespace Kmflow

/-- The event moves the pointer. -/
def InputEvent.isMove : InputEvent → Bool
  | mouseMove _ _ => true
  | _ => false

/-- The cursor after the moves of a list of events, with no look at the edge; `none` when a `clamp`
panics. -/
def walkMoves (screen : ScreenInfo) (s : DaemonState) : List InputEvent → Option DaemonState
  | [] => some s
  | .mouseMove dx dy :: es =>
    match trackMove screen dx dy s with
    | .error _ => none
    | .ok s => walkMoves screen s es
  | _ :: es => walkMoves screen s es

/-- Every move of the frame finds its way: no `clamp` panics, and outside the cooldown no move takes
the cursor to the edge. -/
def Passes (cfg : SessionConfig) (inCooldown : Bool) (s : DaemonState) (es : List InputEvent) :
    Prop :=
  ∀ before dx dy after, es = before ++ .mouseMove dx dy :: after →
    ∃ t ∈ walkMoves cfg.localScreen s (before ++ [.mouseMove dx dy]),
      inCooldown = true ∨ cfg.edgeDetector.check t.cursorX t.cursorY = .none

/-- Some move of the frame takes the cursor to the edge, outside the cooldown. -/
def Reaches (cfg : SessionConfig) (inCooldown : Bool) (s : DaemonState) (es : List InputEvent) :
    Prop :=
  inCooldown = false ∧ ∃ before dx dy after, es = before ++ .mouseMove dx dy :: after ∧
    ∃ t ∈ walkMoves cfg.localScreen s (before ++ [.mouseMove dx dy]),
      cfg.edgeDetector.check t.cursorX t.cursorY ≠ .none

section Walk

variable {cfg : SessionConfig} {cooldown : Bool} {s : DaemonState}

theorem passes_nil : Passes cfg cooldown s [] :=
  fun before _ _ _ h ↦ by cases before <;> cases h

/-- Events that do not move the pointer leave the walk as it is. -/
theorem walkMoves_cons_of_not_move (screen : ScreenInfo) {e : InputEvent}
    (he : e.isMove = false) (es : List InputEvent) :
    walkMoves screen s (e :: es) = walkMoves screen s es := by
  match e with
  | .mouseMove dx dy => cases he
  | .mouseButton _ _ | .scroll _ _ | .key _ _ => rfl

/-- Events that do not move the pointer do not decide whether a frame passes. -/
theorem passes_cons_of_not_move {e : InputEvent} (he : e.isMove = false) {es : List InputEvent} :
    Passes cfg cooldown s (e :: es) ↔ Passes cfg cooldown s es := by
  constructor
  · rintro h before dx dy after rfl
    obtain ⟨t, ht, hedge⟩ := h (e :: before) dx dy after rfl
    rw [List.cons_append, walkMoves_cons_of_not_move _ he] at ht
    exact ⟨t, ht, hedge⟩
  · intro h before dx dy after hes
    cases before with
    | nil => rw [(List.cons.inj hes).1] at he; cases he
    | cons e' before =>
      obtain ⟨rfl, rfl⟩ := List.cons.inj hes
      rw [List.cons_append, walkMoves_cons_of_not_move _ he]
      exact h before dx dy after rfl

/-- A move passes when it can be tracked and does not hit the edge, and the rest passes from there.
-/
theorem passes_cons_move {dx dy : F64} {es : List InputEvent} :
    Passes cfg cooldown s (.mouseMove dx dy :: es) ↔
      ∃ t, trackMove cfg.localScreen dx dy s = .ok t ∧
        (cooldown = true ∨ cfg.edgeDetector.check t.cursorX t.cursorY = .none) ∧
          Passes cfg cooldown t es := by
  constructor
  · intro h
    -- nothing stands before the move itself; what stands before a later one begins with it
    obtain ⟨t, ht, hedge⟩ := h [] dx dy es rfl
    rw [List.nil_append, walkMoves] at ht
    cases hmove : trackMove cfg.localScreen dx dy s with
    | error u => rw [hmove] at ht; cases ht
    | ok u =>
      rw [hmove] at ht
      obtain rfl := Option.some.inj ht
      refine ⟨u, rfl, hedge, ?_⟩
      rintro before dx' dy' after rfl
      have hafter := h (.mouseMove dx dy :: before) dx' dy' after rfl
      rwa [List.cons_append, walkMoves, hmove] at hafter
  · rintro ⟨t, hmove, hedge, h⟩ before dx' dy' after hes
    cases before with
    | nil =>
      obtain ⟨hmove', rfl⟩ := List.cons.inj hes
      obtain ⟨rfl, rfl⟩ := InputEvent.mouseMove.inj hmove'
      refine ⟨t, ?_, hedge⟩
      rw [List.nil_append, walkMoves, hmove]
      rfl
    | cons e' before =>
      obtain ⟨rfl, rfl⟩ := List.cons.inj hes
      rw [List.cons_append, walkMoves, hmove]
      exact h before dx' dy' after rfl

/-- **What the scan finds out.** It goes through exactly when the moves pass. -/
theorem scanMoves_eq_ok_false_iff {es : List InputEvent} {t : DaemonState} :
    scanMoves cfg cooldown s es = .ok (t, false) ↔
      Passes cfg cooldown s es ∧ walkMoves cfg.localScreen s es = some t := by
  -- on the events, for every state: the scan and the walk go on from where a move has led
  induction es generalizing s with
  | nil => simp [scanMoves, walkMoves, passes_nil]
  | cons e es ih =>
    match e with
    | .mouseButton _ _ | .scroll _ _ | .key _ _ =>
      rw [passes_cons_of_not_move rfl]
      exact ih
    | .mouseMove dx dy =>
      rw [passes_cons_move, scanMoves, walkMoves]
      cases hmove : trackMove cfg.localScreen dx dy s with
      | error u => simp
      | ok u =>
        cases cooldown with
        | true => simpa using ih
        | false =>
          cases hedge : cfg.edgeDetector.check u.cursorX u.cursorY with
          | none => simpa [hedge] using ih
          | triggered edge => simp [hedge]

/-- A frame that passes has moves that can all be tracked. -/
theorem Passes.exists_walk {es : List InputEvent} (h : Passes cfg cooldown s es) :
    ∃ t, walkMoves cfg.localScreen s es = some t := by
  induction es generalizing s with
  | nil => exact ⟨s, rfl⟩
  | cons e es ih =>
    match e with
    | .mouseButton _ _ | .scroll _ _ | .key _ _ => exact ih ((passes_cons_of_not_move rfl).1 h)
    | .mouseMove dx dy =>
      obtain ⟨t, hmove, _, hes⟩ := passes_cons_move.1 h
      rw [walkMoves, hmove]
      exact ih hes

/-- **The scan finds no hit exactly when the frame passes.** -/
theorem passes_iff_scanMoves {es : List InputEvent} :
    Passes cfg cooldown s es ↔ ∃ t, scanMoves cfg cooldown s es = .ok (t, false) := by
  constructor
  · intro h
    obtain ⟨t, ht⟩ := h.exists_walk
    exact ⟨t, scanMoves_eq_ok_false_iff.2 ⟨h, ht⟩⟩
  · rintro ⟨t, h⟩
    exact (scanMoves_eq_ok_false_iff.1 h).1

theorem not_reaches_nil : ¬ Reaches cfg cooldown s [] := by
  rintro ⟨_, before, dx, dy, after, h, _⟩
  cases before <;> cases h

/-- Events that do not move the pointer do not reach an edge. -/
theorem reaches_cons_of_not_move {e : InputEvent} (he : e.isMove = false) {es : List InputEvent} :
    Reaches cfg cooldown s (e :: es) ↔ Reaches cfg cooldown s es := by
  refine and_congr_right fun _ ↦ ⟨?_, ?_⟩
  · rintro ⟨before, dx, dy, after, hes, t, ht, hedge⟩
    cases before with
    | nil => rw [(List.cons.inj hes).1] at he; cases he
    | cons e' before =>
      obtain ⟨rfl, rfl⟩ := List.cons.inj hes
      rw [List.cons_append, walkMoves_cons_of_not_move _ he] at ht
      exact ⟨before, dx, dy, after, rfl, t, ht, hedge⟩
  · rintro ⟨before, dx, dy, after, rfl, t, ht, hedge⟩
    refine ⟨e :: before, dx, dy, after, rfl, t, ?_, hedge⟩
    rwa [List.cons_append, walkMoves_cons_of_not_move _ he]

/-- A move reaches the edge itself, or the rest does from where it has led. -/
theorem reaches_cons_move {dx dy : F64} {es : List InputEvent} :
    Reaches cfg cooldown s (.mouseMove dx dy :: es) ↔
      ∃ t, trackMove cfg.localScreen dx dy s = .ok t ∧
        (cooldown = false ∧ cfg.edgeDetector.check t.cursorX t.cursorY ≠ .none ∨
          Reaches cfg cooldown t es) := by
  constructor
  · rintro ⟨hcool, before, dx', dy', after, hes, t, ht, hedge⟩
    -- the move that reaches the edge is the first one, or stands after it
    cases before with
    | nil =>
      obtain ⟨hmove, rfl⟩ := List.cons.inj hes
      obtain ⟨rfl, rfl⟩ := InputEvent.mouseMove.inj hmove
      rw [List.nil_append, walkMoves] at ht
      cases hmove : trackMove cfg.localScreen dx dy s with
      | error u => rw [hmove] at ht; cases ht
      | ok u =>
        rw [hmove] at ht
        obtain rfl := Option.some.inj ht
        exact ⟨u, rfl, .inl ⟨hcool, hedge⟩⟩
    | cons e before =>
      obtain ⟨rfl, rfl⟩ := List.cons.inj hes
      rw [List.cons_append, walkMoves] at ht
      cases hmove : trackMove cfg.localScreen dx dy s with
      | error u => rw [hmove] at ht; cases ht
      | ok u =>
        rw [hmove] at ht
        exact ⟨u, rfl, .inr ⟨hcool, before, dx', dy', after, rfl, t, ht, hedge⟩⟩
  · rintro ⟨t, hmove, ⟨hcool, hedge⟩ | ⟨hcool, before, dx', dy', after, rfl, u, hu, hedge⟩⟩
    · refine ⟨hcool, [], dx, dy, es, rfl, t, ?_, hedge⟩
      rw [List.nil_append, walkMoves, hmove]
      rfl
    · refine ⟨hcool, .mouseMove dx dy :: before, dx', dy', after, rfl, u, ?_, hedge⟩
      rwa [List.cons_append, walkMoves, hmove]

/-- The scan stops at the edge exactly when a move reaches it. -/
theorem reaches_iff_scanMoves {es : List InputEvent} :
    Reaches cfg cooldown s es ↔ ∃ t, scanMoves cfg cooldown s es = .ok (t, true) := by
  induction es generalizing s with
  | nil => simp [scanMoves, not_reaches_nil]
  | cons e es ih =>
    match e with
    | .mouseButton _ _ | .scroll _ _ | .key _ _ =>
      rw [reaches_cons_of_not_move rfl]
      exact ih
    | .mouseMove dx dy =>
      rw [reaches_cons_move, scanMoves]
      cases hmove : trackMove cfg.localScreen dx dy s with
      | error u => simp
      | ok u =>
        cases cooldown with
        | true => simpa using ih
        | false =>
          cases hedge : cfg.edgeDetector.check u.cursorX u.cursorY with
          | none => simpa [hedge] using ih
          | triggered edge => simp [hedge]

end Walk

instance (cfg : SessionConfig) (cooldown : Bool) (s : DaemonState) (es : List InputEvent) :
    Decidable (Passes cfg cooldown s es) :=
  decidable_of_iff ((scanMoves cfg cooldown s es).toOption.any fun p ↦ !p.2) (by
    rw [passes_iff_scanMoves]
    rcases scanMoves cfg cooldown s es with t | ⟨t, _ | _⟩ <;> simp [Except.toOption])

instance (cfg : SessionConfig) (cooldown : Bool) (s : DaemonState) (es : List InputEvent) :
    Decidable (Reaches cfg cooldown s es) :=
  decidable_of_iff ((scanMoves cfg cooldown s es).toOption.any fun p ↦ p.2) (by
    rw [reaches_iff_scanMoves]
    rcases scanMoves cfg cooldown s es with t | ⟨t, _ | _⟩ <;> simp [Except.toOption])

end Kmflow
