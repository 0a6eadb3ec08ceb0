import Kmflow.Daemon.StuckKeys

/-!
# What the daemon knows is held down

`track_key_state` keeps two sets, and `flush_pressed_keys` turns them into releases. Together they
are the last-event-wins view of a history of events: the sets are the keys and buttons whose last
event is a press, and the flush has one release for each of them.

A peer sees a part of the history, because forwarding starts part way and datagrams get lost. The
flush still leaves it with nothing held, as long as it has not missed the final release of a key or
button, which the flush does not repeat (`tracking_exact`).
-/

namespace Kmflow

/-- How the last event of a key or button leaves it, when there is one. -/
def lastEvent (a : Switch) (es : List InputEvent) : Option Bool :=
  Toggle.last a (es.filterMap InputEvent.toggle?)

namespace DaemonState

/-- The state with nothing tracked as held. -/
def released (d : DaemonState) : DaemonState := { d with pressedKeys := ∅, pressedButtons := ∅ }

/-- After the flush nothing would be tracked. -/
theorem pressed_released (d : DaemonState) : d.released.pressed = ∅ :=
  pressed_eq_empty_of_cleared rfl rfl

end DaemonState

/-- The tracked sets are what the last events say. -/
theorem mem_pressed_tracked_iff (d : DaemonState) (es : List InputEvent) (a : Switch) :
    a ∈ (tracked d.released es).pressed ↔ lastEvent a es = some true := by
  rw [Session.pressed_tracked, DaemonState.pressed_released]
  exact Toggle.mem_replay_empty_iff

/-- The event that releases a switch. -/
def Switch.release : Switch → InputEvent
  | .key c => .key c .released
  | .button b => .mouseButton b .released

/-- No two switches have one release. -/
theorem Switch.release_injective : Function.Injective Switch.release := by
  intro a b h
  cases a <;> cases b <;> cases h <;> rfl

/-- The switches in the order in which a flush walks them. -/
def FlushOrder.iter (order : FlushOrder) (d : DaemonState) : List Switch :=
  (order.keys.iter d.pressedKeys).map Switch.key ++
    (order.buttons.iter d.pressedButtons).map Switch.button

/-- The flush as the releases of the switches that are tracked. -/
theorem flushPressedKeys_eq (order : FlushOrder) (d : DaemonState) :
    flushPressedKeys order d = (order.iter d).map Switch.release := by
  rw [flushPressedKeys, FlushOrder.iter, List.map_append, List.map_map, List.map_map]
  rfl

/-- The order goes through what is tracked, -/
theorem FlushOrder.mem_iter (order : FlushOrder) (d : DaemonState) (a : Switch) :
    a ∈ order.iter d ↔ a ∈ d.pressed := by
  cases a <;> simp [FlushOrder.iter, IterOrder.mem_iter]

/-- and through nothing twice. -/
theorem FlushOrder.nodup_iter (order : FlushOrder) (d : DaemonState) : (order.iter d).Nodup := by
  refine List.Nodup.append ?_ ?_ ?_
  · exact (order.keys.nodup _).map fun _ _ h ↦ Switch.key.inj h
  · exact (order.buttons.nodup _).map fun _ _ h ↦ Switch.button.inj h
  · intro a hkey hbutton
    obtain ⟨_, _, rfl⟩ := List.mem_map.1 hkey
    obtain ⟨_, _, hne⟩ := List.mem_map.1 hbutton
    cases hne

/-- A release makes a switch come up. -/
theorem filterMap_toggle?_release (l : List Switch) :
    (l.map Switch.release).filterMap InputEvent.toggle? = l.map Toggle.up := by
  rw [List.filterMap_map, ← List.filterMap_eq_map]
  exact List.filterMap_congr fun a _ ↦ by cases a <;> rfl

/-- **Tracking and flushing are exact.** For every history, from nothing tracked: the tracked keys
and buttons are those whose last event is a press; the flush has exactly one release for each of
them and nothing else; and whoever replays a part of the history that misses no final release, and
then the flush in any order, is left with nothing held. -/
theorem tracking_exact (order : FlushOrder) (d : DaemonState) (es : List InputEvent) :
    (∀ c, c ∈ (tracked d.released es).pressedKeys ↔ lastEvent (.key c) es = some true) ∧
      (∀ b, b ∈ (tracked d.released es).pressedButtons ↔ lastEvent (.button b) es = some true) ∧
      (flushPressedKeys order (tracked d.released es)).Nodup ∧
      (∀ e, e ∈ flushPressedKeys order (tracked d.released es) ↔
        ∃ a, lastEvent a es = some true ∧ e = a.release) ∧
      ∀ marked releases, marked.map Prod.fst = es →
        Toggle.KeepsFinalReleases InputEvent.toggle? marked →
          releases.Perm (flushPressedKeys order (tracked d.released es)) →
            replayEvents ∅ (Toggle.kept marked ++ releases) = ∅ := by
  refine ⟨fun c ↦ ?_, fun b ↦ ?_, ?_, fun e ↦ ?_, fun marked releases hes hfinal hperm ↦ ?_⟩
  · rw [← mem_pressed_tracked_iff d, DaemonState.key_mem_pressed]
  · rw [← mem_pressed_tracked_iff d, DaemonState.button_mem_pressed]
  · rw [flushPressedKeys_eq]
    exact (order.nodup_iter _).map Switch.release_injective
  · simp only [flushPressedKeys_eq, List.mem_map, order.mem_iter, mem_pressed_tracked_iff,
      eq_comm (a := e)]
  · have hups : (releases.filterMap InputEvent.toggle?).Perm
        ((order.iter (tracked d.released es)).map Toggle.up) := by
      rw [← filterMap_toggle?_release, ← flushPressedKeys_eq]
      exact hperm.filterMap _
    rw [replayEvents, List.filterMap_append]
    refine Toggle.replay_kept_releases hfinal (fun u hu ↦ ?_) fun a hlast ↦ ?_
    · obtain ⟨a, _, rfl⟩ := List.mem_map.1 (hups.subset hu)
      rfl
    · rw [hes] at hlast
      refine hups.symm.subset (List.mem_map_of_mem ?_)
      exact (order.mem_iter _ a).2 ((mem_pressed_tracked_iff d es a).2 hlast)

/-- Ctrl goes down, a key goes down, and Ctrl comes up. Forwarding starts after the first event. -/
def chordSeen : List (InputEvent × Bool) :=
  [(.key 29 .pressed, false), (.key 30 .pressed, true), (.key 29 .released, true)]

/-- The peer has the release of Ctrl without its press, and the flush releases the key. -/
theorem tracking_exact_chordSeen :
    replayEvents ∅ (Toggle.kept chordSeen ++ flushPressedKeys .ascending
      (tracked (DaemonState.new .fallback 0).released (chordSeen.map Prod.fst))) = ∅ := by
  obtain ⟨-, -, -, -, hreplay⟩ :=
    tracking_exact .ascending (DaemonState.new .fallback 0) (chordSeen.map Prod.fst)
  refine hreplay chordSeen _ rfl (fun before e after hsplit a hrelease ↦ ?_) (.refl _)
  -- only the press is missing
  have hmem : (e, false) ∈ chordSeen := by rw [hsplit]; simp
  obtain rfl : e = .key 29 .pressed := by simpa [chordSeen] using hmem
  cases hrelease

end Kmflow
