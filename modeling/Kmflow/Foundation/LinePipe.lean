import Mathlib.Data.List.Infix

/-!
# A line through a pipe

One end writes a line in parts of any size, the pipe holds what was written and not yet received,
and the other end puts together what it receives. The three pieces in order are always the line
(`data_write`, `data_recv`), so what was received is the front of it however the parts were cut.

The receiver is done when it has the separator: it takes what is up to there and including it
(`firstLine`), which is a front of the line as well. When the separator ends the line and is nowhere
else in it, what it takes is the whole line (`line_eq_of_mem`).
-/

/-- A line on its way: what is not yet written, what is in the pipe, and what was received. -/
structure LinePipe (α : Type*) where
  unsent : List α
  flight : List α
  line : List α
  deriving DecidableEq

namespace LinePipe

variable {α : Type*}

/-- A line of which nothing is written. -/
def start (data : List α) : LinePipe α := ⟨data, [], []⟩

/-- A part is written, of at most this length. -/
def write (p : LinePipe α) (n : ℕ) : LinePipe α where
  unsent := p.unsent.drop n
  flight := p.flight ++ p.unsent.take n
  line := p.line

/-- A part is received, of at most this length. -/
def recv (p : LinePipe α) (n : ℕ) : LinePipe α where
  unsent := p.unsent
  flight := p.flight.drop n
  line := p.line ++ p.flight.take n

/-- The line as it was to be written. -/
def data (p : LinePipe α) : List α := p.line ++ (p.flight ++ p.unsent)

@[simp] theorem data_start (data : List α) : (start data).data = data := rfl

@[simp] theorem data_write (p : LinePipe α) (n : ℕ) : (p.write n).data = p.data := by
  rw [data, write, List.append_assoc, List.take_append_drop, data]

@[simp] theorem data_recv (p : LinePipe α) (n : ℕ) : (p.recv n).data = p.data := by
  rw [data, recv, List.append_assoc, ← List.append_assoc (p.flight.take n), List.take_append_drop,
    data]

/-- What was received is a front of the line. -/
theorem line_prefix (p : LinePipe α) : p.line <+: p.data := List.prefix_append _ _

theorem unsent_recv (p : LinePipe α) (n : ℕ) : (p.recv n).unsent = p.unsent := rfl

theorem length_unsent_write_le (p : LinePipe α) (n : ℕ) :
    (p.write n).unsent.length ≤ p.unsent.length := by
  rw [write, List.length_drop]
  exact Nat.sub_le _ _

/-- What was received and what is not yet written do not overlap. -/
theorem length_line_add_length_unsent_le (p : LinePipe α) :
    p.line.length + p.unsent.length ≤ p.data.length := by
  rw [data, List.length_append, List.length_append]
  omega

/-- **The separator comes last**: who has received it has received the whole line. -/
theorem line_eq_of_mem {sep : α} {text : List α} {p : LinePipe α}
    (hdata : p.data = text ++ [sep]) (htext : sep ∉ text) (hline : sep ∈ p.line) :
    p.line = text ++ [sep] := by
  have hprefix : p.line <+: text ++ [sep] := hdata ▸ p.line_prefix
  rcases List.prefix_concat_iff.1 hprefix with heq | hshort
  · exact heq
  · exact absurd (hshort.subset hline) htext

section FirstLine

variable [DecidableEq α] {sep : α} {text : List α}

/-- What is taken of what was received: up to the separator, or all when there is none. -/
def firstLine (sep : α) (l : List α) : List α :=
  if sep ∈ l then l.takeWhile (· ≠ sep) ++ [sep] else l

theorem firstLine_prefix (sep : α) (l : List α) : firstLine sep l <+: l := by
  rw [firstLine]
  split_ifs with hsep
  · obtain ⟨before, after, rfl, hbefore⟩ := List.eq_append_cons_of_mem hsep
    have htake : (before ++ sep :: after).takeWhile (· ≠ sep) = before := by
      rw [List.takeWhile_append_of_pos fun a ha ↦ by
        simpa using fun heq : a = sep ↦ hbefore (heq ▸ ha)]
      simp
    rw [htake]
    exact ⟨after, by simp⟩
  · exact List.prefix_refl l

theorem firstLine_concat (htext : sep ∉ text) : firstLine sep (text ++ [sep]) = text ++ [sep] := by
  have hprefix := firstLine_prefix sep (text ++ [sep])
  rcases List.prefix_concat_iff.1 hprefix with heq | hshort
  · exact heq
  · refine absurd (hshort.subset ?_) htext
    rw [firstLine, if_pos (by simp)]
    simp

end FirstLine

end LinePipe
