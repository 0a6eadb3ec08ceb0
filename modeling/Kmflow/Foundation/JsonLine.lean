import Kmflow.Foundation.JsonCut
import Kmflow.Foundation.Utf8

/-!
# JSON values on lines of their own

The compact text of a value has no line feed (`newline_notMem_toBytes`): a string writes one as an
escape, and no other token has one. So a value can be sent as its text and a line feed after it, and
the receiver finds the end without looking at the value.

Read as a line, the text stands for the value with or without the line feed at its end
(`ofBytes_toLine`), and a value that is closed stands for nothing when more than the
line feed is missing (`Closed.ofBytes_line`).
-/

namespace Json

/-- The line feed. -/
def newline : UInt8 := 10

/-- The value, and a line feed. -/
def toLine (j : Json) : List UInt8 := toBytes j ++ [newline]

/-- The characters all belong to one line. -/
def NoNewline (cs : List Char) : Prop := ∀ c ∈ cs, c ≠ '\n'

instance (cs : List Char) : Decidable (NoNewline cs) := List.decidableBAll _ _

section NoNewline

variable {cs ds : List Char}

theorem NoNewline.append (hcs : NoNewline cs) (hds : NoNewline ds) : NoNewline (cs ++ ds) :=
  fun c hc ↦ (List.mem_append.1 hc).elim (hcs c) (hds c)

theorem NoNewline.cons {c : Char} (hc : c ≠ '\n') (hcs : NoNewline cs) : NoNewline (c :: cs) :=
  List.forall_mem_cons.2 ⟨hc, hcs⟩

theorem noNewline_nil : NoNewline [] := fun _ h ↦ absurd h List.not_mem_nil

theorem digitChar_ne_newline {n : ℕ} (hn : n < 16) : Nat.digitChar n ≠ '\n' := by
  interval_cases n <;> decide

theorem noNewline_escape (c : Char) : NoNewline (escape c) := by
  rw [escape.eq_def]
  split
  case h_8 hnewline _ _ _ _ =>
    split_ifs with hcontrol
    · have hhigh := digitChar_ne_newline (show c.toNat / 16 < 16 by omega)
      have hlow := digitChar_ne_newline (show c.toNat % 16 < 16 by omega)
      have hprefix : NoNewline ['\\', 'u', '0', '0'] := by decide
      exact hprefix.append (.cons hhigh (.cons hlow noNewline_nil))
    · exact .cons hnewline noNewline_nil
  all_goals exact .cons (by decide) (.cons (by decide) noNewline_nil)

theorem noNewline_writeString (cs : List Char) : NoNewline (writeString cs) := by
  refine .append (.cons (by decide) fun c hc ↦ ?_) (.cons (by decide) noNewline_nil)
  obtain ⟨d, -, hd⟩ := List.mem_flatMap.1 hc
  exact noNewline_escape d c hd

theorem noNewline_number (n : Number) : NoNewline n.chars := by
  intro c hc
  rintro rfl
  exact absurd (n.numberChars _ hc) (by decide)

end NoNewline

mutual

/-- **The compact text of a value is one line.** -/
theorem noNewline_write : ∀ j : Json, NoNewline (write j)
  | null => (by decide : NoNewline "null".toList)
  | bool true => (by decide : NoNewline "true".toList)
  | bool false => (by decide : NoNewline "false".toList)
  | number n => noNewline_number n
  | string s => noNewline_writeString s.toList
  | array elements =>
    .append (.cons (by decide) (noNewline_writeElements elements))
      (.cons (by decide) noNewline_nil)
  | object members =>
    .append (.cons (by decide) (noNewline_writeMembers members)) (.cons (by decide) noNewline_nil)

theorem noNewline_writeElements : ∀ elements : List Json, NoNewline (writeElements elements)
  | [] => noNewline_nil
  | [j] => noNewline_write j
  | j :: k :: elements =>
    .append (noNewline_write j) (.cons (by decide) (noNewline_writeElements (k :: elements)))

theorem noNewline_writeMembers :
    ∀ members : List (String × Json), NoNewline (writeMembers members)
  | [] => noNewline_nil
  | [(name, j)] =>
    .append (noNewline_writeString name.toList) (.cons (by decide) (noNewline_write j))
  | (name, j) :: m :: members =>
    .append (.append (noNewline_writeString name.toList) (.cons (by decide) (noNewline_write j)))
      (.cons (by decide) (noNewline_writeMembers (m :: members)))

end

/-- Only the line feed begins with its byte. -/
theorem eq_newline_of_mem {c : Char} (h : newline ∈ String.utf8EncodeChar c) : c = '\n' := by
  obtain ⟨i, hi, hbyte⟩ := List.getElem_of_mem h
  have hfirst : (String.utf8EncodeChar c)[i].IsUTF8FirstByte := by
    rw [hbyte]
    decide
  obtain rfl := UInt8.isUTF8FirstByte_getElem_utf8EncodeChar.1 hfirst
  obtain ⟨b, bytes, hbytes, -⟩ := Utf8.exists_utf8EncodeChar_eq_cons c
  obtain rfl : b = newline := by
    rw [← hbyte]
    simp [hbytes]
  have hc := Utf8.firstChar?_append c []
  have hnewline := Utf8.firstChar?_append '\n' bytes
  rw [List.append_nil, hbytes] at hc
  exact Option.some.inj (hc.symm.trans hnewline)

theorem newline_notMem_toBytes (j : Json) : newline ∉ toBytes j := by
  intro h
  obtain ⟨c, hc, hbyte⟩ := List.mem_flatMap.1 h
  exact noNewline_write j c hc (eq_newline_of_mem hbyte)

/-- White space after a value is passed over. -/
theorem parse_write_append_newline (j : Json) : parse (write j ++ ['\n']) = some j := by
  have hread := readsValues ((write j ++ ['\n']).length + 1) j ['\n']
    (endsNumber_cons (by decide) []) (by rw [List.length_append]; omega)
  rw [parse, hread]
  rfl

/-- **A line stands for the value it was written from.** -/
@[simp] theorem ofBytes_toLine (j : Json) : ofBytes (toLine j) = some j := by
  have hline : toLine j = (write j ++ ['\n']).flatMap String.utf8EncodeChar := by
    rw [List.flatMap_append]
    rfl
  have hutf8 : String.fromUTF8? ((write j ++ ['\n']).flatMap
      String.utf8EncodeChar).toByteArray = some (String.ofList (write j ++ ['\n'])) :=
    dif_pos ⟨write j ++ ['\n'], rfl⟩
  rw [ofBytes, hline, hutf8, Option.bind_some, String.toList_ofList, parse_write_append_newline]

/-- **A line that is cut short** stands for the value when it lacks the line feed alone, and for
nothing when it lacks more. -/
theorem Closed.ofBytes_line {j : Json} (hclosed : Closed j) {bytes : List UInt8}
    (h : bytes <+: toLine j) :
    ofBytes bytes = some j ∧ (toBytes j).length ≤ bytes.length ∨ ofBytes bytes = none := by
  rcases List.prefix_concat_iff.1 h with rfl | h
  · exact .inl ⟨ofBytes_toLine j, by rw [List.length_append]; omega⟩
  · rcases eq_or_ne bytes (toBytes j) with rfl | hne
    · exact .inl ⟨ofBytes_toBytes j, le_rfl⟩
    · exact .inr (hclosed.ofBytes_eq_none h hne)

end Json
