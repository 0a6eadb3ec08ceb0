import Kmflow.Foundation.Json

/-!
# JSON texts that are cut short

A reader that has come to the end of a value does not look at what follows: with more text after it
it reads the same (`Extends`). Only a number at the very end could have gone on. So an object, which
ends where its brace closes, stands for nothing once it is cut short (`parse_eq_none_of_prefix`),
and neither does a string (`parse_eq_none_of_prefix_string`), between characters or between the
bytes of one (`Closed.ofBytes_eq_none`).
-/

namespace Json

variable {α : Type*}

/-- What the one reader reads, the other reads too, whatever follows. -/
def Extends (p q : List Char → Option (α × List Char)) : Prop :=
  ∀ ⦃cs a rest⦄ (more), p cs = some (a, rest) → q (cs ++ more) = some (a, rest ++ more)

/-! ### Strings -/

theorem extends_readHex4 : Extends readHex4 readHex4 := by
  intro cs n rest more h
  match cs with
  | [] | [_] | [_, _] | [_, _, _] => cases h
  | a :: b :: c :: d :: cs =>
    simp only [readHex4, List.cons_append, Option.bind_eq_bind, Option.bind_eq_some_iff,
      Option.some.injEq, Prod.mk.injEq] at h ⊢
    obtain ⟨a', ha, b', hb, c', hc, d', hd, hn, rfl⟩ := h
    exact ⟨a', ha, b', hb, c', hc, d', hd, hn, rfl⟩

theorem extends_readUnicode : Extends readUnicode readUnicode := by
  intro cs c rest more h
  obtain ⟨⟨n, cs'⟩, hhex, h⟩ := Option.bind_eq_some_iff.1 h
  refine Option.bind_eq_some_iff.2 ⟨(n, cs' ++ more), extends_readHex4 more hhex, ?_⟩
  dsimp only at h ⊢
  split_ifs at h ⊢
  · -- a leading surrogate, and the trailing one after it
    split at h
    · obtain ⟨⟨m, cs''⟩, hhex', h⟩ := Option.bind_eq_some_iff.1 h
      refine Option.bind_eq_some_iff.2 ⟨(m, cs'' ++ more), extends_readHex4 more hhex', ?_⟩
      dsimp only at h ⊢
      split_ifs at h ⊢
      obtain ⟨rfl, rfl⟩ := Prod.mk.inj (Option.some.inj h)
      exact Eq.refl _
    · cases h
  · obtain ⟨rfl, rfl⟩ := Prod.mk.inj (Option.some.inj h)
    exact Eq.refl _

theorem extends_readEscape : Extends readEscape readEscape := by
  intro cs c rest more h
  rw [readEscape.eq_def] at h
  split at h
  case h_9 cs => exact extends_readUnicode more h
  case h_10 => cases h
  all_goals
    cases h
    rfl

theorem extends_readChar : Extends readChar readChar := by
  intro cs c rest more h
  match cs with
  | [] => cases h
  | d :: cs =>
    by_cases hd : d = '\\'
    · subst hd
      exact extends_readEscape more h
    · have hplain (cs : List Char) :
          readChar (d :: cs) = if d.toNat < 0x20 then none else some (d, cs) := by
        rw [readChar]
        exact fun h ↦ hd h
      rw [List.cons_append, hplain]
      rw [hplain] at h
      split_ifs at h ⊢
      cases h
      rfl

theorem extends_readString {n m : ℕ} (hnm : n ≤ m) : Extends (readString n) (readString m) := by
  induction n generalizing m with
  | zero => exact fun _ _ _ _ h ↦ nomatch h
  | succ n ih =>
    obtain ⟨m, rfl⟩ := Nat.exists_eq_succ_of_ne_zero (Nat.ne_zero_of_lt hnm)
    intro cs s rest more h
    match cs with
    | [] => cases h
    | d :: cs =>
      by_cases hd : d = '"'
      · subst hd
        obtain ⟨rfl, rfl⟩ := Prod.mk.inj (Option.some.inj h)
        rfl
      · have hne (cs tail : List Char) : d :: cs ≠ '"' :: tail := fun h ↦ hd (List.cons.inj h).1
        rw [readString.eq_3 _ _ (hne cs)] at h
        rw [List.cons_append, readString.eq_3 _ _ (hne (cs ++ more))]
        obtain ⟨⟨c, cs'⟩, hchar, h⟩ := Option.bind_eq_some_iff.1 h
        obtain ⟨⟨s', cs''⟩, hstring, h⟩ := Option.bind_eq_some_iff.1 h
        obtain ⟨rfl, rfl⟩ := Prod.mk.inj (Option.some.inj h)
        refine Option.bind_eq_some_iff.2 ⟨(c, cs' ++ more), extends_readChar more hchar, ?_⟩
        exact Option.bind_eq_some_iff.2
          ⟨(s', cs'' ++ more), ih (Nat.le_of_succ_le_succ hnm) more hstring, rfl⟩

/-! ### Values -/

theorem skipSpace_append {c : Char} {cs rest : List Char} (h : skipSpace cs = c :: rest)
    (more : List Char) : skipSpace (cs ++ more) = c :: (rest ++ more) := by
  rw [skipSpace, List.dropWhile_append, show cs.dropWhile isSpace = c :: rest from h]
  rfl

/-- A number reads the same where it has ended. -/
theorem readNumber_append_of_ne_nil {cs rest : List Char} {j : Json} (more : List Char)
    (h : readNumber cs = some (j, rest)) (hrest : rest ≠ []) :
    readNumber (cs ++ more) = some (j, rest ++ more) := by
  rw [readNumber] at h
  split_ifs at h with hnumber
  obtain ⟨rfl, rfl⟩ := Prod.mk.inj (Option.some.inj h)
  have hlength : (cs.takeWhile isNumberChar).length ≠ cs.length := fun hlength ↦ by
    have hsplit : (cs.takeWhile isNumberChar ++ cs.dropWhile isNumberChar).length = cs.length :=
      congrArg List.length List.takeWhile_append_dropWhile
    rw [List.length_append] at hsplit
    exact hrest (List.eq_nil_of_length_eq_zero (by omega))
  have htake : (cs ++ more).takeWhile isNumberChar = cs.takeWhile isNumberChar := by
    rw [List.takeWhile_append, if_neg hlength]
  have hdrop : (cs ++ more).dropWhile isNumberChar = cs.dropWhile isNumberChar ++ more := by
    rw [List.dropWhile_append, if_neg (by simpa using hrest)]
  simp only [readNumber, htake, hdrop, dif_pos hnumber]

/-- A number begins with a character of its own. -/
theorem isNumberChar_of_readNumber {cs rest : List Char} {j : Json}
    (h : readNumber cs = some (j, rest)) : ∃ c tail, cs = c :: tail ∧ isNumberChar c = true := by
  rw [readNumber] at h
  split_ifs at h with hnumber
  cases cs with
  | nil => exact absurd hnumber (by decide)
  | cons c tail =>
    refine ⟨c, tail, rfl, ?_⟩
    by_contra hc
    rw [List.takeWhile_cons_of_neg hc] at hnumber
    exact absurd hnumber (by decide)

/-- What an array, an object or the end of a text makes sure of: more than the value was there, or
the value is an object. -/
def Ended (j : Json) (rest : List Char) : Prop := rest ≠ [] ∨ ∃ members, j = object members

/-- With these counters, values that have ended are read alike whatever follows. -/
def ExtendsValues (n m : ℕ) : Prop := ∀ ⦃cs j rest⦄ (more), read n cs = some (j, rest) →
  Ended j rest → read m (cs ++ more) = some (j, rest ++ more)

theorem read_nil (n : ℕ) : read n [] = none := by
  cases n <;> rfl

theorem readElements_nil (n : ℕ) : readElements n [] = none := by
  cases n with
  | zero => rfl
  | succ n => rw [readElements, read_nil]; rfl

theorem readMembers_nil (n : ℕ) : readMembers n [] = none := by
  cases n <;> rfl

/-- A number is read alike where it has ended. -/
theorem read_append_of_readNumber {m : ℕ} {cs rest : List Char} {j : Json} (more : List Char)
    (h : readNumber (skipSpace cs) = some (j, rest)) (hrest : rest ≠ []) :
    read (m + 1) (cs ++ more) = some (j, rest ++ more) := by
  obtain ⟨c, tail, hspace, hc⟩ := isNumberChar_of_readNumber h
  have hstart : startsValue c = true := by rw [startsValue, hc, Bool.true_or]
  have hread : read (m + 1) (cs ++ more) = read (m + 1) (c :: (tail ++ more)) := by
    rw [read, read, skipSpace_append hspace, skipSpace_cons (isSpace_of_startsValue hstart)]
  rw [hread, read_of_isNumberChar hc, ← List.cons_append, ← hspace]
  exact readNumber_append_of_ne_nil more h hrest

/-- What is past an opening bracket or brace, up to the closing one. -/
def readClosed (close : Char) (wrap : List α → Json)
    (readInner : List Char → Option (List α × List Char)) (cs : List Char) :
    Option (Json × List Char) :=
  match skipSpace cs with
  | c :: cs =>
    if c = close then some (wrap [], cs)
    else (readInner (c :: cs)).map fun (inner, cs) ↦ (wrap inner, cs)
  | [] => none

/-- The array branch of the reader. -/
theorem read_bracket {n : ℕ} {cs tail : List Char} (h : skipSpace cs = '[' :: tail) :
    read (n + 1) cs = readClosed ']' array (readElements n) tail := by
  rw [readClosed]
  cases hspace : skipSpace tail with
  | nil => simp [read, h, hspace, readElements_nil]
  | cons c cs =>
    by_cases hc : c = ']'
    · simp [read, h, hspace, hc]
    · simp [read, h, hspace, hc]

/-- The object branch of the reader. -/
theorem read_brace {n : ℕ} {cs tail : List Char} (h : skipSpace cs = '{' :: tail) :
    read (n + 1) cs = readClosed '}' object (readMembers n) tail := by
  rw [readClosed]
  cases hspace : skipSpace tail with
  | nil => simp [read, h, hspace, readMembers_nil]
  | cons c cs =>
    by_cases hc : c = '}'
    · simp [read, h, hspace, hc]
    · simp [read, h, hspace, hc]

/-- Whatever is between brackets or braces is closed, so it is read alike when its inside is. -/
theorem extends_readClosed (close : Char) (wrap : List α → Json)
    {p q : List Char → Option (List α × List Char)} (h : Extends p q) :
    Extends (readClosed close wrap p) (readClosed close wrap q) := by
  intro cs j rest more hread
  rw [readClosed] at hread ⊢
  cases hspace : skipSpace cs with
  | nil =>
    rw [hspace] at hread
    cases hread
  | cons c tail =>
    rw [hspace] at hread
    rw [skipSpace_append hspace]
    dsimp only at hread ⊢
    split_ifs at hread ⊢
    · obtain ⟨rfl, rfl⟩ := Prod.mk.inj (Option.some.inj hread)
      rfl
    · obtain ⟨⟨inner, cs'⟩, hinner, hwrap⟩ := Option.map_eq_some_iff.1 hread
      obtain ⟨rfl, rfl⟩ := Prod.mk.inj hwrap
      exact Option.map_eq_some_iff.2 ⟨_, h more hinner, rfl⟩

theorem ExtendsValues.succ {n m : ℕ} (hnm : n ≤ m)
    (helements : Extends (readElements n) (readElements m))
    (hmembers : Extends (readMembers n) (readMembers m)) : ExtendsValues (n + 1) (m + 1) := by
  intro cs j rest more h hended
  rw [read] at h
  split at h
  case h_7 =>
    have hrest : rest ≠ [] := hended.resolve_right fun hobject ↦ by
      obtain ⟨members, rfl⟩ := hobject
      rw [readNumber] at h
      split_ifs at h
      cases h
    exact read_append_of_readNumber more h hrest
  case h_1 | h_2 | h_3 =>
    rename_i heq
    rw [read, skipSpace_append heq]
    obtain ⟨rfl, rfl⟩ := Prod.mk.inj (Option.some.inj h)
    rfl
  case h_4 =>
    rename_i heq
    rw [read, skipSpace_append heq]
    obtain ⟨⟨s, cs'⟩, hstring, h⟩ := Option.map_eq_some_iff.1 h
    obtain ⟨rfl, rfl⟩ := Prod.mk.inj h
    exact Option.map_eq_some_iff.2 ⟨_, extends_readString hnm more hstring, rfl⟩
  case h_5 =>
    rename_i heq
    rw [read_bracket (skipSpace_append heq more)]
    refine extends_readClosed ']' array helements more ?_
    rw [← read_bracket heq, read, heq]
    exact h
  case h_6 =>
    rename_i heq
    rw [read_brace (skipSpace_append heq more)]
    refine extends_readClosed '}' object hmembers more ?_
    rw [← read_brace heq, read, heq]
    exact h

/-- What follows a value inside an array or an object is not empty. -/
theorem ended_of_skipSpace {j : Json} {rest tail : List Char} {c : Char}
    (h : skipSpace rest = c :: tail) : Ended j rest := by
  refine .inl ?_
  rintro rfl
  cases h

theorem ExtendsValues.elements_succ {n m : ℕ} (hvalues : ExtendsValues n m)
    (helements : Extends (readElements n) (readElements m)) :
    Extends (readElements (n + 1)) (readElements (m + 1)) := by
  intro cs elements rest more h
  obtain ⟨⟨j, cs'⟩, hread, h⟩ := Option.bind_eq_some_iff.1 h
  dsimp only at h
  split at h
  · rename_i hspace
    obtain ⟨rfl, rfl⟩ := Prod.mk.inj (Option.some.inj h)
    refine Option.bind_eq_some_iff.2 ⟨_, hvalues more hread (ended_of_skipSpace hspace), ?_⟩
    dsimp only
    rw [skipSpace_append hspace]
    rfl
  · rename_i hspace
    obtain ⟨⟨elements', cs''⟩, hmore, h⟩ := Option.map_eq_some_iff.1 h
    obtain ⟨rfl, rfl⟩ := Prod.mk.inj h
    refine Option.bind_eq_some_iff.2 ⟨_, hvalues more hread (ended_of_skipSpace hspace), ?_⟩
    dsimp only
    rw [skipSpace_append hspace]
    exact Option.map_eq_some_iff.2 ⟨_, helements more hmore, rfl⟩
  · cases h

theorem ExtendsValues.members_succ {n m : ℕ} (hnm : n ≤ m) (hvalues : ExtendsValues n m)
    (hmembers : Extends (readMembers n) (readMembers m)) :
    Extends (readMembers (n + 1)) (readMembers (m + 1)) := by
  intro cs members rest more h
  rw [readMembers] at h
  split at h
  · rename_i hquote
    obtain ⟨⟨name, cs'⟩, hname, h⟩ := Option.bind_eq_some_iff.1 h
    rw [readMembers, skipSpace_append hquote]
    refine Option.bind_eq_some_iff.2 ⟨_, extends_readString hnm more hname, ?_⟩
    dsimp only at h ⊢
    split at h
    · rename_i hcolon
      obtain ⟨⟨j, cs''⟩, hread, h⟩ := Option.bind_eq_some_iff.1 h
      rw [skipSpace_append hcolon]
      dsimp only at h
      split at h
      · rename_i hspace
        obtain ⟨rfl, rfl⟩ := Prod.mk.inj (Option.some.inj h)
        refine Option.bind_eq_some_iff.2 ⟨_, hvalues more hread (ended_of_skipSpace hspace), ?_⟩
        dsimp only
        rw [skipSpace_append hspace]
        rfl
      · rename_i hspace
        obtain ⟨⟨members', cs''⟩, hmore, h⟩ := Option.map_eq_some_iff.1 h
        obtain ⟨rfl, rfl⟩ := Prod.mk.inj h
        refine Option.bind_eq_some_iff.2 ⟨_, hvalues more hread (ended_of_skipSpace hspace), ?_⟩
        dsimp only
        rw [skipSpace_append hspace]
        exact Option.map_eq_some_iff.2 ⟨_, hmembers more hmore, rfl⟩
      · cases h
    · cases h
  · cases h

/-- **A value that has ended is read alike whatever follows**, with any larger counter. -/
theorem extendsValues {n m : ℕ} (hnm : n ≤ m) : ExtendsValues n m := by
  suffices h : ExtendsValues n m ∧ Extends (readElements n) (readElements m) ∧
      Extends (readMembers n) (readMembers m) from h.1
  induction n generalizing m with
  | zero =>
    refine ⟨fun _ _ _ _ h ↦ ?_, fun _ _ _ _ h ↦ ?_, fun _ _ _ _ h ↦ ?_⟩
    · cases h
    · cases h
    · cases h
  | succ n ih =>
    obtain ⟨m, rfl⟩ := Nat.exists_eq_succ_of_ne_zero (Nat.ne_zero_of_lt hnm)
    have hle : n ≤ m := Nat.le_of_succ_le_succ hnm
    obtain ⟨hvalues, helements, hmembers⟩ := ih hle
    exact ⟨.succ hle helements hmembers, hvalues.elements_succ helements,
      hvalues.members_succ hle hmembers⟩

/-! ### Objects that are cut short -/

/-- What begins with a brace is an object. -/
theorem exists_of_read_brace {n : ℕ} {cs rest : List Char} {j : Json}
    (h : read (n + 1) ('{' :: cs) = some (j, rest)) : ∃ members, j = object members := by
  rw [read_brace (skipSpace_cons (by decide) cs), readClosed] at h
  split at h
  · split_ifs at h
    · exact ⟨[], (Prod.mk.inj (Option.some.inj h)).1.symm⟩
    · obtain ⟨⟨members, cs'⟩, -, h⟩ := Option.map_eq_some_iff.1 h
      exact ⟨members, (Prod.mk.inj h).1.symm⟩
  · cases h

/-- **An object that is cut short stands for nothing.** -/
theorem parse_eq_none_of_prefix {members : List (String × Json)} {cs : List Char}
    (h : cs <+: write (object members)) (hne : cs ≠ write (object members)) : parse cs = none := by
  have hlength : cs.length < (write (object members)).length :=
    lt_of_le_of_ne h.length_le fun hlength ↦ hne (h.eq_of_length hlength)
  obtain ⟨more, hmore⟩ := h
  cases hread : read (cs.length + 1) cs with
  | none => rw [parse, hread]
  | some r =>
    exfalso
    obtain ⟨j, rest⟩ := r
    have hended : Ended j rest := by
      cases cs with
      | nil =>
        rw [read_nil] at hread
        cases hread
      | cons c cs =>
        obtain rfl : c = '{' := (List.cons.inj hmore).1
        exact .inr (exists_of_read_brace hread)
    have hcut := extendsValues hlength more hread hended
    have hfull := readsValues _ (object members) [] (fun c hc ↦ by cases hc) le_rfl
    rw [hmore] at hcut
    rw [List.append_nil, hcut] at hfull
    have hnil := (List.append_eq_nil_iff.1 (Prod.mk.inj (Option.some.inj hfull)).2).2
    rw [hnil, List.append_nil] at hmore
    exact hne hmore

/-- **A string that is cut short stands for nothing.** -/
theorem parse_eq_none_of_prefix_string {s : String} {cs : List Char}
    (h : cs <+: write (string s)) (hne : cs ≠ write (string s)) : parse cs = none := by
  obtain ⟨more, hmore⟩ := h
  cases cs with
  | nil => rfl
  | cons c cs =>
    obtain rfl : c = '"' := (List.cons.inj hmore).1
    have hrest : cs ++ more = s.toList.flatMap escape ++ ['"'] := (List.cons.inj hmore).2
    cases hread : readString (cs.length + 1) cs with
    | none => rw [parse, List.length_cons, read_string, hread, Option.map_none]
    | some r =>
      exfalso
      obtain ⟨s', rest⟩ := r
      -- with a counter that is large enough for both
      have hcut := extends_readString (m := cs.length + 1 + (s.toList.length + 1))
        (Nat.le_add_right _ _) more hread
      have hfull : readString (cs.length + 1 + (s.toList.length + 1))
          (s.toList.flatMap escape ++ ['"']) = some (s.toList, []) := readString_write (by omega)
      rw [hrest, hfull] at hcut
      have hnil := (List.append_eq_nil_iff.1 (Prod.mk.inj (Option.some.inj hcut)).2.symm).2
      rw [hnil, List.append_nil] at hmore
      exact hne hmore

/-- A value whose text stands for nothing once it is cut short. -/
def Closed (j : Json) : Prop := ∀ cs, cs <+: write j → cs ≠ write j → parse cs = none

theorem closed_object (members : List (String × Json)) : Closed (object members) :=
  fun _ h hne ↦ parse_eq_none_of_prefix h hne

theorem closed_string (s : String) : Closed (string s) :=
  fun _ h hne ↦ parse_eq_none_of_prefix_string h hne

/-- **Its bytes do not stand for anything either**, whether or not they are cut between two
characters. -/
theorem Closed.ofBytes_eq_none {j : Json} (hclosed : Closed j) {bytes : List UInt8}
    (h : bytes <+: toBytes j) (hne : bytes ≠ toBytes j) : ofBytes bytes = none := by
  obtain ⟨more, hmore⟩ := h
  rw [ofBytes, Option.bind_eq_none_iff]
  intro s hs
  obtain ⟨hvalid, hs⟩ := Option.dite_none_right_eq_some.1 hs
  have hencode : s.toList.utf8Encode = bytes.toByteArray := by
    rw [String.utf8Encode_toList, ← Option.some.inj hs]
    rfl
  have hfull : (write j).utf8Encode = bytes.toByteArray ++ more.toByteArray := by
    rw [← List.toByteArray_append, hmore]
    rfl
  have hprefix : s.toList <+: write j :=
    List.isPrefix_of_utf8Encode_append_eq_utf8Encode more.toByteArray (by rw [hencode, hfull])
  refine hclosed _ hprefix fun heq ↦ hne ?_
  rw [heq] at hencode
  rw [← List.toList_data_toByteArray (l := bytes), ← hencode]
  exact List.toList_data_toByteArray

/-- The bytes of an object that is cut short. -/
theorem ofBytes_eq_none_of_prefix {members : List (String × Json)} {bytes : List UInt8}
    (h : bytes <+: toBytes (object members)) (hne : bytes ≠ toBytes (object members)) :
    ofBytes bytes = none := (closed_object members).ofBytes_eq_none h hne

end Json
