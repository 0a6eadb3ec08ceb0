import Mathlib.Algebra.Group.Nat.Defs
import Mathlib.Data.List.Basic
import Mathlib.Data.List.TakeWhile
import Mathlib.Tactic.IntervalCases
import Mathlib.Tactic.SplitIfs

/-!
# JSON texts

Values, the compact writer and the reader of the JSON grammar, over lists of characters. A number is
its literal, so a `Number` carries the proof that the grammar accepts it and no value of a machine
type is fixed here. The members of an object are kept in order and with repetitions, since what to
do with those is up to whoever decodes the object.

The reader calls itself through a counter. Every call takes a character of its own off the text, a
bracket or a comma, so the counter does not run out on a text that has a value. `parse_write` is the
round trip: every value is read back from what the writer makes of it. Two things carry it. A
literal ends where no further character could belong to it, which inside an array or an object is
what a comma or a bracket sees to (`EndsNumber`), and an escaped character is read back whatever
follows it (`readChar_escape`).

`size` counts the bytes of a value's text, and `size_array` and `size_object` take it apart.
-/

namespace Json

/-! ### Numbers -/

/-- A character that occurs in number literals. -/
def isNumberChar (c : Char) : Bool :=
  c.isDigit || c == '-' || c == '+' || c == '.' || c == 'e' || c == 'E'

/-- What follows the digits at the front, of which there must be one. -/
def skipDigits : List Char → Option (List Char)
  | [] => none
  | c :: cs => if c.isDigit then some (cs.dropWhile Char.isDigit) else none

/-- What follows the integer part: a single zero, or digits that do not begin with one. -/
def skipInteger : List Char → Option (List Char)
  | '0' :: cs => some cs
  | cs => skipDigits cs

/-- What follows the fraction, if there is one. -/
def skipFraction : List Char → Option (List Char)
  | '.' :: cs => skipDigits cs
  | cs => some cs

/-- What follows the sign of an exponent. -/
def skipSign : List Char → List Char
  | '-' :: cs => cs
  | '+' :: cs => cs
  | cs => cs

/-- What follows the exponent, if there is one. -/
def skipExponent : List Char → Option (List Char)
  | 'e' :: cs => skipDigits (skipSign cs)
  | 'E' :: cs => skipDigits (skipSign cs)
  | cs => some cs

/-- What follows a leading minus. -/
def skipMinus : List Char → List Char
  | '-' :: cs => cs
  | cs => cs

/-- The grammar of number literals. -/
def isNumber (cs : List Char) : Bool :=
  (((skipInteger (skipMinus cs)).bind skipFraction).bind skipExponent) == some []

/-- A number, as it is written. -/
structure Number where
  chars : List Char
  valid : isNumber chars = true
  deriving DecidableEq

/-- All characters of a list occur in number literals. -/
def NumberChars (cs : List Char) : Prop := ∀ c ∈ cs, isNumberChar c = true

theorem NumberChars.cons {c : Char} {cs : List Char} (hc : isNumberChar c = true)
    (hcs : NumberChars cs) : NumberChars (c :: cs) :=
  List.forall_mem_cons.2 ⟨hc, hcs⟩

theorem isNumberChar_of_isDigit {c : Char} (h : c.isDigit = true) : isNumberChar c = true := by
  simp [isNumberChar, h]

section Skip

variable {cs rest : List Char}

theorem NumberChars.of_skipDigits (hrest : NumberChars rest) (h : skipDigits cs = some rest) :
    NumberChars cs := by
  match cs with
  | c :: cs =>
    rw [skipDigits] at h
    split_ifs at h with hc
    obtain rfl := Option.some.inj h
    refine .cons (isNumberChar_of_isDigit hc) fun d hd ↦ ?_
    rw [← List.takeWhile_append_dropWhile (p := Char.isDigit) (l := cs), List.mem_append] at hd
    rcases hd with hd | hd
    · exact isNumberChar_of_isDigit (List.mem_takeWhile_imp hd)
    · exact hrest d hd

/-- Digits are passed over as far as they go. -/
theorem skipDigits_append {c : Char} (hc : c.isDigit = true) (hcs : ∀ d ∈ cs, d.isDigit = true)
    (hrest : ∀ d ∈ rest.head?, d.isDigit = false) : skipDigits (c :: cs ++ rest) = some rest := by
  rw [List.cons_append, skipDigits, if_pos hc, List.dropWhile_append_of_pos hcs]
  match rest with
  | [] => rfl
  | d :: rest =>
    have hd : d.isDigit = false := hrest d rfl
    rw [List.dropWhile_cons_of_neg (by simp [hd])]

theorem NumberChars.of_skipInteger (hrest : NumberChars rest) (h : skipInteger cs = some rest) :
    NumberChars cs := by
  rw [skipInteger.eq_def] at h
  split at h
  · obtain rfl := Option.some.inj h
    exact .cons (by decide) hrest
  · exact hrest.of_skipDigits h

theorem NumberChars.of_skipFraction (hrest : NumberChars rest) (h : skipFraction cs = some rest) :
    NumberChars cs := by
  rw [skipFraction.eq_def] at h
  split at h
  · exact .cons (by decide) (hrest.of_skipDigits h)
  · obtain rfl := Option.some.inj h
    exact hrest

theorem NumberChars.of_skipSign (h : NumberChars (skipSign cs)) : NumberChars cs := by
  rw [skipSign.eq_def] at h
  split at h
  · exact .cons (by decide) h
  · exact .cons (by decide) h
  · exact h

theorem NumberChars.of_skipExponent (hrest : NumberChars rest) (h : skipExponent cs = some rest) :
    NumberChars cs := by
  rw [skipExponent.eq_def] at h
  split at h
  · exact .cons (by decide) (hrest.of_skipDigits h).of_skipSign
  · exact .cons (by decide) (hrest.of_skipDigits h).of_skipSign
  · obtain rfl := Option.some.inj h
    exact hrest

theorem NumberChars.of_skipMinus (h : NumberChars (skipMinus cs)) : NumberChars cs := by
  rw [skipMinus.eq_def] at h
  split at h
  · exact .cons (by decide) h
  · exact h

end Skip

/-- No number but zero begins with a zero. -/
theorem head?_toDigits_ne {n : ℕ} (hn : 0 < n) : (Nat.toDigits 10 n).head? ≠ some '0' := by
  induction n using Nat.strong_induction_on with
  | _ n ih =>
    rw [Nat.toDigits_eq_if (by decide)]
    split_ifs with hlt
    · simp only [List.head?_cons, ne_eq, Option.some.injEq, Nat.digitChar_eq_zero]
      omega
    · obtain ⟨c, cs, hdigits⟩ := List.exists_cons_of_ne_nil (@Nat.toDigits_ne_nil (n / 10) 10)
      have hhead := ih (n / 10) (by omega) (by omega)
      rwa [hdigits] at hhead ⊢

/-- The digits of a natural number are an integer part. -/
theorem skipInteger_toDigits (n : ℕ) {rest : List Char}
    (hrest : ∀ d ∈ rest.head?, d.isDigit = false) :
    skipInteger (Nat.toDigits 10 n ++ rest) = some rest := by
  rcases Nat.eq_zero_or_pos n with rfl | hn
  · rfl
  · have hhead := head?_toDigits_ne hn
    have hdigit : ∀ d ∈ Nat.toDigits 10 n, d.isDigit = true := fun d hd ↦
      Nat.isDigit_of_mem_toDigits (by decide) (by decide) hd
    obtain ⟨c, cs, hdigits⟩ := List.exists_cons_of_ne_nil (@Nat.toDigits_ne_nil n 10)
    rw [hdigits] at hhead hdigit ⊢
    obtain ⟨hc, hcs⟩ := List.forall_mem_cons.1 hdigit
    have hne : c ≠ '0' := fun h ↦ hhead (congrArg some h)
    rw [List.cons_append, skipInteger.eq_2 _ (fun cs' h ↦ hne (List.cons.inj h).1)]
    exact skipDigits_append hc hcs hrest

theorem skipMinus_toDigits (n : ℕ) (rest : List Char) :
    skipMinus (Nat.toDigits 10 n ++ rest) = Nat.toDigits 10 n ++ rest := by
  have hdigit : ∀ d ∈ Nat.toDigits 10 n, d.isDigit = true := fun d hd ↦
    Nat.isDigit_of_mem_toDigits (by decide) (by decide) hd
  obtain ⟨c, cs, hdigits⟩ := List.exists_cons_of_ne_nil (@Nat.toDigits_ne_nil n 10)
  rw [hdigits] at hdigit ⊢
  have hne : c ≠ '-' := by
    rintro rfl
    exact absurd (hdigit '-' (List.mem_cons_self ..)) (by decide)
  exact skipMinus.eq_2 _ fun cs' h ↦ hne (List.cons.inj h).1

/-- The digits of a natural number are a number. -/
theorem isNumber_toDigits (n : ℕ) : isNumber (Nat.toDigits 10 n) = true := by
  have hinteger : skipInteger (Nat.toDigits 10 n ++ []) = some [] :=
    skipInteger_toDigits n fun d h ↦ by cases h
  have hminus := skipMinus_toDigits n []
  rw [List.append_nil] at hinteger hminus
  rw [isNumber, hminus, hinteger]
  rfl

namespace Number

theorem numberChars (n : Number) : NumberChars n.chars := by
  have hvalid := n.valid
  rw [isNumber, beq_iff_eq] at hvalid
  obtain ⟨rest, hrest, hexponent⟩ := Option.bind_eq_some_iff.1 hvalid
  obtain ⟨rest', hinteger, hfraction⟩ := Option.bind_eq_some_iff.1 hrest
  have hnil : NumberChars [] := fun _ h ↦ by cases h
  exact (((hnil.of_skipExponent hexponent).of_skipFraction hfraction).of_skipInteger
    hinteger).of_skipMinus

theorem chars_ne_nil (n : Number) : n.chars ≠ [] := by
  intro h
  have hvalid := n.valid
  rw [h] at hvalid
  exact absurd hvalid (by decide)

/-- A natural number, in decimal digits. -/
def ofNat (n : ℕ) : Number where
  chars := Nat.toDigits 10 n
  valid := isNumber_toDigits n

/-- The natural number a literal stands for, if it is one: digits and nothing else. -/
def natural? (n : Number) : Option ℕ :=
  if n.chars.all Char.isDigit then some (Nat.ofDigitChars 10 n.chars 0) else none

@[simp] theorem natural?_ofNat (n : ℕ) : (ofNat n).natural? = some n := by
  have hdigit : (Nat.toDigits 10 n).all Char.isDigit = true := List.all_eq_true.2 fun d hd ↦
    Nat.isDigit_of_mem_toDigits (by decide) (by decide) hd
  rw [natural?, ofNat, if_pos hdigit, Nat.ofDigitChars_ten_toDigits]

end Number

/-! ### Strings -/

/-- A character inside a string, as it is written. -/
def escape : Char → List Char
  | '"' => ['\\', '"']
  | '\\' => ['\\', '\\']
  | '\n' => ['\\', 'n']
  | '\r' => ['\\', 'r']
  | '\t' => ['\\', 't']
  | '\x08' => ['\\', 'b']
  | '\x0c' => ['\\', 'f']
  | c =>
    if c.toNat < 0x20 then
      ['\\', 'u', '0', '0', Nat.digitChar (c.toNat / 16), Nat.digitChar (c.toNat % 16)]
    else [c]

/-- A string between its quotes. -/
def writeString (cs : List Char) : List Char := '"' :: cs.flatMap escape ++ ['"']

/-- The value of a hexadecimal digit, in either case. -/
def hexValue (c : Char) : Option ℕ :=
  if '0' ≤ c ∧ c ≤ '9' then some (c.toNat - '0'.toNat)
  else if 'a' ≤ c ∧ c ≤ 'f' then some (c.toNat - 'a'.toNat + 10)
  else if 'A' ≤ c ∧ c ≤ 'F' then some (c.toNat - 'A'.toNat + 10)
  else none

/-- Four hexadecimal digits. -/
def readHex4 : List Char → Option (ℕ × List Char)
  | a :: b :: c :: d :: cs => do
    let a ← hexValue a
    let b ← hexValue b
    let c ← hexValue c
    let d ← hexValue d
    some (((a * 16 + b) * 16 + c) * 16 + d, cs)
  | _ => none

/-- What follows `\u`: a code unit, or a leading and a trailing surrogate. -/
def readUnicode (cs : List Char) : Option (Char × List Char) := do
  let (n, cs) ← readHex4 cs
  if 0xD800 ≤ n ∧ n ≤ 0xDBFF then
    match cs with
    | '\\' :: 'u' :: cs =>
      let (m, cs) ← readHex4 cs
      if 0xDC00 ≤ m ∧ m ≤ 0xDFFF then
        some (Char.ofNat (0x10000 + (n - 0xD800) * 0x400 + (m - 0xDC00)), cs)
      else none
    | _ => none
  else if 0xDC00 ≤ n ∧ n ≤ 0xDFFF then none
  else some (Char.ofNat n, cs)

/-- What follows a backslash. -/
def readEscape : List Char → Option (Char × List Char)
  | '"' :: cs => some ('"', cs)
  | '\\' :: cs => some ('\\', cs)
  | '/' :: cs => some ('/', cs)
  | 'b' :: cs => some ('\x08', cs)
  | 'f' :: cs => some ('\x0c', cs)
  | 'n' :: cs => some ('\n', cs)
  | 'r' :: cs => some ('\r', cs)
  | 't' :: cs => some ('\t', cs)
  | 'u' :: cs => readUnicode cs
  | _ => none

/-- One character inside a string. Control characters must be escaped. -/
def readChar : List Char → Option (Char × List Char)
  | [] => none
  | '\\' :: cs => readEscape cs
  | c :: cs => if c.toNat < 0x20 then none else some (c, cs)

/-- What follows the opening quote of a string, up to the closing one. -/
def readString : ℕ → List Char → Option (List Char × List Char)
  | 0, _ => none
  | _ + 1, '"' :: cs => some ([], cs)
  | n + 1, cs => do
    let (c, cs) ← readChar cs
    let (s, cs) ← readString n cs
    some (c :: s, cs)

theorem hexValue_digitChar {n : ℕ} (hn : n < 16) : hexValue (Nat.digitChar n) = some n := by
  interval_cases n <;> rfl

theorem readUnicode_control {n : ℕ} (hn : n < 0x20) (rest : List Char) :
    readUnicode ('0' :: '0' :: Nat.digitChar (n / 16) :: Nat.digitChar (n % 16) :: rest) =
      some (Char.ofNat n, rest) := by
  have hzero : hexValue '0' = some 0 := hexValue_digitChar (by decide : 0 < 16)
  have hhigh : hexValue (Nat.digitChar (n / 16)) = some (n / 16) := hexValue_digitChar (by omega)
  have hlow : hexValue (Nat.digitChar (n % 16)) = some (n % 16) := hexValue_digitChar (by omega)
  have hvalue : ((0 * 16 + 0) * 16 + n / 16) * 16 + n % 16 = n := by omega
  simp only [readUnicode, readHex4, hzero, hhigh, hlow, Option.bind_eq_bind, Option.bind_some,
    hvalue]
  rw [if_neg (by omega), if_neg (by omega)]

/-- **An escaped character is read back**, whatever follows it. -/
theorem readChar_escape (c : Char) (rest : List Char) :
    readChar (escape c ++ rest) = some (c, rest) := by
  rw [escape.eq_def]
  split
  case h_8 hbackslash _ _ _ _ _ =>
    split_ifs with hcontrol
    · have hread := readUnicode_control hcontrol rest
      rwa [Char.ofNat_toNat] at hread
    · rw [List.singleton_append, readChar.eq_3 _ _ hbackslash, if_neg hcontrol]
  all_goals rfl

/-- No escaped character begins with a quote. -/
theorem escape_append_ne (c : Char) (cs rest : List Char) : escape c ++ cs ≠ '"' :: rest := by
  intro h
  rw [escape.eq_def] at h
  split at h
  case h_8 hquote _ _ _ _ _ _ =>
    split_ifs at h
    · cases (List.cons.inj h).1
    · exact hquote (List.cons.inj h).1
  all_goals cases (List.cons.inj h).1

/-- A string that was written is read back. -/
theorem readString_write {cs rest : List Char} {n : ℕ} (hn : cs.length < n) :
    readString n (cs.flatMap escape ++ '"' :: rest) = some (cs, rest) := by
  induction cs generalizing n with
  | nil =>
    obtain ⟨n, rfl⟩ := Nat.exists_eq_succ_of_ne_zero (Nat.ne_zero_of_lt hn)
    rfl
  | cons c cs ih =>
    obtain ⟨n, rfl⟩ := Nat.exists_eq_succ_of_ne_zero (Nat.ne_zero_of_lt hn)
    have hcs : cs.length < n := Nat.lt_of_succ_lt_succ hn
    rw [List.flatMap_cons, List.append_assoc, readString.eq_3 _ _ (escape_append_ne c _),
      readChar_escape]
    simp only [Option.bind_eq_bind, Option.bind_some, ih hcs]

end Json

/-! ### Values -/

/-- A value; the members of an object are in the order they are written in. -/
inductive Json where
  | null
  | bool (b : Bool)
  | number (n : Json.Number)
  | string (s : String)
  | array (elements : List Json)
  | object (members : List (String × Json))

namespace Json

mutual

/-- The compact text of a value. -/
def write : Json → List Char
  | null => "null".toList
  | bool true => "true".toList
  | bool false => "false".toList
  | number n => n.chars
  | string s => writeString s.toList
  | array elements => '[' :: writeElements elements ++ [']']
  | object members => '{' :: writeMembers members ++ ['}']

/-- The elements of an array, with commas between them. -/
def writeElements : List Json → List Char
  | [] => []
  | [j] => write j
  | j :: k :: elements => write j ++ ',' :: writeElements (k :: elements)

/-- The members of an object, with commas between them. -/
def writeMembers : List (String × Json) → List Char
  | [] => []
  | [(name, j)] => writeString name.toList ++ ':' :: write j
  | (name, j) :: m :: members =>
    writeString name.toList ++ ':' :: write j ++ ',' :: writeMembers (m :: members)

end

/-- White space between tokens. -/
def isSpace (c : Char) : Bool := c == ' ' || c == '\n' || c == '\t' || c == '\r'

/-- What is left after the space. -/
def skipSpace (cs : List Char) : List Char := cs.dropWhile isSpace

/-- The characters that belong to a literal, if they are one. -/
def readNumber (cs : List Char) : Option (Json × List Char) :=
  if h : isNumber (cs.takeWhile isNumberChar) = true then
    some (number ⟨cs.takeWhile isNumberChar, h⟩, cs.dropWhile isNumberChar)
  else none

mutual

/-- One value, and what follows it. -/
def read : ℕ → List Char → Option (Json × List Char)
  | 0, _ => none
  | n + 1, cs =>
    match skipSpace cs with
    | 'n' :: 'u' :: 'l' :: 'l' :: cs => some (null, cs)
    | 't' :: 'r' :: 'u' :: 'e' :: cs => some (bool true, cs)
    | 'f' :: 'a' :: 'l' :: 's' :: 'e' :: cs => some (bool false, cs)
    | '"' :: cs => (readString n cs).map fun (s, cs) ↦ (string (String.ofList s), cs)
    | '[' :: cs =>
      match skipSpace cs with
      | ']' :: cs => some (array [], cs)
      | cs => (readElements n cs).map fun (elements, cs) ↦ (array elements, cs)
    | '{' :: cs =>
      match skipSpace cs with
      | '}' :: cs => some (object [], cs)
      | cs => (readMembers n cs).map fun (members, cs) ↦ (object members, cs)
    | cs => readNumber cs

/-- The elements of an array that has some, past the closing bracket. -/
def readElements : ℕ → List Char → Option (List Json × List Char)
  | 0, _ => none
  | n + 1, cs => do
    let (j, cs) ← read n cs
    match skipSpace cs with
    | ']' :: cs => some ([j], cs)
    | ',' :: cs => (readElements n cs).map fun (elements, cs) ↦ (j :: elements, cs)
    | _ => none

/-- The members of an object that has some, past the closing brace. -/
def readMembers : ℕ → List Char → Option (List (String × Json) × List Char)
  | 0, _ => none
  | n + 1, cs =>
    match skipSpace cs with
    | '"' :: cs => do
      let (name, cs) ← readString n cs
      match skipSpace cs with
      | ':' :: cs =>
        let (j, cs) ← read n cs
        match skipSpace cs with
        | '}' :: cs => some ([(String.ofList name, j)], cs)
        | ',' :: cs =>
          (readMembers n cs).map fun (members, cs) ↦ ((String.ofList name, j) :: members, cs)
        | _ => none
      | _ => none
    | _ => none

end

/-- The value a whole text stands for. -/
def parse (cs : List Char) : Option Json :=
  match read (cs.length + 1) cs with
  | some (j, rest) => if skipSpace rest = [] then some j else none
  | none => none

/-! ### The round trip -/

/-- No literal goes on here. -/
def EndsNumber (rest : List Char) : Prop := ∀ c ∈ rest.head?, isNumberChar c = false

/-- So is a number that nothing continues. -/
theorem readNumber_append (n : Number) {rest : List Char} (hrest : EndsNumber rest) :
    readNumber (n.chars ++ rest) = some (number n, rest) := by
  have hnil : rest.takeWhile isNumberChar = [] ∧ rest.dropWhile isNumberChar = rest := by
    match rest with
    | [] => exact ⟨rfl, rfl⟩
    | c :: rest =>
      have hc : isNumberChar c = false := hrest c rfl
      simp [hc]
  have htake : (n.chars ++ rest).takeWhile isNumberChar = n.chars := by
    rw [List.takeWhile_append_of_pos n.numberChars, hnil.1, List.append_nil]
  have hdrop : (n.chars ++ rest).dropWhile isNumberChar = rest := by
    rw [List.dropWhile_append_of_pos n.numberChars, hnil.2]
  simp only [readNumber, htake, hdrop, n.valid, dite_true]

theorem skipSpace_cons {c : Char} (hc : isSpace c = false) (cs : List Char) :
    skipSpace (c :: cs) = c :: cs := by
  rw [skipSpace, List.dropWhile_cons_of_neg (by simp [hc])]

/-- A character a value can begin with. -/
def startsValue (c : Char) : Bool :=
  isNumberChar c || ['n', 't', 'f', '"', '[', '{'].contains c

theorem exists_write_eq_cons (j : Json) : ∃ c cs, write j = c :: cs ∧ startsValue c = true := by
  match j with
  | null => exact ⟨_, _, rfl, by decide⟩
  | bool true | bool false => exact ⟨_, _, rfl, by decide⟩
  | string _ => exact ⟨_, _, rfl, by decide⟩
  | array _ => exact ⟨_, _, rfl, by decide⟩
  | object _ => exact ⟨_, _, rfl, by decide⟩
  | number n =>
    obtain ⟨c, cs, hchars⟩ := List.exists_cons_of_ne_nil n.chars_ne_nil
    refine ⟨c, cs, by rw [write, hchars], ?_⟩
    have hc : isNumberChar c = true := n.numberChars c (hchars ▸ List.mem_cons_self ..)
    rw [startsValue, hc, Bool.true_or]

theorem isSpace_of_startsValue {c : Char} (h : startsValue c = true) : isSpace c = false := by
  rw [Bool.eq_false_iff]
  intro hspace
  simp only [isSpace, Bool.or_eq_true, beq_iff_eq] at hspace
  rcases hspace with ((rfl | rfl) | rfl) | rfl <;> exact absurd h (by decide)

section Read

variable {n : ℕ} {c : Char} {cs rest : List Char}

theorem read_of_isNumberChar (hc : isNumberChar c = true) :
    read (n + 1) (c :: cs) = readNumber (c :: cs) := by
  have hstart : startsValue c = true := by rw [startsValue, hc, Bool.true_or]
  rw [read, skipSpace_cons (isSpace_of_startsValue hstart)]
  split
  case h_7 => rfl
  all_goals
    rename_i heq
    exact absurd ((List.cons.inj heq).1 ▸ hc) (by decide)

theorem read_string : read (n + 1) ('"' :: cs) =
    (readString n cs).map fun (s, cs) ↦ (string (String.ofList s), cs) := rfl

theorem read_array (hc : startsValue c = true) : read (n + 1) ('[' :: c :: cs) =
    (readElements n (c :: cs)).map fun (elements, cs) ↦ (array elements, cs) := by
  have hne : c ≠ ']' := by
    rintro rfl
    exact absurd hc (by decide)
  show (match skipSpace (c :: cs) with
    | ']' :: cs => some (array [], cs)
    | cs => (readElements n cs).map fun (elements, cs) ↦ (array elements, cs)) = _
  rw [skipSpace_cons (isSpace_of_startsValue hc)]
  split
  · rename_i heq
    exact absurd (List.cons.inj heq).1 hne
  · rfl

theorem read_object : read (n + 1) ('{' :: '"' :: cs) =
    (readMembers n ('"' :: cs)).map fun (members, cs) ↦ (object members, cs) := rfl

theorem readElements_last {j : Json} (hj : read n cs = some (j, ']' :: rest)) :
    readElements (n + 1) cs = some ([j], rest) := by
  rw [readElements, hj]
  rfl

theorem readElements_more {j : Json} (hj : read n cs = some (j, ',' :: rest)) :
    readElements (n + 1) cs =
      (readElements n rest).map fun (elements, cs) ↦ (j :: elements, cs) := by
  rw [readElements, hj]
  rfl

theorem readMembers_last {name text : List Char} {j : Json}
    (hname : readString n cs = some (name, ':' :: text))
    (hj : read n text = some (j, '}' :: rest)) :
    readMembers (n + 1) ('"' :: cs) = some ([(String.ofList name, j)], rest) := by
  simp [readMembers, skipSpace, isSpace, hname, hj]

theorem readMembers_more {name text : List Char} {j : Json}
    (hname : readString n cs = some (name, ':' :: text))
    (hj : read n text = some (j, ',' :: rest)) :
    readMembers (n + 1) ('"' :: cs) =
      (readMembers n rest).map fun (members, cs) ↦ ((String.ofList name, j) :: members, cs) := by
  simp [readMembers, skipSpace, isSpace, hname, hj]

end Read

theorem escape_ne_nil (c : Char) : escape c ≠ [] := by
  rw [escape.eq_def]
  split
  case h_8 => split_ifs <;> exact List.cons_ne_nil _ _
  all_goals exact List.cons_ne_nil _ _

theorem length_lt_writeString (cs : List Char) : cs.length + 1 < (writeString cs).length := by
  have hflat : cs.length ≤ (cs.flatMap escape).length := by
    induction cs with
    | nil => exact Nat.le_refl _
    | cons c cs ih =>
      have hc : 0 < (escape c).length := List.length_pos_of_ne_nil (escape_ne_nil c)
      rw [List.flatMap_cons, List.length_append, List.length_cons]
      omega
  rw [writeString, List.length_append, List.length_cons, List.length_singleton]
  omega

/-- A string past its opening quote. -/
theorem readString_writeString {n : ℕ} {cs rest : List Char}
    (hn : (writeString cs).length ≤ n + 1) :
    ∃ text, writeString cs ++ rest = '"' :: text ∧ readString n text = some (cs, rest) := by
  have hlength := length_lt_writeString cs
  refine ⟨cs.flatMap escape ++ '"' :: rest, ?_, readString_write (by omega)⟩
  rw [writeString, List.cons_append, List.cons_append, List.append_assoc, List.singleton_append]

theorem exists_writeElements_eq_cons (j : Json) (elements : List Json) :
    ∃ c cs, writeElements (j :: elements) = c :: cs ∧ startsValue c = true := by
  obtain ⟨c, cs, hj, hc⟩ := exists_write_eq_cons j
  match elements with
  | [] => exact ⟨c, cs, hj, hc⟩
  | k :: elements => exact ⟨c, _, by rw [writeElements, hj, List.cons_append], hc⟩

theorem exists_writeMembers_eq_cons (m : String × Json) (members : List (String × Json)) :
    ∃ cs, writeMembers (m :: members) = '"' :: cs := by
  obtain ⟨name, j⟩ := m
  match members with
  | [] => exact ⟨_, rfl⟩
  | m :: members => exact ⟨_, rfl⟩

/-- With this counter, values whose text is no longer are read back. -/
def ReadsValues (n : ℕ) : Prop := ∀ (j : Json) (rest : List Char), EndsNumber rest →
  (write j).length ≤ n → read n (write j ++ rest) = some (j, rest)

/-- With this counter, elements whose text is shorter are read back. -/
def ReadsElements (n : ℕ) : Prop := ∀ (j : Json) (elements : List Json) (rest : List Char),
  (writeElements (j :: elements)).length < n →
    readElements n (writeElements (j :: elements) ++ ']' :: rest) = some (j :: elements, rest)

/-- With this counter, members whose text is shorter are read back. -/
def ReadsMembers (n : ℕ) : Prop :=
  ∀ (m : String × Json) (members : List (String × Json)) (rest : List Char),
    (writeMembers (m :: members)).length < n →
      readMembers n (writeMembers (m :: members) ++ '}' :: rest) = some (m :: members, rest)

theorem endsNumber_cons {c : Char} (hc : isNumberChar c = false) (rest : List Char) :
    EndsNumber (c :: rest) := by
  intro d hd
  obtain rfl := Option.some.inj hd
  exact hc

section Steps

variable {n : ℕ}

/-- A value is read back when its parts are. -/
theorem ReadsElements.readsValues_succ (helements : ReadsElements n) (hmembers : ReadsMembers n) :
    ReadsValues (n + 1) := by
  intro j rest hrest hj
  match j with
  | null => rfl
  | bool true | bool false => rfl
  | number m =>
    obtain ⟨c, cs, hchars⟩ := List.exists_cons_of_ne_nil m.chars_ne_nil
    have hc : isNumberChar c = true := m.numberChars c (hchars ▸ List.mem_cons_self ..)
    have hread := readNumber_append m hrest
    rw [write, hchars, List.cons_append, read_of_isNumberChar hc]
    rwa [hchars] at hread
  | string s =>
    rw [write] at hj ⊢
    obtain ⟨text, htext, hread⟩ := @readString_writeString n s.toList rest hj
    rw [htext, read_string, hread, Option.map_some]
    exact congrArg (fun s ↦ some (string s, rest)) String.ofList_toList
  | array [] => rfl
  | array (j :: elements) =>
    obtain ⟨c, cs, hcs, hc⟩ := exists_writeElements_eq_cons j elements
    have hread := helements j elements rest (by
      rw [write, List.length_append, List.length_cons, List.length_singleton] at hj
      omega)
    rw [write, List.cons_append, List.cons_append, List.append_assoc, List.singleton_append]
    rw [hcs, List.cons_append] at hread ⊢
    rw [read_array hc, hread, Option.map_some]
  | object [] => rfl
  | object (m :: members) =>
    obtain ⟨cs, hcs⟩ := exists_writeMembers_eq_cons m members
    have hread := hmembers m members rest (by
      rw [write, List.length_append, List.length_cons, List.length_singleton] at hj
      omega)
    rw [write, List.cons_append, List.cons_append, List.append_assoc, List.singleton_append]
    rw [hcs, List.cons_append] at hread ⊢
    rw [read_object, hread, Option.map_some]

/-- The elements of an array are read back when its values are. -/
theorem ReadsValues.readsElements_succ (hvalues : ReadsValues n) (helements : ReadsElements n) :
    ReadsElements (n + 1) := by
  intro j elements rest hlength
  match elements with
  | [] =>
    exact readElements_last (hvalues j _ (endsNumber_cons (by decide) _)
      (Nat.le_of_lt_succ hlength))
  | k :: elements =>
    rw [writeElements, List.length_append, List.length_cons] at hlength
    rw [writeElements, List.append_assoc, List.cons_append,
      readElements_more (hvalues j _ (endsNumber_cons (by decide) _) (by omega)),
      helements k elements rest (by omega), Option.map_some]

/-- So are the members of an object. -/
theorem ReadsValues.readsMembers_succ (hvalues : ReadsValues n) (hmembers : ReadsMembers n) :
    ReadsMembers (n + 1) := by
  rintro ⟨name, j⟩ members rest hlength
  match members with
  | [] =>
    rw [writeMembers, List.length_append, List.length_cons] at hlength
    obtain ⟨text, htext, hname⟩ := @readString_writeString n name.toList
      (':' :: (write j ++ '}' :: rest)) (by omega)
    rw [writeMembers, List.append_assoc, List.cons_append, htext,
      readMembers_last hname (hvalues j _ (endsNumber_cons (by decide) _) (by omega)),
      String.ofList_toList]
  | m :: members =>
    rw [writeMembers, List.length_append, List.length_append, List.length_cons,
      List.length_cons] at hlength
    obtain ⟨text, htext, hname⟩ := @readString_writeString n name.toList
      (':' :: (write j ++ ',' :: (writeMembers (m :: members) ++ '}' :: rest))) (by omega)
    rw [writeMembers, List.append_assoc, List.append_assoc, List.cons_append, List.cons_append,
      htext, readMembers_more hname (hvalues j _ (endsNumber_cons (by decide) _) (by omega)),
      hmembers m members rest (by omega), Option.map_some]
    exact congrArg (fun s ↦ some ((s, j) :: m :: members, rest)) String.ofList_toList

end Steps

/-- **Reading undoes writing**, with a counter as large as the text is long. By induction on the
counter, for values, elements and members together. -/
theorem readsValues (n : ℕ) : ReadsValues n := by
  suffices h : ReadsValues n ∧ ReadsElements n ∧ ReadsMembers n from h.1
  induction n with
  | zero =>
    refine ⟨fun j rest _ h ↦ ?_, fun _ _ _ h ↦ absurd h (Nat.not_lt_zero _),
      fun _ _ _ h ↦ absurd h (Nat.not_lt_zero _)⟩
    obtain ⟨c, cs, hj, _⟩ := exists_write_eq_cons j
    rw [hj] at h
    exact absurd h (Nat.not_succ_le_zero _)
  | succ n ih =>
    obtain ⟨hvalues, helements, hmembers⟩ := ih
    exact ⟨helements.readsValues_succ hmembers, hvalues.readsElements_succ helements,
      hvalues.readsMembers_succ hmembers⟩

/-- **A text stands for the value it was written from.** -/
@[simp] theorem parse_write (j : Json) : parse (write j) = some j := by
  have hread := readsValues ((write j).length + 1) j [] (fun c hc ↦ by cases hc) (Nat.le_succ _)
  rw [List.append_nil] at hread
  rw [parse, hread]
  rfl

/-! ### Bytes -/

/-- The text of a value, in UTF-8. -/
def toBytes (j : Json) : List UInt8 := (write j).flatMap String.utf8EncodeChar

/-- The value that bytes stand for, if they are the UTF-8 of a text that stands for one. -/
def ofBytes (bytes : List UInt8) : Option Json :=
  (String.fromUTF8? bytes.toByteArray).bind fun s ↦ parse s.toList

/-- **Bytes stand for the value they were written from.** -/
@[simp] theorem ofBytes_toBytes (j : Json) : ofBytes (toBytes j) = some j := by
  have hutf8 : String.fromUTF8? (toBytes j).toByteArray = some (String.ofList (write j)) :=
    dif_pos ⟨write j, rfl⟩
  rw [ofBytes, hutf8, Option.bind_some, String.toList_ofList, parse_write]

/-! ### Sizes -/

/-- The bytes a text takes. -/
def byteLength (cs : List Char) : ℕ := (cs.flatMap String.utf8EncodeChar).length

/-- The bytes a value takes. -/
def size (j : Json) : ℕ := (toBytes j).length

/-- The bytes a string takes, its quotes included. -/
def quotedSize (s : String) : ℕ := byteLength (writeString s.toList)

@[simp] theorem byteLength_append (cs ds : List Char) :
    byteLength (cs ++ ds) = byteLength cs + byteLength ds := by
  rw [byteLength, List.flatMap_append, List.length_append, byteLength, byteLength]

theorem byteLength_cons {c : Char} (hc : c.utf8Size = 1) (cs : List Char) :
    byteLength (c :: cs) = byteLength cs + 1 := by
  rw [byteLength, List.flatMap_cons, List.length_append, String.length_utf8EncodeChar, hc,
    Nat.add_comm, byteLength]

/-- No character takes less than a byte. -/
theorem length_le_byteLength (cs : List Char) : cs.length ≤ byteLength cs := by
  induction cs with
  | nil => exact Nat.le_refl _
  | cons c cs ih =>
    have hc := c.utf8Size_pos
    rw [byteLength, List.flatMap_cons, List.length_append, String.length_utf8EncodeChar,
      List.length_cons]
    rw [byteLength] at ih
    omega

theorem utf8Size_of_isNumberChar {c : Char} (hc : isNumberChar c = true) : c.utf8Size = 1 := by
  rw [Char.utf8Size_eq_one_iff]
  simp only [isNumberChar, Bool.or_eq_true, beq_iff_eq] at hc
  rcases hc with ((((hdigit | rfl) | rfl) | rfl) | rfl) | rfl
  · simp only [Char.isDigit, Bool.and_eq_true, decide_eq_true_eq] at hdigit
    exact UInt32.le_trans hdigit.2 (by decide)
  all_goals decide

theorem byteLength_of_numberChars {cs : List Char} (h : NumberChars cs) :
    byteLength cs = cs.length := by
  induction cs with
  | nil => rfl
  | cons c cs ih =>
    obtain ⟨hc, hcs⟩ := List.forall_mem_cons.1 h
    rw [byteLength_cons (utf8Size_of_isNumberChar hc), ih hcs, List.length_cons]

/-- A string takes more bytes than it has characters. -/
theorem length_lt_quotedSize (s : String) : s.length + 1 < quotedSize s :=
  Nat.lt_of_lt_of_le (length_lt_writeString s.toList) (length_le_byteLength _)

@[simp] theorem size_null : size null = 4 := by decide

@[simp] theorem size_number (n : Number) : size (number n) = n.chars.length :=
  byteLength_of_numberChars n.numberChars

theorem byteLength_writeElements (elements : List Json) :
    byteLength (writeElements elements) =
      (elements.map size).sum + (elements.length - 1) := by
  induction elements with
  | nil => rfl
  | cons j elements ih =>
    match elements with
    | [] => rfl
    | k :: elements =>
      have hj : byteLength (write j) = size j := rfl
      rw [writeElements, byteLength_append, byteLength_cons (by decide), ih, hj]
      simp only [List.map_cons, List.sum_cons, List.length_cons]
      omega

theorem byteLength_writeMembers (members : List (String × Json)) :
    byteLength (writeMembers members) =
      (members.map fun m ↦ quotedSize m.1 + 1 + size m.2).sum + (members.length - 1) := by
  induction members with
  | nil => rfl
  | cons m members ih =>
    obtain ⟨name, j⟩ := m
    have hname : byteLength (writeString name.toList) = quotedSize name := rfl
    have hj : byteLength (write j) = size j := rfl
    match members with
    | [] =>
      rw [writeMembers, byteLength_append, byteLength_cons (by decide), hname, hj]
      simp only [List.map_cons, List.map_nil, List.sum_cons, List.sum_nil, List.length_cons,
        List.length_nil]
      omega
    | m :: members =>
      rw [writeMembers, byteLength_append, byteLength_append, byteLength_cons (by decide),
        byteLength_cons (by decide), ih, hname, hj]
      simp only [List.map_cons, List.sum_cons, List.length_cons]
      omega

theorem size_array (elements : List Json) :
    size (array elements) = (elements.map size).sum + (elements.length - 1) + 2 := by
  have h : size (array elements) = byteLength ('[' :: writeElements elements ++ [']']) := rfl
  rw [h, List.cons_append, byteLength_cons (by decide), byteLength_append,
    byteLength_writeElements]
  rfl

theorem size_object (members : List (String × Json)) :
    size (object members) =
      (members.map fun m ↦ quotedSize m.1 + 1 + size m.2).sum + (members.length - 1) + 2 := by
  have h : size (object members) = byteLength ('{' :: writeMembers members ++ ['}']) := rfl
  rw [h, List.cons_append, byteLength_cons (by decide), byteLength_append,
    byteLength_writeMembers]
  rfl

theorem size_object_one (name : String) (j : Json) :
    size (object [(name, j)]) = quotedSize name + size j + 3 := by
  rw [size_object]
  simp only [List.map_cons, List.map_nil, List.sum_cons, List.sum_nil, List.length_cons,
    List.length_nil]
  omega

theorem size_object_two (name other : String) (j k : Json) :
    size (object [(name, j), (other, k)]) =
      quotedSize name + size j + (quotedSize other + size k) + 5 := by
  rw [size_object]
  simp only [List.map_cons, List.map_nil, List.sum_cons, List.sum_nil, List.length_cons,
    List.length_nil]
  omega

end Json
