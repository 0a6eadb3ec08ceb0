import Mathlib.Data.List.DropRight
import Mathlib.Data.Rat.Defs
import Mathlib.Algebra.Field.Rat

/-!
# Reading plain text

The string functions that a reader of line-oriented text is written with, as Rust's `str` has them,
on the list of the characters of the text: `lines`, `trim`, `strip_prefix`, `contains`,
`split_whitespace` and `split_once`, and what `parse` reads as an unsigned integer or as a decimal
number. A decimal number is read exactly.
-/

namespace Text

/-! ### Cutting a text up -/

/-- `char::is_whitespace`. -/
def isWhitespace (c : Char) : Bool :=
  (9 ≤ c.toNat && c.toNat ≤ 13) || c.toNat == 0x20 || c.toNat == 0x85 || c.toNat == 0xA0 ||
    c.toNat == 0x1680 || (0x2000 ≤ c.toNat && c.toNat ≤ 0x200A) || c.toNat == 0x2028 ||
    c.toNat == 0x2029 || c.toNat == 0x202F || c.toNat == 0x205F || c.toNat == 0x3000

/-- A line without the carriage return that stood before its line feed. -/
def stripReturn (line : List Char) : List Char :=
  if line.getLast? = some '\r' then line.dropLast else line

/-- The lines of a text. `line` is the current one so far; the last counts only if it is not
empty, and keeps its carriage return. -/
def lines.go (line : List Char) : List Char → List (List Char)
  | [] => if line = [] then [] else [line]
  | c :: cs => if c = '\n' then stripReturn line :: go [] cs else go (line ++ [c]) cs

/-- `lines`. -/
def lines (text : List Char) : List (List Char) := lines.go [] text

/-- `trim`. -/
def trim (text : List Char) : List Char :=
  (text.dropWhile isWhitespace).rdropWhile isWhitespace

/-- `trim_end_matches` with a character. -/
def trimEndMatches (c : Char) (text : List Char) : List Char := text.rdropWhile (· = c)

/-- `strip_prefix`. -/
def stripStart (start text : List Char) : Option (List Char) :=
  if start.isPrefixOf text then some (text.drop start.length) else none

theorem stripStart_eq_some_iff {start text rest : List Char} :
    stripStart start text = some rest ↔ text = start ++ rest := by
  rw [stripStart, Option.ite_none_right_eq_some, List.isPrefixOf_iff_prefix,
    Option.some.injEq]
  constructor
  · rintro ⟨⟨more, rfl⟩, rfl⟩
    rw [List.drop_left]
  · rintro rfl
    exact ⟨List.prefix_append _ _, List.drop_left⟩

/-- `contains` with a text. -/
def contains (part text : List Char) : Bool := text.tails.any part.isPrefixOf

/-- `split_whitespace().next()`. -/
def firstWord (text : List Char) : Option (List Char) :=
  match (text.dropWhile isWhitespace).takeWhile (! isWhitespace ·) with
  | [] => none
  | word => some word

/-- `split_whitespace`. `word` is the current word so far. -/
def words.go (word : List Char) : List Char → List (List Char)
  | [] => if word = [] then [] else [word]
  | c :: cs =>
    if isWhitespace c then if word = [] then go [] cs else word :: go [] cs else go (word ++ [c]) cs

/-- `split_whitespace`. -/
def words (text : List Char) : List (List Char) := words.go [] text

/-- `split_once` with a character. -/
def splitOnce (c : Char) (text : List Char) : Option (List Char × List Char) :=
  match text.dropWhile (· ≠ c) with
  | [] => none
  | _ :: rest => some (text.takeWhile (· ≠ c), rest)

/-! ### Reading numbers -/

/-- A run of decimal digits that is not empty. -/
def digits (text : List Char) : Option ℕ :=
  if text ≠ [] ∧ text.all Char.isDigit then
    some (text.foldl (fun n c ↦ 10 * n + (c.toNat - 48)) 0)
  else none

theorem digits_eq {text : List Char} (hne : text ≠ []) (hdigits : text.all Char.isDigit) :
    digits text = some (Nat.ofDigitChars 10 text 0) :=
  if_pos ⟨hne, hdigits⟩

theorem all_isDigit_toDigits (n : ℕ) : (Nat.toDigits 10 n).all Char.isDigit :=
  List.all_eq_true.2 fun _ hc ↦ Nat.isDigit_of_mem_toDigits (by decide) (by decide) hc

/-- A number is read back. -/
theorem digits_toDigits (n : ℕ) : digits (Nat.toDigits 10 n) = some n := by
  rw [digits_eq Nat.toDigits_ne_nil (all_isDigit_toDigits n), Nat.ofDigitChars_ten_toDigits]

theorem digitChar_toNat {c : Char} (hc : c.isDigit) :
    c.toNat - 48 < 10 ∧ Nat.digitChar (c.toNat - 48) = c := by
  have hchars : ∀ n < 10, Nat.digitChar n = Char.ofNat (48 + n) := by decide
  obtain ⟨hlow, hhigh⟩ : 48 ≤ c.toNat ∧ c.toNat ≤ 57 := by
    simpa [Char.isDigit, UInt32.le_iff_toNat_le] using hc
  have hlt : c.toNat - 48 < 10 := by omega
  refine ⟨hlt, ?_⟩
  rw [hchars _ hlt, Nat.add_sub_cancel' hlow, Char.ofNat_toNat]

/-- Digits that do not begin with a zero are how the number is written that they stand for. -/
theorem toDigits_ofDigitChars {text : List Char} (hne : text ≠ [])
    (hdigits : text.all Char.isDigit) (hhead : text.length = 1 ∨ text.head? ≠ some '0') :
    Nat.toDigits 10 (Nat.ofDigitChars 10 text 0) = text := by
  induction text using List.reverseRecOn with
  | nil => exact absurd rfl hne
  | append_singleton text c ih =>
    rw [List.all_append, Bool.and_eq_true, List.all_cons, List.all_nil, Bool.and_true] at hdigits
    obtain ⟨htext, hc⟩ := hdigits
    obtain ⟨hlt, hchar⟩ := digitChar_toNat hc
    have hlast : Nat.toDigits 10 (c.toNat - 48) = [c] := by
      rw [Nat.toDigits_of_lt_base hlt, hchar]
    rw [Nat.ofDigitChars_append, Nat.ofDigitChars_cons, Nat.ofDigitChars_nil]
    rcases text.eq_nil_or_concat with rfl | hconcat
    · rw [Nat.ofDigitChars_nil, Nat.mul_zero, Nat.zero_add]
      exact hlast
    · have hne' : text ≠ [] := by
        rcases hconcat with ⟨_, _, rfl⟩
        simp
      have hhead' : text.head? ≠ some '0' := by
        rcases hhead with hlength | hhead
        · rw [List.length_append, List.length_singleton] at hlength
          exact absurd (List.length_eq_zero_iff.1 (by omega)) hne'
        · rwa [List.head?_append_of_ne_nil _ hne'] at hhead
      have hnumber := ih hne' htext (.inr hhead')
      have hpos : 0 < Nat.ofDigitChars 10 text 0 := by
        rw [Nat.pos_iff_ne_zero]
        intro hzero
        rw [hzero] at hnumber
        exact hhead' (by rw [← hnumber]; rfl)
      calc Nat.toDigits 10 (10 * Nat.ofDigitChars 10 text 0 + (c.toNat - 48))
        _ = Nat.toDigits 10 (Nat.ofDigitChars 10 text 0) ++ Nat.toDigits 10 (c.toNat - 48) :=
          (Nat.toDigits_append_toDigits (by decide) hpos hlt).symm
        _ = text ++ [c] := by rw [hnumber, hlast]

/-- `parse` as an unsigned integer below `size`. -/
def parseUnsigned (size : ℕ) (text : List Char) : Option ℕ :=
  let unsigned := match text with
    | '+' :: rest => rest
    | _ => text
  (digits unsigned).filter (· < size)

/-- The exponent of a decimal number, after its `e`. -/
def exponent : List Char → Option ℤ
  | '-' :: text => (digits text).map fun n ↦ -n
  | '+' :: text => (digits text).map Int.ofNat
  | text => (digits text).map Int.ofNat

/-- A decimal number without a sign: digits with a point anywhere among them, and an exponent. -/
def decimal (text : List Char) : Option ℚ :=
  let whole := text.takeWhile Char.isDigit
  let (fraction, rest) := match text.dropWhile Char.isDigit with
    | '.' :: tail => (tail.takeWhile Char.isDigit, tail.dropWhile Char.isDigit)
    | tail => ([], tail)
  (digits (whole ++ fraction)).bind fun mantissa ↦
    let value : ℚ := mantissa / (10 ^ fraction.length : ℕ)
    match rest with
    | [] => some value
    | c :: tail =>
      if c = 'e' ∨ c = 'E' then (exponent tail).map fun e ↦ value * (10 : ℚ) ^ e else none

example : decimal "12.5".toList = some (25 / 2) := by decide +kernel

example : decimal ".e3".toList = none := by decide +kernel

end Text
