import Mathlib.Data.List.Infix

/-!
# UTF-8, and what lossy decoding makes of other bytes

`encode` is the UTF-8 of a text, and `decodeLossy` reads bytes as a text whatever they are: where no
character begins it puts one replacement character for the longest run of bytes that a character
could have begun with (`badLength`), and goes on after it.

On the UTF-8 of a text it gives the text back (`decodeLossy_encode`). On the UTF-8 of a text that is
cut short it never does, but for one ending: a replacement character of which a part is left is read
as a replacement character (`decodeLossy_take_encode_iff`).
-/

namespace Utf8

/-- The UTF-8 of a text. -/
def encode (s : String) : List UInt8 := s.toList.flatMap String.utf8EncodeChar

/-- The bytes are the UTF-8 of some text. -/
def IsValid (bytes : List UInt8) : Prop := ∃ s, encode s = bytes

theorem toByteArray_encode (s : String) : (encode s).toByteArray = s.toByteArray := by
  rw [← String.utf8Encode_toList]
  rfl

/-- Strict decoding undoes the encoding, and nothing else is decoded. -/
theorem fromUTF8?_eq_some_iff {bytes : List UInt8} {s : String} :
    String.fromUTF8? bytes.toByteArray = some s ↔ encode s = bytes := by
  constructor
  · intro h
    obtain ⟨hvalid, hs⟩ := Option.dite_none_right_eq_some.1 h
    have hbytes : (encode s).toByteArray = bytes.toByteArray := by
      rw [toByteArray_encode, ← Option.some.inj hs]
      rfl
    rw [← List.toList_data_toByteArray (l := bytes), ← hbytes, List.toList_data_toByteArray]
  · rintro rfl
    rw [toByteArray_encode]
    exact dif_pos s.isValidUTF8

/-- The character that the bytes begin with, if they begin with one. -/
def firstChar? (bytes : List UInt8) : Option Char := bytes.toByteArray.utf8DecodeChar? 0

/-- `U+FFFD`. -/
def replacementCharacter : Char := '\uFFFD'

/-! ### Lossy decoding -/

/-- A byte that goes on with a character. -/
def isContinuation (b : UInt8) : Bool := 0x80 ≤ b && b ≤ 0xBF

/-- A second byte that can follow the first one in a character of three or four bytes. -/
def canFollow (first second : UInt8) : Bool :=
  if first = 0xE0 then 0xA0 ≤ second && second ≤ 0xBF
  else if first = 0xED then 0x80 ≤ second && second ≤ 0x9F
  else if first = 0xF0 then 0x90 ≤ second && second ≤ 0xBF
  else if first = 0xF4 then 0x80 ≤ second && second ≤ 0x8F
  else 0xE1 ≤ first && first ≤ 0xF3 && isContinuation second

/-- How many bytes one replacement character stands for, where no character begins: as many as a
character could have begun with, and at least one. -/
def badLength : List UInt8 → ℕ
  | first :: second :: rest =>
    if canFollow first second then
      match rest with
      | third :: _ => if 0xF0 ≤ first && isContinuation third then 3 else 2
      | [] => 2
    else 1
  | _ => 1

/-- The characters of the bytes past the first `skip` ones. -/
def chars : ℕ → List UInt8 → List Char
  | _, [] => []
  | skip + 1, _ :: bytes => chars skip bytes
  | 0, b :: bytes =>
    match firstChar? (b :: bytes) with
    | some c => c :: chars (c.utf8Size - 1) bytes
    | none => replacementCharacter :: chars (badLength (b :: bytes) - 1) bytes

/-- `String::from_utf8_lossy`. -/
def decodeLossy (bytes : List UInt8) : String := .ofList (chars 0 bytes)

/-- The first character of a character's bytes, whatever follows. -/
theorem firstChar?_append (c : Char) (rest : List UInt8) :
    firstChar? (String.utf8EncodeChar c ++ rest) = some c := by
  rw [firstChar?, List.toByteArray_append, ByteArray.utf8DecodeChar?_utf8EncodeChar_append]

theorem chars_length_append (bytes rest : List UInt8) :
    chars bytes.length (bytes ++ rest) = chars 0 rest := by
  induction bytes with
  | nil => rfl
  | cons b bytes ih => exact ih

/-- The bytes of a character are not empty. -/
theorem exists_utf8EncodeChar_eq_cons (c : Char) :
    ∃ b bytes, String.utf8EncodeChar c = b :: bytes ∧ bytes.length = c.utf8Size - 1 := by
  have hlength := String.length_utf8EncodeChar c
  have hpos := c.utf8Size_pos
  match hbytes : String.utf8EncodeChar c with
  | [] =>
    rw [hbytes, List.length_nil] at hlength
    omega
  | b :: bytes =>
    rw [hbytes, List.length_cons] at hlength
    exact ⟨b, bytes, rfl, by omega⟩

/-- What was encoded is decoded. -/
theorem chars_flatMap (cs : List Char) : chars 0 (cs.flatMap String.utf8EncodeChar) = cs := by
  induction cs with
  | nil => rfl
  | cons c cs ih =>
    have hfirst := firstChar?_append c (cs.flatMap String.utf8EncodeChar)
    obtain ⟨b, bytes, hbytes, hlength⟩ := exists_utf8EncodeChar_eq_cons c
    rw [List.flatMap_cons]
    rw [hbytes, List.cons_append] at hfirst ⊢
    rw [chars, hfirst]
    dsimp only
    rw [← hlength, chars_length_append, ih]

/-- **The UTF-8 of a text is read as the text.** -/
@[simp] theorem decodeLossy_encode (s : String) : decodeLossy (encode s) = s := by
  rw [decodeLossy, encode, chars_flatMap, String.ofList_toList]

/-- Valid bytes are the UTF-8 of what they are read as. -/
theorem encode_decodeLossy {bytes : List UInt8} (h : IsValid bytes) :
    encode (decodeLossy bytes) = bytes := by
  obtain ⟨s, rfl⟩ := h
  rw [decodeLossy_encode]

/-- A byte that begins no character, one in the middle of a text, and a text that is cut short. -/
example : decodeLossy [0xFF, 0x61, 0xE4, 0xBD] = "\uFFFDa\uFFFD" := by decide +kernel

/-- Only no bytes are read as no text. -/
theorem decodeLossy_eq_empty_iff {bytes : List UInt8} : decodeLossy bytes = "" ↔ bytes = [] := by
  constructor
  · intro h
    cases bytes with
    | nil => rfl
    | cons b bytes =>
      have hnil : chars 0 (b :: bytes) = [] := String.ofList_injective h
      rw [chars] at hnil
      split at hnil <;> cases hnil
  · rintro rfl
    rfl

/-! ### A text that is cut short -/

/-- A part of a character that is not all of it begins no character. -/
theorem firstChar?_take {c : Char} {m : ℕ} (hm : m < c.utf8Size) :
    firstChar? ((String.utf8EncodeChar c).take m) = none := by
  rw [Option.eq_none_iff_forall_ne_some]
  intro d hd
  have hfirst := ByteArray.utf8DecodeChar?_append_eq_some hd
    ((String.utf8EncodeChar c).drop m).toByteArray
  rw [← List.toByteArray_append, List.take_append_drop] at hfirst
  have hchar := firstChar?_append c []
  rw [List.append_nil, firstChar?] at hchar
  obtain rfl := Option.some.inj (hfirst.symm.trans hchar)
  have hsize := ByteArray.le_size_of_utf8DecodeChar?_eq_some hd
  rw [List.size_toByteArray, List.length_take] at hsize
  omega

theorem chars_flatMap_append (cs : List Char) (rest : List UInt8) :
    chars 0 (cs.flatMap String.utf8EncodeChar ++ rest) = cs ++ chars 0 rest := by
  induction cs with
  | nil => rfl
  | cons c cs ih =>
    have hfirst := firstChar?_append c (cs.flatMap String.utf8EncodeChar ++ rest)
    obtain ⟨b, bytes, hbytes, hlength⟩ := exists_utf8EncodeChar_eq_cons c
    rw [List.flatMap_cons, List.append_assoc]
    rw [hbytes, List.cons_append] at hfirst ⊢
    rw [chars, hfirst]
    dsimp only
    rw [← hlength, chars_length_append, ih, List.cons_append]

/-- Where a cut falls: behind the text, or within one of its characters. -/
theorem exists_cut (cs : List Char) (n : ℕ) :
    (cs.flatMap String.utf8EncodeChar).length ≤ n ∨
      ∃ before c after m, cs = before ++ c :: after ∧ m < c.utf8Size ∧
        n = (before.flatMap String.utf8EncodeChar).length + m := by
  induction cs generalizing n with
  | nil => exact .inl (Nat.zero_le n)
  | cons c cs ih =>
    rcases Nat.lt_or_ge n c.utf8Size with hlt | hge
    · exact .inr ⟨[], c, cs, n, rfl, hlt, (Nat.zero_add n).symm⟩
    · have hlength (ds : List Char) : ((c :: ds).flatMap String.utf8EncodeChar).length =
          c.utf8Size + (ds.flatMap String.utf8EncodeChar).length := by
        rw [List.flatMap_cons, List.length_append, String.length_utf8EncodeChar]
      rcases ih (n - c.utf8Size) with hle | ⟨before, d, after, m, rfl, hm, hn⟩
      · rw [hlength]
        exact .inl (by omega)
      · refine .inr ⟨c :: before, d, after, m, rfl, hm, ?_⟩
        rw [hlength]
        omega

/-- The bytes left of a character are read as nothing, or as something that begins with a
replacement character. -/
theorem chars_take {c : Char} {m : ℕ} (hm : m < c.utf8Size) :
    m = 0 ∧ chars 0 ((String.utf8EncodeChar c).take m) = [] ∨
      0 < m ∧
        ∃ rest, chars 0 ((String.utf8EncodeChar c).take m) = replacementCharacter :: rest := by
  have hnone := firstChar?_take hm
  obtain ⟨b, bytes, hbytes, -⟩ := exists_utf8EncodeChar_eq_cons c
  rw [hbytes] at hnone ⊢
  cases m with
  | zero => exact .inl ⟨rfl, rfl⟩
  | succ m =>
    rw [List.take_succ_cons] at hnone ⊢
    rw [chars, hnone]
    exact .inr ⟨Nat.succ_pos m, _, rfl⟩

/-- A replacement character that is cut short is read as a replacement character. -/
theorem chars_take_replacementCharacter {m : ℕ} (hpos : 0 < m)
    (hm : m < replacementCharacter.utf8Size) :
    chars 0 ((String.utf8EncodeChar replacementCharacter).take m) = [replacementCharacter] := by
  have hsize : replacementCharacter.utf8Size = 3 := by decide
  obtain rfl | rfl : m = 1 ∨ m = 2 := by omega
  · decide +kernel
  · decide +kernel

/-- The last character of a text takes part of its bytes. -/
theorem utf8Size_le_of_getLast? {cs : List Char} {c : Char} (h : cs.getLast? = some c) :
    c.utf8Size ≤ (cs.flatMap String.utf8EncodeChar).length := by
  obtain ⟨before, rfl⟩ := List.getLast?_eq_some_iff.1 h
  rw [List.flatMap_append, List.length_append, List.flatMap_singleton, String.length_utf8EncodeChar]
  exact Nat.le_add_left _ _

/-- **When a cut text is read as the text**: when nothing is cut off, and when the text ends with a
replacement character of which a part is left. -/
theorem decodeLossy_take_encode_iff (s : String) (n : ℕ) :
    decodeLossy ((encode s).take n) = s ↔
      (encode s).length ≤ n ∨
        (encode s).length ≤ n + 2 ∧ s.toList.getLast? = some replacementCharacter := by
  have hsize : replacementCharacter.utf8Size = 3 := by decide
  have hlist : decodeLossy ((encode s).take n) = s ↔ chars 0 ((encode s).take n) = s.toList := by
    rw [← String.toList_inj, decodeLossy, String.toList_ofList]
  rw [hlist, encode]
  rcases exists_cut s.toList n with hle | ⟨before, c, after, m, hs, hm, rfl⟩
  · rw [List.take_of_length_le hle, chars_flatMap]
    exact iff_of_true rfl (.inl hle)
  · have hbytes : ((before ++ c :: after).flatMap String.utf8EncodeChar).take
        ((before.flatMap String.utf8EncodeChar).length + m) =
          before.flatMap String.utf8EncodeChar ++ (String.utf8EncodeChar c).take m := by
      rw [List.flatMap_append, List.flatMap_cons, List.take_length_add_append,
        List.take_append_of_le_length (by rw [String.length_utf8EncodeChar]; exact hm.le)]
    have hlength : ((before ++ c :: after).flatMap String.utf8EncodeChar).length =
        (before.flatMap String.utf8EncodeChar).length + (c.utf8Size +
          (after.flatMap String.utf8EncodeChar).length) := by
      rw [List.flatMap_append, List.flatMap_cons, List.length_append, List.length_append,
        String.length_utf8EncodeChar]
    rw [hs, hbytes, chars_flatMap_append, List.append_cancel_left_eq, hlength,
      List.getLast?_append_of_ne_nil _ (List.cons_ne_nil c after), or_iff_right (by omega)]
    constructor
    · intro heq
      rcases chars_take hm with ⟨_, hnil⟩ | ⟨hpos, rest, hrest⟩
      · cases hnil.symm.trans heq
      · obtain ⟨rfl, rfl⟩ := List.cons.inj (hrest.symm.trans heq)
        rw [chars_take_replacementCharacter hpos hm] at heq
        obtain rfl := (List.cons.inj heq).2
        refine ⟨?_, rfl⟩
        simp only [List.flatMap_nil, List.length_nil, hsize]
        omega
    · rintro ⟨hle, hlast⟩
      rcases List.eq_nil_or_concat after with rfl | ⟨_, _, hafter⟩
      · obtain rfl : c = replacementCharacter := Option.some.inj hlast
        rw [hsize] at hle
        simp only [List.flatMap_nil, List.length_nil] at hle
        exact chars_take_replacementCharacter (by omega) hm
      · -- a whole replacement character would have been cut off
        have hne : after ≠ [] := by rw [hafter]; simp
        rw [List.getLast?_cons_of_ne_nil hne] at hlast
        have := utf8Size_le_of_getLast? hlast
        omega

/-- Two of the three bytes of the last character are enough, if it is the right one. -/
example : decodeLossy ((encode "a\uFFFD").take 3) = "a\uFFFD" := by decide +kernel

end Utf8
