import Kmflow.Foundation.Text

/-!
# IPv4 addresses as text

An address is written as its four bytes in decimal, with dots between them. Reading is strict: four
parts of at most three digits each, below 256, without a leading zero. So a text is read as an
address exactly when the address is written so (`parse_eq_some_iff`), and what its first bytes are
can be told from how the text begins (`startsWith_text_iff`, `startsWith_text_iff₂`).
-/

/-- `Ipv4Addr`, by its octets. -/
structure Ipv4Addr where
  a : UInt8
  b : UInt8
  c : UInt8
  d : UInt8
  deriving DecidableEq

namespace Ipv4Addr

/-- A byte in decimal. -/
def octetText (n : UInt8) : List Char := Nat.toDigits 10 n.toNat

/-- How an address is written. -/
def text (addr : Ipv4Addr) : List Char :=
  ['.'].intercalate [octetText addr.a, octetText addr.b, octetText addr.c, octetText addr.d]

/-- One part of an address. -/
def octet (part : List Char) : Option UInt8 :=
  if part.length ≤ 3 ∧ (part.length = 1 ∨ part.head? ≠ some '0') then
    ((Text.digits part).filter (· < 256)).map UInt8.ofNat
  else none

/-- `parse::<Ipv4Addr>()`. -/
def parse (addr : List Char) : Option Ipv4Addr :=
  match addr.splitOn '.' with
  | [a, b, c, d] => do some ⟨← octet a, ← octet b, ← octet c, ← octet d⟩
  | _ => none

/-! ### Reading what was written -/

/-- An octet that was written is read back. -/
theorem octet_octetText (n : UInt8) : octet (octetText n) = some n := by
  have hdigits : Text.digits (octetText n) = some n.toNat := Text.digits_toDigits n.toNat
  have hform : ∀ k < 256, (Nat.toDigits 10 k).length ≤ 3 ∧
      ((Nat.toDigits 10 k).length = 1 ∨ (Nat.toDigits 10 k).head? ≠ some '0') := by decide +kernel
  have hlt : n.toNat < 256 := n.toNat_lt
  rw [octet, octetText, if_pos (hform n.toNat hlt), ← octetText, hdigits, Option.filter_some,
    if_pos (by simpa using hlt), Option.map_some, UInt8.ofNat_toNat]

/-- A part is read as the byte that is written so. -/
theorem octet_eq_some_iff {part : List Char} {n : UInt8} :
    octet part = some n ↔ part = octetText n := by
  refine ⟨fun h ↦ ?_, fun h ↦ h ▸ octet_octetText n⟩
  simp only [octet, Option.ite_none_right_eq_some] at h
  obtain ⟨⟨-, hzero⟩, h⟩ := h
  obtain ⟨k, hk, rfl⟩ := Option.map_eq_some_iff.1 h
  obtain ⟨hdigits, hlt⟩ := Option.filter_eq_some_iff.1 hk
  simp only [Text.digits, Option.ite_none_right_eq_some] at hdigits
  obtain ⟨⟨hne, hall⟩, hvalue⟩ := hdigits
  have hk : Nat.ofDigitChars 10 part 0 = k := Option.some.inj hvalue
  have hnat : (UInt8.ofNat k).toNat = k := UInt8.toNat_ofNat_of_lt' (by simpa using hlt)
  rw [octetText, hnat, ← hk, Text.toDigits_ofDigitChars hne hall hzero]

theorem dot_notMem_octetText (n : UInt8) : '.' ∉ octetText n := fun h ↦ by
  have hdigit := Nat.isDigit_of_mem_toDigits (by decide) (by decide) h
  exact absurd hdigit (by decide)

theorem splitOn_text (addr : Ipv4Addr) :
    addr.text.splitOn '.' =
      [octetText addr.a, octetText addr.b, octetText addr.c, octetText addr.d] := by
  refine List.splitOn_intercalate '.' (fun part hpart ↦ ?_) (List.cons_ne_nil _ _)
  simp only [List.mem_cons, List.not_mem_nil, or_false] at hpart
  rcases hpart with rfl | rfl | rfl | rfl <;> exact dot_notMem_octetText _

/-- **A text is read as an address exactly when it is written so.** -/
theorem parse_eq_some_iff {addr : List Char} {ip : Ipv4Addr} :
    parse addr = some ip ↔ addr = ip.text := by
  constructor
  · intro h
    have hjoin : ['.'].intercalate (addr.splitOn '.') = addr := List.intercalate_splitOn '.'
    rw [parse] at h
    split at h
    case h_1 a b c d hsplit =>
      rw [hsplit] at hjoin
      simp only [Option.bind_eq_bind, Option.bind_eq_some_iff] at h
      obtain ⟨na, ha, nb, hb, nc, hc, nd, hd, hip⟩ := h
      obtain rfl := Option.some.inj hip
      rw [octet_eq_some_iff] at ha hb hc hd
      rw [← hjoin, ha, hb, hc, hd]
      rfl
    case h_2 => cases h
  · rintro rfl
    simp only [parse, splitOn_text, octet_octetText]
    rfl

/-! ### How an address begins -/

/-- The first part of two texts, up to a dot. -/
theorem dot_isPrefix_iff {part part' front rest : List Char} (hpart : '.' ∉ part)
    (hpart' : '.' ∉ part') :
    part ++ '.' :: front <+: part' ++ '.' :: rest ↔ part = part' ∧ front <+: rest := by
  constructor
  · rintro ⟨more, hmore⟩
    rw [List.append_assoc, List.cons_append] at hmore
    have hparts := congrArg (List.splitOn '.') hmore
    rw [List.splitOn_append_cons_self_of_not_mem hpart,
      List.splitOn_append_cons_self_of_not_mem hpart'] at hparts
    obtain rfl : part = part' := (List.cons.inj hparts).1
    exact ⟨rfl, more, (List.cons.inj (List.append_cancel_left hmore)).2⟩
  · rintro ⟨rfl, more, rfl⟩
    exact ⟨more, by simp⟩

theorem octetText_inj {m n : UInt8} : octetText m = octetText n ↔ m = n := by
  refine ⟨fun h ↦ ?_, fun h ↦ h ▸ rfl⟩
  exact Option.some.inj ((octet_octetText m).symm.trans (h ▸ octet_octetText n))

theorem text_eq (addr : Ipv4Addr) :
    addr.text = octetText addr.a ++ '.' :: (octetText addr.b ++ '.' ::
      (octetText addr.c ++ '.' :: octetText addr.d)) := by
  simp [text, List.intercalate]

/-- No character but digits and dots. -/
theorem slash_notMem_text (addr : Ipv4Addr) : '/' ∉ addr.text := by
  have hoctet (n : UInt8) : '/' ∉ octetText n := fun h ↦ by
    have hdigit := Nat.isDigit_of_mem_toDigits (by decide) (by decide) h
    exact absurd hdigit (by decide)
  simp [text_eq, hoctet]

/-- Different addresses have different texts. -/
theorem text_inj {addr addr' : Ipv4Addr} : addr.text = addr'.text ↔ addr = addr' := by
  refine ⟨fun h ↦ ?_, fun h ↦ h ▸ rfl⟩
  exact Option.some.inj ((parse_eq_some_iff.2 rfl).symm.trans (parse_eq_some_iff.2 h))

/-- The first octet can be read off the beginning of the text. -/
theorem startsWith_text_iff {addr : Ipv4Addr} {m : UInt8} :
    octetText m ++ ['.'] <+: addr.text ↔ addr.a = m := by
  rw [text_eq, dot_isPrefix_iff (dot_notMem_octetText m) (dot_notMem_octetText addr.a),
    octetText_inj, eq_comm]
  simp

theorem startsWith_text_iff₂ {addr : Ipv4Addr} {m n : UInt8} :
    octetText m ++ '.' :: (octetText n ++ ['.']) <+: addr.text ↔ addr.a = m ∧ addr.b = n := by
  rw [text_eq, dot_isPrefix_iff (dot_notMem_octetText m) (dot_notMem_octetText addr.a),
    dot_isPrefix_iff (dot_notMem_octetText n) (dot_notMem_octetText addr.b),
    octetText_inj, octetText_inj, eq_comm, @eq_comm _ n]
  simp

end Ipv4Addr
