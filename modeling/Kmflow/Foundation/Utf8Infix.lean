import Kmflow.Foundation.Utf8

/-!
# Looking for ASCII in bytes that are read lossily

An ASCII byte is a character of its own wherever it stands, and no character that is read, the
replacement characters included, takes one away (`chars_append_ascii`). So an ASCII text is found in
what lossy decoding makes of some bytes just when its own bytes are found in them
(`infix_chars_iff`), whatever else they are.
-/

namespace Utf8

/-! ### ASCII -/

/-- The character takes one byte. -/
def IsAscii (c : Char) : Prop := c.val.toNat < 0x80

instance (c : Char) : Decidable (IsAscii c) := inferInstanceAs (Decidable (_ < _))

theorem utf8EncodeChar_of_isAscii {c : Char} (hc : IsAscii c) :
    String.utf8EncodeChar c = [.ofNat c.val.toNat] := by
  rw [String.utf8EncodeChar, if_pos (Nat.le_of_lt_succ hc)]

theorem ofNat_lt_of_isAscii {c : Char} (hc : IsAscii c) : UInt8.ofNat c.val.toNat < 0x80 := by
  have hlt : c.val.toNat < 128 := hc
  rw [UInt8.lt_iff_toNat_lt, UInt8.toNat_ofNat', Nat.mod_eq_of_lt (by omega)]
  exact hlt

/-- The bytes of a character that is not ASCII are not ASCII either. -/
theorem le_of_mem_utf8EncodeChar {c : Char} (hc : ¬ IsAscii c) {b : UInt8}
    (hb : b ∈ String.utf8EncodeChar c) : 0x80 ≤ b := by
  have hge (n m k : ℕ) (hm : 0 < m) (hk : 0x80 ≤ k) (hmk : m + k ≤ 256) :
      0x80 ≤ UInt8.ofNat (n % m + k) := by
    have hlt := Nat.mod_lt n hm
    rw [UInt8.le_iff_toNat_le, UInt8.toNat_ofNat', Nat.mod_eq_of_lt (by omega)]
    show 128 ≤ _
    omega
  have hbig : ¬ c.val.toNat ≤ 0x7f := fun hle ↦ hc (Nat.lt_succ_of_le hle)
  rw [String.utf8EncodeChar, if_neg hbig] at hb
  split_ifs at hb
  all_goals
    simp only [List.mem_cons, List.not_mem_nil, or_false] at hb
    rcases hb with rfl | hb
    · exact hge _ _ _ (by decide) (by decide) (by decide)
  · exact hb ▸ hge _ _ _ (by decide) (by decide) (by decide)
  · rcases hb with rfl | rfl <;> exact hge _ _ _ (by decide) (by decide) (by decide)
  · rcases hb with rfl | rfl | rfl <;> exact hge _ _ _ (by decide) (by decide) (by decide)

/-- A character that the bytes begin with. -/
theorem firstChar?_eq_some_iff {bytes : List UInt8} {c : Char} :
    firstChar? bytes = some c ↔ ∃ rest, bytes = String.utf8EncodeChar c ++ rest := by
  constructor
  · intro h
    obtain ⟨l, hl⟩ := ByteArray.exists_of_utf8DecodeChar?_eq_some h
    refine ⟨l.data.toList, ?_⟩
    have hdata := congrArg (fun b : ByteArray ↦ b.data.toList) hl
    simpa only [List.toList_data_toByteArray, ByteArray.data_append, Array.toList_append]
      using hdata
  · rintro ⟨rest, rfl⟩
    exact firstChar?_append c rest

/-! ### What stands before ASCII -/

theorem badLength_le (b : UInt8) (bytes : List UInt8) :
    badLength (b :: bytes) ≤ bytes.length + 1 := by
  rcases bytes with _ | ⟨second, _ | ⟨third, bytes⟩⟩
  · exact le_rfl
  · simp only [badLength]
    split_ifs <;> simp
  · simp only [badLength]
    split_ifs <;> simp only [List.length_cons] <;> omega

theorem isContinuation_of_lt {a : UInt8} (ha : a < 0x80) : isContinuation a = false := by
  rw [isContinuation, decide_eq_false (UInt8.not_le.2 ha), Bool.false_and]

theorem canFollow_of_lt (first : UInt8) {a : UInt8} (ha : a < 0x80) :
    canFollow first a = false := by
  have hle (k : UInt8) (hk : 0x80 ≤ k) : decide (k ≤ a) = false :=
    decide_eq_false (UInt8.not_le.2 (UInt8.lt_of_lt_of_le ha hk))
  rw [canFollow, isContinuation_of_lt ha, hle 0xA0 (by decide), hle 0x80 (by decide),
    hle 0x90 (by decide)]
  split_ifs <;> simp

/-- An ASCII byte ends what is replaced. -/
theorem badLength_append (b : UInt8) (bytes : List UInt8) {a : UInt8} (ha : a < 0x80)
    (rest : List UInt8) : badLength (b :: bytes ++ a :: rest) = badLength (b :: bytes) := by
  rcases bytes with _ | ⟨second, _ | ⟨third, bytes⟩⟩
  · show badLength (b :: a :: rest) = 1
    simp only [badLength, canFollow_of_lt b ha, if_neg Bool.false_ne_true]
  · show badLength (b :: second :: a :: rest) = _
    simp only [badLength, isContinuation_of_lt ha, Bool.and_false, if_neg Bool.false_ne_true]
  · rfl

/-- An ASCII byte does not belong to a character that begins before it. -/
theorem firstChar?_append_ascii (b : UInt8) (bytes : List UInt8) {a : UInt8} (ha : a < 0x80)
    (rest : List UInt8) : firstChar? (b :: bytes ++ a :: rest) = firstChar? (b :: bytes) := by
  refine Option.ext fun c ↦ ?_
  rw [firstChar?_eq_some_iff, firstChar?_eq_some_iff]
  constructor
  · rintro ⟨l, hl⟩
    rcases List.append_eq_append_iff.1 hl with ⟨l', hc, hrest⟩ | ⟨l', hb, -⟩
    · rcases l' with _ | ⟨a', l'⟩
      · rw [List.append_nil] at hc
        exact ⟨[], by rw [hc, List.append_nil]⟩
      · have hmem : a' ∈ String.utf8EncodeChar c := by
          rw [hc]
          exact List.mem_append_right _ (.head _)
        obtain rfl : a = a' := (List.cons.inj hrest).1
        by_cases hascii : IsAscii c
        · rw [utf8EncodeChar_of_isAscii hascii] at hc
          have hlength := congrArg List.length hc
          simp at hlength
        · exact absurd (le_of_mem_utf8EncodeChar hascii hmem) (UInt8.not_le.2 ha)
    · exact ⟨l', hb⟩
  · rintro ⟨l, hl⟩
    exact ⟨l ++ a :: rest, by rw [hl, List.append_assoc]⟩

theorem length_le_of_firstChar? {b : UInt8} {bytes : List UInt8} {c : Char}
    (h : firstChar? (b :: bytes) = some c) : c.utf8Size - 1 ≤ bytes.length := by
  obtain ⟨rest, hrest⟩ := firstChar?_eq_some_iff.1 h
  have hlength := congrArg List.length hrest
  rw [List.length_append, String.length_utf8EncodeChar, List.length_cons] at hlength
  omega

/-- **No character takes an ASCII byte away** that comes after where it begins. -/
theorem chars_append_ascii {bytes : List UInt8} {a : UInt8} (ha : a < 0x80) (rest : List UInt8)
    {skip : ℕ} (hskip : skip ≤ bytes.length) :
    chars skip (bytes ++ a :: rest) = chars skip bytes ++ chars 0 (a :: rest) := by
  induction bytes generalizing skip with
  | nil =>
    obtain rfl := Nat.le_zero.1 hskip
    rfl
  | cons b bytes ih =>
    rcases skip with _ | skip
    · have hfirst := firstChar?_append_ascii b bytes ha rest
      have hbad := badLength_append b bytes ha rest
      rw [List.cons_append] at hfirst hbad ⊢
      rcases hc : firstChar? (b :: bytes) with _ | c
      · have hle := badLength_le b bytes
        rw [chars, chars, hfirst, hc, hbad]
        exact congrArg _ (ih (by omega))
      · rw [chars, chars, hfirst, hc]
        exact congrArg _ (ih (length_le_of_firstChar? hc))
    · exact ih (Nat.le_of_succ_le_succ hskip)

/-! ### Where ASCII is found -/

/-- The bytes of an ASCII text. -/
def asciiBytes (pattern : List Char) : List UInt8 := pattern.map fun c ↦ .ofNat c.val.toNat

theorem flatMap_utf8EncodeChar_of_isAscii {pattern : List Char} (h : ∀ c ∈ pattern, IsAscii c) :
    pattern.flatMap String.utf8EncodeChar = asciiBytes pattern := by
  induction pattern with
  | nil => rfl
  | cons c pattern ih =>
    rw [List.flatMap_cons, utf8EncodeChar_of_isAscii (h c (.head _)),
      ih fun d hd ↦ h d (.tail _ hd)]
    rfl

/-- An ASCII pattern that begins the characters begins the bytes. -/
theorem isPrefix_of_isPrefix_chars {pattern : List Char} (h : ∀ c ∈ pattern, IsAscii c)
    {bytes : List UInt8} (hbegins : pattern <+: chars 0 bytes) : asciiBytes pattern <+: bytes := by
  induction pattern generalizing bytes with
  | nil => exact List.nil_prefix
  | cons c pattern ih =>
    rcases bytes with _ | ⟨b, bytes⟩
    · cases List.prefix_nil.1 hbegins
    · have hc := h c (.head _)
      rw [chars] at hbegins
      rcases hfirst : firstChar? (b :: bytes) with _ | d
      · rw [hfirst] at hbegins
        obtain ⟨rfl, -⟩ := List.cons_prefix_cons.1 hbegins
        exact absurd hc (by decide)
      · rw [hfirst] at hbegins
        obtain ⟨rfl, htail⟩ := List.cons_prefix_cons.1 hbegins
        obtain ⟨rest, hrest⟩ := firstChar?_eq_some_iff.1 hfirst
        have hsize := String.length_utf8EncodeChar c
        rw [utf8EncodeChar_of_isAscii hc] at hrest hsize
        rw [← hsize] at htail
        obtain ⟨rfl, -⟩ := List.cons.inj hrest
        exact List.cons_prefix_cons.2 ⟨rfl, ih (fun e he ↦ h e (.tail _ he)) htail⟩

/-- An ASCII pattern within the characters is within the bytes. -/
theorem infix_of_infix_chars {pattern : List Char} (h : ∀ c ∈ pattern, IsAscii c)
    {bytes : List UInt8} {skip : ℕ} (hwithin : pattern <:+: chars skip bytes) :
    asciiBytes pattern <:+: bytes := by
  induction bytes generalizing skip with
  | nil =>
    rw [chars] at hwithin
    rw [List.infix_nil.1 hwithin]
    exact List.nil_infix
  | cons b bytes ih =>
    rcases skip with _ | skip
    · rcases hfirst : firstChar? (b :: bytes) with _ | c
      all_goals
        have hcons := hwithin
        rw [chars, hfirst] at hcons
        rcases List.infix_cons_iff.1 hcons with hbegins | hwithin'
        · refine (isPrefix_of_isPrefix_chars h ?_).isInfix
          rw [chars, hfirst]
          exact hbegins
        · exact List.infix_cons (ih hwithin')
    · exact List.infix_cons (ih hwithin)

/-- **ASCII is found in what is read just when it is found in the bytes.** -/
theorem infix_chars_iff {pattern : List Char} (h : ∀ c ∈ pattern, IsAscii c) {bytes : List UInt8} :
    pattern <:+: chars 0 bytes ↔ asciiBytes pattern <:+: bytes := by
  refine ⟨infix_of_infix_chars h, ?_⟩
  rintro ⟨before, after, rfl⟩
  rcases pattern with _ | ⟨c, pattern⟩
  · exact List.nil_infix
  · have hc := ofNat_lt_of_isAscii (h c (.head _))
    have hsplit := chars_append_ascii hc (asciiBytes pattern ++ after) (Nat.zero_le before.length)
    have hpattern : asciiBytes (c :: pattern) ++ after =
        (c :: pattern).flatMap String.utf8EncodeChar ++ after := by
      rw [flatMap_utf8EncodeChar_of_isAscii h]
    refine ⟨chars 0 before, chars 0 after, ?_⟩
    rw [List.append_assoc, List.append_assoc]
    refine Eq.trans ?_ hsplit.symm
    show _ = chars 0 before ++ chars 0 (asciiBytes (c :: pattern) ++ after)
    rw [hpattern, chars_flatMap_append]

end Utf8
