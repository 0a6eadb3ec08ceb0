import Kmflow.Foundation.Utf8

/-!
# The announce packet

`build_announce` and `parse_announce` of `discovery.rs`: six bytes of magic, the port in two bytes,
the length of the fingerprint in one, the fingerprint, and the hostname up to the end of the packet.

Every index and every slice of `parse_announce` is looked up, and one that is out of range is a
panic, the outer `none` of the result. `parseAnnounce_eq` shows that there is none: the guards line
up with the slices. The inner `none` is the one the source returns.
-/

namespace Kmflow

/-- `MAGIC`. -/
def magic : List UInt8 := [0x4B, 0x4D, 0x46, 0x4C, 0x4F, 0x57]

/-- The size of the buffer that a packet is received in. What does not fit is cut off. -/
def recvBufferSize : ℕ := 512

/-- What arrives of a packet in the receive buffer. -/
def received (packet : List UInt8) : List UInt8 := packet.take recvBufferSize

/-- `u16::to_be_bytes`. -/
def toBeBytes (n : UInt16) : List UInt8 := [UInt8.ofNat (n.toNat / 256), UInt8.ofNat n.toNat]

/-- `u16::from_be_bytes`. -/
def fromBeBytes (high low : UInt8) : UInt16 := UInt16.ofNat (high.toNat * 256 + low.toNat)

/-- The length of the fingerprint is cast to one byte. -/
def buildAnnounce (hostname : String) (port : UInt16) (fingerprint : String) : List UInt8 :=
  let fpBytes := Utf8.encode fingerprint
  magic ++ toBeBytes port ++ [UInt8.ofNat fpBytes.length] ++ fpBytes ++ Utf8.encode hostname

/-- `&data[start..stop]`, which panics out of range. -/
def slice (data : List UInt8) (start stop : ℕ) : Option (List UInt8) :=
  if start ≤ stop ∧ stop ≤ data.length then some ((data.take stop).drop start) else none

/-- The hostname, the port and the fingerprint of a packet. -/
def parseAnnounce (data : List UInt8) : Option (Option (String × UInt16 × String)) :=
  if data.length < 9 then some none
  else do
    let head ← slice data 0 6
    if head ≠ magic then some none
    else
      let port := fromBeBytes (← data[6]?) (← data[7]?)
      let fpLen := (← data[8]?).toNat
      if data.length < 9 + fpLen then some none
      else
        let fingerprint := Utf8.decodeLossy (← slice data 9 (9 + fpLen))
        let hostname := Utf8.decodeLossy (← slice data (9 + fpLen) data.length)
        if hostname = "" then some none
        else some (some (hostname, port, fingerprint))

/-! ### The fields of a packet -/

/-- What the length byte says. -/
def fpLen (data : List UInt8) : ℕ := (data.getD 8 0).toNat

/-- The port of a packet, in the two bytes after the magic. -/
def portField (data : List UInt8) : UInt16 := fromBeBytes (data.getD 6 0) (data.getD 7 0)

/-- The fingerprint, as long as the length byte says. -/
def fingerprintField (data : List UInt8) : List UInt8 := (data.drop 9).take (fpLen data)

/-- The hostname, which is the rest. -/
def hostnameField (data : List UInt8) : List UInt8 := data.drop (9 + fpLen data)

/-- The packet has the magic and is as long as its length byte says. -/
def WellFormed (data : List UInt8) : Prop :=
  data.take 6 = magic ∧ 9 + fpLen data ≤ data.length

instance : DecidablePred WellFormed := fun _ ↦ inferInstanceAs (Decidable (_ ∧ _))

section Parse

variable {data : List UInt8}

theorem slice_of_le {start stop : ℕ} (hstart : start ≤ stop) (hstop : stop ≤ data.length) :
    slice data start stop = some ((data.take stop).drop start) :=
  if_pos ⟨hstart, hstop⟩

theorem getElem?_of_lt {i : ℕ} (hi : i < data.length) : data[i]? = some (data.getD i 0) := by
  rw [List.getD_eq_getElem?_getD, List.getElem?_eq_getElem hi, Option.getD_some]

/-- **What `parse_announce` does**: no index and no slice is out of range, and a packet is read
field by field if it is well formed and names a host. -/
theorem parseAnnounce_eq (data : List UInt8) : parseAnnounce data = some
    (if WellFormed data ∧ Utf8.decodeLossy (hostnameField data) ≠ "" then
      some (Utf8.decodeLossy (hostnameField data), portField data,
        Utf8.decodeLossy (fingerprintField data))
    else none) := by
  rw [parseAnnounce]
  by_cases hshort : data.length < 9
  · rw [if_pos hshort, if_neg fun h ↦ by have := h.1.2; omega]
  · have hlength : 9 ≤ data.length := Nat.not_lt.1 hshort
    rw [if_neg hshort, slice_of_le (Nat.zero_le 6) (by omega), getElem?_of_lt (i := 6) (by omega),
      getElem?_of_lt (i := 7) (by omega), getElem?_of_lt (i := 8) (by omega)]
    simp only [Option.bind_eq_bind, Option.bind_some, List.drop_zero]
    by_cases hmagic : data.take 6 = magic
    · by_cases hfits : 9 + fpLen data ≤ data.length
      · have hfp : ((data.take (9 + fpLen data)).drop 9) = fingerprintField data := by
          rw [List.drop_take, Nat.add_sub_cancel_left, fingerprintField]
        have hhost : (data.take data.length).drop (9 + fpLen data) = hostnameField data := by
          rw [List.take_length, hostnameField]
        rw [if_neg (not_not.2 hmagic), ← fpLen, if_neg (Nat.not_lt.2 hfits),
          slice_of_le (Nat.le_add_right 9 _) hfits, slice_of_le hfits (Nat.le_refl _), hfp, hhost]
        by_cases hname : Utf8.decodeLossy (hostnameField data) = ""
        · simp [hname]
        · simp [hname, WellFormed, hmagic, hfits, portField]
      · rw [if_neg (not_not.2 hmagic), ← fpLen, if_pos (Nat.lt_of_not_le hfits),
          if_neg fun h ↦ hfits h.1.2]
    · rw [if_pos hmagic, if_neg fun h ↦ hmagic h.1.1]

/-- A packet is read as a triple exactly when it is well formed and the fields say so. -/
theorem parseAnnounce_eq_some_iff {hostname fingerprint : String} {port : UInt16} :
    parseAnnounce data = some (some (hostname, port, fingerprint)) ↔
      WellFormed data ∧ hostname ≠ "" ∧ Utf8.decodeLossy (hostnameField data) = hostname ∧
        portField data = port ∧ Utf8.decodeLossy (fingerprintField data) = fingerprint := by
  rw [parseAnnounce_eq, Option.some.injEq]
  split_ifs with h
  · simp only [Option.some.injEq, Prod.mk.injEq]
    constructor
    · rintro ⟨rfl, hport, hfp⟩
      exact ⟨h.1, h.2, rfl, hport, hfp⟩
    · rintro ⟨_, _, hhost, hport, hfp⟩
      exact ⟨hhost, hport, hfp⟩
  · refine ⟨nofun, ?_⟩
    rintro ⟨hformed, hne, rfl, _⟩
    exact absurd ⟨hformed, hne⟩ h

end Parse

/-! ### The two directions -/

/-- The port that was written is read back. -/
theorem fromBeBytes_toBeBytes (port : UInt16) :
    fromBeBytes (UInt8.ofNat (port.toNat / 256)) (UInt8.ofNat port.toNat) = port := by
  have hport := port.toNat_lt
  rw [fromBeBytes, UInt8.toNat_ofNat', UInt8.toNat_ofNat']
  have hsum : port.toNat / 256 % 2 ^ 8 * 256 + port.toNat % 2 ^ 8 = port.toNat := by omega
  rw [hsum, UInt16.ofNat_toNat]

theorem toBeBytes_fromBeBytes (high low : UInt8) :
    toBeBytes (fromBeBytes high low) = [high, low] := by
  have hhigh := high.toNat_lt
  have hlow := low.toNat_lt
  have hsum : (fromBeBytes high low).toNat = high.toNat * 256 + low.toNat := by
    rw [fromBeBytes, UInt16.toNat_ofNat']
    omega
  have hdiv : UInt8.ofNat ((high.toNat * 256 + low.toNat) / 256) = high := by
    refine UInt8.toNat_inj.1 ?_
    rw [UInt8.toNat_ofNat']
    omega
  have hmod : UInt8.ofNat (high.toNat * 256 + low.toNat) = low := by
    refine UInt8.toNat_inj.1 ?_
    rw [UInt8.toNat_ofNat']
    omega
  rw [toBeBytes, hsum, hdiv, hmod]

theorem drop_buildAnnounce (hostname : String) (port : UInt16) (fingerprint : String) :
    (buildAnnounce hostname port fingerprint).drop 9 =
      Utf8.encode fingerprint ++ Utf8.encode hostname := by
  simp [buildAnnounce, magic, toBeBytes]

/-- How long a datagram is. -/
theorem length_buildAnnounce (hostname : String) (port : UInt16) (fingerprint : String) :
    (buildAnnounce hostname port fingerprint).length =
      9 + ((Utf8.encode fingerprint).length + (Utf8.encode hostname).length) := by
  rw [← List.length_append, ← drop_buildAnnounce hostname port, List.length_drop]
  simp only [buildAnnounce, magic, toBeBytes, List.length_append, List.length_cons]
  omega

theorem fpLen_buildAnnounce (hostname : String) (port : UInt16) {fingerprint : String}
    (hfp : (Utf8.encode fingerprint).length ≤ 255) :
    fpLen (buildAnnounce hostname port fingerprint) = (Utf8.encode fingerprint).length := by
  show (UInt8.ofNat (Utf8.encode fingerprint).length).toNat = _
  rw [UInt8.toNat_ofNat']
  omega

/-- The fields of a packet as it was built, the fingerprint being short enough. -/
theorem parse_build {hostname fingerprint : String} {port : UInt16} (hhost : hostname ≠ "")
    (hfp : (Utf8.encode fingerprint).length ≤ 255) :
    parseAnnounce (buildAnnounce hostname port fingerprint) =
      some (some (hostname, port, fingerprint)) := by
  have hlen := fpLen_buildAnnounce hostname port hfp
  have htail := drop_buildAnnounce hostname port fingerprint
  have hlength := length_buildAnnounce hostname port fingerprint
  have hfpField : fingerprintField (buildAnnounce hostname port fingerprint) =
      Utf8.encode fingerprint := by
    rw [fingerprintField, htail, hlen, List.take_left]
  have hhostField : hostnameField (buildAnnounce hostname port fingerprint) =
      Utf8.encode hostname := by
    rw [hostnameField, ← List.drop_drop, htail, hlen, List.drop_left]
  refine parseAnnounce_eq_some_iff.2 ⟨⟨rfl, by omega⟩, hhost, ?_, fromBeBytes_toBeBytes port, ?_⟩
  · rw [hhostField, Utf8.decodeLossy_encode]
  · rw [hfpField, Utf8.decodeLossy_encode]

/-- A well-formed packet, put together from its fields. -/
theorem WellFormed.eq_append {data : List UInt8} (h : WellFormed data) :
    data = magic ++ toBeBytes (portField data) ++ [UInt8.ofNat (fpLen data)] ++
      fingerprintField data ++ hostnameField data := by
  obtain ⟨hmagic, hfits⟩ := h
  match data with
  | b0 :: b1 :: b2 :: b3 :: b4 :: b5 :: b6 :: b7 :: b8 :: rest =>
    have hmagic : [b0, b1, b2, b3, b4, b5] = magic := hmagic
    have hport :
        toBeBytes (portField (b0 :: b1 :: b2 :: b3 :: b4 :: b5 :: b6 :: b7 :: b8 :: rest)) =
          [b6, b7] := toBeBytes_fromBeBytes b6 b7
    have hlen : UInt8.ofNat (fpLen (b0 :: b1 :: b2 :: b3 :: b4 :: b5 :: b6 :: b7 :: b8 :: rest)) =
      b8 := UInt8.ofNat_toNat
    have hrest : rest =
        fingerprintField (b0 :: b1 :: b2 :: b3 :: b4 :: b5 :: b6 :: b7 :: b8 :: rest) ++
          hostnameField (b0 :: b1 :: b2 :: b3 :: b4 :: b5 :: b6 :: b7 :: b8 :: rest) := by
      rw [fingerprintField, hostnameField, ← List.drop_drop, List.take_append_drop]
      rfl
    rw [hport, hlen, ← hmagic, List.append_assoc _ (fingerprintField _), ← hrest]
    rfl
  | [] | [_] | [_, _] | [_, _, _] | [_, _, _, _] | [_, _, _, _, _] | [_, _, _, _, _, _]
  | [_, _, _, _, _, _, _] | [_, _, _, _, _, _, _, _] =>
    simp only [List.length_cons, List.length_nil] at hfits
    omega

/-- Building a packet from what it was read as gives it back, if its two texts are UTF-8. -/
theorem build_parse {data : List UInt8} {hostname fingerprint : String} {port : UInt16}
    (hparse : parseAnnounce data = some (some (hostname, port, fingerprint)))
    (hfp : Utf8.IsValid (fingerprintField data)) (hhost : Utf8.IsValid (hostnameField data)) :
    buildAnnounce hostname port fingerprint = data := by
  obtain ⟨hformed, _, rfl, rfl, rfl⟩ := parseAnnounce_eq_some_iff.1 hparse
  have hlen : (fingerprintField data).length = fpLen data := by
    rw [fingerprintField, List.length_take, List.length_drop]
    have := hformed.2
    omega
  rw [buildAnnounce, Utf8.encode_decodeLossy hfp, Utf8.encode_decodeLossy hhost, hlen]
  exact hformed.eq_append.symm

/-- **The announce codec is exact on its format.** A packet of a named host with a fingerprint of at
most 255 bytes is read as what it was built from (within the size of the receive buffer nothing of
it is cut off), a packet that is read and whose texts are UTF-8 is the one built from what it is
read as, and no packet whatsoever makes the reader panic. -/
theorem announce_exact :
    (∀ hostname port fingerprint, hostname ≠ "" → (Utf8.encode fingerprint).length ≤ 255 →
      (buildAnnounce hostname port fingerprint).length ≤ recvBufferSize →
        parseAnnounce (received (buildAnnounce hostname port fingerprint)) =
            some (some (hostname, port, fingerprint)) ∧
          parseAnnounce (buildAnnounce hostname port fingerprint) =
            some (some (hostname, port, fingerprint))) ∧
      (∀ data hostname port fingerprint,
        parseAnnounce data = some (some (hostname, port, fingerprint)) →
          Utf8.IsValid (fingerprintField data) → Utf8.IsValid (hostnameField data) →
            buildAnnounce hostname port fingerprint = data) ∧
        ∀ data, parseAnnounce data ≠ none := by
  refine ⟨fun hostname port fingerprint hhost hfp hlength ↦ ?_,
    fun data hostname port fingerprint hparse hfp hhost ↦ build_parse hparse hfp hhost,
    fun data h ↦ ?_⟩
  · rw [received, List.take_of_length_le hlength, and_self]
    exact parse_build hhost hfp
  · rw [parseAnnounce_eq] at h
    cases h

theorem announce_exact_sample :
    parseAnnounce (buildAnnounce "my-host" 4242 "sha256:abc123") =
      some (some ("my-host", 4242, "sha256:abc123")) :=
  (announce_exact.1 "my-host" 4242 "sha256:abc123" (by decide) (by decide +kernel)
    (by decide +kernel)).2

end Kmflow
