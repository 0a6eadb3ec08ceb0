import Kmflow.Foundation.Ipv4
import Kmflow.Foundation.Utf8

/-!
# The interface that discovery uses

`find_lan_info`, which reads the listing of `ip -4 -o addr show`: the first line of a physical
interface with a private address and a broadcast address. Whether an address is private is told
from how its text begins.

Since the text is read as an address as well, it has the one form an address is written in, and the
beginning tells the private blocks exactly (`beginsPrivate_text_iff`). So no output whatever makes
discovery use an address outside of them (`private_of_findLanInfo`), and of a listing in the form
that `ip` prints the first interface is taken that qualifies (`findLanInfo_listing`).
-/

namespace Kmflow

/-- `LanInfo`. -/
structure LanInfo where
  localAddr : Ipv4Addr
  broadcastAddr : Ipv4Addr
  deriving DecidableEq

namespace LanInfo

/-- `is_172_private`: the text begins with `172.` and a number from 16 to 31. -/
def is172Private (addr : List Char) : Bool :=
  match Text.stripStart "172.".toList addr with
  | some rest =>
    match (rest.splitOn '.').head? with
    | some second => (Text.parseUnsigned 256 second).any fun n ↦ 16 ≤ n && n ≤ 31
    | none => false
  | none => false

/-- An interface that is passed over. -/
def isVirtual (iface : List Char) : Bool :=
  iface = "lo".toList || "docker".toList.isPrefixOf iface || "br-".toList.isPrefixOf iface ||
    "veth".toList.isPrefixOf iface || "virbr".toList.isPrefixOf iface

/-- The test for a private address. -/
def beginsPrivate (addr : List Char) : Bool :=
  "192.168.".toList.isPrefixOf addr || "10.".toList.isPrefixOf addr || is172Private addr

/-- The word after the first `brd`. -/
def broadcastWord (parts : List (List Char)) : Option (List Char) :=
  ((parts.zip (parts.drop 1)).find? fun kv ↦ kv.1 = "brd".toList).map Prod.snd

/-- What the loop makes of one line; with `none` it goes on to the next. -/
def readParts (parts : List (List Char)) : Option LanInfo :=
  if parts.length < 6 then none
  else
    let iface := Text.trimEndMatches ':' (parts.getD 1 [])
    let addr := ((parts.getD 3 []).splitOn '/').headD []
    if isVirtual iface then none
    else if beginsPrivate addr then
      match Ipv4Addr.parse addr, broadcastWord parts with
      | some localAddr, some brd => (Ipv4Addr.parse brd).map fun ip ↦ ⟨localAddr, ip⟩
      | _, _ => none
    else none

/-- `find_lan_info`, on the standard output of `ip`; `none` when it could not be run. -/
def findLanInfo (output : Option (List UInt8)) : Option LanInfo :=
  output.bind fun stdout ↦
    ((Text.lines (Utf8.decodeLossy stdout).toList).map Text.words).findSome? readParts

/-! ### Private addresses -/

/-- The blocks 10.0.0.0/8, 172.16.0.0/12 and 192.168.0.0/16. -/
def Private (addr : Ipv4Addr) : Prop :=
  addr.a = 10 ∨ addr.a = 172 ∧ 16 ≤ addr.b ∧ addr.b ≤ 31 ∨ addr.a = 192 ∧ addr.b = 168

instance : DecidablePred Private := fun _ ↦ inferInstanceAs (Decidable (_ ∨ _))

open Ipv4Addr

/-- The text of an octet is read as a number. -/
theorem parseUnsigned_octetText (n : UInt8) :
    Text.parseUnsigned 256 (octetText n) = some n.toNat := by
  have hsign : ∀ k < 256, Text.parseUnsigned 256 (Nat.toDigits 10 k) = some k := by decide +kernel
  exact hsign n.toNat n.toNat_lt

/-- The private block from 172.16 to 172.31. -/
theorem is172Private_text_iff {addr : Ipv4Addr} :
    is172Private addr.text ↔ addr.a = 172 ∧ 16 ≤ addr.b ∧ addr.b ≤ 31 := by
  have hbegins : octetText 172 ++ ['.'] = "172.".toList := by decide +kernel
  by_cases ha : addr.a = 172
  · have hrest : Text.stripStart "172.".toList addr.text =
        some (octetText addr.b ++ '.' :: (octetText addr.c ++ '.' :: octetText addr.d)) := by
      rw [Text.stripStart_eq_some_iff, text_eq, ha, ← hbegins, List.append_assoc]
      rfl
    simp only [is172Private, hrest, List.splitOn_append_cons_self_of_not_mem
      (dot_notMem_octetText addr.b), List.head?_cons, parseUnsigned_octetText, Option.any_some,
      Bool.and_eq_true, decide_eq_true_eq, ha, true_and]
    rw [UInt8.le_iff_toNat_le, UInt8.le_iff_toNat_le]
    rfl
  · have hnone : Text.stripStart "172.".toList addr.text = none := by
      rw [Option.eq_none_iff_forall_ne_some]
      intro rest hrest
      refine ha (startsWith_text_iff.1 ?_)
      rw [hbegins, Text.stripStart_eq_some_iff.1 hrest]
      exact List.prefix_append _ _
    simp only [is172Private, hnone, ha, false_and]
    exact iff_of_false Bool.false_ne_true not_false

/-- **How the text of an address begins tells whether the address is private.** -/
theorem beginsPrivate_text_iff {addr : Ipv4Addr} : beginsPrivate addr.text ↔ Private addr := by
  have h10 : octetText 10 ++ ['.'] = "10.".toList := by decide +kernel
  have h192 : octetText 192 ++ '.' :: (octetText 168 ++ ['.']) = "192.168.".toList := by
    decide +kernel
  rw [beginsPrivate, Bool.or_eq_true, Bool.or_eq_true, List.isPrefixOf_iff_prefix,
    List.isPrefixOf_iff_prefix, is172Private_text_iff, ← h10, ← h192, startsWith_text_iff,
    startsWith_text_iff₂, Private]
  tauto

/-- What is read of a line is in its words. -/
theorem readParts_eq_some_iff {parts : List (List Char)} {info : LanInfo} :
    readParts parts = some info ↔ 6 ≤ parts.length ∧
      isVirtual (Text.trimEndMatches ':' (parts.getD 1 [])) = false ∧
        Private info.localAddr ∧ ((parts.getD 3 []).splitOn '/').headD [] = info.localAddr.text ∧
          broadcastWord parts = some info.broadcastAddr.text := by
  constructor
  · intro h
    simp only [readParts] at h
    split_ifs at h with hshort hvirtual hbegins
    split at h
    case h_1 localAddr brd hlocal hbrd =>
      obtain ⟨ip, hip, rfl⟩ := Option.map_eq_some_iff.1 h
      rw [parse_eq_some_iff] at hlocal hip
      rw [hlocal, beginsPrivate_text_iff] at hbegins
      exact ⟨Nat.not_lt.1 hshort, eq_false_of_ne_true hvirtual, hbegins, hlocal, hip ▸ hbrd⟩
    case h_2 => cases h
  · rintro ⟨hlong, hphysical, hprivate, hlocal, hbrd⟩
    simp only [readParts]
    rw [if_neg (Nat.not_lt.2 hlong), hphysical, if_neg Bool.false_ne_true, hlocal,
      if_pos (beginsPrivate_text_iff.2 hprivate), hbrd, parse_eq_some_iff.2 rfl]
    simp only [parse_eq_some_iff.2 rfl, Option.map_some]

/-- **Discovery uses private addresses only**, whatever the tool prints. -/
theorem private_of_findLanInfo {output : Option (List UInt8)} {info : LanInfo}
    (h : findLanInfo output = some info) : Private info.localAddr := by
  obtain ⟨stdout, -, h⟩ := Option.bind_eq_some_iff.1 h
  obtain ⟨parts, -, hparts⟩ := List.exists_of_findSome?_eq_some h
  exact (readParts_eq_some_iff.1 hparts).2.2.1

/-- One line, with an address of the second block. -/
def wlanText : List Char := "2: wlan0 inet 172.20.0.7/20 brd 172.20.15.255 scope link".toList

theorem private_of_findLanInfo_wlanText :
    ∃ info ∈ findLanInfo (some (Utf8.encode (.ofList wlanText))), Private info.localAddr := by
  have hfound : findLanInfo (some (Utf8.encode (.ofList wlanText))) =
      some ⟨⟨172, 20, 0, 7⟩, ⟨172, 20, 15, 255⟩⟩ := by
    rw [findLanInfo, Option.bind_some, Utf8.decodeLossy_encode, String.toList_ofList]
    decide +kernel
  exact ⟨_, hfound, private_of_findLanInfo hfound⟩

/-! ### The listing -/

section BroadcastWord

variable {parts : List (List Char)} {word : List Char}

theorem broadcastWord_cons_of_ne (h : word ≠ "brd".toList) :
    broadcastWord (word :: parts) = broadcastWord parts := by
  rcases parts with _ | ⟨next, parts⟩
  · rfl
  · simp only [broadcastWord, List.drop_one, List.tail_cons, List.zip_cons_cons]
    rw [List.find?_cons_of_neg (by simpa using h)]

theorem broadcastWord_brd : broadcastWord ("brd".toList :: word :: parts) = some word := rfl

/-- The words before the first `brd` are passed over. -/
theorem broadcastWord_append_of_notMem {front : List (List Char)} (h : "brd".toList ∉ front) :
    broadcastWord (front ++ parts) = broadcastWord parts := by
  induction front with
  | nil => rfl
  | cons word front ih =>
    rw [List.mem_cons, not_or] at h
    rw [List.cons_append, broadcastWord_cons_of_ne (Ne.symm h.1), ih h.2]

theorem broadcastWord_eq_none (h : "brd".toList ∉ parts) : broadcastWord parts = none := by
  rw [← List.append_nil parts, broadcastWord_append_of_notMem h]
  rfl

end BroadcastWord

/-- An address of the listing, and its interface as the kernel lets it be named. -/
structure Iface where
  index : ℕ
  name : List Char
  localAddr : Ipv4Addr
  /-- The other end, on a point-to-point interface. -/
  peer : Option Ipv4Addr
  prefixLength : ℕ
  metric : Option ℕ
  broadcastAddr : Option Ipv4Addr
  /-- The scope, the label and so on. -/
  rest : List (List Char)
  name_colon : ':' ∉ name
  name_brd : name ≠ "brd".toList
  rest_brd : "brd".toList ∉ rest
  two_le : 2 ≤ rest.length

namespace Iface

/-- `192.168.66.99/24`, or `10.8.0.6 peer 10.8.0.5/32`. -/
def addrWords (iface : Iface) : List (List Char) :=
  match iface.peer with
  | none => [iface.localAddr.text ++ '/' :: Nat.toDigits 10 iface.prefixLength]
  | some peer =>
    [iface.localAddr.text, "peer".toList, peer.text ++ '/' :: Nat.toDigits 10 iface.prefixLength]

/-- `metric 600`, if there is one. -/
def metricWords (iface : Iface) : List (List Char) :=
  iface.metric.elim [] fun n ↦ ["metric".toList, Nat.toDigits 10 n]

/-- The words before the broadcast address. -/
def front (iface : Iface) : List (List Char) :=
  (Nat.toDigits 10 iface.index ++ [':']) :: iface.name :: "inet".toList ::
    (iface.addrWords ++ iface.metricWords)

/-- The words of its line:
`2: eth0 inet 192.168.66.99/24 metric 600 brd 192.168.66.255 scope global eth0`. -/
def words (iface : Iface) : List (List Char) :=
  iface.front ++ (iface.broadcastAddr.elim [] (fun ip ↦ ["brd".toList, ip.text]) ++ iface.rest)

/-- What it is good for: a physical interface with a private address and a broadcast address. -/
def info (iface : Iface) : Option LanInfo :=
  if isVirtual iface.name = false ∧ Private iface.localAddr then
    iface.broadcastAddr.map (LanInfo.mk iface.localAddr)
  else none

variable (iface : Iface)

theorem brd_notMem_addrWords : "brd".toList ∉ iface.addrWords := by
  have hslash (addr : Ipv4Addr) (n : ℕ) :
      "brd".toList ≠ addr.text ++ '/' :: Nat.toDigits 10 n := fun h ↦ by
    have hmem : '/' ∈ "brd".toList := h ▸ List.mem_append_right _ List.mem_cons_self
    exact absurd hmem (by decide)
  have hdot : "brd".toList ≠ iface.localAddr.text := fun h ↦ by
    have hmem : '.' ∈ "brd".toList := by
      rw [h, text_eq]
      exact List.mem_append_right _ List.mem_cons_self
    exact absurd hmem (by decide)
  rw [addrWords]
  rcases iface.peer with _ | peer
  · simpa only [List.mem_singleton] using hslash _ _
  · rw [List.mem_cons, List.mem_cons, List.mem_singleton, not_or, not_or]
    exact ⟨hdot, by decide, hslash _ _⟩

theorem brd_notMem_metricWords : "brd".toList ∉ iface.metricWords := by
  rw [metricWords]
  rcases iface.metric with _ | n
  · exact List.not_mem_nil
  · rw [Option.elim_some, List.mem_cons, List.mem_singleton, not_or]
    refine ⟨by decide, fun h ↦ ?_⟩
    have hmem : 'b' ∈ Nat.toDigits 10 n := h ▸ List.mem_cons_self
    exact absurd (Nat.isDigit_of_mem_toDigits (by decide) le_rfl hmem) (by decide)

/-- No word before the broadcast address is taken for its mark. -/
theorem brd_notMem_front : "brd".toList ∉ iface.front := by
  have hindex : "brd".toList ≠ Nat.toDigits 10 iface.index ++ [':'] := fun h ↦ by
    have hcolon : ':' ∈ "brd".toList := h ▸ List.mem_append_right _ List.mem_cons_self
    exact absurd hcolon (by decide)
  simp only [front, List.mem_cons, List.mem_append, not_or]
  exact ⟨hindex, iface.name_brd.symm, by decide, iface.brd_notMem_addrWords,
    iface.brd_notMem_metricWords⟩

/-- **The broadcast word is that of the interface**, wherever it stands. -/
theorem broadcastWord_words : broadcastWord iface.words = iface.broadcastAddr.map text := by
  rw [words, broadcastWord_append_of_notMem iface.brd_notMem_front]
  rcases iface.broadcastAddr with _ | ip
  · exact broadcastWord_eq_none iface.rest_brd
  · exact broadcastWord_brd

/-- A line is long enough to be looked at. -/
theorem six_le_length_words : 6 ≤ iface.words.length := by
  have hrest := iface.two_le
  have haddr : 1 ≤ iface.addrWords.length := by
    rw [addrWords]
    split <;> exact Nat.le_add_left 1 _
  simp only [words, front, List.length_cons, List.length_append]
  omega

/-- The local address is read, whether or not there is a peer. -/
theorem localAddr_words :
    ((iface.words.getD 3 []).splitOn '/').headD [] = iface.localAddr.text := by
  have hhead : iface.words.getD 3 [] = iface.addrWords.headD [] := by
    rw [words, front, addrWords]
    rcases iface.peer with _ | peer <;> rfl
  rw [hhead, addrWords]
  rcases iface.peer with _ | peer
  · rw [List.headD_cons, List.splitOn_append_cons_self_of_not_mem iface.localAddr.slash_notMem_text]
    rfl
  · rw [List.headD_cons, List.splitOn_eq_singleton iface.localAddr.slash_notMem_text]
    rfl

/-- What an interface gives. -/
theorem info_eq_some_iff {info : LanInfo} :
    iface.info = some info ↔ isVirtual iface.name = false ∧ Private info.localAddr ∧
      iface.localAddr = info.localAddr ∧ iface.broadcastAddr = some info.broadcastAddr := by
  rw [Iface.info, Option.ite_none_right_eq_some, Option.map_eq_some_iff]
  constructor
  · rintro ⟨⟨hphysical, hprivate⟩, ip, hip, rfl⟩
    exact ⟨hphysical, hprivate, rfl, hip⟩
  · rintro ⟨hphysical, hprivate, haddr, hip⟩
    exact ⟨⟨hphysical, haddr ▸ hprivate⟩, _, hip, by rw [haddr]⟩

/-- **One line is read as the interface it lists.** -/
theorem readParts_words : readParts iface.words = iface.info := by
  have hname : Text.trimEndMatches ':' iface.name = iface.name := by
    refine List.rdropWhile_eq_self_iff.2 fun hne hlast ↦ iface.name_colon ?_
    rw [← of_decide_eq_true hlast]
    exact List.getLast_mem hne
  have hbrd (ip : Ipv4Addr) :
      iface.broadcastAddr.map text = some ip.text ↔ iface.broadcastAddr = some ip := by
    simp only [Option.map_eq_some_iff, text_inj, exists_eq_right]
  refine Option.ext fun info ↦ ?_
  rw [readParts_eq_some_iff, iface.broadcastWord_words, hbrd, iface.info_eq_some_iff,
    iface.localAddr_words, text_inj]
  show 6 ≤ iface.words.length ∧ isVirtual (Text.trimEndMatches ':' iface.name) = false ∧ _ ↔ _
  rw [hname]
  exact and_iff_right iface.six_le_length_words

end Iface

/-- **Of a listing the first interface is taken that qualifies**, however the words of a line are
spaced. -/
theorem findLanInfo_listing {stdout : List UInt8} {ifaces : List Iface}
    (hlines : (Text.lines (Utf8.decodeLossy stdout).toList).map Text.words =
      ifaces.map Iface.words) :
    findLanInfo (some stdout) = ifaces.findSome? Iface.info := by
  rw [findLanInfo, Option.bind_some, hlines, List.findSome?_map]
  exact congrArg (List.findSome? · ifaces) (funext Iface.readParts_words)

/-- A bridge of docker, a tunnel and the interface of the LAN. -/
def sampleListing : List Iface :=
  [⟨3, "docker0".toList, ⟨172, 17, 0, 1⟩, none, 16, none, some ⟨172, 17, 255, 255⟩,
      ["scope".toList, "global".toList], by decide, by decide, by decide, by decide⟩,
    ⟨5, "tun0".toList, ⟨10, 8, 0, 6⟩, some ⟨10, 8, 0, 5⟩, 32, none, none,
      ["scope".toList, "global".toList, "tun0\\".toList], by decide, by decide, by decide,
      by decide⟩,
    ⟨2, "wlan0".toList, ⟨10, 0, 0, 9⟩, none, 24, some 600, some ⟨10, 0, 0, 255⟩,
      ["scope".toList, "global".toList, "wlan0\\".toList], by decide, by decide, by decide,
      by decide⟩]

/-- How they are printed. -/
def sampleText : List Char :=
  "3: docker0    inet 172.17.0.1/16 brd 172.17.255.255 scope global\n".toList ++
    "5: tun0    inet 10.8.0.6 peer 10.8.0.5/32 scope global tun0\\\n".toList ++
    "2: wlan0    inet 10.0.0.9/24 metric 600 brd 10.0.0.255 scope global wlan0\\\n".toList

/-- The bridge is virtual, and the tunnel has no broadcast address. -/
theorem findLanInfo_listing_sampleListing :
    findLanInfo (some (Utf8.encode (.ofList sampleText))) =
      some ⟨⟨10, 0, 0, 9⟩, ⟨10, 0, 0, 255⟩⟩ := by
  have hlines : (Text.lines sampleText).map Text.words = sampleListing.map Iface.words := by
    decide +kernel
  have hinfo : sampleListing.findSome? Iface.info = some ⟨⟨10, 0, 0, 9⟩, ⟨10, 0, 0, 255⟩⟩ := by
    decide +kernel
  rw [← String.toList_ofList (l := sampleText), ← Utf8.decodeLossy_encode (.ofList sampleText)]
    at hlines
  exact (findLanInfo_listing hlines).trans hinfo

end LanInfo

end Kmflow
