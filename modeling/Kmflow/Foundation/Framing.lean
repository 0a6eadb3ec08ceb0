import Mathlib.Algebra.Group.Nat.Defs
import Mathlib.Data.List.Basic

/-!
# Length-prefixed messages on a byte stream

A message is written as its length, four bytes with the least significant first, followed by its
bytes. The reader is the two-phase machine that every asynchronous receiver of this format is: it
fills a length buffer, then a body buffer of that length, and takes bytes off the stream as they
become available. `Reader` is the state between two polls, with the bytes it has already taken; a
buffer that is full is never a state, which is what the fields `short` say.

The one fact about it is `poll_frames`: if the bytes taken, the bytes available and the bytes still
to come are together the frames of a list of bodies, then a poll that is not finished keeps that
so, and a poll that finishes hands over the first body and leaves exactly the frames of the others.
Nothing is assumed about how the stream is cut into pieces.

A stream that carries one message and then ends is read at once (`readFrame`). Such a reader often
has a limit; it reads back exactly the messages within it (`readFrame_frame_eq_some_iff`), and of a
message whose length does not fit the four bytes it may read a beginning.
-/

namespace Framing

/-! ### Lengths -/

/-- A length as four bytes, least significant first; only its value modulo `2 ^ 32` is kept. -/
def le32 (n : ℕ) : List UInt8 :=
  [UInt8.ofNat n, UInt8.ofNat (n / 2 ^ 8), UInt8.ofNat (n / 2 ^ 16), UInt8.ofNat (n / 2 ^ 24)]

/-- The number whose base-256 digits are the bytes, least significant first. -/
def ofLe (bytes : List UInt8) : ℕ :=
  bytes.foldr (fun b n ↦ b.toNat + 256 * n) 0

theorem ofLe_le32_eq_mod (n : ℕ) : ofLe (le32 n) = n % 2 ^ 32 := by
  simp only [ofLe, le32, List.foldr_cons, List.foldr_nil, UInt8.toNat_ofNat']
  omega

/-- A length below `2 ^ 32` is read back as it was written. -/
theorem ofLe_le32 {n : ℕ} (h : n < 2 ^ 32) : ofLe (le32 n) = n := by
  rw [ofLe_le32_eq_mod, Nat.mod_eq_of_lt h]

/-! ### Frames -/

/-- One message as it is written. -/
def frame (body : List UInt8) : List UInt8 := le32 body.length ++ body

/-- A list of messages, written one after the other. -/
def frames (bodies : List (List UInt8)) : List UInt8 := bodies.flatMap frame

theorem frames_append (bodies bodies' : List (List UInt8)) :
    frames (bodies ++ bodies') = frames bodies ++ frames bodies' :=
  List.flatMap_append

@[simp] theorem frames_singleton (body : List UInt8) : frames [body] = frame body :=
  List.append_nil _

/-- A message that starts a stream is determined by it, and so is what follows. -/
theorem frame_append_inj {lenBuf body rest body' rest' : List UInt8} (hlen : lenBuf.length = 4)
    (hbody : body.length = ofLe lenBuf) (hbody' : body'.length < 2 ^ 32)
    (h : lenBuf ++ body ++ rest = frame body' ++ rest') : body = body' ∧ rest = rest' := by
  rw [frame, List.append_assoc, List.append_assoc] at h
  obtain ⟨rfl, htail⟩ := List.append_inj h hlen
  rw [ofLe_le32 hbody'] at hbody
  exact List.append_inj htail hbody

/-! ### The reader -/

/-- A reader between two polls. -/
inductive Reader where
  /-- Filling the length buffer. -/
  | length (got : List UInt8) (short : got.length < 4)
  /-- Filling the body buffer, whose size the length buffer gives. -/
  | body (lenBuf : List UInt8) (whole : lenBuf.length = 4) (got : List UInt8)
      (short : got.length < ofLe lenBuf)

/-- What a poll results in. -/
inductive Poll where
  | pending (reader : Reader)
  /-- The body of one message, and the available bytes that were not taken. -/
  | ready (body rest : List UInt8)

namespace Reader

/-- A reader that has taken nothing. -/
def fresh : Reader := .length [] (by decide)

/-- The bytes the reader has taken off the stream. -/
def taken : Reader → List UInt8
  | length got _ => got
  | body lenBuf _ got _ => lenBuf ++ got

/-- Fill the body buffer from what is available. -/
def pollBody (lenBuf : List UInt8) (whole : lenBuf.length = 4) (got avail : List UInt8) : Poll :=
  if short : (got ++ avail).length < ofLe lenBuf then
    .pending (.body lenBuf whole (got ++ avail) short)
  else .ready ((got ++ avail).take (ofLe lenBuf)) ((got ++ avail).drop (ofLe lenBuf))

/-- Poll the reader: take what is available until a message is complete. -/
def poll : Reader → List UInt8 → Poll
  | length got _, avail =>
    if short : (got ++ avail).length < 4 then .pending (.length (got ++ avail) short)
    else
      pollBody ((got ++ avail).take 4) (List.length_take_of_le (Nat.not_lt.1 short)) []
        ((got ++ avail).drop 4)
  | body lenBuf whole got _, avail => pollBody lenBuf whole got avail

theorem pollBody_pending {lenBuf got avail : List UInt8} {whole : lenBuf.length = 4} {r : Reader}
    (h : pollBody lenBuf whole got avail = .pending r) :
    r.taken = lenBuf ++ got ++ avail := by
  unfold pollBody at h
  split_ifs at h
  cases h
  rw [taken, List.append_assoc]

theorem pollBody_ready {lenBuf got avail body rest : List UInt8} {whole : lenBuf.length = 4}
    (h : pollBody lenBuf whole got avail = .ready body rest) :
    body.length = ofLe lenBuf ∧ lenBuf ++ got ++ avail = lenBuf ++ body ++ rest := by
  unfold pollBody at h
  split_ifs at h with short
  cases h
  refine ⟨List.length_take_of_le (Nat.not_lt.1 short), ?_⟩
  rw [List.append_assoc, List.append_assoc, List.take_append_drop]

/-- A poll that is not finished has taken everything that was available. -/
theorem poll_pending {r r' : Reader} {avail : List UInt8} (h : r.poll avail = .pending r') :
    r'.taken = r.taken ++ avail := by
  cases r with
  | length got _ =>
    rw [poll] at h
    split_ifs at h with short
    · cases h
      rfl
    · rw [pollBody_pending h, List.append_nil, List.take_append_drop]
      rfl
  | body lenBuf whole got _ => exact pollBody_pending h

/-- A poll that finishes hands over what its length buffer announced. -/
theorem poll_ready {r : Reader} {avail body rest : List UInt8}
    (h : r.poll avail = .ready body rest) :
    ∃ lenBuf : List UInt8, lenBuf.length = 4 ∧ body.length = ofLe lenBuf ∧
      r.taken ++ avail = lenBuf ++ body ++ rest := by
  cases r with
  | length got _ =>
    rw [poll] at h
    split_ifs at h with short
    have hall := pollBody_ready h
    rw [List.append_nil, List.take_append_drop] at hall
    exact ⟨_, List.length_take_of_le (Nat.not_lt.1 short), hall⟩
  | body lenBuf whole got _ => exact ⟨lenBuf, whole, pollBody_ready h⟩

/-- **One poll of a reader on a stream of frames.** Whatever part of the stream is available, the
reader stays on it, and the message it hands over is the first one. -/
theorem poll_frames {r : Reader} {avail later : List UInt8} {bodies : List (List UInt8)}
    (hshort : ∀ body ∈ bodies, body.length < 2 ^ 32)
    (h : r.taken ++ avail ++ later = frames bodies) :
    match r.poll avail with
    | .pending r' => r'.taken ++ later = frames bodies
    | .ready msg rest => ∃ bodies', bodies = msg :: bodies' ∧ rest ++ later = frames bodies' := by
  cases hpoll : r.poll avail with
  | pending r' =>
    dsimp only
    rw [poll_pending hpoll, h]
  | ready msg rest =>
    obtain ⟨lenBuf, hlen, hbody, hall⟩ := poll_ready hpoll
    rw [hall, List.append_assoc] at h
    cases bodies with
    | nil =>
      -- nothing was sent, but the length buffer is full
      obtain ⟨hnil, -⟩ := List.append_eq_nil_iff.1 (List.append_eq_nil_iff.1 h).1
      rw [hnil] at hlen
      cases hlen
    | cons b bodies =>
      have hb := hshort b (List.mem_cons_self ..)
      obtain ⟨rfl, hrest⟩ := frame_append_inj hlen hbody hb h
      exact ⟨bodies, rfl, hrest⟩

end Reader

/-! ### Finished streams -/

/-- So many bytes off a finished stream, and the rest; nothing when there are fewer. -/
def readExact (n : ℕ) (stream : List UInt8) : Option (List UInt8 × List UInt8) :=
  if n ≤ stream.length then some (stream.take n, stream.drop n) else none

/-- The message at the start of a finished stream, unless its length is above a limit. -/
def readFrame (limit : ℕ) (stream : List UInt8) : Option (List UInt8) := do
  let (lenBuf, rest) ← readExact 4 stream
  if limit < ofLe lenBuf then none
  else
    let (body, _) ← readExact (ofLe lenBuf) rest
    some body

/-- As many bytes as asked for are taken, and the rest is left. -/
theorem readExact_append (bytes rest : List UInt8) :
    readExact bytes.length (bytes ++ rest) = some (bytes, rest) := by
  rw [readExact, if_pos (by simp), List.take_left, List.drop_left]

/-- What is read of a message: as much of it as the length that was written says. -/
theorem readFrame_frame (limit : ℕ) (body : List UInt8) :
    readFrame limit (frame body) =
      if limit < body.length % 2 ^ 32 then none else some (body.take (body.length % 2 ^ 32)) := by
  have hlen : readExact 4 (frame body) = some (le32 body.length, body) :=
    readExact_append (le32 body.length) body
  have hbody : readExact (body.length % 2 ^ 32) body =
      some (body.take (body.length % 2 ^ 32), body.drop (body.length % 2 ^ 32)) :=
    if_pos (Nat.mod_le _ _)
  simp only [readFrame, hlen, Option.bind_eq_bind, Option.bind_some, ofLe_le32_eq_mod, hbody]

/-- **A message is read back when it is within the limit**, and only then. -/
theorem readFrame_frame_eq_some_iff {limit : ℕ} (hlimit : limit < 2 ^ 32) {body : List UInt8} :
    readFrame limit (frame body) = some body ↔ body.length ≤ limit := by
  rw [readFrame_frame]
  constructor
  · intro h
    split_ifs at h with hlong
    have hlength := congrArg List.length (Option.some.inj h)
    rw [List.length_take] at hlength
    omega
  · intro h
    rw [Nat.mod_eq_of_lt (Nat.lt_of_le_of_lt h hlimit), if_neg (Nat.not_lt.2 h), List.take_length]

/-- Whatever is read of it is how it begins. -/
theorem isPrefix_of_readFrame_frame {limit : ℕ} {body data : List UInt8}
    (h : readFrame limit (frame body) = some data) : data <+: body := by
  rw [readFrame_frame] at h
  split_ifs at h
  exact Option.some.inj h ▸ List.take_prefix _ _

end Framing
