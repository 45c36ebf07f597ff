import Mathlib
import Tun2SocksWinRT.ByteMemory

namespace Tun2SocksWinRT

namespace PacketProto

/-!
# PacketProto framing

`protocol/packetproto.h` sends packets over a reliable stream: each packet is
a 16-bit little-endian payload length followed by the payload.  `encode`
writes one frame; `frames` reads the frames at the front of a stream and stops
at a frame that is not complete yet or at a header over an MTU.

Reading undoes writing (`frames_encode`, `frames_flatten_encode`), and reading
a stream piece by piece gives what reading it at once does (`frames_append`):
the way a stream is cut into pieces does not change the frames in it.
-/

open ByteMemory

/-- `PACKETPROTO_MAXPAYLOAD`. -/
def maxPayload : Nat := 65535

/-- A frame: a `struct packetproto_header` with the payload's length, then the payload. -/
def encode (payload : List UInt8) : List UInt8 :=
  le16 payload.length ++ payload

/-- What reading frames off the front of a stream gives. -/
structure Framing where
  /-- the payloads of the complete frames, in order -/
  payloads : List (List UInt8)
  /-- what follows them -/
  rest : List UInt8
  /-- whether `rest` starts with a header over the MTU -/
  bad : Bool
  deriving Repr, DecidableEq

/--
The frames at the front of `stream` whose length is at most `mtu`: reading
stops at a header over `mtu` or at a frame that is not complete.
-/
def frames (mtu : Nat) (stream : List UInt8) : Framing :=
  match stream with
  | low :: high :: body =>
      if mtu < ofLe [low, high] then
        ⟨[], stream, true⟩
      else if ofLe [low, high] ≤ body.length then
        let next := frames mtu (body.drop (ofLe [low, high]))
        ⟨body.take (ofLe [low, high]) :: next.payloads, next.rest, next.bad⟩
      else
        ⟨[], stream, false⟩
  | _ =>
      ⟨[], stream, false⟩
termination_by stream.length

/-- A stream holds no complete frame and no header over the MTU at its front. -/
def Partial (mtu : Nat) (stream : List UInt8) : Prop :=
  frames mtu stream = ⟨[], stream, false⟩

/-- Fewer than two bytes hold no header yet. -/
theorem frames_short {mtu : Nat} {stream : List UInt8} (short : stream.length < 2) :
    frames mtu stream = ⟨[], stream, false⟩ := by
  match stream, short with
  | [], _ =>
      simp [frames]
  | [_], _ =>
      simp [frames]

theorem frames_cons_cons (mtu : Nat) (low high : UInt8) (body : List UInt8) :
    frames mtu (low :: high :: body) =
      if mtu < ofLe [low, high] then
        ⟨[], low :: high :: body, true⟩
      else if ofLe [low, high] ≤ body.length then
        let next := frames mtu (body.drop (ofLe [low, high]))
        ⟨body.take (ofLe [low, high]) :: next.payloads, next.rest, next.bad⟩
      else
        ⟨[], low :: high :: body, false⟩ := by
  rw [frames]

/-- A frame is read back as its payload, then reading goes on after it. -/
theorem frames_encode
    {mtu : Nat}
    {payload : List UInt8}
    (fits : payload.length ≤ mtu)
    (bounded : mtu ≤ maxPayload)
    (rest : List UInt8) :
    frames mtu (encode payload ++ rest) =
      ⟨payload :: (frames mtu rest).payloads, (frames mtu rest).rest, (frames mtu rest).bad⟩ := by
  have header : ofLe (le16 payload.length) = payload.length :=
    ofLe_le16 (by unfold maxPayload at bounded; omega)
  simp only [encode, le16, List.cons_append, List.nil_append] at header ⊢
  rw [frames_cons_cons, header, if_neg (by omega), if_pos (by simp)]
  simp

/-- Frames written one after another are read back in order. -/
theorem frames_flatten_encode
    {mtu : Nat}
    {payloads : List (List UInt8)}
    (fits : ∀ payload ∈ payloads, payload.length ≤ mtu)
    (bounded : mtu ≤ maxPayload)
    (rest : List UInt8) :
    frames mtu ((payloads.map encode).flatten ++ rest) =
      ⟨payloads ++ (frames mtu rest).payloads, (frames mtu rest).rest, (frames mtu rest).bad⟩ := by
  induction payloads with
  | nil =>
      simp
  | cons payload others inductionHypothesis =>
      have othersFit : ∀ other ∈ others, other.length ≤ mtu :=
        fun other member => fits other (List.mem_cons_of_mem payload member)
      rw [List.map_cons, List.flatten_cons, List.append_assoc,
        frames_encode (fits payload List.mem_cons_self) bounded,
        inductionHypothesis othersFit]
      simp

/--
Reading a stream in two pieces: when the first piece has no header over the
MTU after its frames, the frames of the whole are those of the first piece,
then those of what it left over followed by the second piece.
-/
theorem frames_append
    (mtu : Nat)
    (first second : List UInt8)
    (good : (frames mtu first).bad = false) :
    frames mtu (first ++ second) =
      ⟨(frames mtu first).payloads ++ (frames mtu ((frames mtu first).rest ++ second)).payloads,
        (frames mtu ((frames mtu first).rest ++ second)).rest,
        (frames mtu ((frames mtu first).rest ++ second)).bad⟩ := by
  fun_induction frames mtu first with
  | case1 low high body bad =>
      simp at good
  | case2 low high body fits complete next inductionHypothesis =>
      -- a complete frame in the first piece is a complete frame of the whole
      have whole : ofLe [low, high] ≤ (body ++ second).length := by
        simp only [List.length_append]
        omega
      rw [List.cons_append, List.cons_append, frames_cons_cons, if_neg fits, if_pos whole]
      rw [List.take_append_of_le_length complete, List.drop_append_of_le_length complete,
        inductionHypothesis good]
      simp [next]
  | case3 low high body fits incomplete =>
      simp
  | case4 =>
      simp

/-- A header over the MTU stays one whatever follows it. -/
theorem frames_bad_append
    (mtu : Nat)
    (first second : List UInt8)
    (bad : (frames mtu first).bad = true) :
    (frames mtu (first ++ second)).bad = true := by
  fun_induction frames mtu first with
  | case1 low high body tooLong =>
      rw [List.cons_append, List.cons_append, frames_cons_cons, if_pos tooLong]
  | case2 low high body fits complete next inductionHypothesis =>
      have whole : ofLe [low, high] ≤ (body ++ second).length := by
        simp only [List.length_append]
        omega
      rw [List.cons_append, List.cons_append, frames_cons_cons, if_neg fits, if_pos whole,
        List.drop_append_of_le_length complete]
      exact inductionHypothesis bad
  | case3 low high body fits incomplete =>
      simp at bad
  | case4 =>
      simp at bad

/-- What follows the frames holds no complete frame, unless it starts with a header over the MTU. -/
theorem partial_rest
    (mtu : Nat)
    (stream : List UInt8)
    (good : (frames mtu stream).bad = false) :
    Partial mtu (frames mtu stream).rest := by
  unfold Partial
  fun_induction frames mtu stream with
  | case1 low high body bad =>
      simp at good
  | case2 low high body fits complete next inductionHypothesis =>
      exact inductionHypothesis good
  | case3 low high body fits incomplete =>
      rw [frames_cons_cons, if_neg fits, if_neg incomplete]
  | case4 =>
      rename_i stream notHeader
      apply frames_short
      match stream, notHeader with
      | [], _ => simp
      | [_], _ => simp
      | _ :: _ :: _, notHeader => exact absurd rfl (notHeader _ _ _)

/-- Data that holds no complete frame is shorter than a frame of MTU length. -/
theorem Partial.length_lt {mtu : Nat} {stream : List UInt8} (waiting : Partial mtu stream) :
    stream.length < 2 + mtu := by
  match stream, waiting with
  | [], _ =>
      simp
  | [_], _ =>
      simp only [List.length_singleton]
      omega
  | low :: high :: body, waiting =>
      unfold Partial at waiting
      rw [frames_cons_cons] at waiting
      split_ifs at waiting with bad complete
      · simp at waiting
      · simp at waiting
      · simp only [List.length_cons]
        omega

end PacketProto

end Tun2SocksWinRT
