import Mathlib.Data.List.Basic
import Tun2SocksWinRT.PacketProto

namespace Tun2SocksWinRT

/-!
# `PacketProtoDecoder`: PacketProto frames from a stream

`flow/PacketProtoDecoder.c` receives a stream into a buffer of
`PACKETPROTO_ENCLEN(output_mtu)` bytes and passes the payloads of the frames in
it to a packet output, one at a time.  At any time exactly one operation is
outstanding: a `Recv` on the stream (into the free end of the buffer) or a
`Send` of one packet on the output (pointing into the buffer).  A header over
the output MTU resets the buffer and calls `handler_error`.

The decoder is modelled with its buffer as byte-addressed memory; a
`Session` adds the outstanding operation, and `Event`s are the completions
the stream and the output deliver, in any order the interfaces allow.  The
specification is `specRun`: the data received since the last error is read as
PacketProto frames (`PacketProto.frames`), complete frames are passed, and a
header over the MTU drops the data buffered and ends in an error.  `Holds` is
the invariant that makes every run refine it.
-/

open ByteMemory PacketProto

/-- The fields of a `PacketProtoDecoder` that decoding reads, with its buffer. -/
structure PacketProtoDecoder where
  outputMtu : Int
  bufSize : Int
  bufStart : Int
  bufUsed : Int
  buf : Int → UInt8

namespace PacketProtoDecoder

/-- The interface call that `process_data` ends with. -/
inductive Call
  /-- `PacketPassInterface_Sender_Send(output, buf + offset, len)` -/
  | send (offset len : Int)
  /-- `StreamRecvInterface_Receiver_Recv(input, buf + offset, len)`, then
  `handler_error` when `error` is set -/
  | recv (offset len : Int) (error : Bool)
  deriving Repr, DecidableEq

/--
The end of `process_data` once the `do ... while (0)` block breaks: reset the
buffer after an error, else move the data to the front when it reaches the end
of the buffer; then receive into what is free after it.
-/
def finish (enc : PacketProtoDecoder) (wasError : Bool) : PacketProtoDecoder × Call :=
  let enc :=
    if wasError then
      { enc with bufStart := 0, bufUsed := 0 }
    else if enc.bufStart + enc.bufUsed = enc.bufSize then
      -- memmove(enc->buf, enc->buf + enc->buf_start, enc->buf_used)
      { enc with
        buf := write enc.buf 0 (read enc.buf enc.bufStart enc.bufUsed.toNat)
        bufStart := 0 }
    else
      enc
  (enc, .recv (enc.bufStart + enc.bufUsed) (enc.bufSize - (enc.bufStart + enc.bufUsed)) wasError)

/--
`process_data`: pass the frame at the front of the buffer, or receive more.
`left` is compared with `sizeof(struct packetproto_header)` as a `size_t`,
which for the non-negative `left` here is the integer comparison.
-/
def processData (enc : PacketProtoDecoder) : PacketProtoDecoder × Call :=
  let left := enc.bufUsed
  -- check if header was received
  if left < 2 then
    enc.finish false
  else
    let dataLen : Int := ofLe (read enc.buf enc.bufStart 2)
    -- check data length
    if dataLen > enc.outputMtu then
      enc.finish true
    -- check if whole packet was received
    else if left - 2 < dataLen then
      enc.finish false
    else
      ({ enc with
          bufStart := enc.bufStart + (2 + dataLen)
          bufUsed := enc.bufUsed - (2 + dataLen) },
        .send (enc.bufStart + 2) dataLen)

/-- `input_handler_done`: `dataLen` bytes were received after the buffered data. -/
def inputHandlerDone (enc : PacketProtoDecoder) (dataLen : Int) : PacketProtoDecoder × Call :=
  processData { enc with bufUsed := enc.bufUsed + dataLen }

/-- `output_handler_done`. -/
def outputHandlerDone (enc : PacketProtoDecoder) : PacketProtoDecoder × Call :=
  processData enc

/--
`PacketProtoDecoder_Init` for an output of MTU `mtu`; `allocation` is what
`malloc` returns for the buffer, `none` for `NULL`.
-/
def init (mtu : Int) (allocation : Option (Int → UInt8)) : Option (PacketProtoDecoder × Call) :=
  -- set output MTU, limit by maximum payload size
  let outputMtu := min mtu maxPayload
  match allocation with
  | some buf =>
      some (⟨outputMtu, 2 + outputMtu, 0, 0, buf⟩, .recv 0 (2 + outputMtu) false)
  | none =>
      none

/-- `PacketProtoDecoder_Reset`. -/
def reset (enc : PacketProtoDecoder) : PacketProtoDecoder :=
  { enc with bufStart := enc.bufStart + enc.bufUsed, bufUsed := 0 }

/-- The data in the buffer not passed yet. -/
def buffered (enc : PacketProtoDecoder) : List UInt8 :=
  read enc.buf enc.bufStart enc.bufUsed.toNat

/-- The bounds on a decoder's buffer indices. -/
structure Bounds (enc : PacketProtoDecoder) : Prop where
  mtu_nonneg : 0 ≤ enc.outputMtu
  mtu_le : enc.outputMtu ≤ maxPayload
  size_eq : enc.bufSize = 2 + enc.outputMtu
  start_nonneg : 0 ≤ enc.bufStart
  used_nonneg : 0 ≤ enc.bufUsed
  fits : enc.bufStart + enc.bufUsed ≤ enc.bufSize

/-! ## The specification -/

/-- What a decoder passes to its output, or reports to `handler_error`. -/
inductive Output
  | packet (payload : List UInt8)
  | error
  deriving Repr, DecidableEq

/--
What a decoder holding `data` passes before it needs more input: the
payloads of the complete frames, then an error if a header over the MTU
follows them.
-/
def outputs (mtu : Nat) (data : List UInt8) : List Output :=
  (frames mtu data).payloads.map .packet ++ if (frames mtu data).bad then [.error] else []

/-- What it keeps for more input: the data after the frames, dropped at an error. -/
def kept (mtu : Nat) (data : List UInt8) : List UInt8 :=
  if (frames mtu data).bad then [] else (frames mtu data).rest

/--
The specification over the chunks a stream delivers, with `held` kept from
before: each chunk joins what is kept, and what that holds is passed.
-/
def specRun (mtu : Nat) (held : List UInt8) : List (List UInt8) → List Output × List UInt8
  | [] =>
      ([], held)
  | chunk :: chunks =>
      let next := specRun mtu (kept mtu (held ++ chunk)) chunks
      (outputs mtu (held ++ chunk) ++ next.1, next.2)

theorem Partial.outputs_eq {mtu : Nat} {data : List UInt8} (waiting : Partial mtu data) :
    outputs mtu data = [] := by
  unfold Partial at waiting
  simp [outputs, waiting]

theorem Partial.kept_eq {mtu : Nat} {data : List UInt8} (waiting : Partial mtu data) :
    kept mtu data = data := by
  unfold Partial at waiting
  simp [kept, waiting]

/--
While no header over the MTU comes, the specification passes the frames of
the whole stream, however it is cut into chunks.
-/
theorem specRun_of_no_error
    {mtu : Nat}
    {held : List UInt8}
    (waiting : Partial mtu held)
    (chunks : List (List UInt8))
    (noError : Output.error ∉ (specRun mtu held chunks).1) :
    specRun mtu held chunks =
      ((frames mtu (held ++ chunks.flatten)).payloads.map .packet,
        (frames mtu (held ++ chunks.flatten)).rest) := by
  induction chunks generalizing held with
  | nil =>
      unfold Partial at waiting
      simp [specRun, waiting]
  | cons chunk chunks inductionHypothesis =>
      have good : (frames mtu (held ++ chunk)).bad = false := by
        by_contra bad
        simp [specRun, outputs, bad] at noError
      have keptRest : kept mtu (held ++ chunk) = (frames mtu (held ++ chunk)).rest := by
        simp [kept, good]
      have laterNoError : Output.error ∉ (specRun mtu (kept mtu (held ++ chunk)) chunks).1 := by
        intro later
        simp only [specRun, List.mem_append] at noError
        exact noError (.inr later)
      rw [keptRest] at laterNoError
      have later := inductionHypothesis (partial_rest mtu (held ++ chunk) good) laterNoError
      simp only [specRun, keptRest, later, outputs, good, List.flatten_cons]
      rw [← List.append_assoc, frames_append mtu (held ++ chunk) _ good]
      simp

/-- A stream with no header over the MTU makes the specification report no error. -/
theorem specRun_no_error
    {mtu : Nat}
    {held : List UInt8}
    (chunks : List (List UInt8))
    (good : (frames mtu (held ++ chunks.flatten)).bad = false) :
    Output.error ∉ (specRun mtu held chunks).1 := by
  induction chunks generalizing held with
  | nil =>
      simp [specRun]
  | cons chunk chunks inductionHypothesis =>
      rw [List.flatten_cons, ← List.append_assoc] at good
      -- a header over the MTU in the first chunk would be one of the whole stream
      have firstGood : (frames mtu (held ++ chunk)).bad = false := by
        by_contra firstBad
        rw [frames_bad_append mtu _ _ (by simpa using firstBad)] at good
        cases good
      have keptRest : kept mtu (held ++ chunk) = (frames mtu (held ++ chunk)).rest := by
        simp [kept, firstGood]
      rw [frames_append mtu _ _ firstGood] at good
      have later : Output.error ∉ (specRun mtu (kept mtu (held ++ chunk)) chunks).1 :=
        inductionHypothesis (by rw [keptRest]; exact good)
      simp only [specRun, outputs, firstGood, List.mem_append, List.mem_map]
      simp [later]

/-! ## The decoder with its interfaces -/

/-- The operation outstanding on a decoder's interfaces. -/
inductive Outstanding
  /-- a `Recv` into `buf + offset` of at most `len` bytes -/
  | recv (offset len : Int)
  /-- a `Send` of the `len` bytes at `buf + offset` -/
  | send (offset len : Int)
  deriving Repr, DecidableEq

/-- A decoder with the operation outstanding on its interfaces. -/
structure Session where
  enc : PacketProtoDecoder
  outstanding : Outstanding

/-- A completion the stream or the output delivers. -/
inductive Event
  /-- the stream wrote `bytes` at the `Recv`'s destination and completed it -/
  | received (bytes : List UInt8)
  /-- the output completed the `Send` -/
  | sent
  deriving Repr, DecidableEq

/-- The chunks of the stream among some events. -/
def Event.chunks (events : List Event) : List (List UInt8) :=
  events.filterMap fun
    | .received bytes => some bytes
    | .sent => none

namespace Session

/--
The call `process_data` ends with becomes the outstanding operation; a `Send`
passes the packet in the buffer, and an error calls `handler_error`.
-/
def ofCall (enc : PacketProtoDecoder) : Call → Session × List Output
  | .send offset len =>
      (⟨enc, .send offset len⟩, [.packet (read enc.buf offset len.toNat)])
  | .recv offset len error =>
      (⟨enc, .recv offset len⟩, if error then [.error] else [])

/-- One completion; `none` where the interfaces assert against it. -/
def step? (s : Session) : Event → Option (Session × List Output)
  | .received bytes =>
      match s.outstanding with
      | .recv offset len =>
          if 0 < bytes.length ∧ (bytes.length : Int) ≤ len then
            let done := inputHandlerDone { s.enc with buf := write s.enc.buf offset bytes } bytes.length
            some (ofCall done.1 done.2)
          else
            none
      | .send _ _ =>
          none
  | .sent =>
      match s.outstanding with
      | .send _ _ =>
          let done := outputHandlerDone s.enc
          some (ofCall done.1 done.2)
      | .recv _ _ =>
          none

/-- Run completions, collecting what the decoder passes and reports. -/
def run? (s : Session) : List Event → Option (Session × List Output)
  | [] =>
      some (s, [])
  | event :: events =>
      (s.step? event).bind fun (next, out) =>
        (next.run? events).map fun (final, more) => (final, out ++ more)

/--
The invariant of a session: the bounds on the buffer, and an outstanding
`Recv` asks for the free end of the buffer, at least one byte, while the
buffered data holds no complete frame.
-/
structure Holds (s : Session) : Prop where
  bounds : s.enc.Bounds
  waiting : ∀ offset len, s.outstanding = .recv offset len →
    offset = s.enc.bufStart + s.enc.bufUsed ∧ len = s.enc.bufSize - offset ∧ 0 < len ∧
      Partial s.enc.outputMtu.toNat s.enc.buffered

end Session

/-! ## `process_data` -/

variable {enc : PacketProtoDecoder}

/-- A decoder waiting for input has room left in its buffer. -/
theorem Bounds.used_lt (bounds : enc.Bounds) (waiting : Partial enc.outputMtu.toNat enc.buffered) :
    enc.bufUsed < enc.bufSize := by
  have shorter := waiting.length_lt
  have := bounds.size_eq
  have := bounds.mtu_nonneg
  simp only [buffered, length_read] at shorter
  omega

/-- Receiving when no complete frame is buffered keeps the data, moved to the front at the end. -/
theorem finish_waiting (bounds : enc.Bounds) (waiting : Partial enc.outputMtu.toNat enc.buffered) :
    (Session.ofCall (enc.finish false).1 (enc.finish false).2).1.Holds ∧
      (Session.ofCall (enc.finish false).1 (enc.finish false).2).2 = [] ∧
      (Session.ofCall (enc.finish false).1 (enc.finish false).2).1.enc.buffered = enc.buffered ∧
      (Session.ofCall (enc.finish false).1 (enc.finish false).2).1.enc.outputMtu = enc.outputMtu := by
  have room := bounds.used_lt waiting
  obtain ⟨mtuNonneg, mtuLe, sizeEq, startNonneg, usedNonneg, fits⟩ := bounds
  by_cases atEnd : enc.bufStart + enc.bufUsed = enc.bufSize
  · -- memmove the data to the front of the buffer
    have moved : read (write enc.buf 0 (read enc.buf enc.bufStart enc.bufUsed.toNat)) 0
        enc.bufUsed.toNat = enc.buffered := by
      have whole := read_write_self enc.buf 0 (read enc.buf enc.bufStart enc.bufUsed.toNat)
      rwa [length_read] at whole
    have result : Session.ofCall (enc.finish false).1 (enc.finish false).2 =
        (⟨{ enc with
            buf := write enc.buf 0 (read enc.buf enc.bufStart enc.bufUsed.toNat)
            bufStart := 0 },
          .recv enc.bufUsed (enc.bufSize - enc.bufUsed)⟩, []) := by
      simp [finish, atEnd, Session.ofCall]
    rw [result]
    refine ⟨⟨⟨mtuNonneg, mtuLe, sizeEq, le_rfl, usedNonneg, by dsimp only; omega⟩, ?_⟩,
      rfl, moved, rfl⟩
    intro offset len outstanding
    cases outstanding
    refine ⟨by dsimp only; omega, rfl, by omega, ?_⟩
    show Partial _ (read _ 0 _)
    rw [moved]
    exact waiting
  · have result : Session.ofCall (enc.finish false).1 (enc.finish false).2 =
        (⟨enc, .recv (enc.bufStart + enc.bufUsed) (enc.bufSize - (enc.bufStart + enc.bufUsed))⟩,
          []) := by
      simp [finish, atEnd, Session.ofCall]
    rw [result]
    refine ⟨⟨⟨mtuNonneg, mtuLe, sizeEq, startNonneg, usedNonneg, fits⟩, ?_⟩, rfl, rfl, rfl⟩
    intro offset len outstanding
    cases outstanding
    exact ⟨rfl, rfl, by omega, waiting⟩

/-- A header over the MTU empties the buffer and reports the error. -/
theorem finish_error (bounds : enc.Bounds) :
    (Session.ofCall (enc.finish true).1 (enc.finish true).2).1.Holds ∧
      (Session.ofCall (enc.finish true).1 (enc.finish true).2).2 = [.error] ∧
      (Session.ofCall (enc.finish true).1 (enc.finish true).2).1.enc.buffered = [] ∧
      (Session.ofCall (enc.finish true).1 (enc.finish true).2).1.enc.outputMtu = enc.outputMtu := by
  obtain ⟨mtuNonneg, mtuLe, sizeEq, startNonneg, usedNonneg, fits⟩ := bounds
  have result : Session.ofCall (enc.finish true).1 (enc.finish true).2 =
      (⟨{ enc with bufStart := 0, bufUsed := 0 }, .recv 0 enc.bufSize⟩, [.error]) := by
    simp [finish, Session.ofCall]
  rw [result]
  refine ⟨⟨⟨mtuNonneg, mtuLe, sizeEq, le_rfl, le_rfl, by dsimp only; omega⟩, ?_⟩, rfl, rfl, rfl⟩
  intro offset len outstanding
  cases outstanding
  refine ⟨rfl, by dsimp only; omega, by omega, ?_⟩
  exact frames_short (by simp [buffered])

/--
`process_data` in terms of the frames buffered: it passes the first complete
frame, or reports a header over the MTU, or waits for more input.  In every
case what it passes, then what the new buffer holds to pass, is what the old
buffer held to pass.
-/
theorem processData_step (bounds : enc.Bounds) :
    (Session.ofCall enc.processData.1 enc.processData.2).1.Holds ∧
      (Session.ofCall enc.processData.1 enc.processData.2).2 ++
          outputs enc.outputMtu.toNat (Session.ofCall enc.processData.1 enc.processData.2).1.enc.buffered =
        outputs enc.outputMtu.toNat enc.buffered ∧
      kept enc.outputMtu.toNat (Session.ofCall enc.processData.1 enc.processData.2).1.enc.buffered =
        kept enc.outputMtu.toNat enc.buffered ∧
      (Session.ofCall enc.processData.1 enc.processData.2).1.enc.outputMtu = enc.outputMtu := by
  have mtuNat : (enc.outputMtu.toNat : Int) = enc.outputMtu := Int.toNat_of_nonneg bounds.mtu_nonneg
  by_cases noHeader : enc.bufUsed < 2
  · -- no header yet: wait for more input
    have waiting : Partial enc.outputMtu.toNat enc.buffered :=
      frames_short (by simp only [buffered, length_read]; omega)
    have branch : enc.processData = enc.finish false := by
      simp only [processData, if_pos noHeader]
    obtain ⟨holds, silent, same, mtuSame⟩ := finish_waiting bounds waiting
    rw [branch, silent, same, List.nil_append]
    exact ⟨holds, rfl, rfl, mtuSame⟩
  · -- the buffer starts with a header, then the body
    have used := bounds.used_nonneg
    obtain ⟨low, high, headerBytes⟩ := List.length_eq_two.mp (length_read enc.buf enc.bufStart 2)
    have split : enc.buffered =
        low :: high :: read enc.buf (enc.bufStart + 2) (enc.bufUsed - 2).toNat := by
      have whole := read_add enc.buf enc.bufStart 2 (enc.bufUsed - 2).toNat
      rw [show 2 + (enc.bufUsed - 2).toNat = enc.bufUsed.toNat by omega, headerBytes] at whole
      exact whole
    have bodyLength := length_read enc.buf (enc.bufStart + 2) (enc.bufUsed - 2).toNat
    by_cases tooLong : (ofLe [low, high] : Int) > enc.outputMtu
    · -- a header over the MTU: drop the buffer and report the error
      have branch : enc.processData = enc.finish true := by
        simp only [processData, if_neg noHeader, headerBytes, if_pos tooLong]
      have reading : frames enc.outputMtu.toNat enc.buffered = ⟨[], enc.buffered, true⟩ := by
        rw [split, frames_cons_cons, if_pos (by omega)]
      obtain ⟨holds, reported, emptied, mtuSame⟩ := finish_error bounds
      rw [branch, reported, emptied]
      refine ⟨holds, ?_, ?_, mtuSame⟩
      · simp [outputs, reading, frames_short]
      · simp [kept, reading, frames_short]
    · by_cases incomplete : enc.bufUsed - 2 < ofLe [low, high]
      · -- the frame is not complete: wait for more input
        have branch : enc.processData = enc.finish false := by
          simp only [processData, if_neg noHeader, headerBytes, if_neg tooLong, if_pos incomplete]
        have waiting : Partial enc.outputMtu.toNat enc.buffered := by
          unfold Partial
          rw [split, frames_cons_cons, if_neg (by omega), if_neg (by omega)]
        obtain ⟨holds, silent, same, mtuSame⟩ := finish_waiting bounds waiting
        rw [branch, silent, same, List.nil_append]
        exact ⟨holds, rfl, rfl, mtuSame⟩
      · -- a complete frame: pass its payload, which is the first frame read
        have fits := bounds.fits
        have complete : ofLe [low, high] ≤ (enc.bufUsed - 2).toNat := by omega
        obtain ⟨payload, after⟩ := read_take_drop enc.buf (enc.bufStart + 2) complete
        have reading : frames enc.outputMtu.toNat enc.buffered =
            ⟨read enc.buf (enc.bufStart + 2) (ofLe [low, high]) ::
                (frames enc.outputMtu.toNat
                  (read enc.buf (enc.bufStart + 2 + ofLe [low, high])
                    ((enc.bufUsed - 2).toNat - ofLe [low, high]))).payloads,
              (frames enc.outputMtu.toNat
                (read enc.buf (enc.bufStart + 2 + ofLe [low, high])
                  ((enc.bufUsed - 2).toNat - ofLe [low, high]))).rest,
              (frames enc.outputMtu.toNat
                (read enc.buf (enc.bufStart + 2 + ofLe [low, high])
                  ((enc.bufUsed - 2).toNat - ofLe [low, high]))).bad⟩ := by
          rw [split, frames_cons_cons, if_neg (by omega), if_pos (by omega), payload, after]
        have result : Session.ofCall enc.processData.1 enc.processData.2 =
            (⟨{ enc with
                bufStart := enc.bufStart + (2 + ofLe [low, high])
                bufUsed := enc.bufUsed - (2 + ofLe [low, high]) },
              .send (enc.bufStart + 2) (ofLe [low, high])⟩,
              [.packet (read enc.buf (enc.bufStart + 2) (ofLe [low, high]))]) := by
          simp [processData, noHeader, headerBytes, tooLong, incomplete, Session.ofCall]
        have rest : read enc.buf (enc.bufStart + 2 + ofLe [low, high])
            ((enc.bufUsed - 2).toNat - ofLe [low, high]) =
            read enc.buf (enc.bufStart + (2 + ofLe [low, high]))
              (enc.bufUsed - (2 + ofLe [low, high])).toNat := by
          congr 1
          · omega
          · omega
        obtain ⟨mtuNonneg, mtuLe, sizeEq, startNonneg, _, _⟩ := bounds
        rw [result]
        refine ⟨⟨⟨mtuNonneg, mtuLe, sizeEq, by dsimp only; omega, by dsimp only; omega,
          by dsimp only; omega⟩, fun _ _ outstanding => by cases outstanding⟩, ?_, ?_, rfl⟩
        · show [Output.packet (read enc.buf (enc.bufStart + 2) (ofLe [low, high]))] ++
              outputs enc.outputMtu.toNat (read enc.buf (enc.bufStart + (2 + ofLe [low, high]))
                (enc.bufUsed - (2 + ofLe [low, high])).toNat) =
              outputs enc.outputMtu.toNat enc.buffered
          rw [← rest]
          simp [outputs, reading]
        · show kept enc.outputMtu.toNat (read enc.buf (enc.bufStart + (2 + ofLe [low, high]))
              (enc.bufUsed - (2 + ofLe [low, high])).toNat) =
              kept enc.outputMtu.toNat enc.buffered
          rw [← rest]
          simp [kept, reading]

/-- Bytes the stream writes into the free end are buffered after the data there. -/
theorem buffered_received (bounds : enc.Bounds) (bytes : List UInt8) :
    { enc with
      buf := write enc.buf (enc.bufStart + enc.bufUsed) bytes
      bufUsed := enc.bufUsed + bytes.length }.buffered = enc.buffered ++ bytes := by
  have used := bounds.used_nonneg
  show read (write enc.buf (enc.bufStart + enc.bufUsed) bytes) enc.bufStart
    (enc.bufUsed + bytes.length).toNat = _
  rw [show (enc.bufUsed + bytes.length).toNat = enc.bufUsed.toNat + bytes.length by omega,
    read_add, read_write_of_disjoint _ (by omega),
    show enc.bufStart + (enc.bufUsed.toNat : Int) = enc.bufStart + enc.bufUsed by omega,
    read_write_self]
  rfl

namespace Session

variable {s next : Session} {out : List Output}

/-- A completed `Recv` passes what the data buffered with the new bytes holds to pass. -/
theorem Holds.received
    (holds : s.Holds)
    {bytes : List UInt8}
    (stepped : s.step? (.received bytes) = some (next, out)) :
    next.Holds ∧ next.enc.outputMtu = s.enc.outputMtu ∧
      out ++ outputs s.enc.outputMtu.toNat next.enc.buffered =
        outputs s.enc.outputMtu.toNat (s.enc.buffered ++ bytes) ∧
      kept s.enc.outputMtu.toNat next.enc.buffered =
        kept s.enc.outputMtu.toNat (s.enc.buffered ++ bytes) := by
  obtain ⟨enc, outstanding⟩ := s
  cases outstanding with
  | send offset len =>
      cases stepped
  | recv offset len =>
      have bounds : enc.Bounds := holds.bounds
      have waiting := holds.waiting offset len rfl
      have offsetEq : offset = enc.bufStart + enc.bufUsed := waiting.1
      have lenEq : len = enc.bufSize - offset := waiting.2.1
      simp only [step?] at stepped
      split_ifs at stepped with accepted
      obtain ⟨rfl, rfl⟩ := Prod.ext_iff.mp (Option.some.inj stepped).symm
      have := bounds.used_nonneg
      -- the new bytes fit in the free end, so the buffer bounds still hold
      have counted : Bounds { enc with
          buf := write enc.buf (enc.bufStart + enc.bufUsed) bytes
          bufUsed := enc.bufUsed + bytes.length } :=
        ⟨bounds.mtu_nonneg, bounds.mtu_le, bounds.size_eq, bounds.start_nonneg,
          by dsimp only; omega, by dsimp only; omega⟩
      have step := processData_step counted
      rw [buffered_received bounds] at step
      subst offsetEq
      exact ⟨step.1, step.2.2.2, step.2.1, step.2.2.1⟩

/-- A completed `Send` passes what the buffer still holds to pass. -/
theorem Holds.sent
    (holds : s.Holds)
    (stepped : s.step? .sent = some (next, out)) :
    next.Holds ∧ next.enc.outputMtu = s.enc.outputMtu ∧
      out ++ outputs s.enc.outputMtu.toNat next.enc.buffered =
        outputs s.enc.outputMtu.toNat s.enc.buffered ∧
      kept s.enc.outputMtu.toNat next.enc.buffered = kept s.enc.outputMtu.toNat s.enc.buffered := by
  obtain ⟨enc, outstanding⟩ := s
  cases outstanding with
  | recv offset len =>
      cases stepped
  | send offset len =>
      simp only [step?] at stepped
      obtain ⟨rfl, rfl⟩ := Prod.ext_iff.mp (Option.some.inj stepped).symm
      have step := processData_step holds.bounds
      exact ⟨step.1, step.2.2.2, step.2.1, step.2.2.1⟩

/--
A whole run refines the specification: what the session passes, then what it
still holds to pass, is what the specification passes for the chunks
received, and both keep the same data.
-/
theorem Holds.run?
    (holds : s.Holds)
    {events : List Event}
    {final : Session}
    {log : List Output}
    (ran : s.run? events = some (final, log)) :
    final.Holds ∧ final.enc.outputMtu = s.enc.outputMtu ∧
      log ++ outputs s.enc.outputMtu.toNat final.enc.buffered =
        outputs s.enc.outputMtu.toNat s.enc.buffered ++
          (specRun s.enc.outputMtu.toNat (kept s.enc.outputMtu.toNat s.enc.buffered)
            (Event.chunks events)).1 ∧
      kept s.enc.outputMtu.toNat final.enc.buffered =
        (specRun s.enc.outputMtu.toNat (kept s.enc.outputMtu.toNat s.enc.buffered)
          (Event.chunks events)).2 := by
  induction events generalizing s log with
  | nil =>
      cases ran
      simp [Event.chunks, specRun, holds]
  | cons event events inductionHypothesis =>
      obtain ⟨⟨next, out⟩, stepped, rest⟩ := Option.bind_eq_some_iff.mp ran
      obtain ⟨⟨final', more⟩, ranRest, joined⟩ := Option.map_eq_some_iff.mp rest
      cases joined
      cases event with
      | received bytes =>
          -- a `Recv` was outstanding, so nothing was left to pass
          have waiting : Partial s.enc.outputMtu.toNat s.enc.buffered := by
            obtain ⟨enc, outstanding⟩ := s
            cases outstanding with
            | recv offset len =>
                exact (holds.waiting offset len rfl).2.2.2
            | send offset len =>
                cases stepped
          obtain ⟨nextHolds, mtuSame, passed, keptSame⟩ := holds.received stepped
          obtain ⟨finalHolds, finalMtu, later, finalKept⟩ := inductionHypothesis nextHolds ranRest
          rw [mtuSame] at later finalKept
          refine ⟨finalHolds, finalMtu.trans mtuSame, ?_, ?_⟩
          · rw [Partial.outputs_eq waiting, Partial.kept_eq waiting, List.append_assoc, later,
              ← List.append_assoc, passed, keptSame]
            simp [Event.chunks, specRun]
          · rw [finalKept, keptSame, Partial.kept_eq waiting]
            simp [Event.chunks, specRun]
      | sent =>
          obtain ⟨nextHolds, mtuSame, passed, keptSame⟩ := holds.sent stepped
          obtain ⟨finalHolds, finalMtu, later, finalKept⟩ := inductionHypothesis nextHolds ranRest
          rw [mtuSame] at later finalKept
          refine ⟨finalHolds, finalMtu.trans mtuSame, ?_, ?_⟩
          · rw [List.append_assoc, later, ← List.append_assoc, passed, keptSame]
            simp [Event.chunks]
          · rw [finalKept, keptSame]
            simp [Event.chunks]

end Session

/-! ## Runs from `PacketProtoDecoder_Init` -/

/-- `PacketProtoDecoder_Init` leaves an empty buffer and a `Recv` of all of it outstanding. -/
theorem init_holds
    {mtu : Int}
    {allocation : Option (Int → UInt8)}
    {enc : PacketProtoDecoder}
    {call : Call}
    (mtuNonneg : 0 ≤ mtu)
    (initialized : init mtu allocation = some (enc, call)) :
    (Session.ofCall enc call).1.Holds ∧ enc.buffered = [] := by
  cases allocation with
  | none =>
      cases initialized
  | some buf =>
      simp only [init, Option.some.injEq, Prod.mk.injEq] at initialized
      obtain ⟨rfl, rfl⟩ := initialized
      have capped : min mtu (maxPayload : Int) ≤ maxPayload := min_le_right _ _
      have nonneg : 0 ≤ min mtu (maxPayload : Int) := le_min mtuNonneg (by decide)
      refine ⟨⟨⟨nonneg, capped, rfl, le_rfl, le_rfl,
        show (0 : Int) + 0 ≤ 2 + min mtu maxPayload by omega⟩, ?_⟩, rfl⟩
      intro offset len outstanding
      cases outstanding
      exact ⟨(zero_add 0).symm, (sub_zero _).symm,
        show (0 : Int) < 2 + min mtu maxPayload by omega,
        frames_short (show (read buf 0 (0 : Int).toNat).length < 2 by simp)⟩

/-- `PacketProtoDecoder_Init` caps the output MTU at the largest payload. -/
theorem init_outputMtu
    {mtu : Int}
    {allocation : Option (Int → UInt8)}
    {enc : PacketProtoDecoder}
    {call : Call}
    (initialized : init mtu allocation = some (enc, call)) :
    enc.outputMtu = min mtu maxPayload := by
  cases allocation with
  | none =>
      cases initialized
  | some buf =>
      simp only [init, Option.some.injEq, Prod.mk.injEq] at initialized
      obtain ⟨rfl, rfl⟩ := initialized
      rfl

/--
From `PacketProtoDecoder_Init`, what the decoder passes, then what it still
holds to pass, is what the specification passes for the chunks received; once
it waits for input it holds nothing more to pass.
-/
theorem init_run?
    {mtu : Int}
    {allocation : Option (Int → UInt8)}
    {enc : PacketProtoDecoder}
    {call : Call}
    (mtuNonneg : 0 ≤ mtu)
    (initialized : init mtu allocation = some (enc, call))
    {events : List Event}
    {final : Session}
    {log : List Output}
    (ran : (Session.ofCall enc call).1.run? events = some (final, log)) :
    final.Holds ∧
      log ++ outputs enc.outputMtu.toNat final.enc.buffered =
        (specRun enc.outputMtu.toNat [] (Event.chunks events)).1 ∧
      ∀ offset len, final.outstanding = .recv offset len →
        log = (specRun enc.outputMtu.toNat [] (Event.chunks events)).1 := by
  obtain ⟨start, empty⟩ := init_holds mtuNonneg initialized
  have emptyWaiting : Partial enc.outputMtu.toNat [] := frames_short (by decide)
  obtain ⟨finalHolds, finalMtu, passed, -⟩ := start.run? ran
  have sameEnc : (Session.ofCall enc call).1.enc = enc := by
    cases call <;> rfl
  rw [sameEnc, empty, Partial.outputs_eq emptyWaiting, Partial.kept_eq emptyWaiting,
    List.nil_append] at passed
  refine ⟨finalHolds, passed, fun offset len waiting => ?_⟩
  -- waiting for input, the decoder holds nothing more to pass
  have finalWaiting := (finalHolds.waiting offset len waiting).2.2.2
  rw [finalMtu, sameEnc] at finalWaiting
  rwa [Partial.outputs_eq finalWaiting, List.append_nil] at passed

/--
From `PacketProtoDecoder_Init`, over any run of completions the interfaces
allow: the buffer bounds hold and an outstanding `Recv` asks for at least one
byte; what the decoder passes, then what it still holds to pass, is what the
specification passes for the chunks received; and while no error was
reported, once the decoder waits for input it has passed exactly the
payloads of the complete frames of the whole stream, however it was chunked.
-/
theorem decodes_frames
    {mtu : Int}
    {allocation : Option (Int → UInt8)}
    {enc : PacketProtoDecoder}
    {call : Call}
    (mtuNonneg : 0 ≤ mtu)
    (initialized : init mtu allocation = some (enc, call))
    {events : List Event}
    {final : Session}
    {log : List Output}
    (ran : (Session.ofCall enc call).1.run? events = some (final, log)) :
    final.Holds ∧
      log ++ outputs enc.outputMtu.toNat final.enc.buffered =
        (specRun enc.outputMtu.toNat [] (Event.chunks events)).1 ∧
      ∀ offset len, final.outstanding = .recv offset len → Output.error ∉ log →
        log = (frames enc.outputMtu.toNat (Event.chunks events).flatten).payloads.map .packet := by
  obtain ⟨finalHolds, passed, waitingLog⟩ := init_run? mtuNonneg initialized ran
  refine ⟨finalHolds, passed, fun offset len waiting noError => ?_⟩
  rw [waitingLog offset len waiting] at noError ⊢
  rw [specRun_of_no_error (frames_short (by decide)) _ noError, List.nil_append]

/--
Fed the frames of payloads that its MTU allows, cut into chunks in any way, a
decoder that waits for input has passed exactly those payloads.
-/
theorem init_run?_encoded
    {mtu : Int}
    {allocation : Option (Int → UInt8)}
    {enc : PacketProtoDecoder}
    {call : Call}
    (mtuNonneg : 0 ≤ mtu)
    (initialized : init mtu allocation = some (enc, call))
    {events : List Event}
    {final : Session}
    {log : List Output}
    (ran : (Session.ofCall enc call).1.run? events = some (final, log))
    {payloads : List (List UInt8)}
    (fits : ∀ payload ∈ payloads, payload.length ≤ enc.outputMtu.toNat)
    (stream : (Event.chunks events).flatten = (payloads.map encode).flatten)
    {offset len : Int}
    (waiting : final.outstanding = .recv offset len) :
    log = payloads.map .packet := by
  obtain ⟨-, -, waitingLog⟩ := init_run? mtuNonneg initialized ran
  have bounded : enc.outputMtu.toNat ≤ maxPayload := by
    rw [init_outputMtu initialized]
    have : min mtu (maxPayload : Int) ≤ maxPayload := min_le_right _ _
    omega
  -- the stream is those frames and nothing else: no header over the MTU in it
  have whole : frames enc.outputMtu.toNat (Event.chunks events).flatten = ⟨payloads, [], false⟩ := by
    rw [stream, ← List.append_nil (payloads.map encode).flatten,
      frames_flatten_encode fits bounded [], frames_short (by decide)]
    simp
  have noError : Output.error ∉ (specRun enc.outputMtu.toNat [] (Event.chunks events)).1 :=
    specRun_no_error (Event.chunks events) (by rw [List.nil_append, whole])
  rw [waitingLog offset len waiting, specRun_of_no_error (frames_short (by decide)) _ noError,
    List.nil_append, whole]

/-- A frame whose header arrives in two chunks is passed once the decoder waits again. -/
theorem decodes_frames_split_header :
    ∃ enc call final,
      init 1 (some fun _ => 0) = some (enc, call) ∧
      (Session.ofCall enc call).1.run? [.received [1], .received [0, 7], .sent] =
        some (final, [.packet [7]]) ∧
      final.Holds ∧
      ∀ offset len, final.outstanding = .recv offset len →
        [Output.packet [7]] = (frames enc.outputMtu.toNat [1, 0, 7]).payloads.map .packet := by
  obtain ⟨holds, -, waitingLog⟩ := @decodes_frames 1 (some fun _ => 0) _ _ (by decide) rfl
    [.received [1], .received [0, 7], .sent] _ [.packet [7]] rfl
  exact ⟨_, _, _, rfl, rfl, holds, fun offset len waiting => waitingLog offset len waiting (by decide)⟩

/--
After an error the decoder starts over.  With output MTU 1 the stream
`[2, 0, 0, 0]` starts with a header over the MTU, so it has no frame the MTU
allows; arriving as `[2, 0]` and then `[0, 0]`, it makes the decoder report
the error and then pass the empty packet of the second chunk.
-/
theorem decoder_passes_after_error :
    ∃ enc call final,
      init 1 (some fun _ => 0) = some (enc, call) ∧
      (Session.ofCall enc call).1.run? [.received [2, 0], .received [0, 0]] =
        some (final, [.error, .packet []]) ∧
      (frames 1 [2, 0, 0, 0]).payloads = [] := by
  refine ⟨_, _, _, rfl, rfl, ?_⟩
  rw [frames_cons_cons, if_pos (by decide)]

end PacketProtoDecoder

end Tun2SocksWinRT
