import Tun2SocksWinRT.SendPath
import Tun2SocksWinRT.PacketProtoDecoder

namespace Tun2SocksWinRT

namespace SendPath

open ByteMemory PacketProto

/-!
# The stream of the send path carries the frames of the packets written

Every packet goes through the same stages.  On the receive side the buffer
asks the encoder for a packet at its input window, the encoder asks the
writer for the payload two bytes further on, the user writes it, the encoder
puts the header in front of it and the buffer submits the frame.  On the send
side the oldest frame in the buffer goes to the fair queue, waits there for
the schedule job when the flow has just sent, goes through the connector (and
waits there until it is connected) into the `PacketStreamSender`, which hands
it to the stream piece by piece, and the `Done`s come back the same way until
the buffer consumes the frame.

`RecvPhase` and `SendPhase` name these stages.  `Pipeline` says that the
interfaces of each side are those of one of its phases, that the bytes of the
packet in the making are where the phase says, and that the stream has taken
the frames of the packets already consumed and a prefix of the oldest one.
Each event keeps `Pipeline`, so from `PacketProtoFlow_Init` the stream always
holds a prefix of the frames of the packets written, and all of them once
nothing is left to do.
-/

/-! ## The receive side -/

/-- The fields of the writer and the encoder, and the packet on its way into the buffer. -/
structure RecvView where
  writerOut : Option Int
  writerOutput : InterfaceState Int Int
  encoderOutputPacket : Option Int
  encoderOutput : InterfaceState Int Int
  receiving : Option (List UInt8)

def recvView (s : SendPath) : RecvView :=
  ⟨s.writerOut, s.writerOutput, s.encoderOutputPacket, s.encoderOutput, s.receiving⟩

/-- Where the packet that goes into the buffer next is. -/
inductive RecvPhase
  /-- the buffer has no room for a frame and asks for none -/
  | full
  /-- the buffer's `Recv` at `dest` waits for the encoder -/
  | requested (dest : Int)
  /-- the encoder's `Recv` after the header waits for the writer -/
  | encoding (dest : Int)
  /-- the writer offers the place after the header to the user -/
  | writable (dest : Int)
  /-- the user wrote `packet`; the writer's `Done` waits for the encoder -/
  | written (dest : Int) (packet : List UInt8)
  /-- the encoder put the header in front; its `Done` waits for the buffer -/
  | framed (dest : Int) (packet : List UInt8)

/-- The fields of the receive side in each phase. -/
def RecvPhase.view : RecvPhase → RecvView
  | full => ⟨none, .idle, none, .idle, none⟩
  | requested dest => ⟨none, .idle, none, .operationPending dest, none⟩
  | encoding dest => ⟨none, .operationPending (dest + 2), some dest, .busy dest, none⟩
  | writable dest => ⟨some (dest + 2), .busy (dest + 2), some dest, .busy dest, none⟩
  | written dest packet => ⟨none, .donePending packet.length, some dest, .busy dest, some packet⟩
  | framed _ packet => ⟨none, .idle, none, .donePending (packet.length + 2), some packet⟩

/-- The input window is at `dest` with room for a frame of `encMtu` bytes. -/
def Room (input : Window) (encMtu dest : Int) : Prop :=
  input.dest = some dest ∧ encMtu ≤ input.avail

/-- What the buffer holds in each phase: the window the packet goes to, and its bytes so far. -/
def RecvPhase.Holds (buf : ChunkBuffer2) (encMtu inputMtu : Int) : RecvPhase → Prop
  | full => buf.input.avail < encMtu
  | requested dest => Room buf.input encMtu dest
  | encoding dest => Room buf.input encMtu dest
  | writable dest => Room buf.input encMtu dest
  | written dest packet =>
      Room buf.input encMtu dest ∧ (packet.length : Int) ≤ inputMtu ∧
        read buf.buffer (dest + 2) packet.length = packet
  | framed dest packet =>
      Room buf.input encMtu dest ∧ (packet.length : Int) ≤ inputMtu ∧
        read buf.buffer dest (packet.length + 2) = encode packet

namespace RecvPhase

variable {phase : RecvPhase} {view : RecvView}

theorem eq_encoding {data : Int}
    (viewed : view = phase.view)
    (pending : view.writerOutput = .operationPending data) :
    ∃ dest, phase = encoding dest ∧ data = dest + 2 := by
  subst viewed
  cases phase <;> simp only [RecvPhase.view, reduceCtorEq, InterfaceState.operationPending.injEq] at pending
  exact ⟨_, rfl, pending.symm⟩

theorem eq_writable {out : Int}
    (viewed : view = phase.view)
    (offered : view.writerOut = some out) :
    ∃ dest, phase = writable dest ∧ out = dest + 2 := by
  subst viewed
  cases phase <;> simp only [RecvPhase.view, reduceCtorEq, Option.some.injEq] at offered
  exact ⟨_, rfl, offered.symm⟩

theorem eq_written {inLen : Int}
    (viewed : view = phase.view)
    (done : view.writerOutput = .donePending inLen) :
    ∃ dest packet, phase = written dest packet ∧ inLen = packet.length := by
  subst viewed
  cases phase <;> simp only [RecvPhase.view, reduceCtorEq, InterfaceState.donePending.injEq] at done
  exact ⟨_, _, rfl, done.symm⟩

theorem eq_requested {data : Int}
    (viewed : view = phase.view)
    (pending : view.encoderOutput = .operationPending data) :
    phase = requested data := by
  subst viewed
  cases phase <;> simp only [RecvPhase.view, reduceCtorEq, InterfaceState.operationPending.injEq] at pending
  rw [pending]

theorem eq_framed {inLen : Int}
    (viewed : view = phase.view)
    (done : view.encoderOutput = .donePending inLen) :
    ∃ dest packet, phase = framed dest packet ∧ inLen = packet.length + 2 := by
  subst viewed
  cases phase <;> simp only [RecvPhase.view, reduceCtorEq, InterfaceState.donePending.injEq] at done
  exact ⟨_, _, rfl, done.symm⟩

/-- Every phase but `full` has a window with room for a frame. -/
theorem room_of_ne_full {buf : ChunkBuffer2} {encMtu inputMtu : Int}
    (holds : phase.Holds buf encMtu inputMtu) (notFull : phase ≠ full) :
    ∃ dest, Room buf.input encMtu dest := by
  cases phase with
  | full => exact absurd rfl notFull
  | requested dest => exact ⟨dest, holds⟩
  | encoding dest => exact ⟨dest, holds⟩
  | writable dest => exact ⟨dest, holds⟩
  | written dest packet => exact ⟨dest, holds.1⟩
  | framed dest packet => exact ⟨dest, holds.1⟩

/--
Consuming a packet keeps the input window where it is and does not shrink it,
and leaves the bytes alone: a phase with a window stays as it is.
-/
theorem Holds.consume
    {buf : ChunkBuffer2}
    {packets : List (List UInt8)}
    {encMtu inputMtu : Int}
    (ready : phase.Holds buf encMtu inputMtu)
    (notFull : phase ≠ full)
    (holds : buf.Holds packets)
    (outputOpen : buf.output.dest.isSome) :
    phase.Holds buf.consumePacket encMtu inputMtu := by
  -- the window of a phase that has one
  have moved : ∀ dest, Room buf.input encMtu dest → Room buf.consumePacket.input encMtu dest := by
    rintro dest ⟨inputOpen, roomy⟩
    obtain ⟨sameDest, grown⟩ := holds.consume_input outputOpen inputOpen
    exact ⟨sameDest, le_trans roomy grown⟩
  have sameBytes := ChunkBuffer2.consumePacket_buffer buf
  cases phase with
  | full => exact absurd rfl notFull
  | requested dest => exact moved dest ready
  | encoding dest => exact moved dest ready
  | writable dest => exact moved dest ready
  | written dest packet =>
      obtain ⟨room, fits, payload⟩ := ready
      exact ⟨moved dest room, fits, sameBytes ▸ payload⟩
  | framed dest packet =>
      obtain ⟨room, fits, frame⟩ := ready
      exact ⟨moved dest room, fits, sameBytes ▸ frame⟩

end RecvPhase

/-! ## The send side -/

/-- The flow interfaces after the buffer, and the fair queue's and the sender's records. -/
structure Handshakes where
  flowInput : InterfaceState (Int × Int) Unit
  flowQueued : Option (Int × Int)
  sendingFlow : Bool
  connectorInput : InterfaceState (Int × Int) Unit
  connectorIn : Option (Int × Int)
  senderInput : InterfaceState (Int × Int) Unit
  senderIn : Option (Int × Int × Int)
  streamOutput : InterfaceState (Int × Int) Int

/-- Nothing on its way after the buffer. -/
def Handshakes.idle : Handshakes :=
  ⟨.idle, none, false, .idle, none, .idle, none, .idle⟩

/-- What the send side reads and sets. -/
structure SendView where
  output : Window
  queued : List (List UInt8)
  handshakes : Handshakes
  previousFlow : Bool
  scheduleJob : Bool
  connected : Bool
  streamed : List UInt8

def sendView (s : SendPath) : SendView :=
  ⟨s.buf.output, s.queued,
    ⟨s.flowInput, s.flowQueued, s.sendingFlow, s.connectorInput, s.connectorIn, s.senderInput,
      s.senderIn, s.streamOutput⟩,
    s.previousFlow, s.scheduleJob, s.connected, s.streamed⟩

/-- Where the oldest frame in the buffer is on its way to the stream. -/
inductive SendPhase
  /-- the buffer's `Send` waits for the fair queue -/
  | offered
  /-- the flow holds the frame until the schedule job runs -/
  | queued
  /-- the queue's `Send` waits for the connector -/
  | passing
  /-- the connector holds the frame and has no output yet -/
  | held
  /-- the connector's `Send` waits for the sender -/
  | handed
  /-- the sender's `Send` of the frame after `used` bytes waits for the stream -/
  | requesting (used : Nat)
  /-- the stream has that `Send` -/
  | streaming (used : Nat)
  /-- the stream took `taken` more bytes; its `Done` waits for the sender -/
  | took (used taken : Nat)
  /-- the sender's `Done` waits for the connector -/
  | senderFinished
  /-- the connector's `Done` waits for the fair queue -/
  | connectorFinished
  /-- the queue's `Done` waits for the buffer -/
  | flowFinished

/-- The handshakes in each phase, for the frame of `length` bytes at `data`. -/
def SendPhase.handshakes (data length : Int) : SendPhase → Handshakes
  | offered => ⟨.operationPending (data, length), none, false, .idle, none, .idle, none, .idle⟩
  | queued => ⟨.busy (data, length), some (data, length), false, .idle, none, .idle, none, .idle⟩
  | passing =>
      ⟨.busy (data, length), none, true, .operationPending (data, length), none, .idle, none, .idle⟩
  | held =>
      ⟨.busy (data, length), none, true, .busy (data, length), some (data, length), .idle, none,
        .idle⟩
  | handed =>
      ⟨.busy (data, length), none, true, .busy (data, length), some (data, length),
        .operationPending (data, length), none, .idle⟩
  | requesting used =>
      ⟨.busy (data, length), none, true, .busy (data, length), some (data, length),
        .busy (data, length), some (data, length, used),
        .operationPending (data + used, length - used)⟩
  | streaming used =>
      ⟨.busy (data, length), none, true, .busy (data, length), some (data, length),
        .busy (data, length), some (data, length, used), .busy (data + used, length - used)⟩
  | took used taken =>
      ⟨.busy (data, length), none, true, .busy (data, length), some (data, length),
        .busy (data, length), some (data, length, used), .donePending taken⟩
  | senderFinished =>
      ⟨.busy (data, length), none, true, .busy (data, length), some (data, length),
        .donePending (), none, .idle⟩
  | connectorFinished =>
      ⟨.busy (data, length), none, true, .donePending (), none, .idle, none, .idle⟩
  | flowFinished => ⟨.donePending (), none, false, .idle, none, .idle, none, .idle⟩

/-- How many bytes of the frame of `length` bytes the stream has taken in each phase. -/
def SendPhase.progress (length : Nat) : SendPhase → Nat
  | requesting used => used
  | streaming used => used
  | took used taken => used + taken
  | senderFinished => length
  | connectorFinished => length
  | flowFinished => length
  | _ => 0

/--
The fair queue's flags and the connector's output in each phase, and the
bounds on what the sender has sent: the flow is the previous flow only while
the schedule job is set, and the frame is sent only while the flow is the
sending flow, which it never is together with the previous flow.
-/
def SendPhase.Holds (length : Nat) (previousFlow scheduleJob connected : Bool) : SendPhase → Prop
  | offered => previousFlow = true → scheduleJob = true
  | queued => previousFlow = false ∧ scheduleJob = true
  | passing => previousFlow = false ∧ scheduleJob = false
  | held => previousFlow = false ∧ scheduleJob = false ∧ connected = false
  | handed => previousFlow = false ∧ scheduleJob = false ∧ connected = true
  | requesting used => previousFlow = false ∧ scheduleJob = false ∧ connected = true ∧ used < length
  | streaming used => previousFlow = false ∧ scheduleJob = false ∧ connected = true ∧ used < length
  | took used taken =>
      previousFlow = false ∧ scheduleJob = false ∧ connected = true ∧ 0 < taken ∧
        used + taken ≤ length
  | senderFinished => previousFlow = false ∧ scheduleJob = false ∧ connected = true
  | connectorFinished => previousFlow = false ∧ scheduleJob = false
  | flowFinished => previousFlow = true → scheduleJob = true

/--
The send side after the frames `base` of the packets already consumed: the
buffer is empty and everything after it idle, or the oldest packet's frame
is at `data` and in `phase`.
-/
inductive SendAt (view : SendView) (base : List UInt8) : Prop
  | empty
      (queued : view.queued = [])
      (idle : view.handshakes = .idle)
      (flow : view.previousFlow = true → view.scheduleJob = true)
      (streamed : view.streamed = base)
  | carrying
      (packet : List UInt8)
      (rest : List (List UInt8))
      (data : Int)
      (phase : SendPhase)
      (queued : view.queued = packet :: rest)
      (output : view.output = ⟨some data, (encode packet).length⟩)
      (handshakes : view.handshakes = phase.handshakes data (encode packet).length)
      (holds : phase.Holds (encode packet).length view.previousFlow view.scheduleJob view.connected)
      (streamed : view.streamed = base ++ (encode packet).take (phase.progress (encode packet).length))

namespace SendPhase

variable {phase : SendPhase} {data length : Int} {shakes : Handshakes}

theorem eq_offered {request : Int × Int}
    (handshakes : shakes = phase.handshakes data length)
    (pending : shakes.flowInput = .operationPending request) :
    phase = offered ∧ request = (data, length) := by
  subst handshakes
  cases phase <;> simp only [SendPhase.handshakes, reduceCtorEq, InterfaceState.operationPending.injEq] at pending
  exact ⟨rfl, pending.symm⟩

theorem eq_flowFinished
    (handshakes : shakes = phase.handshakes data length)
    (done : shakes.flowInput = .donePending ()) :
    phase = flowFinished := by
  subst handshakes
  cases phase <;> simp only [SendPhase.handshakes, reduceCtorEq] at done
  rfl

theorem eq_passing {request : Int × Int}
    (handshakes : shakes = phase.handshakes data length)
    (pending : shakes.connectorInput = .operationPending request) :
    phase = passing ∧ request = (data, length) := by
  subst handshakes
  cases phase <;> simp only [SendPhase.handshakes, reduceCtorEq, InterfaceState.operationPending.injEq] at pending
  exact ⟨rfl, pending.symm⟩

theorem eq_connectorFinished
    (handshakes : shakes = phase.handshakes data length)
    (done : shakes.connectorInput = .donePending ()) :
    phase = connectorFinished := by
  subst handshakes
  cases phase <;> simp only [SendPhase.handshakes, reduceCtorEq] at done
  rfl

theorem eq_handed {request : Int × Int}
    (handshakes : shakes = phase.handshakes data length)
    (pending : shakes.senderInput = .operationPending request) :
    phase = handed ∧ request = (data, length) := by
  subst handshakes
  cases phase <;> simp only [SendPhase.handshakes, reduceCtorEq, InterfaceState.operationPending.injEq] at pending
  exact ⟨rfl, pending.symm⟩

theorem eq_senderFinished
    (handshakes : shakes = phase.handshakes data length)
    (done : shakes.senderInput = .donePending ()) :
    phase = senderFinished := by
  subst handshakes
  cases phase <;> simp only [SendPhase.handshakes, reduceCtorEq] at done
  rfl

theorem eq_requesting {request : Int × Int}
    (handshakes : shakes = phase.handshakes data length)
    (pending : shakes.streamOutput = .operationPending request) :
    ∃ used : Nat, phase = requesting used ∧ request = (data + used, length - used) := by
  subst handshakes
  cases phase <;> simp only [SendPhase.handshakes, reduceCtorEq, InterfaceState.operationPending.injEq] at pending
  exact ⟨_, rfl, pending.symm⟩

theorem eq_streaming {request : Int × Int}
    (handshakes : shakes = phase.handshakes data length)
    (busy : shakes.streamOutput = .busy request) :
    ∃ used : Nat, phase = streaming used ∧ request = (data + used, length - used) := by
  subst handshakes
  cases phase <;> simp only [SendPhase.handshakes, reduceCtorEq, InterfaceState.busy.injEq] at busy
  exact ⟨_, rfl, busy.symm⟩

theorem eq_took {dataLen : Int}
    (handshakes : shakes = phase.handshakes data length)
    (done : shakes.streamOutput = .donePending dataLen) :
    ∃ used taken : Nat, phase = took used taken ∧ dataLen = taken := by
  subst handshakes
  cases phase <;> simp only [SendPhase.handshakes, reduceCtorEq, InterfaceState.donePending.injEq] at done
  exact ⟨_, _, rfl, done.symm⟩

/-- The schedule job is set only while the flow waits for it or has just sent. -/
theorem scheduleJob_cases {size : Nat} {previousFlow connected : Bool}
    (holds : phase.Holds size previousFlow true connected) :
    phase = offered ∨ phase = queued ∨ phase = flowFinished := by
  cases phase <;> simp_all [SendPhase.Holds]

/-- Before the connector has an output, the frame it holds is the only one that waits for it. -/
theorem eq_held {size : Nat} {previousFlow scheduleJob : Bool} {request : Int × Int}
    (holds : phase.Holds size previousFlow scheduleJob false)
    (handshakes : shakes = phase.handshakes data length)
    (holding : shakes.connectorIn = some request) :
    phase = held ∧ request = (data, length) := by
  subst handshakes
  cases phase <;> simp_all [SendPhase.Holds, SendPhase.handshakes, eq_comm]

/-- In every other phase the connector's output is not looked at. -/
theorem Holds.connect {size : Nat} {previousFlow scheduleJob : Bool}
    (holds : phase.Holds size previousFlow scheduleJob false)
    (notHeld : phase ≠ held) :
    phase.Holds size previousFlow scheduleJob true := by
  cases phase <;> simp_all [SendPhase.Holds]

end SendPhase

/-! ## The invariant -/

/--
The send path between events: the buffer holds the frames of the queued
packets, each side is in one of its phases, and the packets written are those
the buffer consumed, then those it holds, then the one on its way in.
-/
structure Pipeline (inputMtu : Int) (s : SendPath) : Prop where
  inputMtu_eq : s.inputMtu = inputMtu
  holds : s.buf.Holds (s.queued.map encode)
  fits : ∀ packet ∈ s.written, (packet.length : Int) ≤ s.inputMtu
  recv : ∃ phase : RecvPhase, s.recvView = phase.view ∧ phase.Holds s.buf s.encMtu s.inputMtu
  send : ∃ sent, s.written = sent ++ s.queued ++ s.receiving.toList ∧
    SendAt s.sendView (sent.map encode).flatten

variable {inputMtu : Int} {s next : SendPath}

/-! ## The receive side's steps -/

theorem Pipeline.writerOperation
    (pipeline : Pipeline inputMtu s)
    (ran : Job.run? s .writerOperation = some next) :
    Pipeline inputMtu next := by
  obtain ⟨data, pending, -, rfl⟩ := ran_writerOperation ran
  obtain ⟨phase, viewed, ready⟩ := pipeline.recv
  obtain ⟨dest, rfl, rfl⟩ := RecvPhase.eq_encoding viewed pending
  refine ⟨pipeline.inputMtu_eq, pipeline.holds, pipeline.fits, ⟨.writable dest, ?_, ready⟩,
    pipeline.send⟩
  show { s.recvView with writerOutput := .busy (dest + 2), writerOut := some (dest + 2) } = _
  rw [viewed]
  rfl

theorem Pipeline.writePacket
    (pipeline : Pipeline inputMtu s)
    {packet : List UInt8}
    (wrote : BufferWriter.writePacket s packet = some next) :
    Pipeline inputMtu next := by
  obtain ⟨out, -, offered, fits, -, rfl⟩ := writePacket_eq_some wrote
  obtain ⟨phase, viewed, ready⟩ := pipeline.recv
  obtain ⟨dest, rfl, rfl⟩ := RecvPhase.eq_writable viewed offered
  obtain ⟨inputOpen, room⟩ := ready
  obtain ⟨sent, split, sendAt⟩ := pipeline.send
  have receiving : s.receiving = none := congrArg RecvView.receiving viewed
  refine ⟨pipeline.inputMtu_eq, ?_, ?_, ⟨.written dest packet, ?_, ⟨inputOpen, room⟩, fits,
    read_write_self _ _ _⟩, sent, ?_, sendAt⟩
  · -- the user writes after the header, inside the input window
    unfold encMtu at room
    exact pipeline.holds.write_input inputOpen (by omega) (by omega)
  · intro written member
    rcases List.mem_append.mp member with old | new
    · exact pipeline.fits written old
    · rw [List.mem_singleton.mp new]
      exact fits
  · show { s.recvView with
        writerOut := none
        writerOutput := .donePending packet.length
        receiving := some packet } = _
    rw [viewed]
    rfl
  · show s.written ++ [packet] = sent ++ s.queued ++ [packet]
    rw [split, receiving]
    simp

/-- The header the encoder writes in front of the payload makes the frame. -/
theorem read_frame
    {memory : Int → UInt8}
    {dest : Int}
    {packet : List UInt8}
    (payload : read memory (dest + 2) packet.length = packet) :
    read (write memory dest (le16 packet.length)) dest (packet.length + 2) = encode packet := by
  have header : read (write memory dest (le16 packet.length)) dest 2 = le16 packet.length :=
    read_write_self _ _ _
  have kept : read (write memory dest (le16 packet.length)) (dest + 2) packet.length = packet := by
    rw [read_write_of_disjoint _ (by simp)]
    exact payload
  rw [Nat.add_comm, read_add, header]
  push_cast
  rw [kept]
  rfl

theorem Pipeline.writerDone
    (pipeline : Pipeline inputMtu s)
    (ran : Job.run? s .writerDone = some next) :
    Pipeline inputMtu next := by
  obtain ⟨inLen, framedAt, -, done, framing, -, -, -, rfl⟩ := ran_writerDone ran
  obtain ⟨phase, viewed, ready⟩ := pipeline.recv
  obtain ⟨dest, packet, rfl, rfl⟩ := RecvPhase.eq_written viewed done
  obtain ⟨⟨inputOpen, room⟩, fits, payload⟩ := ready
  have framed : s.encoderOutputPacket = some dest := congrArg RecvView.encoderOutputPacket viewed
  rw [framed, Option.some.injEq] at framing
  subst framedAt
  rw [Int.toNat_natCast]
  refine ⟨pipeline.inputMtu_eq, ?_, pipeline.fits,
    ⟨.framed dest packet, ?_, ⟨inputOpen, room⟩, fits, read_frame payload⟩, pipeline.send⟩
  · -- the header goes right before the payload, still inside the input window
    unfold encMtu at room
    exact pipeline.holds.write_input inputOpen (by omega) (by simp; omega)
  · show { s.recvView with
        writerOutput := .idle
        encoderOutputPacket := none
        encoderOutput := .donePending (packet.length + 2) } = _
    rw [viewed]
    rfl

theorem Pipeline.encoderOperation
    (pipeline : Pipeline inputMtu s)
    (ran : Job.run? s .encoderOperation = some next) :
    Pipeline inputMtu next := by
  obtain ⟨data, pending, -, -, rfl⟩ := ran_encoderOperation ran
  obtain ⟨phase, viewed, ready⟩ := pipeline.recv
  obtain rfl := RecvPhase.eq_requested viewed pending
  refine ⟨pipeline.inputMtu_eq, pipeline.holds, pipeline.fits, ⟨.encoding data, ?_, ready⟩,
    pipeline.send⟩
  show { s.recvView with
      encoderOutput := .busy data
      encoderOutputPacket := some data
      writerOutput := .operationPending (data + 2) } = _
  rw [viewed]
  rfl

/-! ## The send side's steps -/

/-- While nothing is on its way after the buffer, no interface after it is in use. -/
theorem interfaces_of_idle (idle : s.sendView.handshakes = .idle) :
    s.flowInput = .idle ∧ s.flowQueued = none ∧ s.sendingFlow = false ∧ s.connectorInput = .idle ∧
      s.connectorIn = none ∧ s.senderInput = .idle ∧ s.senderIn = none ∧ s.streamOutput = .idle := by
  simpa [sendView, Handshakes.idle] using idle

theorem Pipeline.flowOperation
    (pipeline : Pipeline inputMtu s)
    (ran : Job.run? s .flowOperation = some next) :
    Pipeline inputMtu next := by
  obtain ⟨data, dataLen, pending, -, -, handled⟩ := ran_flowOperation ran
  obtain ⟨sent, split, sendAt⟩ := pipeline.send
  cases sendAt with
  | empty _ idle =>
      simp [interfaces_of_idle idle] at pending
  | carrying packet rest o phase queued output handshakes holds streamed =>
      obtain ⟨rfl, request⟩ := SendPhase.eq_offered handshakes pending
      obtain ⟨sameData, sameLen⟩ := Prod.mk.inj request
      subst data dataLen
      simp only [sendView, SendPhase.handshakes, Handshakes.mk.injEq] at handshakes
      rcases handled with ⟨scheduled, rfl⟩ | ⟨scheduled, scheduling⟩
      · -- the schedule job is set: the flow waits for it
        refine ⟨pipeline.inputMtu_eq, pipeline.holds, pipeline.fits, pipeline.recv, sent, split,
          .carrying packet rest o .queued queued output ?_ ⟨rfl, scheduled⟩ streamed⟩
        simp [sendView, SendPhase.handshakes, handshakes]
      · -- otherwise the queue sends the frame at once
        obtain ⟨data, dataLen, queuedFlow, -, -, -, -, -, rfl⟩ := schedule_eq_some scheduling
        obtain ⟨sameData, sameLen⟩ := Prod.mk.inj (Option.some.inj queuedFlow)
        subst data dataLen
        refine ⟨pipeline.inputMtu_eq, pipeline.holds, pipeline.fits, pipeline.recv, sent, split,
          .carrying packet rest o .passing queued output ?_ ⟨rfl, scheduled⟩ streamed⟩
        simp [sendView, SendPhase.handshakes, handshakes]

theorem Pipeline.schedule
    (pipeline : Pipeline inputMtu s)
    (ran : Job.run? s .schedule = some next) :
    Pipeline inputMtu next := by
  obtain ⟨scheduled, -, handled⟩ := ran_schedule ran
  obtain ⟨sent, split, sendAt⟩ := pipeline.send
  cases sendAt with
  | empty queued idle _ streamed =>
      rcases handled with ⟨-, rfl⟩ | ⟨waiting, -⟩
      · exact ⟨pipeline.inputMtu_eq, pipeline.holds, pipeline.fits, pipeline.recv, sent, split,
          .empty queued idle (fun previous => nomatch previous) streamed⟩
      · simp [interfaces_of_idle idle] at waiting
  | carrying packet rest o phase queued output handshakes holds streamed =>
      have flags : phase.Holds (encode packet).length s.previousFlow true s.connected :=
        scheduled ▸ holds
      rcases handled with ⟨empty, rfl⟩ | ⟨waiting, scheduling⟩
      · -- no frame waits: the job only clears the flags
        have notQueued : phase ≠ .queued := by
          rintro rfl
          simp [sendView, SendPhase.handshakes] at handshakes
          simp [handshakes.2.1] at empty
        have kept : phase.Holds (encode packet).length false false s.connected := by
          rcases SendPhase.scheduleJob_cases flags with rfl | rfl | rfl
          · exact fun previous => nomatch previous
          · exact absurd rfl notQueued
          · exact fun previous => nomatch previous
        exact ⟨pipeline.inputMtu_eq, pipeline.holds, pipeline.fits, pipeline.recv, sent, split,
          .carrying packet rest o phase queued output handshakes kept streamed⟩
      · -- the frame waiting in the flow goes to the connector
        obtain ⟨data, dataLen, queuedFlow, -, -, -, -, -, rfl⟩ := schedule_eq_some scheduling
        have isQueued : phase = .queued := by
          rcases SendPhase.scheduleJob_cases flags with rfl | rfl | rfl
          · simp [sendView, SendPhase.handshakes] at handshakes
            simp [handshakes.2.1] at queuedFlow
          · rfl
          · simp [sendView, SendPhase.handshakes] at handshakes
            simp [handshakes.2.1] at queuedFlow
        subst isQueued
        simp only [sendView, SendPhase.handshakes, Handshakes.mk.injEq] at handshakes
        obtain ⟨sameData, sameLen⟩ := Prod.mk.inj (Option.some.inj (handshakes.2.1.symm.trans queuedFlow))
        subst data dataLen
        refine ⟨pipeline.inputMtu_eq, pipeline.holds, pipeline.fits, pipeline.recv, sent, split,
          .carrying packet rest o .passing queued output ?_ ⟨rfl, rfl⟩ streamed⟩
        simp [sendView, SendPhase.handshakes, handshakes]

theorem Pipeline.connectorOperation
    (pipeline : Pipeline inputMtu s)
    (ran : Job.run? s .connectorOperation = some next) :
    Pipeline inputMtu next := by
  obtain ⟨data, dataLen, pending, -, -, -, handled⟩ := ran_connectorOperation ran
  obtain ⟨sent, split, sendAt⟩ := pipeline.send
  cases sendAt with
  | empty _ idle =>
      simp [interfaces_of_idle idle] at pending
  | carrying packet rest o phase queued output handshakes holds streamed =>
      obtain ⟨rfl, request⟩ := SendPhase.eq_passing handshakes pending
      obtain ⟨sameData, sameLen⟩ := Prod.mk.inj request
      subst data dataLen
      obtain ⟨previous, scheduled⟩ := holds
      simp only [sendView, SendPhase.handshakes, Handshakes.mk.injEq] at handshakes
      rcases handled with ⟨connected, -, rfl⟩ | ⟨notConnected, rfl⟩
      · -- the connector passes the frame on to the sender
        refine ⟨pipeline.inputMtu_eq, pipeline.holds, pipeline.fits, pipeline.recv, sent, split,
          .carrying packet rest o .handed queued output ?_ ⟨previous, scheduled, connected⟩ streamed⟩
        simp [sendView, SendPhase.handshakes, handshakes]
      · -- the connector keeps the frame until it has an output
        refine ⟨pipeline.inputMtu_eq, pipeline.holds, pipeline.fits, pipeline.recv, sent, split,
          .carrying packet rest o .held queued output ?_ ⟨previous, scheduled, notConnected⟩ streamed⟩
        simp [sendView, SendPhase.handshakes, handshakes]

theorem Pipeline.connectOutput
    (pipeline : Pipeline inputMtu s)
    (connecting : Connector.connectOutput s = some next) :
    Pipeline inputMtu next := by
  obtain ⟨notConnected, handled⟩ := connectOutput_eq_some connecting
  obtain ⟨sent, split, sendAt⟩ := pipeline.send
  cases sendAt with
  | empty queued idle flow streamed =>
      rcases handled with ⟨-, rfl⟩ | ⟨data, dataLen, holding, -, -⟩
      · exact ⟨pipeline.inputMtu_eq, pipeline.holds, pipeline.fits, pipeline.recv, sent, split,
          .empty queued idle flow streamed⟩
      · simp [interfaces_of_idle idle] at holding
  | carrying packet rest o phase queued output handshakes holds streamed =>
      have waiting : phase.Holds (encode packet).length s.previousFlow s.scheduleJob false :=
        notConnected ▸ holds
      rcases handled with ⟨empty, rfl⟩ | ⟨data, dataLen, holding, -, rfl⟩
      · -- no frame waits in the connector: nothing else changes
        have notHeld : phase ≠ .held := by
          rintro rfl
          simp [sendView, SendPhase.handshakes] at handshakes
          simp [handshakes.2.2.2.2.1] at empty
        exact ⟨pipeline.inputMtu_eq, pipeline.holds, pipeline.fits, pipeline.recv, sent, split,
          .carrying packet rest o phase queued output handshakes (waiting.connect notHeld) streamed⟩
      · -- the frame the connector holds goes to the sender
        obtain ⟨rfl, request⟩ := SendPhase.eq_held waiting handshakes holding
        obtain ⟨sameData, sameLen⟩ := Prod.mk.inj request
        subst data dataLen
        obtain ⟨previous, scheduled, -⟩ := waiting
        simp only [sendView, SendPhase.handshakes, Handshakes.mk.injEq] at handshakes
        refine ⟨pipeline.inputMtu_eq, pipeline.holds, pipeline.fits, pipeline.recv, sent, split,
          .carrying packet rest o .handed queued output ?_ ⟨previous, scheduled, rfl⟩ streamed⟩
        simp [sendView, SendPhase.handshakes, handshakes]

theorem Pipeline.senderOperation
    (pipeline : Pipeline inputMtu s)
    (ran : Job.run? s .senderOperation = some next) :
    Pipeline inputMtu next := by
  obtain ⟨data, dataLen, pending, -, -, sending⟩ := ran_senderOperation ran
  obtain ⟨sent, split, sendAt⟩ := pipeline.send
  cases sendAt with
  | empty _ idle =>
      simp [interfaces_of_idle idle] at pending
  | carrying packet rest o phase queued output handshakes holds streamed =>
      obtain ⟨rfl, request⟩ := SendPhase.eq_handed handshakes pending
      obtain ⟨sameData, sameLen⟩ := Prod.mk.inj request
      subst data dataLen
      obtain ⟨previous, scheduled, connected⟩ := holds
      simp only [sendView, SendPhase.handshakes, Handshakes.mk.injEq] at handshakes
      obtain ⟨data, inLen, inUsed, started, handled⟩ := sendData_eq_some sending
      obtain ⟨rfl, rfl, rfl⟩ : o = data ∧ _ = inLen ∧ 0 = inUsed := by
        simpa using started
      have framed : 0 < (encode packet).length := by simp [encode]
      rcases handled with ⟨-, -, rfl⟩ | ⟨empty, -⟩
      · -- the sender asks the stream for the whole frame
        refine ⟨pipeline.inputMtu_eq, pipeline.holds, pipeline.fits, pipeline.recv, sent, split,
          .carrying packet rest o (.requesting 0) queued output ?_
            ⟨previous, scheduled, connected, framed⟩ streamed⟩
        simp [sendView, SendPhase.handshakes, handshakes]
      · omega

theorem Pipeline.streamOperation
    (pipeline : Pipeline inputMtu s)
    (ran : Job.run? s .streamOperation = some next) :
    Pipeline inputMtu next := by
  obtain ⟨request, pending, rfl⟩ := ran_streamOperation ran
  obtain ⟨sent, split, sendAt⟩ := pipeline.send
  cases sendAt with
  | empty _ idle =>
      simp [interfaces_of_idle idle] at pending
  | carrying packet rest o phase queued output handshakes holds streamed =>
      obtain ⟨used, rfl, rfl⟩ := SendPhase.eq_requesting handshakes pending
      simp only [sendView, SendPhase.handshakes, Handshakes.mk.injEq] at handshakes
      refine ⟨pipeline.inputMtu_eq, pipeline.holds, pipeline.fits, pipeline.recv, sent, split,
        .carrying packet rest o (.streaming used) queued output ?_ holds streamed⟩
      simp [sendView, SendPhase.handshakes, handshakes]

/-- The bytes at the output window are the frame of the oldest packet. -/
theorem Pipeline.read_output
    (pipeline : Pipeline inputMtu s)
    {packet : List UInt8}
    {rest : List (List UInt8)}
    {data : Int}
    (queued : s.queued = packet :: rest)
    (output : s.buf.output = ⟨some data, (encode packet).length⟩) :
    read s.buf.buffer data (encode packet).length = encode packet := by
  have exposed := pipeline.holds.exposesHead
  rw [queued, List.map_cons] at exposed
  obtain ⟨window, bytes⟩ := exposed
  rw [output, Window.mk.injEq, Option.some.injEq] at window
  rw [window.1]
  exact bytes

theorem Pipeline.streamTakes
    (pipeline : Pipeline inputMtu s)
    {dataLen : Int}
    (took : streamDone s dataLen = some next) :
    Pipeline inputMtu next := by
  obtain ⟨data, len, busy, positive, fits, rfl⟩ := streamDone_eq_some took
  obtain ⟨sent, split, sendAt⟩ := pipeline.send
  cases sendAt with
  | empty _ idle =>
      simp [interfaces_of_idle idle] at busy
  | carrying packet rest o phase queued output handshakes holds streamed =>
      obtain ⟨used, rfl, request⟩ := SendPhase.eq_streaming handshakes busy
      obtain ⟨sameData, sameLen⟩ := Prod.mk.inj request
      subst data len
      obtain ⟨previous, scheduled, connected, short⟩ := holds
      simp only [sendView, SendPhase.handshakes, Handshakes.mk.injEq] at handshakes
      have taken : ((dataLen.toNat : Nat) : Int) = dataLen := Int.toNat_of_nonneg positive.le
      refine ⟨pipeline.inputMtu_eq, pipeline.holds, pipeline.fits, pipeline.recv, sent, split,
        .carrying packet rest o (.took used dataLen.toNat) queued output ?_
          ⟨previous, scheduled, connected, by omega, by omega⟩ ?_⟩
      · simp [sendView, SendPhase.handshakes, handshakes, taken]
      · -- the stream takes the next bytes of the frame
        show s.streamed ++ read s.buf.buffer (o + used) dataLen.toNat = _
        rw [show s.streamed = _ from streamed,
          read_drop_take (pipeline.read_output queued output) (by omega)]
        simp [SendPhase.progress, List.take_add]

theorem Pipeline.streamDone
    (pipeline : Pipeline inputMtu s)
    (ran : Job.run? s .streamDone = some next) :
    Pipeline inputMtu next := by
  obtain ⟨dataLen, data, inLen, inUsed, done, sending, -, -, handled⟩ := ran_streamDone ran
  obtain ⟨sent, split, sendAt⟩ := pipeline.send
  cases sendAt with
  | empty _ idle =>
      simp [interfaces_of_idle idle] at done
  | carrying packet rest o phase queued output handshakes holds streamed =>
      obtain ⟨used, taken, rfl, rfl⟩ := SendPhase.eq_took handshakes done
      obtain ⟨previous, scheduled, connected, -, within⟩ := holds
      simp only [sendView, SendPhase.handshakes, Handshakes.mk.injEq] at handshakes
      obtain ⟨rfl, rfl, rfl⟩ : o = data ∧ ((encode packet).length : Int) = inLen ∧
          (used : Int) = inUsed := by
        simpa [handshakes.2.2.2.2.2.2.1] using sending
      obtain ⟨data, inLen, inUsed, resumed, handled⟩ := sendData_eq_some handled
      obtain ⟨rfl, rfl, rfl⟩ : o = data ∧ ((encode packet).length : Int) = inLen ∧
          (used : Int) + taken = inUsed := by
        simpa using resumed
      rcases handled with ⟨short, -, rfl⟩ | ⟨finished, -, rfl⟩
      · -- the sender asks the stream for the rest of the frame
        refine ⟨pipeline.inputMtu_eq, pipeline.holds, pipeline.fits, pipeline.recv, sent, split,
          .carrying packet rest o (.requesting (used + taken)) queued output ?_
            ⟨previous, scheduled, connected, by omega⟩ streamed⟩
        simp [sendView, SendPhase.handshakes, handshakes]
      · -- the whole frame is in the stream
        have whole : used + taken = (encode packet).length := by omega
        refine ⟨pipeline.inputMtu_eq, pipeline.holds, pipeline.fits, pipeline.recv, sent, split,
          .carrying packet rest o .senderFinished queued output ?_
            ⟨previous, scheduled, connected⟩ ?_⟩
        · simp [sendView, SendPhase.handshakes, handshakes]
        · show s.streamed = _
          rw [show s.streamed = _ from streamed]
          simp [SendPhase.progress, whole]

theorem Pipeline.senderDone
    (pipeline : Pipeline inputMtu s)
    (ran : Job.run? s .senderDone = some next) :
    Pipeline inputMtu next := by
  obtain ⟨done, -, -, -, rfl⟩ := ran_senderDone ran
  obtain ⟨sent, split, sendAt⟩ := pipeline.send
  cases sendAt with
  | empty _ idle =>
      simp [interfaces_of_idle idle] at done
  | carrying packet rest o phase queued output handshakes holds streamed =>
      obtain rfl := SendPhase.eq_senderFinished handshakes done
      obtain ⟨previous, scheduled, -⟩ := holds
      simp only [sendView, SendPhase.handshakes, Handshakes.mk.injEq] at handshakes
      refine ⟨pipeline.inputMtu_eq, pipeline.holds, pipeline.fits, pipeline.recv, sent, split,
        .carrying packet rest o .connectorFinished queued output ?_ ⟨previous, scheduled⟩ streamed⟩
      simp [sendView, SendPhase.handshakes, handshakes]

theorem Pipeline.connectorDone
    (pipeline : Pipeline inputMtu s)
    (ran : Job.run? s .connectorDone = some next) :
    Pipeline inputMtu next := by
  obtain ⟨done, -, -, -, -, -, rfl⟩ := ran_connectorDone ran
  obtain ⟨sent, split, sendAt⟩ := pipeline.send
  cases sendAt with
  | empty _ idle =>
      simp [interfaces_of_idle idle] at done
  | carrying packet rest o phase queued output handshakes holds streamed =>
      obtain rfl := SendPhase.eq_connectorFinished handshakes done
      simp only [sendView, SendPhase.handshakes, Handshakes.mk.injEq] at handshakes
      refine ⟨pipeline.inputMtu_eq, pipeline.holds, pipeline.fits, pipeline.recv, sent, split,
        .carrying packet rest o .flowFinished queued output ?_ (fun _ => rfl) streamed⟩
      simp [sendView, SendPhase.handshakes, handshakes]

/-! ## The steps of both sides -/

/-- An empty buffer shows no output window. -/
theorem Pipeline.output_closed
    (pipeline : Pipeline inputMtu s)
    (empty : s.queued = []) :
    s.buf.output = .closed := by
  have exposed := pipeline.holds.exposesHead
  rw [empty] at exposed
  exact exposed

theorem Pipeline.encoderDone
    (pipeline : Pipeline inputMtu s)
    (ran : Job.run? s .encoderDone = some next) :
    Pipeline inputMtu next := by
  obtain ⟨inLen, done, handled⟩ := ran_encoderDone ran
  obtain ⟨phase, viewed, ready⟩ := pipeline.recv
  obtain ⟨dest, packet, rfl, rfl⟩ := RecvPhase.eq_framed viewed done
  obtain ⟨⟨inputOpen, room⟩, fits, bytes⟩ := ready
  obtain ⟨-, -, -, received, receiving, sending⟩ := inputHandlerDone_eq_some handled
  have carried : s.receiving = some packet := congrArg RecvView.receiving viewed
  -- the frame is already at the input window: submitting it queues it
  have submitted : (s.buf.submitPacket (packet.length + 2)).Holds
      ((s.queued ++ s.receiving.toList).map encode) := by
    unfold encMtu at room
    have queuedFrame := pipeline.holds.submit_read inputOpen (by omega)
      (show (packet.length : Int) + 2 ≤ s.buf.input.avail by omega)
    rw [show ((packet.length : Int) + 2).toNat = packet.length + 2 by omega, bytes] at queuedFrame
    rw [carried, Option.toList_some, List.map_append, List.map_singleton]
    exact queuedFrame
  -- the buffer asks for the next packet if a frame still fits
  obtain ⟨encoderOutput, rfl, recvSide⟩ : ∃ encoderOutput, received =
      { s with
        encoderOutput
        buf := s.buf.submitPacket (packet.length + 2)
        queued := s.queued ++ s.receiving.toList
        receiving := none } ∧
      ∃ phase : RecvPhase, received.recvView = phase.view ∧
        phase.Holds received.buf received.encMtu received.inputMtu := by
    -- the writer and the encoder are idle: only the buffer's Recv can be set again
    have idle : ∀ encoderOutput, ({ s.recvView with encoderOutput, receiving := none } : RecvView) =
        { RecvPhase.full.view with encoderOutput } := by
      intro encoderOutput
      rw [viewed]
      rfl
    split_ifs at receiving with roomy
    · obtain ⟨dest', inputOpen', -, rfl⟩ := recv_eq_some receiving
      exact ⟨_, rfl, .requested dest', idle _, inputOpen', roomy⟩
    · cases receiving
      exact ⟨_, rfl, .full, idle _, not_le.mp roomy⟩
  have fitsAfter : ∀ written ∈ s.written, (written.length : Int) ≤ s.inputMtu := pipeline.fits
  obtain ⟨sent, split, sendAt⟩ := pipeline.send
  have splitAfter : s.written = sent ++ (s.queued ++ s.receiving.toList) ++ none.toList := by
    rw [split]
    simp
  split_ifs at sending with wasEmpty
  · -- the buffer was empty: the new frame is the oldest, and the buffer offers it
    obtain ⟨o, outputOpen, -, -, -, rfl⟩ := send_eq_some sending
    cases sendAt with
    | carrying packet0 rest o0 phase0 queued output =>
        rw [show s.buf.output = _ from output] at wasEmpty
        exact absurd wasEmpty (by simp)
    | empty empty idle flow streamed =>
        have exposed := submitted.exposesHead
        rw [show s.queued = [] from empty, carried] at exposed
        obtain ⟨window, -⟩ := exposed
        rw [window] at outputOpen
        cases outputOpen
        refine ⟨pipeline.inputMtu_eq, submitted, fitsAfter, recvSide, sent, splitAfter,
          .carrying packet [] _ .offered ?_ window ?_ flow ?_⟩
        · show s.queued ++ s.receiving.toList = _
          rw [show s.queued = [] from empty, carried]
          rfl
        · have idleFields := interfaces_of_idle idle
          simp [sendView, SendPhase.handshakes, idleFields, window]
        · show s.streamed = _
          rw [show s.streamed = _ from streamed]
          simp [SendPhase.progress]
  · -- the buffer was not empty: the oldest frame stays where it is
    cases sending
    cases sendAt with
    | empty empty =>
        rw [pipeline.output_closed empty] at wasEmpty
        exact absurd (by decide) wasEmpty
    | carrying packet0 rest o0 phase0 queued output handshakes holds streamed =>
        have kept : (s.buf.submitPacket (packet.length + 2)).output = s.buf.output :=
          ChunkBuffer2.submitPacket_output_of_used_pos _
            (pipeline.holds.used_pos (by rw [show s.buf.output = _ from output]; rfl))
        refine ⟨pipeline.inputMtu_eq, submitted, fitsAfter, recvSide, sent, splitAfter,
          .carrying packet0 (rest ++ s.receiving.toList) o0 phase0 ?_ (kept.trans output)
            handshakes holds streamed⟩
        show s.queued ++ s.receiving.toList = _
        rw [show s.queued = _ from queued]
        rfl

theorem Pipeline.flowDone
    (pipeline : Pipeline inputMtu s)
    (ran : Job.run? s .flowDone = some next) :
    Pipeline inputMtu next := by
  obtain ⟨done, handled⟩ := ran_flowDone ran
  obtain ⟨outputOpen, received, receiving, sending⟩ := outputHandlerDone_eq_some handled
  obtain ⟨sent, split, sendAt⟩ := pipeline.send
  cases sendAt with
  | empty _ idle =>
      simp [interfaces_of_idle idle] at done
  | carrying packet rest o phase queued output handshakes holds streamed =>
  obtain rfl := SendPhase.eq_flowFinished handshakes done
  simp only [sendView, SendPhase.handshakes, Handshakes.mk.injEq] at handshakes
  have tailEq : s.queued.tail = rest := by
    rw [show s.queued = _ from queued]
    rfl
  have consumed : s.buf.consumePacket.Holds (s.queued.tail.map encode) := by
    rw [List.map_tail]
    exact pipeline.holds.consume outputOpen
  have exposed := consumed.exposesHead
  rw [tailEq] at exposed
  -- the buffer asks for a packet again if it was full and has room now
  obtain ⟨recvPhase, viewed, ready⟩ := pipeline.recv
  obtain ⟨encoderOutput, rfl, recvSide⟩ : ∃ encoderOutput, received =
      { s with
        flowInput := .idle
        buf := s.buf.consumePacket
        queued := s.queued.tail
        encoderOutput } ∧
      ∃ phase : RecvPhase, received.recvView = phase.view ∧
        phase.Holds received.buf received.encMtu received.inputMtu := by
    split_ifs at receiving with refill
    · obtain ⟨dest, inputOpen, -, rfl⟩ := recv_eq_some receiving
      have isFull : recvPhase = .full := by
        by_contra notFull
        obtain ⟨_, -, roomy⟩ := RecvPhase.room_of_ne_full ready notFull
        exact absurd refill.1 (not_lt.mpr roomy)
      subst isFull
      refine ⟨_, rfl, .requested dest, ?_, inputOpen, refill.2⟩
      show { s.recvView with encoderOutput := .operationPending dest } = _
      rw [viewed]
      rfl
    · cases receiving
      by_cases isFull : recvPhase = .full
      · subst isFull
        -- still full: had the buffer room now, the branch above would have been taken
        exact ⟨_, rfl, .full, viewed, not_le.mp fun roomy => refill ⟨ready, roomy⟩⟩
      · exact ⟨_, rfl, recvPhase, viewed, ready.consume isFull pipeline.holds outputOpen⟩
  have splitAfter : s.written = (sent ++ [packet]) ++ s.queued.tail ++ s.receiving.toList := by
    rw [split, show s.queued = _ from queued]
    simp
  have streamedAfter : s.streamed = ((sent ++ [packet]).map encode).flatten := by
    rw [show s.streamed = _ from streamed]
    simp [SendPhase.progress]
  have flow : s.previousFlow = true → s.scheduleJob = true := holds
  split_ifs at sending with more
  · -- another frame is queued: the buffer offers it
    obtain ⟨o', outputOpen', -, -, -, rfl⟩ := send_eq_some sending
    cases rest with
    | nil =>
        rw [show s.buf.consumePacket.output = _ from exposed] at more
        exact absurd more (by decide)
    | cons packet' rest' =>
        obtain ⟨window, -⟩ := exposed
        rw [window] at outputOpen'
        cases outputOpen'
        refine ⟨pipeline.inputMtu_eq, consumed, pipeline.fits, recvSide, sent ++ [packet], splitAfter,
          .carrying packet' rest' _ .offered tailEq window ?_ flow ?_⟩
        · simp [sendView, SendPhase.handshakes, handshakes, window]
        · show s.streamed = _
          simp [streamedAfter, SendPhase.progress]
  · -- that was the last frame: everything after the buffer is idle
    cases sending
    cases rest with
    | cons packet' rest' =>
        obtain ⟨window, -⟩ := exposed
        rw [window] at more
        exact absurd (by simp) more
    | nil =>
        refine ⟨pipeline.inputMtu_eq, consumed, pipeline.fits, recvSide, sent ++ [packet], splitAfter,
          .empty tailEq ?_ flow streamedAfter⟩
        simp [sendView, Handshakes.idle, handshakes]

/-! ## Runs -/

theorem Pipeline.step?
    (pipeline : Pipeline inputMtu s)
    {event : Event}
    (stepped : event.step? s = some next) :
    Pipeline inputMtu next := by
  cases event with
  | job pending =>
      cases pending with
      | writerOperation => exact pipeline.writerOperation stepped
      | writerDone => exact pipeline.writerDone stepped
      | encoderOperation => exact pipeline.encoderOperation stepped
      | encoderDone => exact pipeline.encoderDone stepped
      | flowOperation => exact pipeline.flowOperation stepped
      | flowDone => exact pipeline.flowDone stepped
      | schedule => exact pipeline.schedule stepped
      | connectorOperation => exact pipeline.connectorOperation stepped
      | connectorDone => exact pipeline.connectorDone stepped
      | senderOperation => exact pipeline.senderOperation stepped
      | senderDone => exact pipeline.senderDone stepped
      | streamOperation => exact pipeline.streamOperation stepped
      | streamDone => exact pipeline.streamDone stepped
  | writePacket packet => exact pipeline.writePacket stepped
  | streamTakes dataLen => exact pipeline.streamTakes stepped
  | connectOutput => exact pipeline.connectOutput stepped

theorem Pipeline.run?
    (pipeline : Pipeline inputMtu s)
    {events : List Event}
    (ran : run? s events = some next) :
    Pipeline inputMtu next := by
  induction events generalizing s with
  | nil =>
      cases ran
      exact pipeline
  | cons event events inductionHypothesis =>
      obtain ⟨middle, stepped, rest⟩ := Option.bind_eq_some_iff.mp ran
      exact inductionHypothesis (pipeline.step? stepped) rest

/--
`PacketProtoFlow_Init` starts the invariant when the buffer's byte size fits
an `int`: the buffer is empty and has asked the encoder for the first packet.
-/
theorem pipeline_init
    {memory : Int → UInt8}
    {numPackets passMtu : Int}
    (initialized : init memory inputMtu numPackets passMtu = some s)
    (small : ChunkBuffer2.calcBlocks (inputMtu + 2) numPackets ≤ 536870912) :
    Pipeline inputMtu s := by
  unfold init at initialized
  split_ifs at initialized with guard
  dsimp only at initialized
  split_ifs at initialized with overflow
  have blocksEq := ChunkBuffer2.calcBlocks_of_nonneg (not_lt.mp overflow)
  have chunk := ChunkBuffer2.le_four_mul_blockCount (show 0 ≤ inputMtu + 2 by omega)
  have := ChunkBuffer2.blockCount_nonneg (inputMtu + 2)
  have room : blockCount (inputMtu + 2) < ChunkBuffer2.calcBlocks (inputMtu + 2) numPackets := by
    rw [blocksEq]
    nlinarith
  have input := ChunkBuffer2.init_input memory (inputMtu + 2) room small
  obtain ⟨dest, inputOpen, -, rfl⟩ := recv_eq_some initialized
  rw [input] at inputOpen
  cases inputOpen
  refine ⟨rfl, ChunkBuffer2.holds_init memory (inputMtu + 2) (by omega) small, nofun,
    ⟨.requested 4, rfl, ?_, ?_⟩, [], rfl, .empty rfl rfl nofun rfl⟩
  · exact congrArg Window.dest input
  · -- a fresh buffer has room for two frames of the MTU
    show inputMtu + 2 ≤ (ChunkBuffer2.init memory _ (inputMtu + 2)).input.avail
    rw [input]
    dsimp only
    rw [blocksEq]
    nlinarith

/-! ## The stream -/

/--
Nothing is left to do but write: no job of the send path is set, the stream
has no `Send` to complete, and the connector has its output.
-/
def Quiescent (s : SendPath) : Prop :=
  s.writerOutput.hasJob = false ∧ s.encoderOutput.hasJob = false ∧ s.flowInput.hasJob = false ∧
    s.connectorInput.hasJob = false ∧ s.senderInput.hasJob = false ∧ s.scheduleJob = false ∧
    s.streamOutput = .idle ∧ s.connected = true

instance : DecidablePred Quiescent :=
  fun _ => inferInstanceAs (Decidable (_ ∧ _))

/-- A packet on its way into the buffer has a `Done` set for it. -/
theorem RecvPhase.hasJob_of_receiving
    {phase : RecvPhase}
    (carrying : phase.view.receiving ≠ none) :
    phase.view.writerOutput.hasJob = true ∨ phase.view.encoderOutput.hasJob = true := by
  cases phase <;> simp_all [RecvPhase.view, InterfaceState.hasJob]

/--
While a frame is on its way, a job is set, the stream has a `Send`, or the
frame waits for the connector's output.
-/
theorem SendPhase.busy
    {phase : SendPhase}
    {size : Nat}
    {previousFlow scheduleJob connected : Bool}
    (holds : phase.Holds size previousFlow scheduleJob connected)
    (data length : Int) :
    (phase.handshakes data length).flowInput.hasJob = true ∨
      (phase.handshakes data length).connectorInput.hasJob = true ∨
      (phase.handshakes data length).senderInput.hasJob = true ∨
      (phase.handshakes data length).streamOutput ≠ .idle ∨ scheduleJob = true ∨ connected = false := by
  cases phase <;> simp_all [SendPhase.handshakes, SendPhase.Holds, InterfaceState.hasJob]

/-- The stream holds the frames consumed, then a prefix of the frames still in the buffer. -/
theorem SendAt.streamed_prefix
    {view : SendView}
    {base : List UInt8}
    (sendAt : SendAt view base) :
    view.streamed <+: base ++ (view.queued.map encode).flatten := by
  cases sendAt with
  | empty queued _ _ streamed =>
      rw [streamed, queued]
      simp
  | carrying packet rest data phase queued _ _ _ streamed =>
      rw [streamed, queued, List.map_cons, List.flatten_cons]
      exact (List.prefix_append_right_inj base).mpr
        ((List.take_prefix _ _).trans (List.prefix_append _ _))

/-- The stream always holds a prefix of the frames of the packets written. -/
theorem Pipeline.streamed_prefix (pipeline : Pipeline inputMtu s) :
    s.streamed <+: (s.written.map encode).flatten := by
  obtain ⟨sent, split, sendAt⟩ := pipeline.send
  rw [split]
  simp only [List.map_append, List.flatten_append]
  exact sendAt.streamed_prefix.trans (List.prefix_append _ _)

/-- With nothing left to do, the stream holds exactly the frames of the packets written. -/
theorem Pipeline.streamed_of_quiescent
    (pipeline : Pipeline inputMtu s)
    (quiet : Quiescent s) :
    s.streamed = (s.written.map encode).flatten := by
  obtain ⟨writer, encoder, flow, connector, sender, scheduled, stream, connected⟩ := quiet
  -- no packet is on its way in: it would have a Done set
  have notReceiving : s.receiving = none := by
    obtain ⟨phase, viewed, -⟩ := pipeline.recv
    by_contra carrying
    have busy := RecvPhase.hasJob_of_receiving (viewed ▸ carrying : phase.view.receiving ≠ none)
    rw [← viewed] at busy
    simp [recvView, writer, encoder] at busy
  obtain ⟨sent, split, sendAt⟩ := pipeline.send
  cases sendAt with
  | empty queued _ _ streamed =>
      rw [split, show s.queued = [] from queued, notReceiving, show s.streamed = _ from streamed]
      simp
  | carrying packet rest data phase queued output handshakes holds streamed =>
      -- no frame is on its way out either
      have busy := SendPhase.busy holds data (encode packet).length
      rw [← handshakes] at busy
      simp [sendView, flow, connector, sender, stream, scheduled, connected] at busy

/--
From `PacketProtoFlow_Init` of a buffer whose byte size fits an `int`, over
any run of the jobs, the user's writes, the stream's completions of any
number of the bytes it is offered and the connection of the connector: every
packet written fits the input MTU, and the stream has taken a prefix of the
PacketProto frames of the packets written, in order.  Once nothing is left to
do, it has taken exactly those frames, and a `PacketProtoDecoder` with an
output MTU of at least the input MTU, fed them in any chunks, has passed
exactly the packets written by the time it waits for more input.
-/
theorem stream_carries_frames
    {memory : Int → UInt8}
    {inputMtu numPackets passMtu : Int}
    {start : SendPath}
    (initialized : init memory inputMtu numPackets passMtu = some start)
    (small : ChunkBuffer2.calcBlocks (inputMtu + 2) numPackets ≤ 536870912)
    {events : List Event}
    {s : SendPath}
    (ran : run? start events = some s) :
    (∀ packet ∈ s.written, (packet.length : Int) ≤ inputMtu) ∧
      s.streamed <+: (s.written.map encode).flatten ∧
      (Quiescent s →
        s.streamed = (s.written.map encode).flatten ∧
          ∀ (mtu : Int) (allocation : Option (Int → UInt8)) (enc : PacketProtoDecoder)
            (call : PacketProtoDecoder.Call) (decoderEvents : List PacketProtoDecoder.Event)
            (final : PacketProtoDecoder.Session) (log : List PacketProtoDecoder.Output),
            inputMtu ≤ mtu →
            PacketProtoDecoder.init mtu allocation = some (enc, call) →
            (PacketProtoDecoder.Session.ofCall enc call).1.run? decoderEvents = some (final, log) →
            (PacketProtoDecoder.Event.chunks decoderEvents).flatten = s.streamed →
            ∀ offset len, final.outstanding = .recv offset len →
              log = s.written.map .packet) := by
  have pipeline := (pipeline_init initialized small).run? ran
  have bounds := init_inputMtu initialized
  have fits : ∀ packet ∈ s.written, (packet.length : Int) ≤ inputMtu :=
    fun packet member => pipeline.inputMtu_eq ▸ pipeline.fits packet member
  refine ⟨fits, pipeline.streamed_prefix, fun quiet => ⟨pipeline.streamed_of_quiescent quiet, ?_⟩⟩
  intro mtu allocation enc call decoderEvents final log atLeast decoderInit decoded chunks offset len
    waiting
  refine PacketProtoDecoder.init_run?_encoded (by omega) decoderInit decoded ?_
    (chunks.trans (pipeline.streamed_of_quiescent quiet)) waiting
  -- every packet fits the decoder's MTU, capped as it is at the largest payload
  intro packet member
  have capped : (packet.length : Int) ≤ min mtu maxPayload :=
    le_min (by have := fits packet member; omega) (by have := fits packet member; omega)
  rw [PacketProtoDecoder.init_outputMtu decoderInit]
  omega

/--
One packet of one byte through a flow of input MTU 1 whose connector is
connected while the packet waits in the queue: once the writer offers the
next place, nothing is left to do and the stream holds the one frame.
-/
theorem stream_carries_frames_one_packet :
    ∃ start s, init (fun _ => 0) 1 1 3 = some start ∧
      run? start [.job .encoderOperation, .job .writerOperation, .writePacket [7],
        .job .writerDone, .job .encoderDone, .job .flowOperation, .connectOutput,
        .job .connectorOperation, .job .senderOperation, .job .streamOperation, .streamTakes 3,
        .job .streamDone, .job .senderDone, .job .connectorDone, .job .flowDone, .job .schedule,
        .job .encoderOperation, .job .writerOperation] = some s ∧
      Quiescent s ∧ s.written = [[7]] ∧ s.streamed = encode [7] := by
  have initialized : init (fun _ => 0) 1 1 3 = some ((init (fun _ => 0) 1 1 3).get (by decide)) :=
    (Option.some_get _).symm
  refine ⟨_, _, initialized, (Option.some_get (by decide)).symm, ?quiet, ?written, ?streamed⟩
  case quiet => decide
  case written => decide
  case streamed =>
    refine ((stream_carries_frames initialized (by decide) (Option.some_get _).symm).2.2 ?_).1.trans ?_
    · decide
    · decide

/-- With `input_mtu = 0` and `num_packets = 2^28` the buffer has `536870914` blocks and
`input_avail = 536870913 * 4` wraps to a negative `int`: the first packet is written, but its
submit fails the assertion `in_len <= input_avail`. -/
theorem huge_buffer_refuses_first_packet :
    ∃ start, init (fun _ => 0) 0 268435456 2 = some start ∧
      (run? start [.job .encoderOperation, .job .writerOperation, .writePacket []]).isSome ∧
      run? start [.job .encoderOperation, .job .writerOperation, .writePacket [],
        .job .writerDone, .job .encoderDone] = none :=
  ⟨_, (Option.some_get (by decide)).symm, by decide, by decide⟩

end SendPath

end Tun2SocksWinRT
