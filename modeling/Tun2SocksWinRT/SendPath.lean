import Tun2SocksWinRT.ChunkBuffer2
import Tun2SocksWinRT.PacketProto

namespace Tun2SocksWinRT

/-!
# The PacketProto send path

A packet written into the `BufferWriter` of a `PacketProtoFlow` goes through
`PacketProtoEncoder` (which puts the `packetproto_header` in front of it) into
a `PacketBuffer` (a `ChunkBuffer2`), then as a whole packet through a
`PacketPassFairQueue` flow and a `PacketPassConnector` into a
`PacketStreamSender`, which hands it to a `StreamPassInterface` piece by
piece, as the stream takes it.

Each hop is a flow interface (`flow/PacketPassInterface.h`,
`PacketRecvInterface.h`, `StreamPassInterface.h`): a call sets the operation's
job, the job runs the provider's handler, the provider's `Done` sets the done
job, and that job runs the user's handler.  `InterfaceState` is the state of
one interface with the arguments of its operation and the result of `Done`;
the model keeps the eleven such jobs and the fair queue's `schedule_job` as
separate events, run in any order.

The packets' bytes live in the memory of the `ChunkBuffer2`: the user writes
a packet at the pointer `BufferWriter_StartPacket` gives, the encoder writes
the header two bytes before it, and the stream reads its pieces from the
packet at `output_dest`.  `written`, `queued` and `receiving` are ghost
fields: the packets the user wrote, those the buffer holds, and the one on its
way into the buffer.

Left out: the flow's `time` and the other flows of the fair queue (there is
one flow), `PacketPassInactivityMonitor` between the queue and the connector,
cancellation, `DisconnectOutput`, and a failing `BAllocArray`.
-/

/-- The `*_STATE_*` of a flow interface, with its operation's arguments and `Done`'s result. -/
inductive InterfaceState (Operation Result : Type) where
  /-- `*_STATE_NONE` -/
  | idle
  /-- `*_STATE_OPERATION_PENDING`: `job_operation` is set -/
  | operationPending (operation : Operation)
  /-- `*_STATE_BUSY`: the provider has the operation -/
  | busy (operation : Operation)
  /-- `*_STATE_DONE_PENDING`: `job_done` is set -/
  | donePending (result : Result)
  deriving DecidableEq, Repr

namespace InterfaceState

variable {Operation Result : Type}

/-- `*_Sender_Send` or `*_Receiver_Recv`: `ASSERT(state == NONE)`, set the operation's job. -/
def request? : InterfaceState Operation Result → Operation → Option (InterfaceState Operation Result)
  | idle, operation => some (operationPending operation)
  | _, _ => none

/-- `_*_job_operation`: the provider's handler gets the operation. -/
def runOperation? : InterfaceState Operation Result → Option (Operation × InterfaceState Operation Result)
  | operationPending operation => some (operation, busy operation)
  | _ => none

/-- `*_Done`: `ASSERT(state == BUSY)`, set the done job. -/
def done? : InterfaceState Operation Result → Result → Option (InterfaceState Operation Result)
  | busy _, result => some (donePending result)
  | _, _ => none

/-- `_*_job_done`: the user's handler gets the result. -/
def runDone? : InterfaceState Operation Result → Option (Result × InterfaceState Operation Result)
  | donePending result => some (result, idle)
  | _ => none

/-- Whether one of the interface's jobs is set. -/
def hasJob : InterfaceState Operation Result → Bool
  | operationPending _ => true
  | donePending _ => true
  | _ => false

variable {state next : InterfaceState Operation Result}

@[simp] theorem request?_eq_some {operation : Operation} :
    state.request? operation = some next ↔ state = idle ∧ next = operationPending operation := by
  cases state <;> simp [request?, eq_comm]

@[simp] theorem runOperation?_eq_some {operation : Operation} :
    state.runOperation? = some (operation, next) ↔ state = operationPending operation ∧ next = busy operation := by
  constructor
  · intro taken
    cases state <;> simp only [runOperation?, Option.some.injEq, Prod.mk.injEq, reduceCtorEq] at taken
    obtain ⟨rfl, rfl⟩ := taken
    exact ⟨rfl, rfl⟩
  · rintro ⟨rfl, rfl⟩
    rfl

@[simp] theorem done?_eq_some {result : Result} :
    state.done? result = some next ↔ (∃ operation, state = busy operation) ∧ next = donePending result := by
  cases state <;> simp [done?, eq_comm]

@[simp] theorem runDone?_eq_some {result : Result} :
    state.runDone? = some (result, next) ↔ state = donePending result ∧ next = idle := by
  constructor
  · intro taken
    cases state <;> simp only [runDone?, Option.some.injEq, Prod.mk.injEq, reduceCtorEq] at taken
    obtain ⟨rfl, rfl⟩ := taken
    exact ⟨rfl, rfl⟩
  · rintro ⟨rfl, rfl⟩
    rfl

end InterfaceState

open ByteMemory

/-- The objects of the send path. -/
structure SendPath where
  /-- the `BufferWriter`'s MTU, the flow's `input_mtu` -/
  inputMtu : Int
  /-- the MTU of the packet-pass interfaces after the buffer -/
  passMtu : Int
  /-- `BufferWriter` `out_have` with `out` -/
  writerOut : Option Int
  /-- the `BufferWriter`'s output, a `PacketRecvInterface`: `Recv` pointer, `Done` length -/
  writerOutput : InterfaceState Int Int
  /-- `PacketProtoEncoder` `output_packet` -/
  encoderOutputPacket : Option Int
  /-- the encoder's output, received by the `PacketBuffer` -/
  encoderOutput : InterfaceState Int Int
  /-- the `PacketBuffer`'s `ChunkBuffer2`, with the memory of `buf_data` -/
  buf : ChunkBuffer2
  /-- the fair-queue flow's input, a `PacketPassInterface` the `PacketBuffer` sends to -/
  flowInput : InterfaceState (Int × Int) Unit
  /-- the flow's `is_queued` with `queued.data` and `queued.data_len` -/
  flowQueued : Option (Int × Int)
  /-- `sending_flow == flow` -/
  sendingFlow : Bool
  /-- `previous_flow == flow` -/
  previousFlow : Bool
  /-- `schedule_job` is set -/
  scheduleJob : Bool
  /-- the queue's output: the connector's input -/
  connectorInput : InterfaceState (Int × Int) Unit
  /-- the connector's `in` while `in_len >= 0` -/
  connectorIn : Option (Int × Int)
  /-- the connector's `output != NULL` -/
  connected : Bool
  /-- the connector's output: the `PacketStreamSender`'s input -/
  senderInput : InterfaceState (Int × Int) Unit
  /-- the sender's `in`, `in_len` and `in_used` while `in_len >= 0` -/
  senderIn : Option (Int × Int × Int)
  /-- the sender's output, a `StreamPassInterface` -/
  streamOutput : InterfaceState (Int × Int) Int
  /-- the bytes the stream has taken, in order -/
  streamed : List UInt8
  /-- ghost: the packets the user wrote -/
  written : List (List UInt8)
  /-- ghost: the packets the buffer holds, oldest first -/
  queued : List (List UInt8)
  /-- ghost: the packet on its way from the user into the buffer -/
  receiving : Option (List UInt8)

namespace SendPath

open PacketProto

/-- `PACKETPROTO_ENCLEN(input_mtu)`: the encoder's output MTU, the buffer's `input_mtu`. -/
def encMtu (s : SendPath) : Int :=
  s.inputMtu + 2

/-- `BufferWriter`'s `output_handler_recv`. -/
def BufferWriter.outputHandlerRecv (s : SendPath) (data : Int) : Option SendPath :=
  match s.writerOut with
  | some _ => none
  | none => some { s with writerOut := some data }

/--
`BufferWriter_StartPacket`, the user's writes at the pointer it gives, and
`BufferWriter_EndPacket`.  With no output packet `StartPacket` returns 0 and
the user cannot write.
-/
def BufferWriter.writePacket (s : SendPath) (packet : List UInt8) : Option SendPath :=
  match s.writerOut with
  | none => none
  | some out =>
      -- ASSERT(len <= o->d_mtu); PacketRecvInterface_Done checks the state
      if (packet.length : Int) ≤ s.inputMtu then
        (s.writerOutput.done? packet.length).map fun writerOutput =>
          { s with
            buf := { s.buf with buffer := write s.buf.buffer out packet }
            writerOut := none
            writerOutput
            written := s.written ++ [packet]
            receiving := some packet }
      else
        none

/-- `PacketProtoEncoder`'s `output_handler_recv`: receive the payload after the header. -/
def Encoder.outputHandlerRecv (s : SendPath) (data : Int) : Option SendPath :=
  match s.encoderOutputPacket with
  | some _ => none
  | none =>
      (s.writerOutput.request? (data + 2)).map fun writerOutput =>
        { s with encoderOutputPacket := some data, writerOutput }

/-- `PacketProtoEncoder`'s `input_handler_done`: write the length in front of the payload. -/
def Encoder.inputHandlerDone (s : SendPath) (inLen : Int) : Option SendPath :=
  match s.encoderOutputPacket with
  | none => none
  | some packet =>
      -- PacketRecvInterface_Done(&enc->output, PACKETPROTO_ENCLEN(in_len)) checks the MTU
      if 0 ≤ inLen ∧ inLen + 2 ≤ s.encMtu then
        (s.encoderOutput.done? (inLen + 2)).map fun encoderOutput =>
          { s with
            buf := { s.buf with buffer := write s.buf.buffer packet (le16 inLen.toNat) }
            encoderOutputPacket := none
            encoderOutput }
      else
        none

/-- `PacketRecvInterface_Receiver_Recv(buf->input, buf->buf.input_dest)`. -/
def PacketBuffer.recv (s : SendPath) : Option SendPath :=
  match s.buf.input.dest with
  | none => none
  | some dest =>
      (s.encoderOutput.request? dest).map fun encoderOutput => { s with encoderOutput }

/-- `PacketPassInterface_Sender_Send(buf->output, buf->buf.output_dest, buf->buf.output_avail)`. -/
def PacketBuffer.send (s : SendPath) : Option SendPath :=
  match s.buf.output.dest with
  | none => none
  | some dest =>
      if 0 ≤ s.buf.output.avail ∧ s.buf.output.avail ≤ s.passMtu then
        (s.flowInput.request? (dest, s.buf.output.avail)).map fun flowInput => { s with flowInput }
      else
        none

/-- `PacketBuffer`'s `input_handler_done`: submit the packet, then receive and send as there is room and data. -/
def PacketBuffer.inputHandlerDone (s : SendPath) (inLen : Int) : Option SendPath :=
  -- remember if buffer is empty
  let wasEmpty := decide (s.buf.output.avail < 0)
  -- ChunkBuffer2_SubmitPacket asserts an input window the packet fits in
  if 0 ≤ inLen ∧ inLen ≤ s.encMtu ∧ s.buf.input.dest.isSome ∧ inLen ≤ s.buf.input.avail then
    let s := { s with
      buf := s.buf.submitPacket inLen
      queued := s.queued ++ s.receiving.toList
      receiving := none }
    -- if there is space, schedule receive
    let received := if s.buf.input.avail ≥ s.encMtu then PacketBuffer.recv s else some s
    -- if buffer was empty, schedule send
    received.bind fun s => if wasEmpty then PacketBuffer.send s else some s
  else
    none

/-- `PacketBuffer`'s `output_handler_done`: drop the sent packet, then receive and send again. -/
def PacketBuffer.outputHandlerDone (s : SendPath) : Option SendPath :=
  -- remember if buffer is full
  let wasFull := decide (s.buf.input.avail < s.encMtu)
  if s.buf.output.dest.isSome then
    let s := { s with buf := s.buf.consumePacket, queued := s.queued.tail }
    -- if buffer was full and there is space, schedule receive
    let received :=
      if wasFull ∧ s.buf.input.avail ≥ s.encMtu then PacketBuffer.recv s else some s
    -- if there is more data, schedule send
    received.bind fun s => if s.buf.output.avail ≥ 0 then PacketBuffer.send s else some s
  else
    none

/-- `PacketPassFairQueue`'s `schedule`: send the queued packet of the flow. -/
def FairQueue.schedule (s : SendPath) : Option SendPath :=
  match s.flowQueued with
  | none => none
  | some (data, dataLen) =>
      if !s.sendingFlow ∧ !s.previousFlow ∧ 0 ≤ dataLen ∧ dataLen ≤ s.passMtu then
        (s.connectorInput.request? (data, dataLen)).map fun connectorInput =>
          { s with flowQueued := none, connectorInput, sendingFlow := true }
      else
        none

/-- `PacketPassFairQueue`'s `schedule_job_handler`, once the job has been taken off. -/
def FairQueue.scheduleJobHandler (s : SendPath) : Option SendPath :=
  if s.sendingFlow then
    none
  else
    let s := { s with previousFlow := false }
    if s.flowQueued.isSome then FairQueue.schedule s else some s

/-- `PacketPassFairQueue`'s `input_handler_send` for the flow. -/
def FairQueue.inputHandlerSend (s : SendPath) (data dataLen : Int) : Option SendPath :=
  if s.sendingFlow ∨ s.flowQueued.isSome then
    none
  else
    -- remove from previous flow; otherwise the flow's time is raised
    let s := if s.previousFlow then { s with previousFlow := false } else s
    let s := { s with flowQueued := some (data, dataLen) }
    if !s.sendingFlow ∧ !s.scheduleJob then FairQueue.schedule s else some s

/-- `PacketPassFairQueue`'s `output_handler_done`: the flow's packet is sent. -/
def FairQueue.outputHandlerDone (s : SendPath) : Option SendPath :=
  if s.sendingFlow ∧ !s.previousFlow ∧ !s.scheduleJob ∧ s.flowQueued.isNone then
    (s.flowInput.done? ()).map fun flowInput =>
      { s with sendingFlow := false, previousFlow := true, scheduleJob := true, flowInput }
  else
    none

/-- `PacketPassConnector`'s `input_handler_send`. -/
def Connector.inputHandlerSend (s : SendPath) (data dataLen : Int) : Option SendPath :=
  if 0 ≤ dataLen ∧ dataLen ≤ s.passMtu ∧ s.connectorIn.isNone then
    let s := { s with connectorIn := some (data, dataLen) }
    if s.connected then
      (s.senderInput.request? (data, dataLen)).map fun senderInput => { s with senderInput }
    else
      some s
  else
    none

/-- `PacketPassConnector`'s `output_handler_done`. -/
def Connector.outputHandlerDone (s : SendPath) : Option SendPath :=
  if s.connectorIn.isSome ∧ s.connected then
    (s.connectorInput.done? ()).map fun connectorInput =>
      { s with connectorIn := none, connectorInput }
  else
    none

/-- `PacketPassConnector_ConnectOutput` to the `PacketStreamSender`'s input. -/
def Connector.connectOutput (s : SendPath) : Option SendPath :=
  if s.connected then
    none
  else
    let s := { s with connected := true }
    match s.connectorIn with
    | some (data, dataLen) =>
        (s.senderInput.request? (data, dataLen)).map fun senderInput => { s with senderInput }
    | none => some s

/-- `PacketStreamSender`'s `send_data`: send the rest of the packet, or finish it. -/
def Sender.sendData (s : SendPath) : Option SendPath :=
  match s.senderIn with
  | none => none
  | some (data, inLen, inUsed) =>
      if inUsed < inLen then
        (s.streamOutput.request? (data + inUsed, inLen - inUsed)).map fun streamOutput =>
          { s with streamOutput }
      else
        (s.senderInput.done? ()).map fun senderInput => { s with senderIn := none, senderInput }

/-- `PacketStreamSender`'s `input_handler_send`. -/
def Sender.inputHandlerSend (s : SendPath) (data dataLen : Int) : Option SendPath :=
  if s.senderIn.isNone ∧ 0 ≤ dataLen then
    Sender.sendData { s with senderIn := some (data, dataLen, 0) }
  else
    none

/-- `PacketStreamSender`'s `output_handler_done`: `dataLen` more bytes were sent. -/
def Sender.outputHandlerDone (s : SendPath) (dataLen : Int) : Option SendPath :=
  match s.senderIn with
  | none => none
  | some (data, inLen, inUsed) =>
      if 0 < dataLen ∧ dataLen ≤ inLen - inUsed then
        Sender.sendData { s with senderIn := some (data, inLen, inUsed + dataLen) }
      else
        none

/-- `StreamPassInterface_Done` by the stream: it took the first `dataLen` bytes it was given. -/
def streamDone (s : SendPath) (dataLen : Int) : Option SendPath :=
  match s.streamOutput with
  | .busy (data, len) =>
      if 0 < dataLen ∧ dataLen ≤ len then
        some { s with
          streamOutput := .donePending dataLen
          streamed := s.streamed ++ read s.buf.buffer data dataLen.toNat }
      else
        none
  | _ => none

/-- The jobs of the send path. -/
inductive Job where
  | writerOperation
  | writerDone
  | encoderOperation
  | encoderDone
  | flowOperation
  | flowDone
  | schedule
  | connectorOperation
  | connectorDone
  | senderOperation
  | senderDone
  | streamOperation
  | streamDone
  deriving DecidableEq, Repr

/-- Run a job; `none` when it is not set or its handler fails an `ASSERT`. -/
def Job.run? (s : SendPath) : Job → Option SendPath
  | .writerOperation =>
      s.writerOutput.runOperation?.bind fun (data, writerOutput) =>
        BufferWriter.outputHandlerRecv { s with writerOutput } data
  | .writerDone =>
      s.writerOutput.runDone?.bind fun (inLen, writerOutput) =>
        Encoder.inputHandlerDone { s with writerOutput } inLen
  | .encoderOperation =>
      s.encoderOutput.runOperation?.bind fun (data, encoderOutput) =>
        Encoder.outputHandlerRecv { s with encoderOutput } data
  | .encoderDone =>
      s.encoderOutput.runDone?.bind fun (inLen, encoderOutput) =>
        PacketBuffer.inputHandlerDone { s with encoderOutput } inLen
  | .flowOperation =>
      s.flowInput.runOperation?.bind fun ((data, dataLen), flowInput) =>
        FairQueue.inputHandlerSend { s with flowInput } data dataLen
  | .flowDone =>
      s.flowInput.runDone?.bind fun ((), flowInput) =>
        PacketBuffer.outputHandlerDone { s with flowInput }
  | .schedule =>
      if s.scheduleJob then FairQueue.scheduleJobHandler { s with scheduleJob := false } else none
  | .connectorOperation =>
      s.connectorInput.runOperation?.bind fun ((data, dataLen), connectorInput) =>
        Connector.inputHandlerSend { s with connectorInput } data dataLen
  | .connectorDone =>
      s.connectorInput.runDone?.bind fun ((), connectorInput) =>
        FairQueue.outputHandlerDone { s with connectorInput }
  | .senderOperation =>
      s.senderInput.runOperation?.bind fun ((data, dataLen), senderInput) =>
        Sender.inputHandlerSend { s with senderInput } data dataLen
  | .senderDone =>
      s.senderInput.runDone?.bind fun ((), senderInput) =>
        Connector.outputHandlerDone { s with senderInput }
  | .streamOperation =>
      -- the stream's handler keeps the request until it calls Done
      s.streamOutput.runOperation?.map fun (_, streamOutput) => { s with streamOutput }
  | .streamDone =>
      s.streamOutput.runDone?.bind fun (dataLen, streamOutput) =>
        Sender.outputHandlerDone { s with streamOutput } dataLen

/-- What can happen next: a job runs, the user writes a packet, the stream takes bytes, the connector connects. -/
inductive Event where
  | job (job : Job)
  | writePacket (packet : List UInt8)
  | streamTakes (dataLen : Int)
  | connectOutput
  deriving DecidableEq, Repr

def Event.step? (s : SendPath) : Event → Option SendPath
  | .job pending => pending.run? s
  | .writePacket packet => BufferWriter.writePacket s packet
  | .streamTakes dataLen => streamDone s dataLen
  | .connectOutput => Connector.connectOutput s

/-- A run of events; `none` once one is not possible. -/
def run? (s : SendPath) : List Event → Option SendPath
  | [] => some s
  | event :: rest => (event.step? s).bind fun next => run? next rest

/-! ## What each handler does

One inversion lemma per handler and job: the state it needs and the state it
leaves.  The proofs about the send path use these and never unfold a handler.
-/

variable {s next : SendPath}

theorem recv_eq_some (received : PacketBuffer.recv s = some next) :
    ∃ dest, s.buf.input.dest = some dest ∧ s.encoderOutput = .idle ∧
      next = { s with encoderOutput := .operationPending dest } := by
  unfold PacketBuffer.recv at received
  split at received
  · cases received
  · rename_i dest inputOpen
    obtain ⟨encoderOutput, requested, rfl⟩ := Option.map_eq_some_iff.mp received
    obtain ⟨idle, rfl⟩ := InterfaceState.request?_eq_some.mp requested
    exact ⟨dest, inputOpen, idle, rfl⟩

theorem send_eq_some (sent : PacketBuffer.send s = some next) :
    ∃ dest, s.buf.output.dest = some dest ∧ 0 ≤ s.buf.output.avail ∧ s.buf.output.avail ≤ s.passMtu ∧
      s.flowInput = .idle ∧ next = { s with flowInput := .operationPending (dest, s.buf.output.avail) } := by
  unfold PacketBuffer.send at sent
  split at sent
  · cases sent
  · rename_i dest outputOpen
    split_ifs at sent with fits
    obtain ⟨flowInput, requested, rfl⟩ := Option.map_eq_some_iff.mp sent
    obtain ⟨idle, rfl⟩ := InterfaceState.request?_eq_some.mp requested
    exact ⟨dest, outputOpen, fits.1, fits.2, idle, rfl⟩

theorem ran_writerOperation (ran : Job.run? s .writerOperation = some next) :
    ∃ data, s.writerOutput = .operationPending data ∧ s.writerOut = none ∧
      next = { s with writerOutput := .busy data, writerOut := some data } := by
  obtain ⟨⟨data, writerOutput⟩, taken, handled⟩ := Option.bind_eq_some_iff.mp ran
  obtain ⟨pending, rfl⟩ := InterfaceState.runOperation?_eq_some.mp taken
  unfold BufferWriter.outputHandlerRecv at handled
  dsimp only at handled
  cases free : s.writerOut with
  | some out =>
      rw [free] at handled
      cases handled
  | none =>
      rw [free] at handled
      cases handled
      exact ⟨data, pending, rfl, rfl⟩

theorem ran_writerDone (ran : Job.run? s .writerDone = some next) :
    ∃ inLen packet request, s.writerOutput = .donePending inLen ∧ s.encoderOutputPacket = some packet ∧
      0 ≤ inLen ∧ inLen + 2 ≤ s.encMtu ∧ s.encoderOutput = .busy request ∧
      next = { s with
        writerOutput := .idle
        buf := { s.buf with buffer := write s.buf.buffer packet (le16 inLen.toNat) }
        encoderOutputPacket := none
        encoderOutput := .donePending (inLen + 2) } := by
  obtain ⟨⟨inLen, writerOutput⟩, taken, handled⟩ := Option.bind_eq_some_iff.mp ran
  obtain ⟨done, rfl⟩ := InterfaceState.runDone?_eq_some.mp taken
  unfold Encoder.inputHandlerDone at handled
  dsimp only at handled
  cases framing : s.encoderOutputPacket with
  | none =>
      rw [framing] at handled
      cases handled
  | some packet =>
      rw [framing] at handled
      dsimp only at handled
      split_ifs at handled with fits
      obtain ⟨encoderOutput, finished, rfl⟩ := Option.map_eq_some_iff.mp handled
      obtain ⟨⟨request, busy⟩, rfl⟩ := InterfaceState.done?_eq_some.mp finished
      exact ⟨inLen, packet, request, done, rfl, fits.1, fits.2, busy, rfl⟩

theorem ran_encoderOperation (ran : Job.run? s .encoderOperation = some next) :
    ∃ data, s.encoderOutput = .operationPending data ∧ s.encoderOutputPacket = none ∧
      s.writerOutput = .idle ∧
      next = { s with
        encoderOutput := .busy data
        encoderOutputPacket := some data
        writerOutput := .operationPending (data + 2) } := by
  obtain ⟨⟨data, encoderOutput⟩, taken, handled⟩ := Option.bind_eq_some_iff.mp ran
  obtain ⟨pending, rfl⟩ := InterfaceState.runOperation?_eq_some.mp taken
  unfold Encoder.outputHandlerRecv at handled
  dsimp only at handled
  cases framing : s.encoderOutputPacket with
  | some packet =>
      rw [framing] at handled
      cases handled
  | none =>
      rw [framing] at handled
      obtain ⟨writerOutput, requested, rfl⟩ := Option.map_eq_some_iff.mp handled
      obtain ⟨idle, rfl⟩ := InterfaceState.request?_eq_some.mp requested
      exact ⟨data, pending, rfl, idle, rfl⟩

theorem ran_encoderDone (ran : Job.run? s .encoderDone = some next) :
    ∃ inLen, s.encoderOutput = .donePending inLen ∧
      PacketBuffer.inputHandlerDone { s with encoderOutput := .idle } inLen = some next := by
  obtain ⟨⟨inLen, encoderOutput⟩, taken, handled⟩ := Option.bind_eq_some_iff.mp ran
  obtain ⟨done, rfl⟩ := InterfaceState.runDone?_eq_some.mp taken
  exact ⟨inLen, done, handled⟩

theorem inputHandlerDone_eq_some {inLen : Int} (handled : PacketBuffer.inputHandlerDone s inLen = some next) :
    0 ≤ inLen ∧ inLen ≤ s.encMtu ∧ inLen ≤ s.buf.input.avail ∧
      ∃ received,
        (if (s.buf.submitPacket inLen).input.avail ≥ s.encMtu then
          PacketBuffer.recv { s with
            buf := s.buf.submitPacket inLen
            queued := s.queued ++ s.receiving.toList
            receiving := none }
        else
          some { s with
            buf := s.buf.submitPacket inLen
            queued := s.queued ++ s.receiving.toList
            receiving := none }) = some received ∧
        (if s.buf.output.avail < 0 then PacketBuffer.send received else some received) = some next := by
  unfold PacketBuffer.inputHandlerDone at handled
  split_ifs at handled with guard
  obtain ⟨received, receiving, sending⟩ := Option.bind_eq_some_iff.mp handled
  refine ⟨guard.1, guard.2.1, guard.2.2.2, received, receiving, ?_⟩
  simpa only [decide_eq_true_eq] using sending

theorem ran_flowOperation (ran : Job.run? s .flowOperation = some next) :
    ∃ data dataLen, s.flowInput = .operationPending (data, dataLen) ∧ s.sendingFlow = false ∧
      s.flowQueued = none ∧
      (s.scheduleJob = true ∧
          next = { s with
            flowInput := .busy (data, dataLen)
            previousFlow := false
            flowQueued := some (data, dataLen) } ∨
        s.scheduleJob = false ∧
          FairQueue.schedule { s with
            flowInput := .busy (data, dataLen)
            previousFlow := false
            flowQueued := some (data, dataLen) } = some next) := by
  obtain ⟨⟨⟨data, dataLen⟩, flowInput⟩, taken, handled⟩ := Option.bind_eq_some_iff.mp ran
  obtain ⟨pending, rfl⟩ := InterfaceState.runOperation?_eq_some.mp taken
  unfold FairQueue.inputHandlerSend at handled
  dsimp only at handled
  have notBusy : ¬ (s.sendingFlow = true ∨ s.flowQueued.isSome = true) := by
    intro busy
    rw [if_pos busy] at handled
    cases handled
  rw [if_neg notBusy] at handled
  simp only [not_or, Bool.not_eq_true, Option.isSome_eq_false_iff, Option.isNone_iff_eq_none] at notBusy
  obtain ⟨idle, empty⟩ := notBusy
  refine ⟨data, dataLen, pending, idle, empty, ?_⟩
  -- clearing previous_flow when it is already clear changes nothing
  cases scheduled : s.scheduleJob <;> cases previous : s.previousFlow <;>
    simp only [previous, scheduled, idle, Bool.false_eq_true, Bool.true_eq_false, if_true, if_false, Bool.not_false,
      Bool.not_true, and_self, and_false, true_and, false_and, or_false, false_or,
      Option.some.injEq] at handled ⊢
  · exact handled
  · exact handled
  · exact handled.symm
  · exact handled.symm

theorem schedule_eq_some (scheduled : FairQueue.schedule s = some next) :
    ∃ data dataLen, s.flowQueued = some (data, dataLen) ∧ s.sendingFlow = false ∧
      s.previousFlow = false ∧ 0 ≤ dataLen ∧ dataLen ≤ s.passMtu ∧ s.connectorInput = .idle ∧
      next = { s with
        flowQueued := none
        connectorInput := .operationPending (data, dataLen)
        sendingFlow := true } := by
  unfold FairQueue.schedule at scheduled
  split at scheduled
  · cases scheduled
  · rename_i data dataLen queued
    split_ifs at scheduled with ready
    simp only [Bool.not_eq_true'] at ready
    obtain ⟨connectorInput, requested, rfl⟩ := Option.map_eq_some_iff.mp scheduled
    obtain ⟨idle, rfl⟩ := InterfaceState.request?_eq_some.mp requested
    exact ⟨data, dataLen, queued, ready.1, ready.2.1, ready.2.2.1, ready.2.2.2, idle, rfl⟩

theorem ran_schedule (ran : Job.run? s .schedule = some next) :
    s.scheduleJob = true ∧ s.sendingFlow = false ∧
      (s.flowQueued = none ∧ next = { s with scheduleJob := false, previousFlow := false } ∨
        s.flowQueued.isSome ∧
          FairQueue.schedule { s with scheduleJob := false, previousFlow := false } = some next) := by
  unfold Job.run? at ran
  split_ifs at ran with scheduled
  unfold FairQueue.scheduleJobHandler at ran
  dsimp only at ran
  split_ifs at ran with sending queued
  · refine ⟨scheduled, by simpa using sending, .inr ⟨queued, ran⟩⟩
  · cases ran
    exact ⟨scheduled, by simpa using sending, .inl ⟨by simpa using queued, rfl⟩⟩

theorem ran_flowDone (ran : Job.run? s .flowDone = some next) :
    s.flowInput = .donePending () ∧
      PacketBuffer.outputHandlerDone { s with flowInput := .idle } = some next := by
  obtain ⟨⟨_, flowInput⟩, taken, handled⟩ := Option.bind_eq_some_iff.mp ran
  obtain ⟨done, rfl⟩ := InterfaceState.runDone?_eq_some.mp taken
  exact ⟨done, handled⟩

theorem outputHandlerDone_eq_some (handled : PacketBuffer.outputHandlerDone s = some next) :
    s.buf.output.dest.isSome ∧
      ∃ received,
        (if s.buf.input.avail < s.encMtu ∧ s.buf.consumePacket.input.avail ≥ s.encMtu then
          PacketBuffer.recv { s with buf := s.buf.consumePacket, queued := s.queued.tail }
        else
          some { s with buf := s.buf.consumePacket, queued := s.queued.tail }) = some received ∧
        (if received.buf.output.avail ≥ 0 then PacketBuffer.send received else some received) =
          some next := by
  unfold PacketBuffer.outputHandlerDone at handled
  dsimp only at handled
  by_cases outputOpen : s.buf.output.dest.isSome = true
  · rw [if_pos outputOpen] at handled
    obtain ⟨received, receiving, sending⟩ := Option.bind_eq_some_iff.mp handled
    simp only [decide_eq_true_eq] at receiving
    exact ⟨outputOpen, received, receiving, sending⟩
  · rw [if_neg outputOpen] at handled
    cases handled

theorem ran_connectorOperation (ran : Job.run? s .connectorOperation = some next) :
    ∃ data dataLen, s.connectorInput = .operationPending (data, dataLen) ∧ 0 ≤ dataLen ∧
      dataLen ≤ s.passMtu ∧ s.connectorIn = none ∧
      (s.connected = true ∧ s.senderInput = .idle ∧
          next = { s with
            connectorInput := .busy (data, dataLen)
            connectorIn := some (data, dataLen)
            senderInput := .operationPending (data, dataLen) } ∨
        s.connected = false ∧
          next = { s with
            connectorInput := .busy (data, dataLen)
            connectorIn := some (data, dataLen) }) := by
  obtain ⟨⟨⟨data, dataLen⟩, connectorInput⟩, taken, handled⟩ := Option.bind_eq_some_iff.mp ran
  obtain ⟨pending, rfl⟩ := InterfaceState.runOperation?_eq_some.mp taken
  unfold Connector.inputHandlerSend at handled
  dsimp only at handled
  split_ifs at handled with fits connected
  · obtain ⟨senderInput, requested, rfl⟩ := Option.map_eq_some_iff.mp handled
    obtain ⟨idle, rfl⟩ := InterfaceState.request?_eq_some.mp requested
    exact ⟨data, dataLen, pending, fits.1, fits.2.1, by simpa using fits.2.2, .inl ⟨connected, idle, rfl⟩⟩
  · cases handled
    exact ⟨data, dataLen, pending, fits.1, fits.2.1, by simpa using fits.2.2,
      .inr ⟨by simpa using connected, rfl⟩⟩

theorem ran_connectorDone (ran : Job.run? s .connectorDone = some next) :
    s.connectorInput = .donePending () ∧ s.sendingFlow = true ∧ s.previousFlow = false ∧
      s.scheduleJob = false ∧ s.flowQueued = none ∧ (∃ sending, s.flowInput = .busy sending) ∧
      next = { s with
        connectorInput := .idle
        sendingFlow := false
        previousFlow := true
        scheduleJob := true
        flowInput := .donePending () } := by
  obtain ⟨⟨_, connectorInput⟩, taken, handled⟩ := Option.bind_eq_some_iff.mp ran
  obtain ⟨done, rfl⟩ := InterfaceState.runDone?_eq_some.mp taken
  unfold FairQueue.outputHandlerDone at handled
  dsimp only at handled
  split_ifs at handled with ready
  simp only [Bool.not_eq_true', Option.isNone_iff_eq_none] at ready
  obtain ⟨flowInput, finished, rfl⟩ := Option.map_eq_some_iff.mp handled
  obtain ⟨busy, rfl⟩ := InterfaceState.done?_eq_some.mp finished
  exact ⟨done, ready.1, ready.2.1, ready.2.2.1, ready.2.2.2, busy, rfl⟩

theorem sendData_eq_some (sent : Sender.sendData s = some next) :
    ∃ data inLen inUsed, s.senderIn = some (data, inLen, inUsed) ∧
      (inUsed < inLen ∧ s.streamOutput = .idle ∧
          next = { s with streamOutput := .operationPending (data + inUsed, inLen - inUsed) } ∨
        inLen ≤ inUsed ∧ (∃ sending, s.senderInput = .busy sending) ∧
          next = { s with senderIn := none, senderInput := .donePending () }) := by
  unfold Sender.sendData at sent
  split at sent
  · cases sent
  · rename_i data inLen inUsed sending
    split_ifs at sent with short
    · obtain ⟨streamOutput, requested, rfl⟩ := Option.map_eq_some_iff.mp sent
      obtain ⟨idle, rfl⟩ := InterfaceState.request?_eq_some.mp requested
      exact ⟨data, inLen, inUsed, sending, .inl ⟨short, idle, rfl⟩⟩
    · obtain ⟨senderInput, finished, rfl⟩ := Option.map_eq_some_iff.mp sent
      obtain ⟨busy, rfl⟩ := InterfaceState.done?_eq_some.mp finished
      exact ⟨data, inLen, inUsed, sending, .inr ⟨by omega, busy, rfl⟩⟩

theorem ran_senderOperation (ran : Job.run? s .senderOperation = some next) :
    ∃ data dataLen, s.senderInput = .operationPending (data, dataLen) ∧ s.senderIn = none ∧
      0 ≤ dataLen ∧
      Sender.sendData { s with
        senderInput := .busy (data, dataLen)
        senderIn := some (data, dataLen, 0) } = some next := by
  obtain ⟨⟨⟨data, dataLen⟩, senderInput⟩, taken, handled⟩ := Option.bind_eq_some_iff.mp ran
  obtain ⟨pending, rfl⟩ := InterfaceState.runOperation?_eq_some.mp taken
  unfold Sender.inputHandlerSend at handled
  dsimp only at handled
  split_ifs at handled with ready
  exact ⟨data, dataLen, pending, by simpa using ready.1, ready.2, handled⟩

theorem ran_senderDone (ran : Job.run? s .senderDone = some next) :
    s.senderInput = .donePending () ∧ s.connectorIn.isSome ∧ s.connected = true ∧
      (∃ passing, s.connectorInput = .busy passing) ∧
      next = { s with senderInput := .idle, connectorIn := none, connectorInput := .donePending () } := by
  obtain ⟨⟨_, senderInput⟩, taken, handled⟩ := Option.bind_eq_some_iff.mp ran
  obtain ⟨done, rfl⟩ := InterfaceState.runDone?_eq_some.mp taken
  unfold Connector.outputHandlerDone at handled
  dsimp only at handled
  split_ifs at handled with ready
  obtain ⟨connectorInput, finished, rfl⟩ := Option.map_eq_some_iff.mp handled
  obtain ⟨busy, rfl⟩ := InterfaceState.done?_eq_some.mp finished
  exact ⟨done, ready.1, ready.2, busy, rfl⟩

theorem ran_streamOperation (ran : Job.run? s .streamOperation = some next) :
    ∃ request, s.streamOutput = .operationPending request ∧
      next = { s with streamOutput := .busy request } := by
  obtain ⟨⟨request, streamOutput⟩, taken, rfl⟩ := Option.map_eq_some_iff.mp ran
  obtain ⟨pending, rfl⟩ := InterfaceState.runOperation?_eq_some.mp taken
  exact ⟨request, pending, rfl⟩

theorem ran_streamDone (ran : Job.run? s .streamDone = some next) :
    ∃ dataLen data inLen inUsed, s.streamOutput = .donePending dataLen ∧
      s.senderIn = some (data, inLen, inUsed) ∧ 0 < dataLen ∧ dataLen ≤ inLen - inUsed ∧
      Sender.sendData { s with
        streamOutput := .idle
        senderIn := some (data, inLen, inUsed + dataLen) } = some next := by
  obtain ⟨⟨dataLen, streamOutput⟩, taken, handled⟩ := Option.bind_eq_some_iff.mp ran
  obtain ⟨done, rfl⟩ := InterfaceState.runDone?_eq_some.mp taken
  unfold Sender.outputHandlerDone at handled
  dsimp only at handled
  split at handled
  · cases handled
  · rename_i data inLen inUsed sending
    split_ifs at handled with fits
    exact ⟨dataLen, data, inLen, inUsed, done, sending, fits.1, fits.2, handled⟩

theorem writePacket_eq_some {packet : List UInt8}
    (wrote : BufferWriter.writePacket s packet = some next) :
    ∃ out request, s.writerOut = some out ∧ (packet.length : Int) ≤ s.inputMtu ∧
      s.writerOutput = .busy request ∧
      next = { s with
        buf := { s.buf with buffer := write s.buf.buffer out packet }
        writerOut := none
        writerOutput := .donePending packet.length
        written := s.written ++ [packet]
        receiving := some packet } := by
  unfold BufferWriter.writePacket at wrote
  split at wrote
  · cases wrote
  · rename_i out offered
    split_ifs at wrote with fits
    obtain ⟨writerOutput, finished, rfl⟩ := Option.map_eq_some_iff.mp wrote
    obtain ⟨⟨request, busy⟩, rfl⟩ := InterfaceState.done?_eq_some.mp finished
    exact ⟨out, request, offered, fits, busy, rfl⟩

theorem streamDone_eq_some {dataLen : Int} (took : streamDone s dataLen = some next) :
    ∃ data len, s.streamOutput = .busy (data, len) ∧ 0 < dataLen ∧ dataLen ≤ len ∧
      next = { s with
        streamOutput := .donePending dataLen
        streamed := s.streamed ++ read s.buf.buffer data dataLen.toNat } := by
  unfold streamDone at took
  split at took
  · rename_i data len busy
    split_ifs at took with fits
    cases took
    exact ⟨data, len, busy, fits.1, fits.2, rfl⟩
  · cases took

theorem connectOutput_eq_some (connected : Connector.connectOutput s = some next) :
    s.connected = false ∧
      (s.connectorIn = none ∧ next = { s with connected := true } ∨
        ∃ data dataLen, s.connectorIn = some (data, dataLen) ∧ s.senderInput = .idle ∧
          next = { s with connected := true, senderInput := .operationPending (data, dataLen) }) := by
  unfold Connector.connectOutput at connected
  split_ifs at connected with already
  dsimp only at connected
  refine ⟨by simpa using already, ?_⟩
  split at connected
  · rename_i data dataLen holding
    obtain ⟨senderInput, requested, rfl⟩ := Option.map_eq_some_iff.mp connected
    obtain ⟨idle, rfl⟩ := InterfaceState.request?_eq_some.mp requested
    exact .inr ⟨data, dataLen, holding, idle, rfl⟩
  · rename_i empty
    cases connected
    exact .inl ⟨empty, rfl⟩

end SendPath

/-- `ChunkBuffer2_calc_blocks`: blocks for `num` packets of `chunk_len` bytes and one more; -1 on overflow. -/
def ChunkBuffer2.calcBlocks (chunkLen num : Int) : Int :=
  let chunkDataBlocks := blockCount chunkLen
  if chunkDataBlocks > 2147483647 - 1 then
    -1
  else
    let chunkBlocks := 1 + chunkDataBlocks
    if num > 2147483647 - 1 then
      -1
    else
      let numChunks := num + 1
      if chunkBlocks > 2147483647 / numChunks then -1 else chunkBlocks * numChunks

/-- A count that did not overflow is the product of the blocks of a chunk and the chunks. -/
theorem ChunkBuffer2.calcBlocks_of_nonneg
    {chunkLen num : Int}
    (nonneg : 0 ≤ ChunkBuffer2.calcBlocks chunkLen num) :
    ChunkBuffer2.calcBlocks chunkLen num = (1 + blockCount chunkLen) * (num + 1) := by
  unfold ChunkBuffer2.calcBlocks at nonneg ⊢
  dsimp only at nonneg ⊢
  split_ifs at nonneg ⊢ <;> omega

/--
`ChunkBuffer2_calc_blocks(0, 2^29)` does not overflow, but the buffer it sizes
does: the empty buffer's `input_avail` wraps to -2147483648, below any MTU.
-/
theorem ChunkBuffer2.calcBlocks_overflows_input :
    ChunkBuffer2.calcBlocks 0 536870912 = 536870913 ∧
      (ChunkBuffer2.init (fun _ => 0) (ChunkBuffer2.calcBlocks 0 536870912) 0).input =
        ⟨some 4, -2147483648⟩ := by
  decide

/-- A count that did not overflow fits an `int`. -/
theorem ChunkBuffer2.calcBlocks_le_intMax
    {chunkLen num : Int}
    (positive : 0 < num)
    (nonneg : 0 ≤ ChunkBuffer2.calcBlocks chunkLen num) :
    ChunkBuffer2.calcBlocks chunkLen num ≤ 2147483647 := by
  unfold ChunkBuffer2.calcBlocks at nonneg ⊢
  dsimp only at nonneg ⊢
  split_ifs at nonneg ⊢ with chunkTooBig numTooBig productTooBig
  · omega
  · omega
  · omega
  · -- the guard is `chunk_blocks <= INT_MAX / num_chunks`
    exact (Int.le_ediv_iff_mul_le (by omega)).mp (not_lt.mp productTooBig)

/--
`PacketBuffer_Init` with any `input_mtu` and `num_packets > 0` whose
`ChunkBuffer2_calc_blocks` does not overflow: the empty buffer's `input_avail`,
the `size_t` product `(blocks - 1) * sizeof(struct ChunkBuffer2_block)` stored
in an `int`, is exact exactly when the buffer has at most 536870912 blocks;
past that it is stored smaller than the bytes the buffer has free.
-/
theorem ChunkBuffer2.packetBufferInit_inputAvail
    (memory : Int → UInt8)
    {inputMtu numPackets : Int}
    (positive : 0 < numPackets)
    (accepted : 0 ≤ ChunkBuffer2.calcBlocks inputMtu numPackets) :
    (ChunkBuffer2.init memory (ChunkBuffer2.calcBlocks inputMtu numPackets) inputMtu).input.dest =
        some 4 ∧
      ((ChunkBuffer2.init memory (ChunkBuffer2.calcBlocks inputMtu numPackets) inputMtu).input.avail =
          (ChunkBuffer2.calcBlocks inputMtu numPackets - 1) * 4 ↔
        ChunkBuffer2.calcBlocks inputMtu numPackets ≤ 536870912) ∧
      (536870912 < ChunkBuffer2.calcBlocks inputMtu numPackets →
        (ChunkBuffer2.init memory (ChunkBuffer2.calcBlocks inputMtu numPackets) inputMtu).input.avail <
          (ChunkBuffer2.calcBlocks inputMtu numPackets - 1) * 4) := by
  have blocksEq := ChunkBuffer2.calcBlocks_of_nonneg accepted
  have := ChunkBuffer2.blockCount_nonneg inputMtu
  have room : blockCount inputMtu < ChunkBuffer2.calcBlocks inputMtu numPackets := by
    rw [blocksEq]
    nlinarith
  rw [ChunkBuffer2.init_input_eq memory inputMtu room]
  -- past 536870912 blocks the product no longer fits an `int`
  have truncated : 536870912 < ChunkBuffer2.calcBlocks inputMtu numPackets →
      toInt32 ((ChunkBuffer2.calcBlocks inputMtu numPackets - 1) * 4) <
        (ChunkBuffer2.calcBlocks inputMtu numPackets - 1) * 4 :=
    fun large => toInt32_lt_of_large (by omega)
  refine ⟨rfl, ⟨fun exact => ?_, fun small => toInt32_of_small (by omega) (by omega)⟩, truncated⟩
  by_contra large
  exact absurd exact (truncated (by omega)).ne

/--
`PacketBuffer_Init` with `input_mtu = 0` and `num_packets = 2^29`: 536870913
blocks, of which the empty buffer offers 2147483648 bytes, stored smaller.
-/
theorem ChunkBuffer2.packetBufferInit_inputAvail_wraps :
    536870912 < ChunkBuffer2.calcBlocks 0 536870912 ∧
      (ChunkBuffer2.init (fun _ => 0) (ChunkBuffer2.calcBlocks 0 536870912) 0).input.avail <
        (ChunkBuffer2.calcBlocks 0 536870912 - 1) * 4 :=
  ⟨by decide,
    (ChunkBuffer2.packetBufferInit_inputAvail (fun _ => 0) (by decide) (by decide)).2.2
      (by decide)⟩

namespace SendPath

/--
`PacketProtoFlow_Init` (`BufferWriter_Init`, `PacketProtoEncoder_Init`,
`PacketBuffer_Init`), with the fair-queue flow, the connector and the
`PacketStreamSender` fresh: the buffer's first `Recv` is set.  `none` when
`PacketBuffer_Init` fails or an `ASSERT` does.
-/
def init (memory : Int → UInt8) (inputMtu numPackets passMtu : Int) : Option SendPath :=
  if 0 ≤ inputMtu ∧ inputMtu ≤ PacketProto.maxPayload ∧ 0 < numPackets ∧ inputMtu + 2 ≤ passMtu then
    let blocks := ChunkBuffer2.calcBlocks (inputMtu + 2) numPackets
    if blocks < 0 then
      none
    else
      PacketBuffer.recv
        { inputMtu
          passMtu
          writerOut := none
          writerOutput := .idle
          encoderOutputPacket := none
          encoderOutput := .idle
          buf := ChunkBuffer2.init memory blocks (inputMtu + 2)
          flowInput := .idle
          flowQueued := none
          sendingFlow := false
          previousFlow := false
          scheduleJob := false
          connectorInput := .idle
          connectorIn := none
          connected := false
          senderInput := .idle
          senderIn := none
          streamOutput := .idle
          streamed := []
          written := []
          queued := []
          receiving := none }
  else
    none

/-- `PacketProtoFlow_Init` asserts the bounds of the input MTU. -/
theorem init_inputMtu
    {memory : Int → UInt8}
    {inputMtu numPackets passMtu : Int}
    {s : SendPath}
    (initialized : init memory inputMtu numPackets passMtu = some s) :
    0 ≤ inputMtu ∧ inputMtu ≤ PacketProto.maxPayload := by
  unfold init at initialized
  split_ifs at initialized with guard
  exact ⟨guard.1, guard.2.1⟩

end SendPath

end Tun2SocksWinRT
