import Mathlib
import Tun2SocksWinRT.UdpgwProto

namespace Tun2SocksWinRT

namespace Keepalive

/-!
# The udpgw keepalive: the client's send monitor and the server's disconnect timer

`UdpGwClient` sends everything to the server through one `send_queue` (a
`PacketPassFairQueue`) into `send_monitor` (a `PacketPassInactivityMonitor`),
then `send_connector` and the stream to the server.  The monitor's `timer` runs
while its output is idle; when it expires, `send_monitor_handler` sends
`keepalive_packet` through a flow of its own (`keepalive_if`), unless one is
already under way (`keepalive_sending`).  On the server (`udpgw/udpgw.c`) each
client has a `disconnect_timer` of `CLIENT_DISCONNECT_TIMEOUT`, set when it is
accepted and set again by every message whose header is read; when it expires
the client is freed.

The model is one connection's lifetime from `UdpGwClient_Init` on, as a timed
transition system over milliseconds.  Handlers take no time: the jobs they set
(`send_queue` scheduling, the `Done` calls) run at the instant of the event that
set them.  The reactors run a timer at its deadline, so time does not pass a set
timer.  Two things the code does not decide are assumptions on the environment
(`Link`): the stream finishes writing a packet within `sendBound` of being given
it, and the connection delivers what was written, in order, within `delay`.
`send_queue`'s choice of the next packet is left open.  The server accepts the
client at the instant the client connects, the earliest it can.

Main facts:
* `keepalive_monitor_bookkeeping` (from `Invariant.run?`): no `ASSERT` fails
  (that of `keepalive_if_handler_done` included), `keepalive_sending` says
  whether the keepalive is queued or being sent, which it is once at most, the
  monitor's timer runs exactly while its output is idle and is due within
  `keepalive_time`, and nothing waits while the output is idle;
* `server_keeps_connected_client` (from `Ahead.run?`): while
  `keepalive_time + sendBound + delay` is below the server's timeout, the
  server's deadline for a connected client stays beyond the time by which its
  next message must arrive, so it never expires;
* `server_times_out_slow_link`: otherwise a run exists in which it expires.
-/

open Udpgw

section Model

/-- `UDPGW_KEEPALIVE_TIME`, the `keepalive_time` tun2socks passes to `SocksUdpGwClient_Init` (ms). -/
def udpgwKeepaliveTime : Nat := 10000

/-- `CLIENT_DISCONNECT_TIMEOUT` of the udpgw server (ms). -/
def clientDisconnectTimeout : Nat := 20000

/-- A packet in `send_queue` or on the monitor's output. -/
structure Packet where
  /-- it was sent through `keepalive_if` -/
  keepalive : Bool
  /-- the udpgw message, as the server's decoder hands it to `client_recv_if_handler_send` -/
  data : List UInt8
  deriving DecidableEq, Repr

/-- `keepalive_packet`: a `struct udpgw_header` with `UDPGW_CLIENT_FLAG_KEEPALIVE` and the conid 0 of the `memset`. -/
def keepalivePacket : Packet :=
  ⟨true, encodeHeader udpgwClientFlagKeepalive 0⟩

/-- The send side of `UdpGwClient`. -/
structure Sender where
  /-- `send_monitor`'s `timer`, as its deadline while it is set -/
  timer : Option Nat
  /-- the packet `send_monitor` passed to its output, with the time it did so -/
  output : Option (Packet × Nat)
  /-- the packets `send_queue` holds back while the monitor is busy -/
  waiting : List Packet
  keepaliveSending : Bool
  deriving DecidableEq, Repr

/-- `UdpGwClient_Init` at time 0: `PacketPassInactivityMonitor_Init` sets the timer. -/
def Sender.init (keepaliveTime : Nat) : Sender :=
  { timer := some keepaliveTime, output := none, waiting := [], keepaliveSending := false }

/-- What is being sent or queued. -/
def Sender.queued (o : Sender) : List Packet :=
  (o.output.map Prod.fst).toList ++ o.waiting

/-- `input_handler_send` of `PacketPassInactivityMonitor`: the packet goes to the output, and the timer stops. -/
def inputHandlerSend (o : Sender) (now : Nat) (packet : Packet) : Sender :=
  { o with output := some (packet, now), timer := none }

/-- A flow of `send_queue` sends `packet`: the queue passes it on at once to an idle monitor, else it waits. -/
def queueSend (o : Sender) (now : Nat) (packet : Packet) : Sender :=
  match o.output with
  | none => inputHandlerSend o now packet
  | some _ => { o with waiting := o.waiting ++ [packet] }

/-- `send_monitor_handler`. -/
def sendMonitorHandler (o : Sender) (now : Nat) : Sender :=
  if o.keepaliveSending then o
  else { queueSend o now keepalivePacket with keepaliveSending := true }

/-- `timer_handler` of the monitor, whose handler is `send_monitor_handler`. -/
def timerHandler (keepaliveTime : Nat) (o : Sender) (now : Nat) : Sender :=
  -- restart timer, then call the handler
  sendMonitorHandler { o with timer := some (now + keepaliveTime) } now

/-- `keepalive_if_handler_done`; `none` where its `ASSERT` fails. -/
def keepaliveIfHandlerDone (o : Sender) : Option Sender :=
  if o.keepaliveSending then some { o with keepaliveSending := false } else none

/-- `send_queue` finishes `packet`'s flow and passes the monitor the waiting packet `pick` it schedules next. -/
def queueDone (o : Sender) (now : Nat) (packet : Packet) (pick : Nat) : Option Sender :=
  let finished := if packet.keepalive then keepaliveIfHandlerDone o else some o
  finished.map fun o =>
    match o.waiting[pick]? with
    | some next => inputHandlerSend { o with waiting := o.waiting.eraseIdx pick } now next
    | none => o

/-- `output_handler_done` of the monitor: the sender after it, and the packet the output finished. -/
def outputHandlerDone (keepaliveTime : Nat) (o : Sender) (now pick : Nat) : Option (Sender × Packet) :=
  match o.output with
  | none => none
  | some (packet, _) =>
      -- output no longer busy, restart timer; then `Done` to `send_queue`
      (queueDone { o with output := none, timer := some (now + keepaliveTime) } now packet pick).map
        fun o => (o, packet)

/-- The client's `disconnect_timer` after `client_recv_if_handler_send` reads `data`: set again once the header is read. -/
def clientRecvIfHandlerSendTimer (timeout now deadline : Nat) (data : List UInt8) : Nat :=
  match parseHeader data with
  | .error _ => deadline
  | .ok _ => now + timeout

/-- The client's send side, the connection, and the server's timer for the client. -/
structure System where
  now : Nat
  sender : Sender
  /-- `have_server` of `UdpGwClient` -/
  haveServer : Bool
  /-- messages written to the connection and not yet read by the server, each with the time it was written -/
  inFlight : List (Nat × List UInt8)
  /-- the server's `disconnect_timer` for the client, as its deadline; `none` before the client is accepted and once `client_free` ran -/
  disconnectTimer : Option Nat
  deriving DecidableEq, Repr

/-- `UdpGwClient_Init` at time 0, before `UdpGwClient_ConnectServer`. -/
def init (keepaliveTime : Nat) : System :=
  { now := 0, sender := Sender.init keepaliveTime, haveServer := false, inFlight := [], disconnectTimer := none }

/-- What happens to one connection. -/
inductive Event
  /-- `connection_send`: a connection's flow sends a message into `send_queue` -/
  | submit (flags : UInt8) (conid : Nat) (addr : BAddr) (payload : List UInt8)
  /-- the stream finishes the monitor's packet, and `send_queue` schedules the waiting packet `pick` -/
  | outputDone (pick : Nat)
  /-- `send_monitor`'s timer expires -/
  | monitorTimer
  /-- `UdpGwClient_ConnectServer`, with the server's `listener_handler` accepting the client -/
  | connectServer
  /-- the server's decoder passes the oldest message on the connection to `client_recv_if_handler_send` -/
  | serverReceive
  /-- the server's `disconnect_timer` expires: `client_disconnect_timer_handler` frees the client -/
  | disconnectTimer
  /-- time passes -/
  | advance (d : Nat)

/-- One event; `none` where an `ASSERT` fails. -/
def Event.step? (keepaliveTime timeout : Nat) (s : System) : Event → Option System
  | .submit flags conid addr payload =>
      some { s with sender := queueSend s.sender s.now ⟨false, encode flags conid addr payload⟩ }
  | .outputDone pick =>
      (outputHandlerDone keepaliveTime s.sender s.now pick).map fun done =>
        { s with sender := done.1, inFlight := s.inFlight ++ [(s.now, done.2.data)] }
  | .monitorTimer =>
      some { s with sender := timerHandler keepaliveTime s.sender s.now }
  | .connectServer =>
      -- `PacketPassConnector_ConnectOutput` passes a held packet to the new stream
      some { s with
        haveServer := true
        disconnectTimer := some (s.now + timeout)
        sender := { s.sender with output := s.sender.output.map fun held => (held.1, s.now) } }
  | .serverReceive =>
      match s.inFlight with
      | [] => none
      | sent :: rest =>
          some { s with
            inFlight := rest
            disconnectTimer := s.disconnectTimer.map fun deadline =>
              clientRecvIfHandlerSendTimer timeout s.now deadline sent.2 }
  | .disconnectTimer =>
      some { s with disconnectTimer := none }
  | .advance d =>
      some { s with now := s.now + d }

/-- The events in turn. -/
def run? (keepaliveTime timeout : Nat) (s : System) : List Event → Option System
  | [] => some s
  | event :: rest => (event.step? keepaliveTime timeout s).bind fun s => run? keepaliveTime timeout s rest

/-- What the environment promises: the stream writes a packet within `sendBound`, the connection delivers within `delay`. -/
structure Link where
  sendBound : Nat
  delay : Nat

/-- The contracts of the reactors, the stream and the connection. -/
def Event.Allowed (link : Link) (s : System) : Event → Prop
  | .submit .. => True
  | .outputDone pick =>
      -- only a stream reports a packet done, and the queue schedules a waiting packet
      s.haveServer = true ∧ s.sender.output.isSome ∧ (s.sender.waiting = [] ∨ pick < s.sender.waiting.length)
  | .monitorTimer => s.sender.timer.any (· ≤ s.now)
  | .connectServer => s.haveServer = false
  | .serverReceive => s.inFlight ≠ []
  | .disconnectTimer => s.disconnectTimer.any (· ≤ s.now)
  | .advance d =>
      -- time does not pass a deadline
      s.sender.timer.all (s.now + d ≤ ·) ∧
      (s.haveServer = true → s.sender.output.all fun held => s.now + d ≤ held.2 + link.sendBound) ∧
      (∀ sent ∈ s.inFlight, s.now + d ≤ sent.1 + link.delay) ∧
      s.disconnectTimer.all (s.now + d ≤ ·)

instance (link : Link) (s : System) (event : Event) : Decidable (event.Allowed link s) := by
  cases event <;> (unfold Event.Allowed; infer_instance)

/-- A run in which every event keeps to its contract in the state it meets. -/
def AllowedRun (keepaliveTime timeout : Nat) (link : Link) : System → List Event → Prop
  | _, [] => True
  | s, event :: rest =>
      event.Allowed link s ∧ ∀ s', event.step? keepaliveTime timeout s = some s' →
        AllowedRun keepaliveTime timeout link s' rest

/-- Whether a run keeps to the contracts is computed along the run. -/
instance decidableAllowedRun (keepaliveTime timeout : Nat) (link : Link) :
    (s : System) → (events : List Event) → Decidable (AllowedRun keepaliveTime timeout link s events)
  | _, [] => isTrue trivial
  | s, event :: rest =>
      match stepped : event.step? keepaliveTime timeout s with
      | none => decidable_of_iff (event.Allowed link s) (by simp [AllowedRun, stepped])
      | some s' =>
          have := decidableAllowedRun keepaliveTime timeout link s' rest
          decidable_of_iff (event.Allowed link s ∧ AllowedRun keepaliveTime timeout link s' rest)
            (by simp [AllowedRun, stepped])

end Model

section SenderLemmas

/-- What holds of the send side between events. -/
structure Sender.Invariant (o : Sender) : Prop where
  /-- the monitor's timer runs exactly while its output is idle -/
  timer_isSome : o.timer.isSome = o.output.isNone
  /-- `send_queue` holds nothing back from an idle monitor -/
  waiting_of_idle : o.output = none → o.waiting = []
  /-- `keepalive_sending` counts the keepalive queued or being sent -/
  keepalive_count : o.queued.countP Packet.keepalive = o.keepaliveSending.toNat
  /-- every packet starts with a `struct udpgw_header` -/
  headers : ∀ packet ∈ o.queued, 3 ≤ packet.data.length

variable {o : Sender} {now : Nat} {packet : Packet}

theorem length_keepalivePacket : keepalivePacket.data.length = 3 := rfl

theorem three_le_length_encode (flags : UInt8) (conid : Nat) (addr : BAddr) (payload : List UInt8) :
    3 ≤ (encode flags conid addr payload).length := by
  simp [encode, encodeHeader, ByteMemory.length_le16]

theorem queued_of_output {start : Nat} (busy : o.output = some (packet, start)) :
    o.queued = packet :: o.waiting := by
  simp [Sender.queued, busy]

theorem queued_of_idle (idle : o.output = none) : o.queued = o.waiting := by
  simp [Sender.queued, idle]

/-- What `queueSend` does: an idle monitor takes the packet, a busy one leaves it waiting. -/
theorem queueSend_cases (o : Sender) (now : Nat) (packet : Packet) :
    (o.output = none ∧ queueSend o now packet = { o with output := some (packet, now), timer := none }) ∨
      (o.output.isSome ∧ queueSend o now packet = { o with waiting := o.waiting ++ [packet] }) := by
  cases busy : o.output with
  | none => exact .inl ⟨rfl, by simp [queueSend, busy, inputHandlerSend]⟩
  | some held => exact .inr ⟨rfl, by simp [queueSend, busy]⟩

@[simp] theorem keepaliveSending_queueSend (o : Sender) (now : Nat) (packet : Packet) :
    (queueSend o now packet).keepaliveSending = o.keepaliveSending := by
  rcases queueSend_cases o now packet with ⟨-, sent⟩ | ⟨-, appended⟩ <;> simp [*]

/-- The packet joins what is queued, at the back. -/
theorem queued_queueSend_perm (o : Sender) (now : Nat) (packet : Packet) :
    (queueSend o now packet).queued.Perm (packet :: o.queued) := by
  rcases queueSend_cases o now packet with ⟨idle, sent⟩ | ⟨busy, queued⟩
  · rw [sent, queued_of_idle idle]
    simp [Sender.queued]
  · obtain ⟨held, busy⟩ := Option.isSome_iff_exists.mp busy
    rw [queued, Sender.queued, Sender.queued, busy]
    simpa using List.perm_append_singleton packet (held.1 :: o.waiting)

/-- `send_queue` keeps the send side's invariant when a flow sends, with `keepalive_sending` counting the packet. -/
theorem Sender.Invariant.queueSend_spec (invariant : o.Invariant) (now : Nat) (header : 3 ≤ packet.data.length) :
    (queueSend o now packet).timer.isSome = (queueSend o now packet).output.isNone ∧
      ((queueSend o now packet).output = none → (queueSend o now packet).waiting = []) ∧
      (queueSend o now packet).queued.countP Packet.keepalive =
        o.keepaliveSending.toNat + packet.keepalive.toNat ∧
      ∀ queued ∈ (queueSend o now packet).queued, 3 ≤ queued.data.length := by
  have perm := queued_queueSend_perm o now packet
  refine ⟨?_, ?_, ?_, ?_⟩
  · rcases queueSend_cases o now packet with ⟨-, sent⟩ | ⟨busy, queued⟩
    · simp [sent]
    · simpa [queued, busy] using invariant.timer_isSome
  · rcases queueSend_cases o now packet with ⟨-, sent⟩ | ⟨busy, appended⟩
    · simp [sent]
    · intro idle
      have stillIdle : o.output = none := by simpa [appended] using idle
      simp [stillIdle] at busy
  · rw [perm.countP_eq, List.countP_cons, invariant.keepalive_count]
    cases packet.keepalive <;> simp
  · intro queued member
    rcases List.mem_cons.mp (perm.mem_iff.mp member) with rfl | earlier
    · exact header
    · exact invariant.headers queued earlier

/-- A message from a connection's flow keeps the send side's invariant. -/
theorem Sender.Invariant.queueSend_message (invariant : o.Invariant) (header : 3 ≤ packet.data.length)
    (message : packet.keepalive = false) : (queueSend o now packet).Invariant := by
  obtain ⟨timer, waiting, count, headers⟩ := invariant.queueSend_spec now header
  exact ⟨timer, waiting, by simpa [message] using count, headers⟩

/-- With the output idle, nothing is queued and no keepalive is under way. -/
theorem Sender.Invariant.keepaliveSending_of_idle (invariant : o.Invariant) (idle : o.output = none) :
    o.keepaliveSending = false := by
  have count := invariant.keepalive_count
  rw [queued_of_idle idle, invariant.waiting_of_idle idle] at count
  cases sending : o.keepaliveSending
  · rfl
  · simp [sending] at count

/-- The monitor's timer expires on an idle output: the keepalive goes out at once. -/
theorem Sender.Invariant.timerHandler_eq (invariant : o.Invariant) (keepaliveTime : Nat) (idle : o.output = none) :
    timerHandler keepaliveTime o now =
      { timer := none, output := some (keepalivePacket, now), waiting := [], keepaliveSending := true } := by
  have waiting := invariant.waiting_of_idle idle
  have sending := invariant.keepaliveSending_of_idle idle
  simp [timerHandler, sendMonitorHandler, queueSend, inputHandlerSend, idle, waiting, sending]

/-- The state `timer_handler` leaves keeps the invariant. -/
theorem keepalive_sent_invariant (now : Nat) :
    Sender.Invariant { timer := none, output := some (keepalivePacket, now), waiting := [], keepaliveSending := true } := by
  refine ⟨rfl, by simp, rfl, ?_⟩
  intro packet member
  simp only [Sender.queued, Option.map_some, Option.toList_some, List.singleton_append,
    List.mem_singleton] at member
  rw [member, length_keepalivePacket]

/-- The keepalive on the output is counted by `keepalive_sending`: the `ASSERT` of `keepalive_if_handler_done` holds. -/
theorem Sender.Invariant.keepaliveSending_of_output (invariant : o.Invariant) {start : Nat}
    (busy : o.output = some (packet, start)) (keepalive : packet.keepalive = true) : o.keepaliveSending = true := by
  have count := invariant.keepalive_count
  rw [queued_of_output busy, List.countP_cons, keepalive] at count
  cases sending : o.keepaliveSending
  · simp [sending] at count
  · rfl

/--
`output_handler_done` on a busy output: the packet it finished, and a send side
that keeps the invariant, either idle with the timer set `keepalive_time` ahead
or sending the packet `send_queue` scheduled.
-/
theorem Sender.Invariant.outputHandlerDone_spec (invariant : o.Invariant) (keepaliveTime now pick : Nat) {start : Nat}
    (busy : o.output = some (packet, start)) (scheduled : o.waiting = [] ∨ pick < o.waiting.length) :
    ∃ o', outputHandlerDone keepaliveTime o now pick = some (o', packet) ∧ o'.Invariant ∧
      ((o'.output = none ∧ o'.timer = some (now + keepaliveTime)) ∨ ∃ next, o'.output = some (next, now)) := by
  -- `send_queue` first finishes the packet's flow: for the keepalive, `keepalive_if_handler_done`
  obtain ⟨finished, finishedDef⟩ : ∃ finished : Sender, finished =
      { o with output := none, timer := some (now + keepaliveTime), keepaliveSending := o.keepaliveSending && !packet.keepalive } :=
    ⟨_, rfl⟩
  have done : (if packet.keepalive then keepaliveIfHandlerDone { o with output := none, timer := some (now + keepaliveTime) }
      else some { o with output := none, timer := some (now + keepaliveTime) }) = some finished := by
    cases keepalive : packet.keepalive
    · simp [finishedDef, keepalive]
    · simp [keepaliveIfHandlerDone, finishedDef, keepalive, invariant.keepaliveSending_of_output busy keepalive]
  have count : o.waiting.countP Packet.keepalive = finished.keepaliveSending.toNat := by
    have before := invariant.keepalive_count
    rw [queued_of_output busy, List.countP_cons] at before
    rw [finishedDef]
    cases keepalive : packet.keepalive <;> cases sending : o.keepaliveSending <;>
      simp [keepalive, sending] at before ⊢ <;> omega
  have headers : ∀ queued ∈ o.waiting, 3 ≤ queued.data.length := fun queued member =>
    invariant.headers queued (by simp [queued_of_output busy, member])
  -- then it passes the monitor the packet it schedules, if one waits
  cases next : o.waiting[pick]? with
  | none =>
      have empty : o.waiting = [] := by
        rcases scheduled with empty | inRange
        · exact empty
        · simp at next
          omega
      refine ⟨finished, ?_, ⟨by simp [finishedDef], fun _ => by simp [finishedDef, empty], ?_, ?_⟩,
        .inl ⟨by simp [finishedDef], by simp [finishedDef]⟩⟩
      · simp [outputHandlerDone, busy, queueDone, done, finishedDef, next]
      · simpa [Sender.queued, finishedDef] using count
      · simpa [Sender.queued, finishedDef] using headers
  | some scheduledPacket =>
      obtain ⟨inRange, picked⟩ := List.getElem?_eq_some_iff.mp next
      have perm : (scheduledPacket :: o.waiting.eraseIdx pick).Perm o.waiting := by
        rw [← picked]
        exact List.getElem_cons_eraseIdx_perm inRange
      refine ⟨inputHandlerSend { finished with waiting := o.waiting.eraseIdx pick } now scheduledPacket, ?_,
        ⟨by simp [inputHandlerSend], by simp [inputHandlerSend], ?_, ?_⟩, .inr ⟨scheduledPacket, rfl⟩⟩
      · simp [outputHandlerDone, busy, queueDone, done, finishedDef, next]
      · simp only [Sender.queued, inputHandlerSend, Option.map_some, Option.toList_some, List.singleton_append]
        rw [perm.countP_eq, count]
      · intro queued member
        simp only [Sender.queued, inputHandlerSend, Option.map_some, Option.toList_some,
          List.singleton_append] at member
        exact headers queued (perm.mem_iff.mp member)

/-- `PacketPassConnector_ConnectOutput` hands the held packet on at `now`: nothing queued changes. -/
theorem Sender.Invariant.restart (invariant : o.Invariant) (now : Nat) :
    Sender.Invariant { o with output := o.output.map fun held => (held.1, now) } := by
  have queued : Sender.queued { o with output := o.output.map fun held => (held.1, now) } = o.queued := by
    cases busy : o.output <;> simp [Sender.queued, busy]
  refine ⟨?_, ?_, ?_, ?_⟩
  · simpa using invariant.timer_isSome
  · simpa using invariant.waiting_of_idle
  · rw [queued]
    exact invariant.keepalive_count
  · rw [queued]
    exact invariant.headers

end SenderLemmas

section Contracts

theorem any_le_iff {timer : Option Nat} {now : Nat} :
    timer.any (· ≤ now) = true ↔ ∃ t, timer = some t ∧ t ≤ now := by
  cases timer <;> simp

theorem all_le_iff {timer : Option Nat} {later : Nat} :
    timer.all (later ≤ ·) = true ↔ ∀ t, timer = some t → later ≤ t := by
  cases timer <;> simp

/-- A message with a header sets the server's timer again. -/
theorem clientRecvIfHandlerSendTimer_of_header {timeout now deadline : Nat} {data : List UInt8}
    (header : 3 ≤ data.length) : clientRecvIfHandlerSendTimer timeout now deadline data = now + timeout := by
  match data, header with
  | _ :: _ :: _ :: _, _ => rfl

end Contracts

section Runs

variable {keepaliveTime timeout : Nat} {link : Link} {s s' : System}

/-- What holds of the whole system between events, whatever the times. -/
structure Invariant (keepaliveTime : Nat) (link : Link) (s : System) : Prop where
  sender : s.sender.Invariant
  /-- the monitor's timer is due within `keepalive_time`, and not past -/
  timer_window : ∀ t, s.sender.timer = some t → s.now ≤ t ∧ t ≤ s.now + keepaliveTime
  /-- the output got its packet in the past, and with a server the stream finishes it within `sendBound` -/
  output_window : ∀ held, s.sender.output = some held →
    held.2 ≤ s.now ∧ (s.haveServer = true → s.now ≤ held.2 + link.sendBound)
  /-- what is on the connection was written in the past and arrives within `delay` -/
  inFlight_window : ∀ sent ∈ s.inFlight, sent.1 ≤ s.now ∧ s.now ≤ sent.1 + link.delay
  /-- and starts with a `struct udpgw_header` -/
  inFlight_headers : ∀ sent ∈ s.inFlight, 3 ≤ sent.2.length
  /-- before `UdpGwClient_ConnectServer` there is no connection and no timer on the server -/
  unconnected : s.haveServer = false → s.inFlight = [] ∧ s.disconnectTimer = none

theorem invariant_init (keepaliveTime : Nat) (link : Link) : Invariant keepaliveTime link (init keepaliveTime) where
  sender := ⟨rfl, fun _ => rfl, rfl, by simp [Sender.queued, init, Sender.init]⟩
  timer_window := by simp [init, Sender.init]
  output_window := by simp [init, Sender.init]
  inFlight_window := by simp [init]
  inFlight_headers := by simp [init]
  unconnected := by simp [init]

/-- Every event within its contract runs without a failed `ASSERT` and keeps the invariant. -/
theorem Invariant.step? (invariant : Invariant keepaliveTime link s) (timeout : Nat) {event : Event}
    (allowed : event.Allowed link s) :
    ∃ s', event.step? keepaliveTime timeout s = some s' ∧ Invariant keepaliveTime link s' := by
  cases event with
  | submit flags conid addr payload =>
      refine ⟨_, rfl, ⟨invariant.sender.queueSend_message (three_le_length_encode flags conid addr payload) rfl,
        ?_, ?_, invariant.inFlight_window, invariant.inFlight_headers, invariant.unconnected⟩⟩
      · -- an idle monitor takes the message and stops its timer; a busy one keeps both
        rcases queueSend_cases s.sender s.now ⟨false, encode flags conid addr payload⟩ with ⟨-, sent⟩ | ⟨-, appended⟩
        · simp [sent]
        · simpa [appended] using invariant.timer_window
      · rcases queueSend_cases s.sender s.now ⟨false, encode flags conid addr payload⟩ with ⟨-, sent⟩ | ⟨-, appended⟩
        · simp [sent]
        · simpa [appended] using invariant.output_window
  | outputDone pick =>
      obtain ⟨server, busy, scheduled⟩ := allowed
      obtain ⟨⟨packet, start⟩, busy⟩ := Option.isSome_iff_exists.mp busy
      obtain ⟨o', done, senderInvariant, shape⟩ :=
        invariant.sender.outputHandlerDone_spec keepaliveTime s.now pick busy scheduled
      refine ⟨{ s with sender := o', inFlight := s.inFlight ++ [(s.now, packet.data)] },
        by simp [Event.step?, done], ⟨senderInvariant, ?_, ?_, ?_, ?_, by simp [server]⟩⟩
      · -- idle again with the timer a full `keepalive_time` ahead, or sending the next packet
        intro t timer
        dsimp only at timer ⊢
        rcases shape with ⟨-, restarted⟩ | ⟨next, sending⟩
        · rw [restarted, Option.some.injEq] at timer
          omega
        · have stopped := senderInvariant.timer_isSome
          simp [sending, timer] at stopped
      · intro held output
        dsimp only at output ⊢
        rcases shape with ⟨idle, -⟩ | ⟨next, sending⟩
        · simp [idle] at output
        · rw [sending, Option.some.injEq] at output
          subst output
          exact ⟨le_refl _, fun _ => Nat.le_add_right _ _⟩
      · intro sent member
        dsimp only at member ⊢
        rcases List.mem_append.mp member with earlier | written
        · exact invariant.inFlight_window sent earlier
        · simp only [List.mem_singleton] at written
          simp [written]
      · intro sent member
        rcases List.mem_append.mp member with earlier | written
        · exact invariant.inFlight_headers sent earlier
        · simp only [List.mem_singleton] at written
          rw [written]
          exact invariant.sender.headers packet (by simp [queued_of_output busy])
  | monitorTimer =>
      obtain ⟨t, timer, due⟩ := any_le_iff.mp allowed
      have idle : s.sender.output = none := by
        simpa [timer] using invariant.sender.timer_isSome.symm
      refine ⟨_, rfl, ⟨?_, ?_, ?_, invariant.inFlight_window, invariant.inFlight_headers, invariant.unconnected⟩⟩
      · rw [invariant.sender.timerHandler_eq keepaliveTime idle]
        exact keepalive_sent_invariant s.now
      · simp [invariant.sender.timerHandler_eq keepaliveTime idle]
      · simp [invariant.sender.timerHandler_eq keepaliveTime idle]
  | connectServer =>
      have unconnected := invariant.unconnected allowed
      refine ⟨_, rfl, ⟨invariant.sender.restart s.now, invariant.timer_window, ?_, ?_, ?_, by simp⟩⟩
      · intro held output
        simp only [Option.map_eq_some_iff] at output
        obtain ⟨_, -, rfl⟩ := output
        simp
      · simp [unconnected.1]
      · simp [unconnected.1]
  | serverReceive =>
      cases inFlight : s.inFlight with
      | nil => exact absurd inFlight allowed
      | cons sent rest =>
          refine ⟨{ s with
              inFlight := rest
              disconnectTimer := s.disconnectTimer.map fun deadline =>
                clientRecvIfHandlerSendTimer timeout s.now deadline sent.2 },
            by simp [Event.step?, inFlight], ⟨invariant.sender, invariant.timer_window,
            invariant.output_window, ?_, ?_, ?_⟩⟩
          · exact fun other member => invariant.inFlight_window other (by simp [inFlight, member])
          · exact fun other member => invariant.inFlight_headers other (by simp [inFlight, member])
          · intro unconnected
            simp [invariant.unconnected unconnected] at inFlight
  | disconnectTimer =>
      exact ⟨_, rfl, ⟨invariant.sender, invariant.timer_window, invariant.output_window,
        invariant.inFlight_window, invariant.inFlight_headers, fun unconnected => ⟨(invariant.unconnected unconnected).1, rfl⟩⟩⟩
  | advance d =>
      -- time stops at every deadline
      obtain ⟨timerLater, outputLater, inFlightLater, -⟩ := allowed
      refine ⟨_, rfl, ⟨invariant.sender, ?_, ?_, ?_, invariant.inFlight_headers, invariant.unconnected⟩⟩
      · intro t timer
        have before := invariant.timer_window t timer
        have later := all_le_iff.mp timerLater t timer
        simp only
        omega
      · intro held output
        have before := invariant.output_window held output
        refine ⟨by simp only; omega, fun server => ?_⟩
        have later := outputLater server
        rw [output] at later
        simpa using later
      · intro sent member
        have before := invariant.inFlight_window sent member
        have later := inFlightLater sent member
        simp only
        omega

/-- Every run within the contracts runs without a failed `ASSERT` and keeps the invariant. -/
theorem Invariant.run? (invariant : Invariant keepaliveTime link s) {events : List Event}
    (allowed : AllowedRun keepaliveTime timeout link s events) :
    ∃ s', Keepalive.run? keepaliveTime timeout s events = some s' ∧ Invariant keepaliveTime link s' := by
  induction events generalizing s with
  | nil => exact ⟨s, rfl, invariant⟩
  | cons event rest inductionHypothesis =>
      obtain ⟨here, later⟩ := allowed
      obtain ⟨next, stepped, kept⟩ := invariant.step? timeout here
      obtain ⟨s', ran, final⟩ := inductionHypothesis kept (later next stepped)
      exact ⟨s', by rw [Keepalive.run?, stepped, Option.bind_some, ran], final⟩

end Runs

section Deadline

variable {keepaliveTime timeout : Nat} {link : Link} {s s' : System}

/--
The time by which the server reads the client's next message: the oldest one
on the connection, else the one being written, else the keepalive the
monitor's timer will send.
-/
def nextArrival (link : Link) (s : System) : Nat :=
  match s.inFlight, s.sender.output with
  | sent :: _, _ => sent.1 + link.delay
  | [], some held => held.2 + link.sendBound + link.delay
  | [], none => s.sender.timer.getD 0 + link.sendBound + link.delay

/-- The server's deadline for a connected client lies beyond the client's next message. -/
def Ahead (link : Link) (s : System) : Prop :=
  s.haveServer = true → ∃ deadline, s.disconnectTimer = some deadline ∧ nextArrival link s < deadline

theorem nextArrival_of_inFlight {sent : Nat × List UInt8} {rest : List (Nat × List UInt8)}
    (inFlight : s.inFlight = sent :: rest) : nextArrival link s = sent.1 + link.delay := by
  simp [nextArrival, inFlight]

theorem nextArrival_of_output {held : Packet × Nat} (inFlight : s.inFlight = []) (output : s.sender.output = some held) :
    nextArrival link s = held.2 + link.sendBound + link.delay := by
  simp [nextArrival, inFlight, output]

theorem nextArrival_of_timer {t : Nat} (inFlight : s.inFlight = []) (idle : s.sender.output = none)
    (timer : s.sender.timer = some t) : nextArrival link s = t + link.sendBound + link.delay := by
  simp [nextArrival, inFlight, idle, timer]

/-- An idle monitor has its timer set. -/
theorem Invariant.timer_of_idle (invariant : Invariant keepaliveTime link s) (idle : s.sender.output = none) :
    ∃ t, s.sender.timer = some t :=
  Option.isSome_iff_exists.mp (by simpa [idle] using invariant.sender.timer_isSome)

/-- The next message is due now at the earliest. -/
theorem Invariant.now_le_nextArrival (invariant : Invariant keepaliveTime link s) (server : s.haveServer = true) :
    s.now ≤ nextArrival link s := by
  cases inFlight : s.inFlight with
  | cons sent rest =>
      rw [nextArrival_of_inFlight inFlight]
      exact (invariant.inFlight_window sent (by simp [inFlight])).2
  | nil =>
      cases output : s.sender.output with
      | some held =>
          have finishes := (invariant.output_window held output).2 server
          rw [nextArrival_of_output inFlight output]
          omega
      | none =>
          obtain ⟨t, timer⟩ := invariant.timer_of_idle output
          have due := (invariant.timer_window t timer).1
          rw [nextArrival_of_timer inFlight output timer]
          omega

/-- The next message is due within `keepalive_time + sendBound + delay`. -/
theorem Invariant.nextArrival_le (invariant : Invariant keepaliveTime link s) :
    nextArrival link s ≤ s.now + keepaliveTime + link.sendBound + link.delay := by
  cases inFlight : s.inFlight with
  | cons sent rest =>
      have written := (invariant.inFlight_window sent (by simp [inFlight])).1
      rw [nextArrival_of_inFlight inFlight]
      omega
  | nil =>
      cases output : s.sender.output with
      | some held =>
          have given := (invariant.output_window held output).1
          rw [nextArrival_of_output inFlight output]
          omega
      | none =>
          obtain ⟨t, timer⟩ := invariant.timer_of_idle output
          have due := (invariant.timer_window t timer).2
          rw [nextArrival_of_timer inFlight output timer]
          omega

/-- A deadline set `timeout` from now lies beyond the next message, when the link is fast enough. -/
theorem Invariant.nextArrival_lt (invariant : Invariant keepaliveTime link s)
    (fast : keepaliveTime + link.sendBound + link.delay < timeout) :
    nextArrival link s < s.now + timeout := by
  have within := invariant.nextArrival_le
  omega

/-- An event that gives an idle output a packet now, or leaves a busy one as it is, brings the next message no later. -/
theorem nextArrival_le_of_send (invariant : Invariant keepaliveTime link s) {o : Sender}
    (sent : (s.sender.output = none ∧ ∃ packet, o.output = some (packet, s.now)) ∨
      ∃ held, s.sender.output = some held ∧ o.output = some held) :
    nextArrival link { s with sender := o } ≤ nextArrival link s := by
  by_cases empty : s.inFlight = []
  · rcases sent with ⟨idle, packet, taken⟩ | ⟨held, busy, kept⟩
    · obtain ⟨t, timer⟩ := invariant.timer_of_idle idle
      have due := (invariant.timer_window t timer).1
      rw [nextArrival_of_timer empty idle timer, nextArrival_of_output (s := { s with sender := o }) empty taken]
      omega
    · rw [nextArrival_of_output empty busy, nextArrival_of_output (s := { s with sender := o }) empty kept]
  · obtain ⟨first, rest, inFlight⟩ := List.exists_cons_of_ne_nil empty
    rw [nextArrival_of_inFlight inFlight, nextArrival_of_inFlight (s := { s with sender := o }) inFlight]

/--
Every event within its contract keeps the server's deadline beyond the next
message: a message read sets it `timeout` ahead, and the client sends again
within `keepalive_time + sendBound + delay`.
-/
theorem Ahead.step? (fast : keepaliveTime + link.sendBound + link.delay < timeout)
    (invariant : Invariant keepaliveTime link s) (ahead : Ahead link s) {event : Event}
    (allowed : event.Allowed link s) (stepped : event.step? keepaliveTime timeout s = some s')
    (invariant' : Invariant keepaliveTime link s') : Ahead link s' := by
  cases event with
  | submit flags conid addr payload =>
      simp only [Event.step?, Option.some.injEq] at stepped
      subst stepped
      intro server
      obtain ⟨deadline, timer, beyond⟩ := ahead server
      refine ⟨deadline, timer, lt_of_le_of_lt (nextArrival_le_of_send invariant ?_) beyond⟩
      rcases queueSend_cases s.sender s.now ⟨false, encode flags conid addr payload⟩ with ⟨idle, sent⟩ | ⟨busy, appended⟩
      · exact .inl ⟨idle, ⟨false, encode flags conid addr payload⟩, by simp [sent]⟩
      · obtain ⟨held, busy⟩ := Option.isSome_iff_exists.mp busy
        exact .inr ⟨held, busy, by simp [appended, busy]⟩
  | outputDone pick =>
      obtain ⟨server, busy, -⟩ := allowed
      obtain ⟨⟨packet, start⟩, busy⟩ := Option.isSome_iff_exists.mp busy
      simp only [Event.step?, Option.map_eq_some_iff] at stepped
      obtain ⟨done, -, rfl⟩ := stepped
      obtain ⟨deadline, timer, beyond⟩ := ahead server
      refine fun _ => ⟨deadline, timer, lt_of_le_of_lt ?_ beyond⟩
      -- the written packet is due `delay` after now, at most what was due for it before
      by_cases empty : s.inFlight = []
      · have finishes := (invariant.output_window _ busy).2 server
        have written : ({ s with sender := done.1, inFlight := s.inFlight ++ [(s.now, done.2.data)] } : System).inFlight =
            (s.now, done.2.data) :: [] := by simp [empty]
        rw [nextArrival_of_output empty busy, nextArrival_of_inFlight written]
        omega
      · obtain ⟨first, rest, inFlight⟩ := List.exists_cons_of_ne_nil empty
        have oldest : ({ s with sender := done.1, inFlight := s.inFlight ++ [(s.now, done.2.data)] } : System).inFlight =
            first :: (rest ++ [(s.now, done.2.data)]) := by simp [inFlight]
        rw [nextArrival_of_inFlight inFlight, nextArrival_of_inFlight oldest]
  | monitorTimer =>
      obtain ⟨t, timer, due⟩ := any_le_iff.mp allowed
      have idle : s.sender.output = none := by
        simpa [timer] using invariant.sender.timer_isSome.symm
      have expired : t = s.now := le_antisymm due (invariant.timer_window t timer).1
      simp only [Event.step?, Option.some.injEq] at stepped
      subst stepped
      intro server
      obtain ⟨deadline, disconnectTimer, beyond⟩ := ahead server
      refine ⟨deadline, disconnectTimer, lt_of_le_of_lt (nextArrival_le_of_send invariant (.inl ⟨idle, keepalivePacket, ?_⟩)) beyond⟩
      rw [invariant.sender.timerHandler_eq keepaliveTime idle]
  | connectServer =>
      simp only [Event.step?, Option.some.injEq] at stepped
      subst stepped
      exact fun _ => ⟨_, rfl, invariant'.nextArrival_lt fast⟩
  | serverReceive =>
      cases inFlight : s.inFlight with
      | nil => exact absurd inFlight allowed
      | cons sent rest =>
          simp only [Event.step?, inFlight, Option.some.injEq] at stepped
          subst stepped
          intro server
          obtain ⟨deadline, timer, -⟩ := ahead server
          have header := invariant.inFlight_headers sent (by simp [inFlight])
          refine ⟨s.now + timeout, by simp [timer, clientRecvIfHandlerSendTimer_of_header header], ?_⟩
          exact invariant'.nextArrival_lt fast
  | disconnectTimer =>
      -- never due: the deadline lies beyond the next message, which is not yet due
      obtain ⟨t, timer, due⟩ := any_le_iff.mp allowed
      simp only [Event.step?, Option.some.injEq] at stepped
      subst stepped
      intro server
      obtain ⟨deadline, timer', beyond⟩ := ahead server
      rw [timer, Option.some.injEq] at timer'
      have notYet := invariant.now_le_nextArrival server
      omega
  | advance d =>
      simp only [Event.step?, Option.some.injEq] at stepped
      subst stepped
      exact ahead

/-- Every run within the contracts keeps the invariant and the server's deadline beyond the next message. -/
theorem Ahead.run? (fast : keepaliveTime + link.sendBound + link.delay < timeout)
    (invariant : Invariant keepaliveTime link s) (ahead : Ahead link s) {events : List Event}
    (allowed : AllowedRun keepaliveTime timeout link s events) :
    ∃ s', Keepalive.run? keepaliveTime timeout s events = some s' ∧ Invariant keepaliveTime link s' ∧ Ahead link s' := by
  induction events generalizing s with
  | nil => exact ⟨s, rfl, invariant, ahead⟩
  | cons event rest inductionHypothesis =>
      obtain ⟨here, later⟩ := allowed
      obtain ⟨next, stepped, kept⟩ := invariant.step? timeout here
      obtain ⟨s', ran, final⟩ :=
        inductionHypothesis kept (ahead.step? fast invariant here stepped kept) (later next stepped)
      exact ⟨s', by rw [Keepalive.run?, stepped, Option.bind_some, ran], final⟩

end Deadline

section Results

/--
Along every run of one udpgw connection within the contracts, from
`UdpGwClient_Init` on, no `ASSERT` fails, `keepalive_sending` is set exactly
while the keepalive is queued or being sent (so it is there once at most), the
monitor's timer runs exactly while its output is idle and is due within
`UDPGW_KEEPALIVE_TIME`, and `send_queue` holds nothing back from an idle output.
-/
theorem keepalive_monitor_bookkeeping (link : Link) {events : List Event}
    (allowed : AllowedRun udpgwKeepaliveTime clientDisconnectTimeout link (init udpgwKeepaliveTime) events) :
    ∃ s, run? udpgwKeepaliveTime clientDisconnectTimeout (init udpgwKeepaliveTime) events = some s ∧
      s.sender.queued.countP Packet.keepalive = s.sender.keepaliveSending.toNat ∧
      s.sender.timer.isSome = s.sender.output.isNone ∧
      (∀ t, s.sender.timer = some t → t ≤ s.now + udpgwKeepaliveTime) ∧
      (s.sender.output = none → s.sender.waiting = []) := by
  obtain ⟨s, ran, invariant⟩ := (invariant_init udpgwKeepaliveTime link).run? allowed
  exact ⟨s, ran, invariant.sender.keepalive_count, invariant.sender.timer_isSome,
    fun t timer => (invariant.timer_window t timer).2, invariant.sender.waiting_of_idle⟩

/-- A DNS query held until the server is connected, then a keepalive after ten idle seconds. -/
theorem keepalive_monitor_bookkeeping_dns_then_keepalive :
    ∃ s, run? udpgwKeepaliveTime clientDisconnectTimeout (init udpgwKeepaliveTime)
        [.submit 0 1 (.ipv4 ⟨#[8, 8, 8, 8], rfl⟩ ⟨#[0, 53], rfl⟩) [1, 2, 3], .connectServer, .advance 40,
          .outputDone 0, .advance 30, .serverReceive, .advance 9970, .monitorTimer, .advance 100,
          .outputDone 0, .advance 50, .serverReceive] = some s ∧
      s.sender.queued.countP Packet.keepalive = s.sender.keepaliveSending.toNat ∧
      s.sender.timer.isSome = s.sender.output.isNone ∧
      (∀ t, s.sender.timer = some t → t ≤ s.now + udpgwKeepaliveTime) ∧
      (s.sender.output = none → s.sender.waiting = []) :=
  keepalive_monitor_bookkeeping ⟨100, 50⟩ (by decide)

/--
The bound is exact: on a link whose write and delivery times bring
`UDPGW_KEEPALIVE_TIME` up to `CLIENT_DISCONNECT_TIMEOUT`, a run within the
contracts brings the server's `disconnect_timer` for a connected client due.
The client connects idle, and the keepalive its timer sends after ten seconds
is still on its way when the server's twenty seconds are up.
-/
theorem server_times_out_slow_link (link : Link)
    (slow : clientDisconnectTimeout ≤ udpgwKeepaliveTime + link.sendBound + link.delay) :
    ∃ events s, AllowedRun udpgwKeepaliveTime clientDisconnectTimeout link (init udpgwKeepaliveTime) events ∧
      run? udpgwKeepaliveTime clientDisconnectTimeout (init udpgwKeepaliveTime) events = some s ∧
      s.haveServer = true ∧ Event.disconnectTimer.Allowed link s := by
  simp only [udpgwKeepaliveTime, clientDisconnectTimeout] at slow ⊢
  by_cases writing : 10000 ≤ link.sendBound
  · -- the keepalive is still being written
    refine ⟨[.connectServer, .advance 10000, .monitorTimer, .advance 10000], _, ?_, rfl, rfl, ?_⟩
    · simp [AllowedRun, Event.Allowed, Event.step?, init, Sender.init, timerHandler, sendMonitorHandler,
        queueSend, inputHandlerSend]
      omega
    · simp [Event.Allowed, init, Sender.init]
  · -- the keepalive is written, and still on the connection
    refine ⟨[.connectServer, .advance 10000, .monitorTimer, .advance link.sendBound, .outputDone 0,
      .advance (10000 - link.sendBound)], _, ?_, rfl, rfl, ?_⟩
    · simp [AllowedRun, Event.Allowed, Event.step?, init, Sender.init, timerHandler, sendMonitorHandler,
        queueSend, inputHandlerSend, outputHandlerDone, queueDone, keepaliveIfHandlerDone, keepalivePacket]
      omega
    · simp [Event.Allowed, init, Sender.init]
      omega

/-- A link that writes at once and delivers in ten seconds loses the client. -/
theorem server_times_out_slow_link_ten_seconds :
    ∃ events s, AllowedRun udpgwKeepaliveTime clientDisconnectTimeout ⟨0, 10000⟩ (init udpgwKeepaliveTime) events ∧
      run? udpgwKeepaliveTime clientDisconnectTimeout (init udpgwKeepaliveTime) events = some s ∧
      s.haveServer = true ∧ Event.disconnectTimer.Allowed ⟨0, 10000⟩ s :=
  server_times_out_slow_link ⟨0, 10000⟩ (by decide)

end Results

end Keepalive

end Tun2SocksWinRT
