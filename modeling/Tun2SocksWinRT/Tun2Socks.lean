import Mathlib.Tactic.Ring

namespace Tun2SocksWinRT.Tun2Socks

/-!
# The life of a `tcp_client`

`tun2socks/tun2socks.c` relays one TCP connection from lwIP to a SOCKS server
in a `struct tcp_client`.  Bytes from the client are kept in `buf` until the
SOCKS send interface takes them, and are released to lwIP with `tcp_recved`;
bytes from SOCKS are kept in `socks_recv_buf` until `tcp_write` queues them.
Either side may go down first; the other side then drains what it still
holds, and `client_dealloc` frees the object once both are closed.

The object is driven by events: lwIP's callbacks (`client_recv_func`,
`client_sent_func`, `client_err_func`), the events of the SOCKS client, and
the completions of its stream interfaces.  What lwIP answers to the calls the
code makes into it (`tcp_sndbuf`, `tcp_write`, `tcp_output`, `tcp_close`) is
part of the event (`LwipAnswers`).  The jobs a `SYNC_COMMIT` runs inside a
callback are the events that follow it.

The record also holds what lwIP and the SOCKS client know: whether the pcb
still exists and which callbacks are set on it, and which stream operations
are outstanding.  Ghost fields count the calls and bytes the claims speak of:
the pcb released (`tcp_close` or `tcp_abort`), a pcb call after that
(`pcbMisuse`), `BSocksClient_Free`, `client_dealloc`, and the bytes accepted,
released, passed to SOCKS, received from SOCKS, written and acknowledged.

An `ASSERT` that fails makes a step `none`.  The handlers that can end in one
another (`client_free_client`, `client_handle_freed_client`,
`client_free_socks`) take fuel; `teardownFuel` is enough for every call
(`Consistent.step?_isSome`).
-/

/-- lwIP's `TCP_MSS` in tun2socks' `lwipopts.h`. -/
def tcpMss : Nat := 1460

/-- `TCP_WND`, lwIP's default `4 * TCP_MSS`; `sizeof(client->buf)`. -/
def tcpWnd : Nat := 4 * tcpMss

/-- `CLIENT_SOCKS_RECV_BUF_SIZE`. -/
def clientSocksRecvBufSize : Nat := 8192

/-- What `tcp_write` answers. -/
inductive WriteResult where
  | ok
  | mem
  | error
  deriving DecidableEq, Repr

/-- One round of the loop of `client_socks_recv_send_out`: what `tcp_sndbuf` reads and `tcp_write` answers. -/
structure WriteAttempt where
  sndbuf : Nat
  result : WriteResult
  deriving DecidableEq, Repr

/-- What lwIP answers within one event: the send-out loop's rounds (then the send buffer reads 0), `tcp_output`, `tcp_close`. -/
structure LwipAnswers where
  attempts : List WriteAttempt
  outputOk : Bool
  closeOk : Bool
  deriving DecidableEq, Repr

/-- Why the client side was closed. -/
inductive ClientEnd where
  /-- the client closed its side (`client_recv_func` with no data) -/
  | fin
  /-- lwIP freed the pcb (`client_err_func`) -/
  | error
  /-- `tcp_write` or `tcp_output` failed, or nothing could be queued -/
  | aborted
  /-- tun2socks closed it after SOCKS went down and everything was sent -/
  | socksDone
  deriving DecidableEq, Repr

/-- Why the SOCKS side was freed. -/
inductive SocksEnd where
  /-- `BSOCKSCLIENT_EVENT_ERROR` or `BSOCKSCLIENT_EVENT_ERROR_CLOSED` -/
  | failed
  /-- the client side was closed and everything it sent was passed on -/
  | clientDone
  deriving DecidableEq, Repr

/-- The events of the SOCKS client. -/
inductive SocksEvent where
  | up
  | error
  | errorClosed
  deriving DecidableEq, Repr

/-- A `struct tcp_client`, with lwIP's and the SOCKS client's view of it and the ghost counts. -/
structure TcpClient where
  aborted : Bool
  clientClosed : Bool
  bufUsed : Int
  socksUp : Bool
  socksClosed : Bool
  socksRecvBufUsed : Int
  socksRecvBufSent : Int
  socksRecvWaiting : Bool
  socksRecvTcpPending : Int
  /-- `client_dealloc` ran. -/
  freed : Bool
  /-- lwIP: the pcb exists and is the client's. -/
  pcbLive : Bool
  /-- lwIP: `tcp_recv`, `tcp_sent`, `tcp_err` are set on the pcb. -/
  recvRegistered : Bool
  sentRegistered : Bool
  errRegistered : Bool
  /-- SOCKS: the length of the outstanding `StreamPassInterface` send, or 0. -/
  sendRequested : Int
  /-- SOCKS: a `StreamRecvInterface` receive is outstanding. -/
  recvRequested : Bool
  /-- Ghost: `tcp_close` that succeeded and `tcp_abort`. -/
  pcbReleases : Nat
  /-- Ghost: some call into lwIP was made on a pcb that no longer existed. -/
  pcbMisuse : Bool
  /-- Ghost: `BSocksClient_Free` calls. -/
  socksFrees : Nat
  /-- Ghost: `client_dealloc` calls. -/
  deallocs : Nat
  /-- Ghost: bytes copied into `buf`. -/
  accepted : Nat
  /-- Ghost: bytes passed to `tcp_recved`. -/
  recved : Nat
  /-- Ghost: bytes the SOCKS send interface reported done. -/
  toSocks : Nat
  /-- Ghost: bytes the SOCKS receive interface delivered. -/
  fromSocks : Nat
  /-- Ghost: bytes `tcp_write` queued. -/
  written : Nat
  /-- Ghost: bytes `client_sent_func` reported acknowledged. -/
  acked : Nat
  clientEnd : Option ClientEnd
  socksEnd : Option SocksEnd

/-- A call into lwIP on the client's pcb: a misuse if the pcb is gone. -/
def usePcb (c : TcpClient) : TcpClient :=
  { c with pcbMisuse := c.pcbMisuse || !c.pcbLive }

/--
`listener_accept_func` once `BSocksClient_Init` succeeded.  `malloc` leaves
the receive-path fields as they were in memory: they are arguments.
-/
def listenerAcceptFunc (recvBufUsed recvBufSent : Int) (recvWaiting : Bool) (recvTcpPending : Int) : TcpClient where
  aborted := false
  clientClosed := false
  bufUsed := 0
  socksUp := false
  socksClosed := false
  socksRecvBufUsed := recvBufUsed
  socksRecvBufSent := recvBufSent
  socksRecvWaiting := recvWaiting
  socksRecvTcpPending := recvTcpPending
  freed := false
  pcbLive := true
  recvRegistered := true
  sentRegistered := false
  errRegistered := true
  sendRequested := 0
  recvRequested := false
  pcbReleases := 0
  pcbMisuse := false
  socksFrees := 0
  deallocs := 0
  accepted := 0
  recved := 0
  toSocks := 0
  fromSocks := 0
  written := 0
  acked := 0
  clientEnd := none
  socksEnd := none

/-- `client_dealloc`; `none` where an `ASSERT` fails. -/
def clientDealloc (c : TcpClient) : Option TcpClient :=
  if !c.clientClosed || !c.socksClosed then none
  else some { c with freed := true, deallocs := c.deallocs + 1 }

/-- `client_abort_pcb`: `tcp_abort`. -/
def clientAbortPcb (c : TcpClient) : Option TcpClient :=
  if c.aborted then none
  else some { usePcb c with pcbLive := false, pcbReleases := c.pcbReleases + 1, aborted := true }

/-- `tcp_err`, `tcp_recv` and `tcp_sent` with `NULL`. -/
def removeCallbacks (c : TcpClient) : TcpClient :=
  { usePcb c with recvRegistered := false, sentRegistered := false, errRegistered := false }

mutual

/-- `client_handle_freed_client`, recording why the client side went down. -/
def clientHandleFreedClient : Nat → LwipAnswers → ClientEnd → TcpClient → Option TcpClient
  | 0, _, _, _ => none
  | fuel + 1, lwip, reason, c =>
      if c.clientClosed then none
      else
        let c := { c with clientClosed := true, clientEnd := some reason }
        -- if we have data to be sent to SOCKS and can send it, keep sending
        if c.bufUsed > 0 ∧ !c.socksClosed then some c
        else if !c.socksClosed then clientFreeSocks fuel lwip .clientDone c
        else clientDealloc c

/-- `client_free_client`: `tcp_close`, or `tcp_abort` if that fails. -/
def clientFreeClient : Nat → LwipAnswers → ClientEnd → TcpClient → Option TcpClient
  | 0, _, _, _ => none
  | fuel + 1, lwip, reason, c =>
      if c.clientClosed then none
      else
        let c := removeCallbacks c
        let closed :=
          if lwip.closeOk then some { usePcb c with pcbLive := false, pcbReleases := c.pcbReleases + 1 }
          else clientAbortPcb (usePcb c)
        closed.bind (clientHandleFreedClient fuel lwip reason)

/-- `client_free_socks`, recording why the SOCKS side went down. -/
def clientFreeSocks : Nat → LwipAnswers → SocksEnd → TcpClient → Option TcpClient
  | 0, _, _, _ => none
  | fuel + 1, lwip, reason, c =>
      if c.socksClosed then none
      else
        -- stop receiving from client
        let c := if c.socksUp ∧ !c.clientClosed then { usePcb c with recvRegistered := false } else c
        -- free SOCKS
        let c := { c with
          socksClosed := true, socksEnd := some reason, socksFrees := c.socksFrees + 1
          sendRequested := 0, recvRequested := false }
        -- if we have data to be sent to the client and we can send it, keep sending
        if c.socksUp ∧ (c.socksRecvBufUsed ≥ 0 ∨ c.socksRecvTcpPending > 0) ∧ !c.clientClosed then some c
        else if !c.clientClosed then clientFreeClient fuel lwip .socksDone c
        else clientDealloc c

end

/-- `client_abort_client`. -/
def clientAbortClient (fuel : Nat) (lwip : LwipAnswers) (c : TcpClient) : Option TcpClient :=
  if c.clientClosed then none
  else (clientAbortPcb (removeCallbacks c)).bind (clientHandleFreedClient fuel lwip .aborted)

/-- `StreamPassInterface_Sender_Send` of the whole of `buf`: one send at a time, of at least one byte. -/
def socksSend (c : TcpClient) : Option TcpClient :=
  if c.sendRequested ≠ 0 ∨ c.bufUsed ≤ 0 then none else some { c with sendRequested := c.bufUsed }

/-- `client_send_to_socks`. -/
def clientSendToSocks (c : TcpClient) : Option TcpClient :=
  if c.socksClosed ∨ !c.socksUp ∨ ¬c.bufUsed > 0 then none else socksSend c

/-- `client_socks_recv_initiate`: a receive into the whole of `socks_recv_buf`. -/
def clientSocksRecvInitiate (c : TcpClient) : Option TcpClient :=
  if c.clientClosed ∨ c.socksClosed ∨ !c.socksUp ∨ c.socksRecvBufUsed ≠ -1 ∨ c.recvRequested then none
  else some { c with recvRequested := true }

/-- How the loop of `client_socks_recv_send_out` ended. -/
inductive LoopExit where
  /-- everything was queued -/
  | queued
  /-- the send buffer was full, or `tcp_write` said `ERR_MEM` -/
  | stopped
  /-- `tcp_write` failed otherwise -/
  | failed
  deriving DecidableEq, Repr

/-- The `do … while` loop of `client_socks_recv_send_out` over lwIP's answers. -/
def sendOutLoop (c : TcpClient) : List WriteAttempt → TcpClient × LoopExit
  | [] => (usePcb c, .stopped)
  | attempt :: rest =>
      let toWrite := min (c.socksRecvBufUsed - c.socksRecvBufSent) attempt.sndbuf
      if toWrite = 0 then (usePcb c, .stopped)
      else
        match attempt.result with
        | .mem => (usePcb c, .stopped)
        | .error => (usePcb c, .failed)
        | .ok =>
            let c := { usePcb c with
              socksRecvBufSent := c.socksRecvBufSent + toWrite
              socksRecvTcpPending := c.socksRecvTcpPending + toWrite
              written := c.written + toWrite.toNat }
            if c.socksRecvBufSent < c.socksRecvBufUsed then sendOutLoop c rest else (c, .queued)

/--
`client_socks_recv_send_out`, with whether it aborted the client (its `-1`).
`none` where an `ASSERT` fails.
-/
def clientSocksRecvSendOut (fuel : Nat) (lwip : LwipAnswers) (c : TcpClient) : Option (TcpClient × Bool) :=
  if c.clientClosed ∨ !c.socksUp ∨ ¬c.socksRecvBufUsed > 0 ∨ ¬c.socksRecvBufSent < c.socksRecvBufUsed ∨
      c.socksRecvWaiting then none
  else
    let (c, exit) := sendOutLoop c lwip.attempts
    if exit = .failed then (clientAbortClient fuel lwip c).map (·, true)
    -- start sending now
    else if !lwip.outputOk then (clientAbortClient fuel lwip (usePcb c)).map (·, true)
    else
      let c := usePcb c
      -- more data to queue?
      if c.socksRecvBufSent < c.socksRecvBufUsed then
        if c.socksRecvTcpPending = 0 then (clientAbortClient fuel lwip c).map (·, true)
        -- set waiting, continue in client_sent_func
        else some ({ c with socksRecvWaiting := true }, false)
      -- everything was queued
      else some ({ c with socksRecvBufUsed := -1 }, false)

/--
`client_recv_func` with `len` bytes.  The `ERR_MEM` branch ("no buffer for
data") leaves the client as it is.  The size test is on `size_t` in the
source; it is exact here because `buf_used` stays within `0 ..= TCP_WND`.
-/
def clientRecvFunc (c : TcpClient) (len : Nat) : Option TcpClient :=
  if c.clientClosed ∨ len = 0 then none
  -- check if we have enough buffer
  else if (len : Int) > tcpWnd - c.bufUsed then some c
  else
    let c := { c with bufUsed := c.bufUsed + len, accepted := c.accepted + len }
    -- if there was nothing in the buffer before, and SOCKS is up, start send data
    if c.bufUsed = (len : Int) ∧ c.socksUp then
      if c.socksClosed then none else clientSendToSocks c
    else some c

/-- `client_recv_func` with no data: the client closed its side. -/
def clientRecvFuncClosed (fuel : Nat) (lwip : LwipAnswers) (c : TcpClient) : Option TcpClient :=
  if c.clientClosed then none else clientFreeClient fuel lwip .fin c

/-- `client_err_func`: lwIP has freed the pcb, and with it the callbacks. -/
def clientErrFunc (fuel : Nat) (lwip : LwipAnswers) (c : TcpClient) : Option TcpClient :=
  if c.clientClosed then none
  else
    clientHandleFreedClient fuel lwip .error
      { c with pcbLive := false, recvRegistered := false, sentRegistered := false, errRegistered := false }

/-- `client_socks_handler`. -/
def clientSocksHandler (fuel : Nat) (lwip : LwipAnswers) (c : TcpClient) : SocksEvent → Option TcpClient
  | .error => if c.socksClosed then none else clientFreeSocks fuel lwip .failed c
  | .up =>
      if c.socksClosed ∨ c.socksUp then none
      else
        -- init sending and receiving
        let c := { c with socksRecvBufUsed := -1, socksRecvTcpPending := 0 }
        let c := if !c.clientClosed then { usePcb c with sentRegistered := true } else c
        let c := { c with socksUp := true }
        -- start sending data if there is any
        let sending := if c.bufUsed > (0 : Int) then clientSendToSocks c else some c
        -- start receiving data if client is still up
        sending.bind fun c => if !c.clientClosed then clientSocksRecvInitiate c else some c
  | .errorClosed => if c.socksClosed ∨ !c.socksUp then none else clientFreeSocks fuel lwip .failed c

/-- `client_socks_send_handler_done` with `dataLen` bytes done. -/
def clientSocksSendHandlerDone (fuel : Nat) (lwip : LwipAnswers) (c : TcpClient) (dataLen : Nat) :
    Option TcpClient :=
  if c.socksClosed ∨ !c.socksUp ∨ ¬c.bufUsed > 0 ∨ dataLen = 0 ∨ (dataLen : Int) > c.bufUsed then none
  else
    -- remove sent data from buffer
    let c := { c with bufUsed := c.bufUsed - dataLen, toSocks := c.toSocks + dataLen, sendRequested := 0 }
    -- confirm sent data
    let c := if !c.clientClosed then { usePcb c with recved := c.recved + dataLen } else c
    if c.bufUsed > 0 then socksSend c
    -- client was closed and we've sent everything we had buffered
    else if c.clientClosed then clientFreeSocks fuel lwip .clientDone c
    else some c

/-- `client_socks_recv_handler_done` with `dataLen` bytes received. -/
def clientSocksRecvHandlerDone (fuel : Nat) (lwip : LwipAnswers) (c : TcpClient) (dataLen : Nat) :
    Option TcpClient :=
  if dataLen = 0 ∨ dataLen > clientSocksRecvBufSize ∨ c.socksClosed ∨ !c.socksUp ∨ c.socksRecvBufUsed ≠ -1 then none
  else
    let c := { c with recvRequested := false, fromSocks := c.fromSocks + dataLen }
    -- if client was closed, stop receiving
    if c.clientClosed then some c
    else
      let c := { c with socksRecvBufUsed := dataLen, socksRecvBufSent := 0, socksRecvWaiting := false }
      match clientSocksRecvSendOut fuel lwip c with
      | none => none
      | some (c, true) => some c
      -- continue receiving if needed
      | some (c, false) => if c.socksRecvBufUsed = -1 then clientSocksRecvInitiate c else some c

/-- `client_sent_func` with `len` bytes acknowledged. -/
def clientSentFunc (fuel : Nat) (lwip : LwipAnswers) (c : TcpClient) (len : Nat) : Option TcpClient :=
  if c.clientClosed ∨ !c.socksUp ∨ len = 0 ∨ (len : Int) > c.socksRecvTcpPending then none
  else
    -- decrement pending
    let c := { c with socksRecvTcpPending := c.socksRecvTcpPending - len, acked := c.acked + len }
    -- continue queuing
    if c.socksRecvBufUsed > (0 : Int) then
      if !c.socksRecvWaiting ∨ ¬c.socksRecvBufSent < c.socksRecvBufUsed then none
      else
        match clientSocksRecvSendOut fuel lwip { c with socksRecvWaiting := false } with
        | none => none
        | some (c, true) => some c
        | some (c, false) =>
            -- we just queued some data, so it can't have been confirmed yet
            if ¬c.socksRecvTcpPending > 0 then none
            -- continue receiving if needed
            else if c.socksRecvBufUsed = -1 ∧ !c.socksClosed then clientSocksRecvInitiate c
            else some c
    -- have we sent everything after SOCKS was closed?
    else if c.socksClosed ∧ c.socksRecvTcpPending = 0 then clientFreeClient fuel lwip .socksDone c
    else some c

/-- Fuel for the teardown handlers: their longest chain is three calls, from `client_free_socks`. -/
def teardownFuel : Nat := 4

/-- An event on one client. -/
inductive Event where
  /-- lwIP: `client_recv_func` with `len` bytes -/
  | recv (len : Nat)
  /-- lwIP: `client_recv_func` with no data -/
  | recvClosed (lwip : LwipAnswers)
  /-- lwIP: `client_sent_func` -/
  | sent (len : Nat) (lwip : LwipAnswers)
  /-- lwIP: `client_err_func` -/
  | err (lwip : LwipAnswers)
  /-- the SOCKS client's handler -/
  | socks (event : SocksEvent) (lwip : LwipAnswers)
  /-- the SOCKS send interface's done -/
  | sendDone (dataLen : Nat) (lwip : LwipAnswers)
  /-- the SOCKS receive interface's done -/
  | recvDone (dataLen : Nat) (lwip : LwipAnswers)
  deriving DecidableEq, Repr

/-- One event; `none` where an `ASSERT` fails. -/
def Event.step? (c : TcpClient) : Event → Option TcpClient
  | .recv len => clientRecvFunc c len
  | .recvClosed lwip => clientRecvFuncClosed teardownFuel lwip c
  | .sent len lwip => clientSentFunc teardownFuel lwip c len
  | .err lwip => clientErrFunc teardownFuel lwip c
  | .socks event lwip => clientSocksHandler teardownFuel lwip c event
  | .sendDone dataLen lwip => clientSocksSendHandlerDone teardownFuel lwip c dataLen
  | .recvDone dataLen lwip => clientSocksRecvHandlerDone teardownFuel lwip c dataLen

/-- A run of events. -/
def run? (c : TcpClient) : List Event → Option TcpClient
  | [] => some c
  | event :: rest => (event.step? c).bind fun next => run? next rest

/--
What lwIP and the SOCKS client promise.  lwIP calls a callback while it is set
on the pcb (also after `tcp_close`, until lwIP frees the pcb), delivers at
least one byte, and reports acknowledged only bytes that `tcp_write` queued.
The SOCKS client reports UP once, ERROR_CLOSED only after UP, and nothing once
freed; its interfaces complete only an operation that was asked for, with at
least one byte and at most the amount asked.
-/
def Event.Allowed (c : TcpClient) : Event → Prop
  | .recv len => c.recvRegistered ∧ 0 < len
  | .recvClosed _ => c.recvRegistered
  | .sent len _ => c.sentRegistered ∧ 0 < len ∧ c.acked + len ≤ c.written
  | .err _ => c.errRegistered
  | .socks .up _ => c.socksEnd = none ∧ c.socksUp = false
  | .socks .error _ => c.socksEnd = none
  | .socks .errorClosed _ => c.socksEnd = none ∧ c.socksUp = true
  | .sendDone dataLen _ => c.socksEnd = none ∧ 0 < dataLen ∧ (dataLen : Int) ≤ c.sendRequested
  | .recvDone dataLen _ => c.socksEnd = none ∧ c.recvRequested ∧ 0 < dataLen ∧ dataLen ≤ clientSocksRecvBufSize

instance (c : TcpClient) : (event : Event) → Decidable (event.Allowed c)
  | .recv _ => inferInstanceAs (Decidable (_ ∧ _))
  | .recvClosed _ => inferInstanceAs (Decidable (_ = _))
  | .sent _ _ => inferInstanceAs (Decidable (_ ∧ _ ∧ _))
  | .err _ => inferInstanceAs (Decidable (_ = _))
  | .socks .up _ => inferInstanceAs (Decidable (_ ∧ _))
  | .socks .error _ => inferInstanceAs (Decidable (_ = _))
  | .socks .errorClosed _ => inferInstanceAs (Decidable (_ ∧ _))
  | .sendDone _ _ => inferInstanceAs (Decidable (_ ∧ _ ∧ _))
  | .recvDone _ _ => inferInstanceAs (Decidable (_ ∧ _ ∧ _ ∧ _))

/-- A run in which lwIP and the SOCKS client keep their promises at every event. -/
def AllowedRun (c : TcpClient) : List Event → Prop
  | [] => True
  | event :: rest => event.Allowed c ∧
      match event.step? c with
      | some next => AllowedRun next rest
      | none => False

/-! ## What the teardown handlers do -/

/-- The `tcp_close` and `tcp_abort` calls made when the client side ends for `reason`. -/
def releasesFor : Option ClientEnd → Nat
  | none => 0
  | some .error => 0
  | some _ => 1

/-- The client side once its pcb is released (or lost, for `.error`) and `client_closed` is set. -/
def clientGone (reason : ClientEnd) (aborts : Bool) (c : TcpClient) : TcpClient :=
  { c with
    clientClosed := true, clientEnd := some reason, aborted := c.aborted || aborts
    pcbLive := false, recvRegistered := false, sentRegistered := false, errRegistered := false
    pcbReleases := c.pcbReleases + releasesFor (some reason) }

/-- The SOCKS side once `BSocksClient_Free` ran and `socks_closed` is set. -/
def socksGone (reason : SocksEnd) (c : TcpClient) : TcpClient :=
  { c with
    socksClosed := true, socksEnd := some reason, socksFrees := c.socksFrees + 1
    recvRegistered := false, sendRequested := 0, recvRequested := false }

/-- `client_dealloc` done. -/
def deallocated (c : TcpClient) : TcpClient :=
  { c with freed := true, deallocs := c.deallocs + 1 }

/-- What `client_handle_freed_client` leaves once the client side is closed. -/
def settleClient (c : TcpClient) : TcpClient :=
  if c.bufUsed > 0 ∧ !c.socksClosed then c
  else if !c.socksClosed then deallocated (socksGone .clientDone c)
  else deallocated c

/-- What `client_free_socks` leaves once the SOCKS side is closed. -/
def settleSocks (lwip : LwipAnswers) (c : TcpClient) : TcpClient :=
  if c.socksUp ∧ (c.socksRecvBufUsed ≥ 0 ∨ c.socksRecvTcpPending > 0) ∧ !c.clientClosed then c
  else if !c.clientClosed then deallocated (clientGone .socksDone (!lwip.closeOk) c)
  else deallocated c

variable {c : TcpClient} {lwip : LwipAnswers}

theorem usePcb_of_live (live : c.pcbLive = true) : usePcb c = c := by
  cases c
  simp_all [usePcb]

theorem clientHandleFreedClient_eq (fuel : Nat) {reason : ClientEnd} (isOpen : c.clientClosed = false)
    (unregistered : c.recvRegistered = false) :
    clientHandleFreedClient (fuel + 2) lwip reason c =
      some (settleClient { c with clientClosed := true, clientEnd := some reason }) := by
  cases socksClosed : c.socksClosed
  · by_cases buffered : c.bufUsed > 0
    · simp [clientHandleFreedClient, settleClient, isOpen, socksClosed, buffered]
    · simp [clientHandleFreedClient, clientFreeSocks, clientDealloc, settleClient, deallocated, socksGone,
        isOpen, socksClosed, buffered, unregistered]
  · simp [clientHandleFreedClient, clientDealloc, settleClient, deallocated, isOpen, socksClosed]

/-- `client_free_client` on an open client: `tcp_close`, or `tcp_abort` when that fails, then the rest of the teardown. -/
theorem clientFreeClient_eq (fuel : Nat) {reason : ClientEnd} (releases : reason ≠ .error)
    (isOpen : c.clientClosed = false) (live : c.pcbLive = true) (notAborted : c.aborted = false) :
    clientFreeClient (fuel + 3) lwip reason c = some (settleClient (clientGone reason (!lwip.closeOk) c)) := by
  have releasesOne : releasesFor (some reason) = 1 := by
    cases reason <;> simp_all [releasesFor]
  cases closeOk : lwip.closeOk
  · simp [clientFreeClient, clientAbortPcb, removeCallbacks, usePcb, live, closeOk, isOpen,
      notAborted, clientHandleFreedClient_eq, clientGone, releasesOne]
  · simp [clientFreeClient, removeCallbacks, usePcb, live, closeOk, isOpen, notAborted,
      clientHandleFreedClient_eq, clientGone, releasesOne]

/-- `client_abort_client` on an open client. -/
theorem clientAbortClient_eq (fuel : Nat) (isOpen : c.clientClosed = false) (live : c.pcbLive = true)
    (notAborted : c.aborted = false) :
    clientAbortClient (fuel + 2) lwip c = some (settleClient (clientGone .aborted true c)) := by
  simp [clientAbortClient, clientAbortPcb, removeCallbacks, usePcb, live, isOpen, notAborted,
    clientHandleFreedClient_eq, clientGone, releasesFor]

/-- `client_err_func`: lwIP lost the pcb, and tun2socks released nothing. -/
theorem clientErrFunc_eq (fuel : Nat) (isOpen : c.clientClosed = false) :
    clientErrFunc (fuel + 2) lwip c = some (settleClient (clientGone .error false c)) := by
  simp [clientErrFunc, isOpen, clientHandleFreedClient_eq, clientGone, releasesFor]

/-- `client_free_socks`: SOCKS freed, then the client closed too unless it has data from SOCKS to drain. -/
theorem clientFreeSocks_eq (fuel : Nat) {reason : SocksEnd} (socksOpen : c.socksClosed = false)
    (live : c.pcbLive = !c.clientClosed) (notAborted : c.clientClosed = false → c.aborted = false)
    (unregistered : c.clientClosed = true → c.recvRegistered = false) :
    clientFreeSocks (fuel + 4) lwip reason c = some (settleSocks lwip (socksGone reason c)) := by
  cases clientClosed : c.clientClosed
  · simp only [clientClosed, Bool.not_false] at live
    have notAborted := notAborted clientClosed
    cases socksUp : c.socksUp
    · simp [clientFreeSocks, settleSocks, socksGone, clientClosed, socksOpen, socksUp, clientFreeClient_eq, live,
        notAborted, clientGone, deallocated, settleClient]
    · by_cases draining : c.socksRecvBufUsed ≥ 0 ∨ c.socksRecvTcpPending > 0
      · simp [clientFreeSocks, settleSocks, socksGone, usePcb, clientClosed, socksOpen, socksUp, live, draining]
      · simp [clientFreeSocks, settleSocks, socksGone, usePcb, clientClosed, socksOpen, socksUp, live, draining,
          clientFreeClient_eq, notAborted, clientGone, deallocated, settleClient]
  · simp [clientFreeSocks, settleSocks, socksGone, clientDealloc, deallocated, clientClosed, socksOpen,
      unregistered clientClosed]

/-! ## The send-out loop -/

/-- `n` more bytes from `socks_recv_buf` queued with `tcp_write`. -/
def wrote (n : Nat) (c : TcpClient) : TcpClient :=
  { c with
    socksRecvBufSent := c.socksRecvBufSent + n, socksRecvTcpPending := c.socksRecvTcpPending + n
    written := c.written + n }

theorem wrote_add (n m : Nat) (c : TcpClient) : wrote m (wrote n c) = wrote (n + m) c := by
  simp only [wrote, Nat.cast_add, Int.add_assoc, Nat.add_assoc]

/-- The loop queues some bytes, never more than `socks_recv_buf` holds. -/
theorem sendOutLoop_spec (attempts : List WriteAttempt) (live : c.pcbLive = true)
    (unsent : c.socksRecvBufSent < c.socksRecvBufUsed) :
    ∃ n exit, sendOutLoop c attempts = (wrote n c, exit) ∧ c.socksRecvBufSent + n ≤ c.socksRecvBufUsed := by
  induction attempts generalizing c with
  | nil =>
      exact ⟨0, .stopped, by simp [sendOutLoop, usePcb_of_live live, wrote], by simp; omega⟩
  | cons attempt rest inductionHypothesis =>
      -- one round writes `toWrite` bytes, then stops or goes on with the rest of lwIP's answers
      by_cases nothing : min (c.socksRecvBufUsed - c.socksRecvBufSent) attempt.sndbuf = 0
      · exact ⟨0, .stopped, by simp [sendOutLoop, nothing, usePcb_of_live live, wrote], by simp; omega⟩
      · obtain ⟨sndbuf, result⟩ := attempt
        set toWrite := min (c.socksRecvBufUsed - c.socksRecvBufSent) (sndbuf : Int) with toWriteEq
        have positive : 0 < toWrite := by omega
        have fits : toWrite ≤ c.socksRecvBufUsed - c.socksRecvBufSent := min_le_left _ _
        have next : { usePcb c with
            socksRecvBufSent := c.socksRecvBufSent + toWrite
            socksRecvTcpPending := c.socksRecvTcpPending + toWrite
            written := c.written + toWrite.toNat } = wrote toWrite.toNat c := by
          simp [usePcb_of_live live, wrote, Int.toNat_of_nonneg positive.le]
        cases result with
        | mem =>
            refine ⟨0, .stopped, ?_, by simp; omega⟩
            simp [sendOutLoop, ← toWriteEq, nothing, usePcb_of_live live, wrote]
        | error =>
            refine ⟨0, .failed, ?_, by simp; omega⟩
            simp [sendOutLoop, ← toWriteEq, nothing, usePcb_of_live live, wrote]
        | ok =>
            have sentEq : (wrote toWrite.toNat c).socksRecvBufSent = c.socksRecvBufSent + toWrite := by
              simp [wrote, Int.toNat_of_nonneg positive.le]
            have round : sendOutLoop c (⟨sndbuf, .ok⟩ :: rest) =
                if c.socksRecvBufSent + toWrite < c.socksRecvBufUsed then sendOutLoop (wrote toWrite.toNat c) rest
                else (wrote toWrite.toNat c, .queued) := by
              simp only [sendOutLoop, ← toWriteEq, nothing, if_false]
              rw [next]
              rfl
            by_cases more : c.socksRecvBufSent + toWrite < c.socksRecvBufUsed
            · obtain ⟨m, exit, loop, bound⟩ :=
                inductionHypothesis (c := wrote toWrite.toNat c) (by simpa [wrote] using live)
                  (by rw [sentEq]; exact more)
              rw [sentEq] at bound
              refine ⟨toWrite.toNat + m, exit, ?_, ?_⟩
              · rw [round, if_pos more, loop, wrote_add]
              · push_cast
                rw [Int.toNat_of_nonneg positive.le]
                simpa [wrote, Int.add_assoc] using bound
            · refine ⟨toWrite.toNat, .queued, ?_, ?_⟩
              · rw [round, if_neg more]
              · rw [Int.toNat_of_nonneg positive.le]
                exact Int.add_le_of_le_sub_left fits

/--
`client_socks_recv_send_out` queues `n` bytes and then either aborts the
client, or waits for `client_sent_func` with unsent data and some bytes not
yet acknowledged, or has queued the whole buffer.
-/
theorem clientSocksRecvSendOut_spec (fuel : Nat) (isOpen : c.clientClosed = false) (up : c.socksUp = true)
    (buffered : c.socksRecvBufUsed > 0) (unsent : c.socksRecvBufSent < c.socksRecvBufUsed)
    (notWaiting : c.socksRecvWaiting = false) (live : c.pcbLive = true) (notAborted : c.aborted = false) :
    ∃ n : Nat, c.socksRecvBufSent + n ≤ c.socksRecvBufUsed ∧
      (clientSocksRecvSendOut (fuel + 2) lwip c = some (settleClient (clientGone .aborted true (wrote n c)), true) ∨
        (c.socksRecvBufSent + n < c.socksRecvBufUsed ∧ c.socksRecvTcpPending + n ≠ 0 ∧
          clientSocksRecvSendOut (fuel + 2) lwip c = some ({ wrote n c with socksRecvWaiting := true }, false)) ∨
        (c.socksRecvBufSent + n = c.socksRecvBufUsed ∧
          clientSocksRecvSendOut (fuel + 2) lwip c = some ({ wrote n c with socksRecvBufUsed := -1 }, false))) := by
  obtain ⟨n, exit, loop, bound⟩ := sendOutLoop_spec lwip.attempts live unsent
  have wroteLive : (wrote n c).pcbLive = true := live
  have aborting : clientAbortClient (fuel + 2) lwip (wrote n c) =
      some (settleClient (clientGone .aborted true (wrote n c))) :=
    clientAbortClient_eq fuel isOpen live notAborted
  have unfolded : clientSocksRecvSendOut (fuel + 2) lwip c =
      if exit = .failed then (clientAbortClient (fuel + 2) lwip (wrote n c)).map (·, true)
      else if !lwip.outputOk then (clientAbortClient (fuel + 2) lwip (wrote n c)).map (·, true)
      else if c.socksRecvBufSent + n < c.socksRecvBufUsed then
        if c.socksRecvTcpPending + n = 0 then (clientAbortClient (fuel + 2) lwip (wrote n c)).map (·, true)
        else some ({ wrote n c with socksRecvWaiting := true }, false)
      else some ({ wrote n c with socksRecvBufUsed := -1 }, false) := by
    simp [clientSocksRecvSendOut, isOpen, up, buffered, unsent, notWaiting, loop, usePcb_of_live wroteLive]
    rfl
  refine ⟨n, bound, ?_⟩
  rw [unfolded]
  by_cases failed : exit = .failed
  · exact .inl (by simp [failed, aborting])
  · by_cases outputFailed : lwip.outputOk = false
    · exact .inl (by simp [failed, outputFailed, aborting])
    · have outputOk : lwip.outputOk = true := by simpa using outputFailed
      by_cases more : c.socksRecvBufSent + n < c.socksRecvBufUsed
      · by_cases confirmed : c.socksRecvTcpPending + n = 0
        · exact .inl (by simp [failed, outputOk, more, confirmed, aborting])
        · exact .inr (.inl ⟨more, confirmed, by simp [failed, outputOk, more, confirmed]⟩)
      · exact .inr (.inr ⟨by omega, by simp [failed, outputOk, more]⟩)

/-! ## The invariant -/

/-- Bytes from SOCKS in `socks_recv_buf` that `tcp_write` has not queued yet. -/
def unsent (c : TcpClient) : Int :=
  if c.socksRecvBufUsed = -1 then 0 else c.socksRecvBufUsed - c.socksRecvBufSent

/--
What holds of a `tcp_client` between events, and also in the middle of the
teardown.  How each side ended decides tun2socks' flags and lwIP's view of the
pcb, and every byte is accounted for on its way from the client to SOCKS and
from SOCKS to the client.  The receive path's fields are constrained only once
SOCKS is up: `malloc` leaves them undefined until `BSOCKSCLIENT_EVENT_UP`.
-/
structure Steady (c : TcpClient) : Prop where
  clientClosed_eq : c.clientClosed = c.clientEnd.isSome
  socksClosed_eq : c.socksClosed = c.socksEnd.isSome
  closed_of_aborted : c.aborted = true → c.clientClosed = true
  pcbLive_eq : c.pcbLive = !c.clientClosed
  recvRegistered_eq : c.recvRegistered = (!c.clientClosed && !c.socksClosed)
  sentRegistered_eq : c.sentRegistered = (!c.clientClosed && c.socksUp)
  errRegistered_eq : c.errRegistered = !c.clientClosed
  pcbReleases_eq : c.pcbReleases = releasesFor c.clientEnd
  pcbMisuse_eq : c.pcbMisuse = false
  socksFrees_eq : c.socksFrees = if c.socksClosed then 1 else 0
  freed_eq : c.freed = (c.clientClosed && c.socksClosed)
  deallocs_eq : c.deallocs = if c.freed then 1 else 0
  clientClosed_of_clientDone : c.socksEnd = some .clientDone → c.clientClosed = true
  socksClosed_of_socksDone : c.clientEnd = some .socksDone → c.socksClosed = true
  -- from the client to SOCKS
  bufUsed_eq : c.bufUsed = c.accepted - c.toSocks
  bufUsed_nonneg : 0 ≤ c.bufUsed
  bufUsed_le : c.bufUsed ≤ tcpWnd
  sendRequested_nonneg : 0 ≤ c.sendRequested
  sendRequested_le : c.sendRequested ≤ c.bufUsed
  up_of_sending : c.sendRequested ≠ 0 → c.socksUp = true ∧ c.socksClosed = false
  sending_of_buffered : c.socksUp = true → c.socksClosed = false → 0 < c.bufUsed → c.sendRequested ≠ 0
  drained_of_clientDone : c.socksEnd = some .clientDone → c.toSocks = c.accepted
  -- from SOCKS to the client
  recvBuf_bounds : c.socksUp = true → c.socksRecvBufUsed = -1 ∨
    (0 < c.socksRecvBufUsed ∧ c.socksRecvBufUsed ≤ clientSocksRecvBufSize ∧
      0 ≤ c.socksRecvBufSent ∧ c.socksRecvBufSent ≤ c.socksRecvBufUsed)
  unsent_of_waiting : c.socksUp = true → c.socksRecvBufUsed ≠ -1 → c.socksRecvWaiting = true →
    c.socksRecvBufSent < c.socksRecvBufUsed
  up_of_receiving : c.recvRequested = true →
    c.socksUp = true ∧ c.socksClosed = false ∧ c.socksRecvBufUsed = -1
  pending_eq : c.socksUp = true → c.socksRecvTcpPending = c.written - c.acked
  acked_le : c.acked ≤ c.written
  silent_of_down : c.socksUp = false → c.written = 0 ∧ c.fromSocks = 0
  delivered_of_socksDone : c.clientEnd = some .socksDone → c.fromSocks = c.written ∧ c.acked = c.written

/--
What holds while the client side is open: what SOCKS took was released to
lwIP, data from SOCKS that is not queued waits for `client_sent_func`, and
nothing from SOCKS is lost.
-/
structure ClientOpen (c : TcpClient) : Prop where
  recved_eq : c.recved = c.toSocks
  waiting_of_buffered : c.socksUp = true → c.socksRecvBufUsed ≠ -1 → c.socksRecvWaiting = true
  fromSocks_eq : c.socksUp = true → c.fromSocks = c.written + unsent c

/-- The invariant of a `tcp_client` between events. -/
structure Consistent (c : TcpClient) : Prop where
  steady : Steady c
  whileOpen : c.clientClosed = false → ClientOpen c

/-- An accepted client is consistent, whatever `malloc` left in the receive path's fields. -/
theorem consistent_listenerAcceptFunc (recvBufUsed recvBufSent : Int) (recvWaiting : Bool) (recvTcpPending : Int) :
    Consistent (listenerAcceptFunc recvBufUsed recvBufSent recvWaiting recvTcpPending) :=
  ⟨by constructor <;> simp [listenerAcceptFunc, releasesFor, tcpWnd, tcpMss],
    fun _ => by constructor <;> simp [listenerAcceptFunc]⟩

/-! What the invariant says of a side that is still open. -/

theorem Steady.clientEnd_of_open (steady : Steady c) (isOpen : c.clientClosed = false) : c.clientEnd = none := by
  simpa [isOpen] using steady.clientClosed_eq.symm

theorem Steady.socksEnd_of_open (steady : Steady c) (socksOpen : c.socksClosed = false) : c.socksEnd = none := by
  simpa [socksOpen] using steady.socksClosed_eq.symm

theorem Steady.not_freed (steady : Steady c) (eitherOpen : c.clientClosed = false ∨ c.socksClosed = false) :
    c.freed = false := by
  rcases eitherOpen with isOpen | socksOpen <;> simp [steady.freed_eq, *]

theorem Steady.deallocs_of_not_freed (steady : Steady c) (notFreed : c.freed = false) : c.deallocs = 0 := by
  simpa [notFreed] using steady.deallocs_eq

theorem Steady.socksFrees_of_open (steady : Steady c) (socksOpen : c.socksClosed = false) : c.socksFrees = 0 := by
  simpa [socksOpen] using steady.socksFrees_eq

theorem Steady.live (steady : Steady c) (isOpen : c.clientClosed = false) : c.pcbLive = true := by
  simpa [isOpen] using steady.pcbLive_eq

theorem Steady.notAborted (steady : Steady c) (isOpen : c.clientClosed = false) : c.aborted = false := by
  cases aborted : c.aborted
  · rfl
  · simpa [isOpen] using steady.closed_of_aborted aborted

/-- lwIP calls `client_recv_func` only while both sides are open. -/
theorem Steady.open_of_recvRegistered (steady : Steady c) (registered : c.recvRegistered = true) :
    c.clientClosed = false ∧ c.socksClosed = false := by
  simpa [steady.recvRegistered_eq] using registered

/-- lwIP calls `client_sent_func` only while the client is open and SOCKS is up. -/
theorem Steady.open_of_sentRegistered (steady : Steady c) (registered : c.sentRegistered = true) :
    c.clientClosed = false ∧ c.socksUp = true := by
  simpa [steady.sentRegistered_eq] using registered

/-- lwIP calls `client_err_func` only while the client is open. -/
theorem Steady.open_of_errRegistered (steady : Steady c) (registered : c.errRegistered = true) :
    c.clientClosed = false := by
  simpa [steady.errRegistered_eq] using registered

/-- The client side closed while SOCKS goes on: nothing of the open client's facts is needed any more. -/
theorem Steady.closeClient {reason : ClientEnd} {aborts : Bool} (steady : Steady c)
    (isOpen : c.clientClosed = false) (socksOpen : c.socksClosed = false)
    (delivered : reason = .socksDone → c.socksClosed = true ∧ c.fromSocks = c.written ∧ c.acked = c.written) :
    Consistent (clientGone reason aborts c) := by
  have clientEnd := steady.clientEnd_of_open isOpen
  have freed := steady.not_freed (.inl isOpen)
  have notDone : reason ≠ .socksDone := fun done => by simpa [socksOpen] using (delivered done).1
  refine ⟨{ steady with
    clientClosed_eq := by simp [clientGone]
    closed_of_aborted := fun _ => rfl
    pcbLive_eq := rfl
    recvRegistered_eq := rfl
    sentRegistered_eq := rfl
    errRegistered_eq := rfl
    pcbReleases_eq := by simp [clientGone, steady.pcbReleases_eq, clientEnd, releasesFor]
    freed_eq := by simp [clientGone, freed, socksOpen]
    clientClosed_of_clientDone := fun _ => rfl
    socksClosed_of_socksDone := fun ended => absurd (by simpa [clientGone] using ended) notDone
    delivered_of_socksDone := fun ended => absurd (by simpa [clientGone] using ended) notDone },
    fun closed => nomatch closed⟩

/-- SOCKS freed while the client drains what it sent. -/
theorem Consistent.closeSocks {reason : SocksEnd} (inv : Consistent c) (isOpen : c.clientClosed = false)
    (socksOpen : c.socksClosed = false) (drained : reason = .clientDone → c.clientClosed = true ∧ c.bufUsed = 0) :
    Consistent (socksGone reason c) := by
  have steady := inv.steady
  have socksFrees := steady.socksFrees_of_open socksOpen
  have freed := steady.not_freed (.inl isOpen)
  have notDone : reason ≠ .clientDone := fun done => by simpa [isOpen] using (drained done).1
  have stillOpen := inv.whileOpen isOpen
  refine ⟨{ steady with
    socksClosed_eq := by simp [socksGone]
    recvRegistered_eq := by simp [socksGone, isOpen]
    socksFrees_eq := by simp [socksGone, socksFrees]
    freed_eq := by simp [socksGone, freed, isOpen]
    clientClosed_of_clientDone := fun ended => absurd (by simpa [socksGone] using ended) notDone
    socksClosed_of_socksDone := fun _ => rfl
    sendRequested_nonneg := le_refl 0
    sendRequested_le := steady.bufUsed_nonneg
    up_of_sending := fun sending => absurd rfl sending
    sending_of_buffered := fun _ closed => nomatch closed
    drained_of_clientDone := fun ended => absurd (by simpa [socksGone] using ended) notDone
    up_of_receiving := fun requested => nomatch requested },
    fun _ => { stillOpen with }⟩

/-- SOCKS freed after the client side, which ends the client: `client_dealloc`. -/
theorem Steady.closeSocks_deallocated {reason : SocksEnd} (steady : Steady c)
    (isClosed : c.clientClosed = true) (socksOpen : c.socksClosed = false)
    (drained : reason = .clientDone → c.clientClosed = true ∧ c.bufUsed = 0) :
    Consistent (deallocated (socksGone reason c)) := by
  have socksFrees := steady.socksFrees_of_open socksOpen
  have freed := steady.not_freed (.inr socksOpen)
  have deallocs := steady.deallocs_of_not_freed freed
  refine ⟨{ steady with
    socksClosed_eq := by simp [socksGone, deallocated]
    recvRegistered_eq := by simp [socksGone, deallocated, isClosed]
    socksFrees_eq := by simp [socksGone, deallocated, socksFrees]
    freed_eq := by simp [socksGone, deallocated, isClosed]
    deallocs_eq := by simp [socksGone, deallocated, deallocs]
    clientClosed_of_clientDone := fun _ => isClosed
    socksClosed_of_socksDone := fun _ => rfl
    sendRequested_nonneg := le_refl 0
    sendRequested_le := steady.bufUsed_nonneg
    up_of_sending := fun sending => absurd rfl sending
    sending_of_buffered := fun _ closed => nomatch closed
    drained_of_clientDone := fun ended => by
      have empty := (drained (by simpa [socksGone, deallocated] using ended)).2
      have := steady.bufUsed_eq
      simp only [socksGone, deallocated]
      omega
    up_of_receiving := fun requested => nomatch requested },
    fun closed => by simp [socksGone, deallocated, isClosed] at closed⟩

/-- The client side closed after SOCKS, which ends the client: `client_dealloc`. -/
theorem Steady.closeClient_deallocated {reason : ClientEnd} {aborts : Bool} (steady : Steady c)
    (isOpen : c.clientClosed = false) (socksClosed : c.socksClosed = true)
    (delivered : reason = .socksDone → c.socksClosed = true ∧ c.fromSocks = c.written ∧ c.acked = c.written) :
    Consistent (deallocated (clientGone reason aborts c)) := by
  have clientEnd := steady.clientEnd_of_open isOpen
  have freed := steady.not_freed (.inl isOpen)
  have deallocs := steady.deallocs_of_not_freed freed
  refine ⟨{ steady with
    clientClosed_eq := by simp [clientGone, deallocated]
    closed_of_aborted := fun _ => rfl
    pcbLive_eq := rfl
    recvRegistered_eq := rfl
    sentRegistered_eq := rfl
    errRegistered_eq := rfl
    pcbReleases_eq := by simp [clientGone, deallocated, steady.pcbReleases_eq, clientEnd, releasesFor]
    freed_eq := by simp [clientGone, deallocated, socksClosed]
    deallocs_eq := by simp [clientGone, deallocated, deallocs]
    clientClosed_of_clientDone := fun _ => rfl
    socksClosed_of_socksDone := fun _ => socksClosed
    delivered_of_socksDone := fun ended => (delivered (by simpa [clientGone, deallocated] using ended)).2 },
    fun closed => by simp [clientGone, deallocated] at closed⟩

/-- Whatever closed the client side, the teardown that follows leaves the client consistent. -/
theorem Steady.afterClientClosed {reason : ClientEnd} {aborts : Bool} (steady : Steady c)
    (isOpen : c.clientClosed = false)
    (delivered : reason = .socksDone → c.socksClosed = true ∧ c.fromSocks = c.written ∧ c.acked = c.written) :
    Consistent (settleClient (clientGone reason aborts c)) := by
  unfold settleClient
  split_ifs with waiting socksOpen
  · exact steady.closeClient isOpen (by simpa [clientGone] using waiting.2) delivered
  · -- nothing left for SOCKS: it is freed as well
    have socksOpen : c.socksClosed = false := by simpa [clientGone] using socksOpen
    have empty : c.bufUsed = 0 := by
      have := steady.bufUsed_nonneg
      simp only [clientGone, socksOpen, Bool.not_false, and_true] at waiting
      omega
    exact (steady.closeClient isOpen socksOpen delivered).steady.closeSocks_deallocated rfl socksOpen
      (fun _ => ⟨rfl, empty⟩)
  · have socksClosed : c.socksClosed = true := by simpa [clientGone] using socksOpen
    exact steady.closeClient_deallocated isOpen socksClosed delivered

/-- With SOCKS idle, everything it delivered was written to the client and acknowledged. -/
theorem Consistent.delivered_of_idle (inv : Consistent c) (isOpen : c.clientClosed = false)
    (idle : ¬(c.socksUp = true ∧ (c.socksRecvBufUsed ≥ 0 ∨ c.socksRecvTcpPending > 0))) :
    c.fromSocks = c.written ∧ c.acked = c.written := by
  have acked := inv.steady.acked_le
  cases up : c.socksUp
  · obtain ⟨silent, nothing⟩ := inv.steady.silent_of_down up
    omega
  · have emptied : c.socksRecvBufUsed = -1 := by
      rcases inv.steady.recvBuf_bounds up with empty | ⟨positive, -⟩
      · exact empty
      · simp only [up, true_and] at idle
        omega
    have fromSocks := (inv.whileOpen isOpen).fromSocks_eq up
    have pending := inv.steady.pending_eq up
    simp only [unsent, emptied, if_true, Int.add_zero] at fromSocks
    simp only [up, true_and] at idle
    omega

/-- Whatever freed the SOCKS side, the teardown that follows leaves the client consistent. -/
theorem Consistent.afterSocksClosed {reason : SocksEnd} (inv : Consistent c) (socksOpen : c.socksClosed = false)
    (drained : reason = .clientDone → c.clientClosed = true ∧ c.bufUsed = 0) :
    Consistent (settleSocks lwip (socksGone reason c)) := by
  unfold settleSocks
  split_ifs with draining isOpen
  · exact inv.closeSocks (by simpa [socksGone] using draining.2.2) socksOpen drained
  · -- nothing left for the client: it is closed as well
    have isOpen : c.clientClosed = false := by simpa [socksGone] using isOpen
    have idle : ¬(c.socksUp = true ∧ (c.socksRecvBufUsed ≥ 0 ∨ c.socksRecvTcpPending > 0)) := by
      simpa [socksGone, isOpen] using draining
    exact (inv.closeSocks isOpen socksOpen drained).steady.closeClient_deallocated isOpen rfl
      (fun _ => ⟨rfl, inv.delivered_of_idle isOpen idle⟩)
  · have isClosed : c.clientClosed = true := by simpa [socksGone] using isOpen
    exact inv.steady.closeSocks_deallocated isClosed socksOpen drained

/-! ## Each event keeps the invariant -/

/-- `client_free_socks` as the events call it. -/
theorem Steady.clientFreeSocks {reason : SocksEnd} (steady : Steady c) (socksOpen : c.socksClosed = false) :
    clientFreeSocks teardownFuel lwip reason c = some (settleSocks lwip (socksGone reason c)) :=
  clientFreeSocks_eq 0 socksOpen steady.pcbLive_eq steady.notAborted
    (fun isClosed => by simpa [isClosed] using steady.recvRegistered_eq)

/-- `client_free_client` as the events call it. -/
theorem Steady.clientFreeClient {reason : ClientEnd} (steady : Steady c) (releases : reason ≠ .error)
    (isOpen : c.clientClosed = false) :
    clientFreeClient teardownFuel lwip reason c = some (settleClient (clientGone reason (!lwip.closeOk) c)) :=
  clientFreeClient_eq 1 releases isOpen (steady.live isOpen) (steady.notAborted isOpen)

theorem Consistent.clientErrFunc {c' : TcpClient} (inv : Consistent c)
    (stepped : clientErrFunc teardownFuel lwip c = some c') : Consistent c' := by
  cases isOpen : c.clientClosed
  · change Tun2Socks.clientErrFunc (2 + 2) lwip c = some c' at stepped
    rw [clientErrFunc_eq 2 isOpen] at stepped
    cases stepped
    exact inv.steady.afterClientClosed isOpen (fun done => nomatch done)
  · simp [Tun2Socks.clientErrFunc, isOpen] at stepped

theorem Consistent.clientRecvFuncClosed {c' : TcpClient} (inv : Consistent c)
    (stepped : clientRecvFuncClosed teardownFuel lwip c = some c') : Consistent c' := by
  cases isOpen : c.clientClosed
  · rw [Tun2Socks.clientRecvFuncClosed, isOpen, if_neg Bool.false_ne_true,
      inv.steady.clientFreeClient (by decide : ClientEnd.fin ≠ .error) isOpen] at stepped
    cases stepped
    exact inv.steady.afterClientClosed isOpen (fun done => nomatch done)
  · simp [Tun2Socks.clientRecvFuncClosed, isOpen] at stepped

/-- `BSOCKSCLIENT_EVENT_UP`: the receive path starts empty, a send of what `buf` holds and a receive start. -/
theorem clientSocksHandler_up_eq (fuel : Nat) (steady : Steady c) (socksOpen : c.socksClosed = false)
    (notUp : c.socksUp = false) :
    clientSocksHandler fuel lwip c .up = some { c with
      socksRecvBufUsed := -1, socksRecvTcpPending := 0, socksUp := true, sentRegistered := !c.clientClosed
      sendRequested := c.bufUsed, recvRequested := !c.clientClosed } := by
  have idle : c.sendRequested = 0 := by
    by_contra sending
    simpa [notUp] using (steady.up_of_sending sending).1
  have notReceiving : c.recvRequested = false := by
    cases requested : c.recvRequested
    · rfl
    · simpa [notUp] using (steady.up_of_receiving requested).1
  cases isOpen : c.clientClosed
  · have live := steady.live isOpen
    by_cases buffered : c.bufUsed > 0
    · simp [clientSocksHandler, clientSendToSocks, socksSend, clientSocksRecvInitiate, usePcb, socksOpen, notUp,
        isOpen, live, buffered, idle, notReceiving, not_le.mpr buffered]
    · have empty : c.bufUsed = 0 := le_antisymm (not_lt.mp buffered) steady.bufUsed_nonneg
      simp [clientSocksHandler, clientSocksRecvInitiate, usePcb, socksOpen, notUp, isOpen, live, empty, idle,
        notReceiving]
  · have unsent : c.sentRegistered = false := by simpa [isOpen] using steady.sentRegistered_eq
    by_cases buffered : c.bufUsed > 0
    · simp [clientSocksHandler, clientSendToSocks, socksSend, socksOpen, notUp, isOpen, buffered, idle,
        notReceiving, unsent, not_le.mpr buffered]
    · have empty : c.bufUsed = 0 := le_antisymm (not_lt.mp buffered) steady.bufUsed_nonneg
      simp [clientSocksHandler, socksOpen, notUp, isOpen, empty, idle, notReceiving, unsent]

theorem Consistent.clientSocksHandler {c' : TcpClient} {event : SocksEvent} (inv : Consistent c)
    (stepped : clientSocksHandler teardownFuel lwip c event = some c') : Consistent c' := by
  have steady := inv.steady
  cases socksOpen : c.socksClosed
  · cases event with
    | error =>
        simp only [Tun2Socks.clientSocksHandler, socksOpen, Bool.false_eq_true, if_false,
          steady.clientFreeSocks socksOpen, Option.some.injEq] at stepped
        exact stepped ▸ inv.afterSocksClosed socksOpen (fun failed => nomatch failed)
    | errorClosed =>
        cases up : c.socksUp
        · simp [Tun2Socks.clientSocksHandler, up] at stepped
        · simp only [Tun2Socks.clientSocksHandler, socksOpen, up, Bool.not_true, Bool.false_eq_true, or_self,
            if_false, steady.clientFreeSocks socksOpen, Option.some.injEq] at stepped
          exact stepped ▸ inv.afterSocksClosed socksOpen (fun failed => nomatch failed)
    | up =>
        cases up : c.socksUp
        · rw [clientSocksHandler_up_eq _ steady socksOpen up] at stepped
          cases stepped
          -- the receive path starts here: nothing buffered, nothing written
          obtain ⟨silent, nothing⟩ := steady.silent_of_down up
          have acked := steady.acked_le
          refine ⟨{ steady with
            sentRegistered_eq := by simp
            sendRequested_nonneg := steady.bufUsed_nonneg
            sendRequested_le := le_refl _
            up_of_sending := fun _ => ⟨rfl, socksOpen⟩
            sending_of_buffered := fun _ _ buffered => ne_of_gt buffered
            recvBuf_bounds := fun _ => .inl rfl
            unsent_of_waiting := fun _ notEmpty => absurd rfl notEmpty
            up_of_receiving := fun _ => ⟨rfl, socksOpen, rfl⟩
            pending_eq := fun _ => by simp only; omega
            silent_of_down := fun down => nomatch down }, fun isOpen => ?_⟩
          exact {
            recved_eq := (inv.whileOpen isOpen).recved_eq
            waiting_of_buffered := fun _ notEmpty => absurd rfl notEmpty
            fromSocks_eq := fun _ => by simp [unsent, silent, nothing] }
        · simp [Tun2Socks.clientSocksHandler, up] at stepped
  · cases event <;> simp [Tun2Socks.clientSocksHandler, socksOpen] at stepped

/--
`client_recv_func` with data either refuses it (`ERR_MEM`) or appends it to
`buf`, and starts a send to SOCKS when `buf` was empty and SOCKS is up.
-/
theorem clientRecvFunc_cases {len : Nat} {c' : TcpClient} (stepped : clientRecvFunc c len = some c') :
    (c' = c ∧ (len : Int) > tcpWnd - c.bufUsed) ∨
      (c.clientClosed = false ∧ (len : Int) ≤ tcpWnd - c.bufUsed ∧
        (c.bufUsed = 0 ∧ c.socksUp = true → c.socksClosed = false ∧ c.sendRequested = 0) ∧
        c' = { c with
          bufUsed := c.bufUsed + len, accepted := c.accepted + len
          sendRequested := if c.bufUsed = 0 ∧ c.socksUp = true then c.bufUsed + len else c.sendRequested }) := by
  unfold clientRecvFunc at stepped
  by_cases refused : c.clientClosed = true ∨ len = 0
  · simp [refused] at stepped
  have isOpen : c.clientClosed = false := by simpa using (not_or.mp refused).1
  have positive : (0 : Int) < len := by have := (not_or.mp refused).2; omega
  rw [if_neg refused] at stepped
  by_cases noBuffer : (len : Int) > tcpWnd - c.bufUsed
  · rw [if_pos noBuffer] at stepped
    exact .inl ⟨(Option.some.inj stepped).symm, noBuffer⟩
  rw [if_neg noBuffer] at stepped
  simp only at stepped
  by_cases sending : c.bufUsed = 0 ∧ c.socksUp = true
  · -- `buf` was empty and SOCKS is up: `client_send_to_socks`
    rw [if_pos ⟨by omega, sending.2⟩] at stepped
    by_cases socksClosed : c.socksClosed = true
    · simp [socksClosed] at stepped
    have socksOpen : c.socksClosed = false := by simpa using socksClosed
    by_cases idle : c.sendRequested = 0
    · refine .inr ⟨isOpen, by omega, fun _ => ⟨socksOpen, idle⟩, ?_⟩
      have buffered : c.bufUsed + len > 0 := by omega
      simp [socksOpen, clientSendToSocks, sending.2, socksSend, idle, buffered] at stepped
      simp [← stepped, sending, socksOpen]
    · simp [socksOpen, clientSendToSocks, sending.2, socksSend, idle] at stepped
  · rw [if_neg (fun wasEmpty => sending ⟨by omega, wasEmpty.2⟩)] at stepped
    refine .inr ⟨isOpen, by omega, fun wasEmpty => absurd wasEmpty sending, ?_⟩
    simp [← Option.some.inj stepped, sending]

theorem Consistent.clientRecvFunc {len : Nat} {c' : TcpClient} (inv : Consistent c)
    (stepped : clientRecvFunc c len = some c') : Consistent c' := by
  rcases clientRecvFunc_cases stepped with ⟨refused, -⟩ | ⟨isOpen, fits, sendable, accepted⟩
  · exact refused ▸ inv
  · subst accepted
    have steady := inv.steady
    have nonneg := steady.bufUsed_nonneg
    have requested := steady.sendRequested_le
    have requestedNonneg := steady.sendRequested_nonneg
    refine ⟨{ steady with
      bufUsed_eq := by have := steady.bufUsed_eq; simp only; push_cast; omega
      bufUsed_nonneg := by simp only; omega
      bufUsed_le := by simp only; omega
      sendRequested_nonneg := by simp only; split_ifs <;> omega
      sendRequested_le := by simp only; split_ifs <;> omega
      up_of_sending := fun sending => by
        simp only at sending ⊢
        split_ifs at sending with started
        · exact ⟨started.2, (sendable started).1⟩
        · exact steady.up_of_sending sending
      sending_of_buffered := fun up socksOpen buffered => by
        simp only at up socksOpen buffered ⊢
        split_ifs with started
        · omega
        · -- SOCKS already had the earlier bytes: its send is still outstanding
          exact steady.sending_of_buffered up socksOpen (by simp only [up, and_true] at started; omega)
      drained_of_clientDone := fun ended => by simpa [isOpen] using steady.clientClosed_of_clientDone ended },
      fun _ => { inv.whileOpen isOpen with }⟩

/-- `client_socks_send_handler_done` up to the teardown: `k` bytes left `buf`, and a send of the rest is asked. -/
def sentToSocks (k : Nat) (c : TcpClient) : TcpClient :=
  { c with
    bufUsed := c.bufUsed - k, toSocks := c.toSocks + k, sendRequested := c.bufUsed - k
    recved := if c.clientClosed then c.recved else c.recved + k }

theorem Steady.sentToSocks {k : Nat} (steady : Steady c) (socksOpen : c.socksClosed = false)
    (up : c.socksUp = true) (fits : (k : Int) ≤ c.bufUsed) : Steady (sentToSocks k c) := by
  have nonneg := steady.bufUsed_nonneg
  exact { steady with
    bufUsed_eq := by have := steady.bufUsed_eq; simp only [Tun2Socks.sentToSocks]; push_cast; omega
    bufUsed_nonneg := by simp only [Tun2Socks.sentToSocks]; omega
    bufUsed_le := by have := steady.bufUsed_le; simp only [Tun2Socks.sentToSocks]; omega
    sendRequested_nonneg := by simp only [Tun2Socks.sentToSocks]; omega
    sendRequested_le := le_refl _
    up_of_sending := fun _ => ⟨up, socksOpen⟩
    sending_of_buffered := fun _ _ buffered => ne_of_gt buffered
    drained_of_clientDone := fun ended => by
      have socksEnd := steady.socksClosed_eq
      simp only [Tun2Socks.sentToSocks] at ended
      simp [socksOpen, ended] at socksEnd }

/-- `client_socks_send_handler_done` when its `ASSERT`s hold. -/
theorem clientSocksSendHandlerDone_eq {k : Nat} (steady : Steady c) (socksOpen : c.socksClosed = false)
    (up : c.socksUp = true) (positive : 0 < k) (fits : (k : Int) ≤ c.bufUsed) :
    clientSocksSendHandlerDone teardownFuel lwip c k =
      some (if c.bufUsed = k ∧ c.clientClosed = true then settleSocks lwip (socksGone .clientDone (sentToSocks k c))
        else sentToSocks k c) := by
  have accepted :
      ¬(c.socksClosed = true ∨ (!c.socksUp) = true ∨ ¬c.bufUsed > 0 ∨ k = 0 ∨ (k : Int) > c.bufUsed) := by
    simp only [socksOpen, up, Bool.not_true, Bool.false_eq_true, false_or, not_or, not_lt]
    omega
  unfold clientSocksSendHandlerDone
  rw [if_neg accepted]
  simp only
  by_cases more : c.bufUsed - k > 0
  · -- the rest of `buf` is sent again
    have notEmptied : ¬(c.bufUsed = k ∧ c.clientClosed = true) := fun emptied => by omega
    have more' : (k : Int) < c.bufUsed := by omega
    rw [if_neg notEmptied]
    by_cases isClosed : c.clientClosed = true
    · simp [isClosed, more', socksSend, Tun2Socks.sentToSocks]
    · have isOpen : c.clientClosed = false := by simpa using isClosed
      simp [isOpen, steady.live isOpen, usePcb, more', socksSend, Tun2Socks.sentToSocks]
  · have emptied : c.bufUsed = k := by omega
    by_cases isClosed : c.clientClosed = true
    · -- the client went first and SOCKS has had everything: free SOCKS
      have teardown : clientFreeSocks teardownFuel lwip .clientDone (sentToSocks k c) =
          some (settleSocks lwip (socksGone .clientDone (sentToSocks k c))) :=
        (steady.sentToSocks socksOpen up fits).clientFreeSocks socksOpen
      have both : c.bufUsed = k ∧ c.clientClosed = true := ⟨emptied, isClosed⟩
      rw [if_pos both, ← teardown]
      simp only [isClosed, Bool.not_true, Bool.false_eq_true, if_false, if_true, more]
      congr 1
      simp [Tun2Socks.sentToSocks, isClosed, emptied]
    · have isOpen : c.clientClosed = false := by simpa using isClosed
      have notBoth : ¬(c.bufUsed = k ∧ c.clientClosed = true) := fun both => isClosed both.2
      rw [if_neg notBoth]
      simp [isOpen, steady.live isOpen, usePcb, emptied, Tun2Socks.sentToSocks]

theorem clientSocksSendHandlerDone_cases {k : Nat} {c' : TcpClient} (steady : Steady c)
    (stepped : clientSocksSendHandlerDone teardownFuel lwip c k = some c') :
    c.socksClosed = false ∧ c.socksUp = true ∧ 0 < k ∧ (k : Int) ≤ c.bufUsed ∧
      c' = if c.bufUsed = k ∧ c.clientClosed = true then settleSocks lwip (socksGone .clientDone (sentToSocks k c))
        else sentToSocks k c := by
  by_cases refused : c.socksClosed = true ∨ (!c.socksUp) = true ∨ ¬c.bufUsed > 0 ∨ k = 0 ∨ (k : Int) > c.bufUsed
  · rw [clientSocksSendHandlerDone, if_pos refused] at stepped
    cases stepped
  simp only [not_or, Bool.not_eq_true, Bool.not_eq_false', not_lt] at refused
  obtain ⟨socksOpen, up, -, positive, fits⟩ := refused
  rw [clientSocksSendHandlerDone_eq steady socksOpen up (Nat.pos_of_ne_zero positive) fits] at stepped
  exact ⟨socksOpen, up, Nat.pos_of_ne_zero positive, fits, (Option.some.inj stepped).symm⟩

theorem Consistent.clientSocksSendHandlerDone {k : Nat} {c' : TcpClient} (inv : Consistent c)
    (stepped : clientSocksSendHandlerDone teardownFuel lwip c k = some c') : Consistent c' := by
  obtain ⟨socksOpen, up, -, fits, result⟩ := clientSocksSendHandlerDone_cases inv.steady stepped
  have sent : Consistent (sentToSocks k c) := by
    refine ⟨inv.steady.sentToSocks socksOpen up fits, fun isOpen => ?_⟩
    have isOpen : c.clientClosed = false := isOpen
    have stillOpen := inv.whileOpen isOpen
    -- the bytes SOCKS took are released to lwIP with `tcp_recved`
    exact { stillOpen with recved_eq := by simp [Tun2Socks.sentToSocks, isOpen, stillOpen.recved_eq] }
  rw [result]
  split_ifs with emptied
  · exact sent.afterSocksClosed socksOpen (fun _ => ⟨emptied.2, by simp [Tun2Socks.sentToSocks, emptied.1]⟩)
  · exact sent

/-- Bytes queued with `tcp_write` stay accounted for: written, not yet acknowledged, within the buffer. -/
theorem Steady.wrote {n : Nat} (steady : Steady c) (isOpen : c.clientClosed = false) (up : c.socksUp = true)
    (buffered : 0 < c.socksRecvBufUsed) (bounded : c.socksRecvBufUsed ≤ clientSocksRecvBufSize)
    (start : 0 ≤ c.socksRecvBufSent) (fits : c.socksRecvBufSent + n ≤ c.socksRecvBufUsed)
    (notWaiting : c.socksRecvWaiting = false) : Steady (wrote n c) := by
  have clientEnd := steady.clientEnd_of_open isOpen
  exact { steady with
    recvBuf_bounds := fun _ => .inr ⟨buffered, bounded, by simp only [Tun2Socks.wrote]; omega, fits⟩
    unsent_of_waiting := fun _ _ waiting => absurd waiting (by simp [Tun2Socks.wrote, notWaiting])
    pending_eq := fun _ => by have := steady.pending_eq up; simp only [Tun2Socks.wrote]; push_cast; omega
    acked_le := by have := steady.acked_le; simp only [Tun2Socks.wrote]; omega
    silent_of_down := fun down => absurd up (by simpa [Tun2Socks.wrote] using down)
    delivered_of_socksDone := fun ended => by simp [Tun2Socks.wrote, clientEnd] at ended }

/--
After `client_socks_recv_send_out` the client is consistent again, whether it
aborted the client, waits for `client_sent_func`, or queued everything.
-/
theorem Steady.clientSocksRecvSendOut {aborted : Bool} {c' : TcpClient} (steady : Steady c)
    (isOpen : c.clientClosed = false) (up : c.socksUp = true) (buffered : 0 < c.socksRecvBufUsed)
    (bounded : c.socksRecvBufUsed ≤ clientSocksRecvBufSize) (start : 0 ≤ c.socksRecvBufSent)
    (unsent : c.socksRecvBufSent < c.socksRecvBufUsed) (notWaiting : c.socksRecvWaiting = false)
    (recved : c.recved = c.toSocks)
    (fromSocks : c.fromSocks = c.written + (c.socksRecvBufUsed - c.socksRecvBufSent))
    (sentOut : clientSocksRecvSendOut teardownFuel lwip c = some (c', aborted)) : Consistent c' := by
  obtain ⟨n, fits, outcome⟩ := @clientSocksRecvSendOut_spec c lwip 2 isOpen up buffered unsent notWaiting
    (steady.live isOpen) (steady.notAborted isOpen)
  have queued := steady.wrote isOpen up buffered bounded start fits notWaiting
  change Tun2Socks.clientSocksRecvSendOut (2 + 2) lwip c = _ at sentOut
  rcases outcome with abort | ⟨more, -, waiting⟩ | ⟨all, emptied⟩
  · rw [abort] at sentOut
    cases sentOut
    exact queued.afterClientClosed isOpen (fun done => nomatch done)
  · -- unsent bytes wait for `client_sent_func`
    rw [waiting] at sentOut
    cases sentOut
    refine ⟨{ queued with unsent_of_waiting := fun _ _ _ => by simpa [Tun2Socks.wrote] using more }, fun _ => ?_⟩
    exact {
      recved_eq := recved
      waiting_of_buffered := fun _ _ => rfl
      fromSocks_eq := fun _ => by
        have notEmpty : c.socksRecvBufUsed ≠ -1 := by omega
        simp only [Tun2Socks.unsent, Tun2Socks.wrote, notEmpty, if_false]
        omega }
  · -- everything was queued: `socks_recv_buf` is free again
    rw [emptied] at sentOut
    cases sentOut
    refine ⟨{ queued with
      recvBuf_bounds := fun _ => .inl rfl
      unsent_of_waiting := fun _ notEmpty => absurd rfl notEmpty
      up_of_receiving := fun requested => by
        obtain ⟨up, socksOpen, -⟩ := steady.up_of_receiving requested
        exact ⟨up, socksOpen, rfl⟩ }, fun _ => ?_⟩
    exact {
      recved_eq := recved
      waiting_of_buffered := fun _ notEmpty => absurd rfl notEmpty
      fromSocks_eq := fun _ => by
        simp only [Tun2Socks.unsent, Tun2Socks.wrote, if_true]
        omega }

theorem Consistent.clientSocksRecvInitiate {c' : TcpClient} (inv : Consistent c)
    (stepped : clientSocksRecvInitiate c = some c') : Consistent c' := by
  unfold Tun2Socks.clientSocksRecvInitiate at stepped
  split_ifs at stepped with refused
  simp only [not_or, Bool.not_eq_true, Bool.not_eq_false', ne_eq, not_not] at refused
  obtain ⟨-, socksOpen, up, emptied, -⟩ := refused
  cases stepped
  exact ⟨{ inv.steady with up_of_receiving := fun _ => ⟨up, socksOpen, emptied⟩ },
    fun isOpen => { inv.whileOpen isOpen with }⟩

theorem Consistent.clientSocksRecvHandlerDone {len : Nat} {c' : TcpClient} (inv : Consistent c)
    (stepped : clientSocksRecvHandlerDone teardownFuel lwip c len = some c') : Consistent c' := by
  have steady := inv.steady
  unfold Tun2Socks.clientSocksRecvHandlerDone at stepped
  by_cases refused : len = 0 ∨ len > clientSocksRecvBufSize ∨ c.socksClosed = true ∨ (!c.socksUp) = true ∨
      c.socksRecvBufUsed ≠ -1
  · rw [if_pos refused] at stepped
    cases stepped
  rw [if_neg refused] at stepped
  simp only [not_or, Bool.not_eq_true, Bool.not_eq_false', ne_eq, not_not, not_lt] at refused
  obtain ⟨positive, bounded, socksOpen, up, emptied⟩ := refused
  have notDone : c.clientEnd ≠ some .socksDone := fun done => by
    simpa [socksOpen] using steady.socksClosed_of_socksDone done
  simp only at stepped
  by_cases isClosed : c.clientClosed = true
  · -- the client is gone: what SOCKS delivered is dropped
    rw [if_pos isClosed] at stepped
    cases stepped
    exact ⟨{ steady with
      up_of_receiving := fun requested => nomatch requested
      silent_of_down := fun down => absurd up (by simpa using down)
      delivered_of_socksDone := fun done => absurd done notDone },
      fun isOpen => absurd isClosed (by simpa using isOpen)⟩
  · have isOpen : c.clientClosed = false := by simpa using isClosed
    rw [if_neg isClosed] at stepped
    have fromSocks := (inv.whileOpen isOpen).fromSocks_eq up
    simp only [Tun2Socks.unsent, emptied, if_true, Int.add_zero] at fromSocks
    -- the state `client_socks_recv_send_out` starts from: `len` bytes in `socks_recv_buf`, none sent
    have received : Steady ({ c with
        recvRequested := false, fromSocks := c.fromSocks + len
        socksRecvBufUsed := len, socksRecvBufSent := 0, socksRecvWaiting := false } : TcpClient) :=
      { steady with
        recvBuf_bounds := fun _ => .inr ⟨by simp only; omega, by simp only; omega, le_refl 0, by simp only; omega⟩
        unsent_of_waiting := fun _ _ waiting => nomatch waiting
        up_of_receiving := fun requested => nomatch requested
        silent_of_down := fun down => absurd up (by simpa using down)
        delivered_of_socksDone := fun done => absurd done notDone }
    split at stepped
    · cases stepped
    · next sentOut =>
        cases stepped
        exact received.clientSocksRecvSendOut isOpen up (by simp only; omega) (by simp only; omega) (le_refl 0)
          (by simp only; omega) rfl (inv.whileOpen isOpen).recved_eq (by simp only; omega) sentOut
    · next queued sentOut =>
        have sent := received.clientSocksRecvSendOut isOpen up (by simp only; omega) (by simp only; omega)
          (le_refl 0) (by simp only; omega) rfl (inv.whileOpen isOpen).recved_eq (by simp only; omega) sentOut
        split_ifs at stepped
        · exact sent.clientSocksRecvInitiate stepped
        · cases stepped
          exact sent

theorem Consistent.clientSentFunc {len : Nat} {c' : TcpClient} (inv : Consistent c)
    (stepped : clientSentFunc teardownFuel lwip c len = some c') : Consistent c' := by
  have steady := inv.steady
  unfold Tun2Socks.clientSentFunc at stepped
  by_cases refused : c.clientClosed = true ∨ (!c.socksUp) = true ∨ len = 0 ∨ (len : Int) > c.socksRecvTcpPending
  · rw [if_pos refused] at stepped
    cases stepped
  rw [if_neg refused] at stepped
  simp only [not_or, Bool.not_eq_true, Bool.not_eq_false', not_lt] at refused
  obtain ⟨isOpen, up, -, acknowledged⟩ := refused
  have stillOpen := inv.whileOpen isOpen
  have pending := steady.pending_eq up
  have clientEnd := steady.clientEnd_of_open isOpen
  -- `len` bytes acknowledged: they leave the pending count
  have acked : Steady ({ c with
      socksRecvTcpPending := c.socksRecvTcpPending - len, acked := c.acked + len } : TcpClient) :=
    { steady with
      pending_eq := fun _ => by simp only; push_cast; omega
      acked_le := by simp only; omega
      delivered_of_socksDone := fun done => by simp [clientEnd] at done }
  simp only at stepped
  by_cases buffered : c.socksRecvBufUsed > 0
  · -- data from SOCKS waits in `socks_recv_buf`: queue more of it
    rw [if_pos buffered] at stepped
    by_cases stalled : (!c.socksRecvWaiting) = true ∨ ¬c.socksRecvBufSent < c.socksRecvBufUsed
    · rw [if_pos stalled] at stepped
      cases stepped
    rw [if_neg stalled] at stepped
    simp only [not_or, Bool.not_eq_true, Bool.not_eq_false', not_not] at stalled
    obtain ⟨-, unqueued⟩ := stalled
    obtain ⟨-, bounded, start, -⟩ := (steady.recvBuf_bounds up).resolve_left (by omega)
    have fromSocks := stillOpen.fromSocks_eq up
    simp only [Tun2Socks.unsent, show c.socksRecvBufUsed ≠ -1 by omega, if_false] at fromSocks
    have resumed : Steady ({ c with
        socksRecvTcpPending := c.socksRecvTcpPending - len, acked := c.acked + len
        socksRecvWaiting := false } : TcpClient) :=
      { acked with unsent_of_waiting := fun _ _ waiting => nomatch waiting }
    split at stepped
    · cases stepped
    · next sentOut =>
        cases stepped
        exact resumed.clientSocksRecvSendOut isOpen up buffered bounded start unqueued rfl stillOpen.recved_eq
          fromSocks sentOut
    · next sentOut =>
        have sent := resumed.clientSocksRecvSendOut isOpen up buffered bounded start unqueued rfl
          stillOpen.recved_eq fromSocks sentOut
        split_ifs at stepped
        · exact sent.clientSocksRecvInitiate stepped
        · cases stepped
          exact sent
  · rw [if_neg buffered] at stepped
    have emptied : c.socksRecvBufUsed = -1 := (steady.recvBuf_bounds up).resolve_right (by omega)
    by_cases finished : c.socksClosed = true ∧ c.socksRecvTcpPending - len = 0
    · -- SOCKS is gone and the client acknowledged everything: close the client
      rw [if_pos finished, acked.clientFreeClient (by decide : ClientEnd.socksDone ≠ .error) isOpen] at stepped
      cases stepped
      have fromSocks := stillOpen.fromSocks_eq up
      simp only [Tun2Socks.unsent, emptied, if_true, Int.add_zero] at fromSocks
      exact acked.afterClientClosed isOpen (fun _ => ⟨finished.1, by simp only; omega, by simp only; omega⟩)
    · rw [if_neg finished] at stepped
      cases stepped
      exact ⟨acked, fun _ => { stillOpen with }⟩

/-! ## Runs -/

theorem Consistent.step? {event : Event} {c' : TcpClient} (inv : Consistent c)
    (stepped : event.step? c = some c') : Consistent c' := by
  cases event with
  | recv len => exact inv.clientRecvFunc stepped
  | recvClosed lwip => exact inv.clientRecvFuncClosed stepped
  | sent len lwip => exact inv.clientSentFunc stepped
  | err lwip => exact inv.clientErrFunc stepped
  | socks event lwip => exact inv.clientSocksHandler stepped
  | sendDone dataLen lwip => exact inv.clientSocksSendHandlerDone stepped
  | recvDone dataLen lwip => exact inv.clientSocksRecvHandlerDone stepped

/-- Every state a run reaches is consistent: induction over the events, one step at a time. -/
theorem Consistent.run? {events : List Event} {c' : TcpClient} (inv : Consistent c)
    (ran : Tun2Socks.run? c events = some c') : Consistent c' := by
  induction events generalizing c with
  | nil =>
      cases ran
      exact inv
  | cons event rest inductionHypothesis =>
      simp only [Tun2Socks.run?, Option.bind_eq_some_iff] at ran
      obtain ⟨next, stepped, ran⟩ := ran
      exact inductionHypothesis (inv.step? stepped) ran

theorem consistent_of_run? {recvBufUsed recvBufSent : Int} {recvWaiting : Bool} {recvTcpPending : Int}
    {events : List Event} {c : TcpClient}
    (ran : run? (listenerAcceptFunc recvBufUsed recvBufSent recvWaiting recvTcpPending) events = some c) :
    Consistent c :=
  (consistent_listenerAcceptFunc recvBufUsed recvBufSent recvWaiting recvTcpPending).run? ran

/-! ## No `ASSERT` fails

Under the contracts of lwIP and of the SOCKS client (`Event.Allowed`), every
event on a consistent client runs to its end: each `ASSERT` of the handlers it
goes through holds, and the teardown fuel suffices.
-/

theorem clientSocksRecvSendOut_ne_none (isOpen : c.clientClosed = false) (up : c.socksUp = true)
    (buffered : c.socksRecvBufUsed > 0) (unsent : c.socksRecvBufSent < c.socksRecvBufUsed)
    (notWaiting : c.socksRecvWaiting = false) (live : c.pcbLive = true) (notAborted : c.aborted = false) :
    clientSocksRecvSendOut teardownFuel lwip c ≠ none := by
  obtain ⟨n, -, outcome⟩ :=
    @clientSocksRecvSendOut_spec c lwip 2 isOpen up buffered unsent notWaiting live notAborted
  change clientSocksRecvSendOut (2 + 2) lwip c ≠ none
  rcases outcome with sentOut | ⟨-, -, sentOut⟩ | ⟨-, sentOut⟩ <;> simp [sentOut]

/-- When `client_socks_recv_send_out` does not abort, the client stays up and some bytes await acknowledgement. -/
theorem clientSocksRecvSendOut_continues {c'' : TcpClient}
    (sentOut : clientSocksRecvSendOut teardownFuel lwip c = some (c'', false)) (isOpen : c.clientClosed = false)
    (up : c.socksUp = true) (buffered : c.socksRecvBufUsed > 0) (unsent : c.socksRecvBufSent < c.socksRecvBufUsed)
    (notWaiting : c.socksRecvWaiting = false) (live : c.pcbLive = true) (notAborted : c.aborted = false)
    (pendingNonneg : 0 ≤ c.socksRecvTcpPending) :
    c''.clientClosed = false ∧ c''.socksClosed = c.socksClosed ∧ c''.socksUp = true ∧
      c''.recvRequested = c.recvRequested ∧ 0 < c''.socksRecvTcpPending := by
  obtain ⟨n, -, outcome⟩ :=
    @clientSocksRecvSendOut_spec c lwip 2 isOpen up buffered unsent notWaiting live notAborted
  change clientSocksRecvSendOut (2 + 2) lwip c = _ at sentOut
  rcases outcome with abort | ⟨-, confirmed, waiting⟩ | ⟨all, emptied⟩
  · rw [abort] at sentOut
    simp at sentOut
  · rw [waiting] at sentOut
    cases sentOut
    exact ⟨isOpen, rfl, up, rfl, by simp only [wrote]; omega⟩
  · rw [emptied] at sentOut
    cases sentOut
    exact ⟨isOpen, rfl, up, rfl, by simp only [wrote]; omega⟩

theorem Consistent.clientRecvFunc_isSome {len : Nat} (inv : Consistent c) (registered : c.recvRegistered = true)
    (positive : 0 < len) : (Tun2Socks.clientRecvFunc c len).isSome := by
  have steady := inv.steady
  obtain ⟨isOpen, socksOpen⟩ := steady.open_of_recvRegistered registered
  have requested := steady.sendRequested_le
  have requestedNonneg := steady.sendRequested_nonneg
  by_cases noBuffer : (len : Int) > tcpWnd - c.bufUsed
  · simp [Tun2Socks.clientRecvFunc, isOpen, positive.ne', noBuffer]
  · by_cases sending : c.bufUsed = 0 ∧ c.socksUp = true
    · -- `buf` was empty, so no send to SOCKS was outstanding
      have idle : c.sendRequested = 0 := by omega
      have fitsLen : ¬(len : Int) > tcpWnd := by omega
      simp [Tun2Socks.clientRecvFunc, isOpen, positive.ne', fitsLen, sending, socksOpen, clientSendToSocks,
        socksSend, idle]
    · simp [Tun2Socks.clientRecvFunc, isOpen, positive.ne', noBuffer, sending]

theorem Consistent.clientSocksSendHandlerDone_isSome {k : Nat} (inv : Consistent c)
    (socksOpen : c.socksClosed = false) (positive : 0 < k) (asked : (k : Int) ≤ c.sendRequested) :
    (Tun2Socks.clientSocksSendHandlerDone teardownFuel lwip c k).isSome := by
  have up := (inv.steady.up_of_sending (by omega)).1
  have fits : (k : Int) ≤ c.bufUsed := le_trans asked inv.steady.sendRequested_le
  simp [clientSocksSendHandlerDone_eq inv.steady socksOpen up positive fits]

theorem Consistent.clientSocksRecvHandlerDone_isSome {len : Nat} (inv : Consistent c)
    (requested : c.recvRequested = true) (positive : 0 < len) (bounded : len ≤ clientSocksRecvBufSize) :
    (Tun2Socks.clientSocksRecvHandlerDone teardownFuel lwip c len).isSome := by
  have steady := inv.steady
  obtain ⟨up, socksOpen, emptied⟩ := steady.up_of_receiving requested
  have accepted : ¬(len = 0 ∨ len > clientSocksRecvBufSize ∨ c.socksClosed = true ∨ (!c.socksUp) = true ∨
      c.socksRecvBufUsed ≠ -1) := by
    simp [socksOpen, up, emptied]
    omega
  unfold Tun2Socks.clientSocksRecvHandlerDone
  rw [if_neg accepted]
  simp only
  by_cases isClosed : c.clientClosed = true
  · simp [isClosed]
  · have isOpen : c.clientClosed = false := by simpa using isClosed
    rw [if_neg isClosed]
    split
    · next noResult =>
        refine absurd noResult (clientSocksRecvSendOut_ne_none ?_ ?_ ?_ ?_ ?_ ?_ ?_)
        · exact isOpen
        · exact up
        · simp only; omega
        · simp only; omega
        · rfl
        · exact steady.live isOpen
        · exact steady.notAborted isOpen
    · simp
    · next c'' sentOut =>
        obtain ⟨stillOpen, sameSocks, stillUp, notReceiving, -⟩ :=
          clientSocksRecvSendOut_continues sentOut isOpen up (by simp only; omega) (by simp only; omega) rfl
            (steady.live isOpen) (steady.notAborted isOpen) (by
              have := steady.pending_eq up
              have := steady.acked_le
              simp only
              omega)
        split_ifs with queued
        · simp [Tun2Socks.clientSocksRecvInitiate, stillOpen, sameSocks, socksOpen, stillUp, queued, notReceiving]
        · simp

theorem Consistent.clientSentFunc_isSome {len : Nat} (inv : Consistent c) (registered : c.sentRegistered = true)
    (positive : 0 < len) (acknowledged : c.acked + len ≤ c.written) :
    (Tun2Socks.clientSentFunc teardownFuel lwip c len).isSome := by
  have steady := inv.steady
  obtain ⟨isOpen, up⟩ := steady.open_of_sentRegistered registered
  have stillOpen := inv.whileOpen isOpen
  have pending := steady.pending_eq up
  have live := steady.live isOpen
  have notAborted := steady.notAborted isOpen
  -- lwIP acknowledges only what was written, so `len <= socks_recv_tcp_pending` holds
  have accepted : ¬(c.clientClosed = true ∨ (!c.socksUp) = true ∨ len = 0 ∨ (len : Int) > c.socksRecvTcpPending) := by
    simp only [isOpen, up, Bool.false_eq_true, Bool.not_true, false_or, not_or, not_lt]
    omega
  unfold Tun2Socks.clientSentFunc
  rw [if_neg accepted]
  simp only
  by_cases buffered : c.socksRecvBufUsed > 0
  · rw [if_pos buffered]
    have waiting := stillOpen.waiting_of_buffered up (by omega)
    have unqueued := steady.unsent_of_waiting up (by omega) waiting
    have notReceiving : c.recvRequested = false := by
      cases requested : c.recvRequested
      · rfl
      · have := (steady.up_of_receiving requested).2.2
        omega
    have notStalled : ¬((!c.socksRecvWaiting) = true ∨ ¬c.socksRecvBufSent < c.socksRecvBufUsed) := by
      simp [waiting, unqueued]
    rw [if_neg notStalled]
    split
    · next noResult =>
        refine absurd noResult (clientSocksRecvSendOut_ne_none ?_ ?_ ?_ ?_ ?_ ?_ ?_)
        · exact isOpen
        · exact up
        · exact buffered
        · exact unqueued
        · rfl
        · exact live
        · exact notAborted
    · simp
    · next c'' sentOut =>
        obtain ⟨stillUp, sameSocks, upAgain, sameReceiving, queued⟩ :=
          clientSocksRecvSendOut_continues sentOut isOpen up buffered unqueued rfl live notAborted
            (by simp only; omega)
        rw [if_neg (not_not.mpr queued)]
        split_ifs with emptied
        · simp [Tun2Socks.clientSocksRecvInitiate, stillUp, upAgain, emptied.1, sameReceiving, notReceiving]
          simpa [sameSocks] using emptied.2
        · simp
  · rw [if_neg buffered]
    by_cases finished : c.socksClosed = true ∧ c.socksRecvTcpPending - len = 0
    · rw [if_pos finished]
      simp [teardownFuel, clientFreeClient_eq, isOpen, live, notAborted]
    · rw [if_neg finished]
      simp

theorem Consistent.clientSocksHandler_isSome {event : SocksEvent} (inv : Consistent c)
    (allowed : (Event.socks event lwip).Allowed c) :
    (Tun2Socks.clientSocksHandler teardownFuel lwip c event).isSome := by
  have steady := inv.steady
  have socksOpen : c.socksClosed = false := by
    cases event <;> simp_all [Event.Allowed, steady.socksClosed_eq]
  cases event with
  | up => simp [clientSocksHandler_up_eq _ steady socksOpen (by simpa [Event.Allowed] using allowed.2)]
  | error => simp [Tun2Socks.clientSocksHandler, socksOpen, steady.clientFreeSocks socksOpen]
  | errorClosed =>
      have up : c.socksUp = true := allowed.2
      simp [Tun2Socks.clientSocksHandler, socksOpen, up, steady.clientFreeSocks socksOpen]

/-- Every event that lwIP and the SOCKS client may deliver runs without a failed `ASSERT`. -/
theorem Consistent.step?_isSome {event : Event} (inv : Consistent c) (allowed : event.Allowed c) :
    (event.step? c).isSome := by
  have steady := inv.steady
  cases event with
  | recv len => exact inv.clientRecvFunc_isSome allowed.1 allowed.2
  | recvClosed lwip =>
      have isOpen := (steady.open_of_recvRegistered allowed).1
      simp [Event.step?, Tun2Socks.clientRecvFuncClosed, isOpen, teardownFuel, clientFreeClient_eq,
        steady.live isOpen, steady.notAborted isOpen]
  | sent len lwip => exact inv.clientSentFunc_isSome allowed.1 allowed.2.1 allowed.2.2
  | err lwip =>
      have isOpen := steady.open_of_errRegistered allowed
      simp [Event.step?, teardownFuel, clientErrFunc_eq, isOpen]
  | socks event lwip => exact inv.clientSocksHandler_isSome allowed
  | sendDone dataLen lwip =>
      obtain ⟨ended, positive, asked⟩ := allowed
      exact inv.clientSocksSendHandlerDone_isSome (by simp [steady.socksClosed_eq, ended]) positive asked
  | recvDone dataLen lwip =>
      obtain ⟨-, requested, positive, bounded⟩ := allowed
      exact inv.clientSocksRecvHandlerDone_isSome requested positive bounded

/-! ## The end of a client

Once both sides are closed `client_dealloc` has run, and nothing reaches the
client any more.  From every consistent state it can still get there: lwIP
may report an error on the pcb and the SOCKS client may fail.
-/

@[simp] theorem settleClient_clientClosed (c : TcpClient) : (settleClient c).clientClosed = c.clientClosed := by
  unfold settleClient
  split_ifs <;> rfl

theorem settleClient_socksClosed (isClosed : c.socksClosed = true) : (settleClient c).socksClosed = true := by
  unfold settleClient
  split_ifs <;> simp_all [deallocated]

@[simp] theorem settleSocks_socksClosed (c : TcpClient) : (settleSocks lwip c).socksClosed = c.socksClosed := by
  unfold settleSocks
  split_ifs <;> rfl

theorem settleSocks_clientClosed (isClosed : c.clientClosed = true) : (settleSocks lwip c).clientClosed = true := by
  unfold settleSocks
  split_ifs <;> simp_all [deallocated]

/-- After `client_dealloc` neither lwIP nor the SOCKS client may deliver anything to the client. -/
theorem Consistent.not_allowed_of_freed (inv : Consistent c) (freed : c.freed = true) (event : Event) :
    ¬event.Allowed c := by
  have steady := inv.steady
  have bothClosed : c.clientClosed = true ∧ c.socksClosed = true := by simpa [steady.freed_eq] using freed
  have socksEnd : c.socksEnd ≠ none := fun ended => by
    have closed := bothClosed.2
    simp [steady.socksClosed_eq, ended] at closed
  cases event with
  | socks event lwip => cases event <;> simp [Event.Allowed, socksEnd]
  | _ => simp_all [Event.Allowed, steady.recvRegistered_eq, steady.sentRegistered_eq, steady.errRegistered_eq]

/-- The sides of the client not yet closed. -/
def openSides (c : TcpClient) : Nat :=
  (if c.clientClosed then 0 else 1) + (if c.socksClosed then 0 else 1)

/-- lwIP's answers in the teardown that `Consistent.reaches_dealloc` drives; any would do. -/
def quietLwip : LwipAnswers := ⟨[], true, true⟩

/-- A client not yet freed can lose one of its sides by an allowed event. -/
theorem Consistent.closing_step (inv : Consistent c) (notFreed : c.freed = false) :
    ∃ (event : Event) (c' : TcpClient), event.Allowed c ∧ event.step? c = some c' ∧ openSides c' < openSides c := by
  have steady := inv.steady
  cases isOpen : c.clientClosed
  · -- lwIP reports an error on the pcb
    refine ⟨.err quietLwip, settleClient (clientGone .error false c), ?_, clientErrFunc_eq 2 isOpen, ?_⟩
    · simp [Event.Allowed, steady.errRegistered_eq, isOpen]
    · cases socksClosed : c.socksClosed
      · simp [openSides, isOpen, socksClosed, clientGone]
        split_ifs <;> simp
      · simp [openSides, isOpen, socksClosed, settleClient_socksClosed, clientGone]
  · -- the client is closed, so SOCKS is still open: the SOCKS client fails
    have socksOpen : c.socksClosed = false := by simpa [steady.freed_eq, isOpen] using notFreed
    refine ⟨.socks .error quietLwip, settleSocks quietLwip (socksGone .failed c), ?_, ?_, ?_⟩
    · exact steady.socksEnd_of_open socksOpen
    · simp [Event.step?, Tun2Socks.clientSocksHandler, socksOpen, steady.clientFreeSocks socksOpen]
    · simp [openSides, isOpen, socksOpen, socksGone, settleSocks_clientClosed]

/-- From every consistent state, lwIP and the SOCKS client can drive the client to `client_dealloc`. -/
theorem Consistent.reaches_dealloc (inv : Consistent c) :
    ∃ (events : List Event) (c' : TcpClient), AllowedRun c events ∧ Tun2Socks.run? c events = some c' ∧
      c'.freed = true := by
  -- induction on the number of open sides: each closing step closes one
  induction sides : openSides c using Nat.strong_induction_on generalizing c with
  | _ sides inductionHypothesis =>
      cases freed : c.freed
      · obtain ⟨event, next, allowed, stepped, fewer⟩ := inv.closing_step freed
        obtain ⟨rest, final, restAllowed, ran, finalFreed⟩ :=
          inductionHypothesis (openSides next) (sides ▸ fewer) (inv.step? stepped) rfl
        refine ⟨event :: rest, final, ⟨allowed, ?_⟩, ?_, finalFreed⟩
        · simpa [stepped] using restAllowed
        · simpa [Tun2Socks.run?, stepped] using ran
      · exact ⟨[], c, trivial, rfl, freed⟩

/-! ## The life of a client and its accounting -/

theorem releasesFor_le_one (clientEnd : Option ClientEnd) : releasesFor clientEnd ≤ 1 := by
  rcases clientEnd with _ | ⟨_ | _ | _ | _⟩ <;> simp [releasesFor]

/--
Over every run of an accepted client: the pcb is released at most once (by
tun2socks only when lwIP has not freed it), no lwIP call is made on it after
that and no callback is left on it once the client side is closed;
`BSocksClient_Free` runs at most once; `client_dealloc` has run exactly when
both sides are closed, after it nothing may be delivered, and from every state
it can still be reached; SOCKS is freed either because it failed or after every
byte the client sent was passed on; tun2socks closes the client after SOCKS
went down only once everything from SOCKS was written and acknowledged; and no
`ASSERT` fails on any event that lwIP and the SOCKS client may deliver.
-/
theorem client_lifecycle {recvBufUsed recvBufSent : Int} {recvWaiting : Bool} {recvTcpPending : Int}
    {events : List Event} {c : TcpClient}
    (ran : run? (listenerAcceptFunc recvBufUsed recvBufSent recvWaiting recvTcpPending) events = some c) :
    (c.pcbReleases = releasesFor c.clientEnd ∧ c.pcbReleases ≤ 1 ∧ c.pcbMisuse = false ∧
      (c.clientClosed = true → c.recvRegistered = false ∧ c.sentRegistered = false ∧ c.errRegistered = false)) ∧
    c.socksFrees = (if c.socksClosed then 1 else 0) ∧
    (c.deallocs = (if c.clientClosed = true ∧ c.socksClosed = true then 1 else 0) ∧
      (c.freed = true → ∀ event : Event, ¬event.Allowed c) ∧
      ∃ (rest : List Event) (final : TcpClient), AllowedRun c rest ∧ run? c rest = some final ∧
        final.freed = true ∧ final.deallocs = 1) ∧
    (c.socksClosed = true →
      c.socksEnd = some .failed ∨ (c.socksEnd = some .clientDone ∧ c.clientClosed = true ∧ c.toSocks = c.accepted)) ∧
    (c.clientEnd = some .socksDone → c.socksClosed = true ∧ c.fromSocks = c.written ∧ c.acked = c.written) ∧
    ∀ event : Event, event.Allowed c → (event.step? c).isSome := by
  have inv := consistent_of_run? ran
  have steady := inv.steady
  refine ⟨⟨steady.pcbReleases_eq, steady.pcbReleases_eq ▸ releasesFor_le_one _, steady.pcbMisuse_eq,
    fun isClosed => ?_⟩, steady.socksFrees_eq, ⟨?_, inv.not_allowed_of_freed, ?_⟩, fun socksClosed => ?_,
    fun done => ⟨steady.socksClosed_of_socksDone done, steady.delivered_of_socksDone done⟩,
    fun _ allowed => inv.step?_isSome allowed⟩
  · simp [steady.recvRegistered_eq, steady.sentRegistered_eq, steady.errRegistered_eq, isClosed]
  · simp [steady.deallocs_eq, steady.freed_eq]
  · obtain ⟨rest, final, allowed, finished, freed⟩ := inv.reaches_dealloc
    exact ⟨rest, final, allowed, finished, freed, by simp [(inv.run? finished).steady.deallocs_eq, freed]⟩
  · -- SOCKS ended either way
    have socksEnd : c.socksEnd.isSome = true := steady.socksClosed_eq ▸ socksClosed
    rcases ended : c.socksEnd with _ | _ | _
    · simp [ended] at socksEnd
    · exact .inl rfl
    · exact .inr ⟨rfl, steady.clientClosed_of_clientDone ended, steady.drained_of_clientDone ended⟩

/-- A connection relayed both ways and then closed by the client: SOCKS had the client's ten bytes first. -/
theorem client_lifecycle_relayed_and_closed :
    ∃ c, run? (listenerAcceptFunc 0 0 false 0)
        [.socks .up quietLwip, .recv 10, .sendDone 10 quietLwip, .recvDone 5 ⟨[⟨100, .ok⟩], true, true⟩,
          .sent 5 quietLwip, .recvClosed quietLwip] = some c ∧
      c.deallocs = 1 ∧ c.socksEnd = some .clientDone ∧ c.toSocks = c.accepted := by
  have evaluated : (run? (listenerAcceptFunc 0 0 false 0)
      [.socks .up quietLwip, .recv 10, .sendDone 10 quietLwip, .recvDone 5 ⟨[⟨100, .ok⟩], true, true⟩,
        .sent 5 quietLwip, .recvClosed quietLwip]).any
      (fun c => c.deallocs == 1 && c.socksEnd == some .clientDone && c.socksClosed) = true := by
    decide +kernel
  obtain ⟨c, ran, facts⟩ := (Option.any_eq_true _ _).mp evaluated
  simp only [Bool.and_eq_true, beq_iff_eq] at facts
  obtain ⟨⟨deallocs, socksEnd⟩, socksClosed⟩ := facts
  refine ⟨c, ran, deallocs, socksEnd, ?_⟩
  rcases (client_lifecycle ran).2.2.2.1 socksClosed with failed | ⟨-, -, passed⟩
  · simp [socksEnd] at failed
  · exact passed

/--
Over every run of an accepted client: while the client is open, `buf_used` is
what `client_recv_func` took less what went to `tcp_recved`, within `TCP_WND`,
so that data lwIP delivers within the window is always taken; once SOCKS is
up, `socks_recv_tcp_pending` is what `tcp_write` queued less what
`client_sent_func` reported, so that any acknowledgement of written bytes is
within it; and once SOCKS is up, with data in `socks_recv_buf`, the sent
offset stays within it and `socks_recv_waiting` is set only with data unsent.
-/
theorem relay_accounting {recvBufUsed recvBufSent : Int} {recvWaiting : Bool} {recvTcpPending : Int}
    {events : List Event} {c : TcpClient}
    (ran : run? (listenerAcceptFunc recvBufUsed recvBufSent recvWaiting recvTcpPending) events = some c) :
    (c.clientClosed = false →
      c.bufUsed = c.accepted - c.recved ∧ 0 ≤ c.bufUsed ∧ c.bufUsed ≤ tcpWnd ∧
      ∀ len : Nat, 0 < len → c.recvRegistered = true → c.accepted + len ≤ c.recved + tcpWnd →
        ∃ c', clientRecvFunc c len = some c' ∧ c'.bufUsed = c.bufUsed + len ∧ c'.accepted = c.accepted + len) ∧
    (c.socksUp = true →
      c.socksRecvTcpPending = c.written - c.acked ∧ 0 ≤ c.socksRecvTcpPending ∧
      ∀ len : Nat, c.acked + len ≤ c.written → (len : Int) ≤ c.socksRecvTcpPending) ∧
    (c.socksUp = true → c.socksRecvBufUsed ≠ -1 →
      0 ≤ c.socksRecvBufSent ∧ c.socksRecvBufSent ≤ c.socksRecvBufUsed ∧
        c.socksRecvBufUsed ≤ clientSocksRecvBufSize ∧
        (c.socksRecvWaiting = true → c.socksRecvBufSent < c.socksRecvBufUsed)) := by
  have inv := consistent_of_run? ran
  have steady := inv.steady
  have acked := steady.acked_le
  refine ⟨fun isOpen => ?_, fun up => ?_, fun up buffered => ?_⟩
  · have released := (inv.whileOpen isOpen).recved_eq
    have bufUsed := steady.bufUsed_eq
    refine ⟨by rw [released]; exact bufUsed, steady.bufUsed_nonneg, steady.bufUsed_le,
      fun len positive registered window => ?_⟩
    -- within the window the `ERR_MEM` branch is not taken: the data is copied into `buf`
    obtain ⟨c', stepped⟩ := Option.isSome_iff_exists.mp (inv.clientRecvFunc_isSome registered positive)
    rcases clientRecvFunc_cases stepped with ⟨-, noBuffer⟩ | ⟨-, -, -, accepted⟩
    · omega
    · exact ⟨c', stepped, by rw [accepted], by rw [accepted]⟩
  · have pending := steady.pending_eq up
    refine ⟨pending, by omega, fun len acknowledged => by omega⟩
  · obtain ⟨-, bounded, start, fits⟩ := (steady.recvBuf_bounds up).resolve_left buffered
    exact ⟨start, fits, bounded, steady.unsent_of_waiting up buffered⟩

/-- Data from SOCKS relayed to the client, with lwIP taking it in two writes and acknowledging it. -/
theorem relay_accounting_two_writes :
    ∃ c, run? (listenerAcceptFunc 0 0 false 0)
        [.socks .up quietLwip, .recv 10, .recvDone 8 ⟨[⟨5, .ok⟩, ⟨0, .ok⟩], true, true⟩] = some c ∧
      c.socksRecvBufSent = 5 ∧ c.socksRecvWaiting = true ∧ c.socksRecvTcpPending = 5 ∧
      c.socksRecvTcpPending = c.written - c.acked := by
  have evaluated : (run? (listenerAcceptFunc 0 0 false 0)
      [.socks .up quietLwip, .recv 10, .recvDone 8 ⟨[⟨5, .ok⟩, ⟨0, .ok⟩], true, true⟩]).any
      (fun c => c.socksRecvBufSent == 5 && c.socksRecvWaiting && c.socksRecvTcpPending == 5 && c.socksUp) = true := by
    decide +kernel
  obtain ⟨c, ran, facts⟩ := (Option.any_eq_true _ _).mp evaluated
  simp only [Bool.and_eq_true, beq_iff_eq] at facts
  obtain ⟨⟨⟨sent, waiting⟩, pending⟩, up⟩ := facts
  exact ⟨c, ran, sent, waiting, pending, ((relay_accounting ran).2.1 up).1⟩

/--
Before `BSOCKSCLIENT_EVENT_UP` the receive path's fields hold whatever
`malloc` left: here a pending count that no `tcp_write` accounts for and a sent
offset beyond the buffer.  UP resets `socks_recv_buf_used` and
`socks_recv_tcp_pending` but not `socks_recv_waiting`, which stays set with
no data in the buffer until the first receive completes.
-/
theorem receive_path_undefined_before_up :
    ∃ accepted up, run? (listenerAcceptFunc 5 9 true 7) [] = some accepted ∧
      accepted.socksRecvTcpPending ≠ accepted.written - accepted.acked ∧
      accepted.socksRecvBufUsed ≠ -1 ∧ ¬accepted.socksRecvBufSent ≤ accepted.socksRecvBufUsed ∧
      run? (listenerAcceptFunc 5 9 true 7) [.socks .up quietLwip] = some up ∧
      up.socksUp = true ∧ up.socksRecvWaiting = true ∧ up.socksRecvBufUsed = -1 := by
  have evaluated : (run? (listenerAcceptFunc 5 9 true 7) [.socks .up quietLwip]).any
      (fun up => up.socksUp && up.socksRecvWaiting && up.socksRecvBufUsed == -1) = true := by
    decide +kernel
  obtain ⟨up, ran, facts⟩ := (Option.any_eq_true _ _).mp evaluated
  simp only [Bool.and_eq_true, beq_iff_eq] at facts
  exact ⟨_, up, rfl, by decide, by decide, by decide, ran, facts.1.1, facts.1.2, facts.2⟩

end Tun2SocksWinRT.Tun2Socks
