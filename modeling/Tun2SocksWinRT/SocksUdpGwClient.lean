import Mathlib
import Tun2SocksWinRT.UdpGwClientTable
import Tun2SocksWinRT.BSocksClientEvents

namespace Tun2SocksWinRT

namespace SocksUdpGw

/-!
# `SocksUdpGwClient`: a udpgw client over a SOCKS connection made again and again

`tun2socks/SocksUdpGwClient.c` keeps one `UdpGwClient` for its whole life and
connects it to the udpgw server through a `BSocksClient`.  When the SOCKS
client fails, or the udpgw client reports a server error, the SOCKS client is
freed, the udpgw client loses its server, and `reconnect_timer` is set; when
the timer expires, `try_connect` makes a new SOCKS client.

The state is the udpgw client (`Udpgw.Client.UdpGwClient`), the flags
`have_socks` and `socks_up`, and whether the reconnect timer runs.  Each
handler gives `none` where an `ASSERT` fails, its own or one of
`UdpGwClient_ConnectServer` and `UdpGwClient_DisconnectServer`, which it
calls.  What `BSocksClient_Init` and `UdpGwClient_ConnectServer` return is an
argument of the step that calls them.  The udpgw client's own events, a packet
submitted with the jobs it sets, a message passed on, and a connection's writer
getting its next buffer, are steps of `Udpgw.Client.Event`.

The handlers are called by three parties with contracts of their own: the
reactor runs `reconnect_timer_handler` only for a running timer, the SOCKS
client calls its handler only while it lives and reports `UP` at most once
(`BSocksClient.Lifecycle.Protocol`), and the udpgw client reports a server
error, or passes a message on, only while it has a server.  Under these
contracts (`Event.Allowed`), from `SocksUdpGwClient_Init` on and over every
run, no `ASSERT` fails and `Invariant` holds: there is a SOCKS client or a
running reconnect timer, never both, and the udpgw client holds the SOCKS
client's streams exactly while it is up (`Invariant.run?`).  From every such
state the client can be up again within two events (`Invariant.reconnects`),
and `SocksUdpGwClient_Free` leaves nothing behind (`Invariant.free_releases`).
-/

open Udpgw Udpgw.Client

/-- The part of `struct SocksUdpGwClient` its handlers read and write. -/
structure SocksUdpGwClient where
  udpgwClient : UdpGwClient
  haveSocks : Bool
  socksUp : Bool
  /-- `BTimer_IsRunning(&o->reconnect_timer)` -/
  reconnectTimer : Bool

section Handlers

/-- `BReactor_SetTimer` on `reconnect_timer`, which restarts a running timer. -/
def setReconnectTimer (o : SocksUdpGwClient) : SocksUdpGwClient :=
  { o with reconnectTimer := true }

/-- `free_socks`. -/
def freeSocks (o : SocksUdpGwClient) : Option SocksUdpGwClient :=
  if o.haveSocks then
    -- disconnect udpgw client from SOCKS, then BSocksClient_Free
    let disconnected := if o.socksUp then disconnectServer o.udpgwClient else some o.udpgwClient
    disconnected.map fun udpgwClient => { o with udpgwClient, haveSocks := false }
  else
    none

/-- `try_connect`, where `socksInit` is what `BSocksClient_Init` returns. -/
def tryConnect (o : SocksUdpGwClient) (socksInit : Bool) : Option SocksUdpGwClient :=
  if o.haveSocks ∨ o.reconnectTimer then none
  else if socksInit then some { o with haveSocks := true, socksUp := false }
  else some (setReconnectTimer o)

/-- `reconnect_timer_handler`. -/
def reconnectTimerHandler (o : SocksUdpGwClient) (socksInit : Bool) : Option SocksUdpGwClient :=
  if o.haveSocks then none else tryConnect o socksInit

/--
`socks_client_handler`, where `connected` is what `UdpGwClient_ConnectServer`
returns when the event is `BSOCKSCLIENT_EVENT_UP`.
-/
def socksClientHandler (o : SocksUdpGwClient) (event : BSocksClient.Lifecycle.Event) (connected : Bool) :
    Option SocksUdpGwClient :=
  if o.haveSocks then
    match event with
    | .up =>
        if o.socksUp then none
        else
          (connectServer o.udpgwClient connected).bind fun udpgwClient =>
            if connected then some { o with udpgwClient, socksUp := true }
            else (freeSocks { o with udpgwClient }).map setReconnectTimer
    | .error | .errorClosed =>
        (freeSocks o).map setReconnectTimer
  else
    none

/-- `udpgw_handler_servererror`. -/
def udpgwHandlerServererror (o : SocksUdpGwClient) : Option SocksUdpGwClient :=
  if o.haveSocks ∧ o.socksUp then (freeSocks o).map setReconnectTimer else none

/--
`SocksUdpGwClient_Init` once `UdpGwClient_Init` has succeeded.  The source
leaves `socks_up` unset until a SOCKS client is made; nothing reads it before.
-/
def init (udpMtu maxConnections : Nat) (socksInit : Bool) : Option SocksUdpGwClient :=
  tryConnect ⟨Client.init udpMtu maxConnections, false, false, false⟩ socksInit

/-- `SocksUdpGwClient_Free` up to `UdpGwClient_Free`, which frees the server if it still has one. -/
def free (o : SocksUdpGwClient) : Option SocksUdpGwClient :=
  let freed := if o.haveSocks then freeSocks o else some o
  -- free reconnect timer
  freed.map fun o => { o with reconnectTimer := false }

end Handlers

section Runs

/-- What reaches a `SocksUdpGwClient`. -/
inductive Event
  /-- the reactor runs `reconnect_timer_handler` -/
  | reconnectTimerExpired (socksInit : Bool)
  /-- the SOCKS client calls `socks_client_handler` -/
  | socks (event : BSocksClient.Lifecycle.Event) (connected : Bool)
  /-- the udpgw client calls `udpgw_handler_servererror` -/
  | serverError
  /-- `SocksUdpGwClient_SubmitPacket` -/
  | submitPacket (localAddr remoteAddr : BAddr) (isDns : Bool) (data : List UInt8) (allocation : Allocation)
  /-- a message from the server, passed on by `udpgw_handler_received` -/
  | received (data : List UInt8)
  /-- the writer of a udpgw client connection gets its next buffer -/
  | udpgwWriterRecv (con : Nat)

/-- One event; the reactor takes an expired timer off before it runs the handler. -/
def Event.step? (o : SocksUdpGwClient) : Event → Option SocksUdpGwClient
  | .reconnectTimerExpired socksInit =>
      reconnectTimerHandler { o with reconnectTimer := false } socksInit
  | .socks event connected =>
      socksClientHandler o event connected
  | .serverError =>
      udpgwHandlerServererror o
  | .submitPacket localAddr remoteAddr isDns data allocation =>
      ((Client.Event.submitPacket localAddr remoteAddr isDns data allocation).step? o.udpgwClient).map
        fun udpgwClient => { o with udpgwClient }
  | .received data =>
      ((Client.Event.received data).step? o.udpgwClient).map fun udpgwClient => { o with udpgwClient }
  | .udpgwWriterRecv con =>
      ((Client.Event.writerRecv con).step? o.udpgwClient).map fun udpgwClient => { o with udpgwClient }

/-- A run of events; `none` once an `ASSERT` fails. -/
def run? (o : SocksUdpGwClient) : List Event → Option SocksUdpGwClient
  | [] =>
      some o
  | event :: rest =>
      (event.step? o).bind fun o => run? o rest

/-- The contracts of the reactor, the SOCKS client and the udpgw client, and of the callers of `SubmitPacket`. -/
def Event.Allowed (o : SocksUdpGwClient) : Event → Prop
  | .reconnectTimerExpired _ => o.reconnectTimer = true
  | .socks .up _ => o.haveSocks = true ∧ o.socksUp = false
  | .socks _ _ => o.haveSocks = true
  | .serverError => o.udpgwClient.haveServer = true
  | .submitPacket _ _ _ data _ => data.length ≤ o.udpgwClient.udpMtu
  | .received data => o.udpgwClient.haveServer = true ∧ data.length ≤ o.udpgwClient.udpgwMtu
  | .udpgwWriterRecv con => con ∈ o.udpgwClient.connectionsList ∧ o.udpgwClient.outHave con = false

/-- A run in which every event keeps to its contract in the state it meets. -/
def AllowedRun : SocksUdpGwClient → List Event → Prop
  | _, [] => True
  | o, event :: rest => event.Allowed o ∧ ∀ o', event.step? o = some o' → AllowedRun o' rest

instance (o : SocksUdpGwClient) (event : Event) : Decidable (event.Allowed o) := by
  cases event with
  | socks event _ => cases event <;> (unfold Event.Allowed; infer_instance)
  | _ => unfold Event.Allowed; infer_instance

/-- Whether a run keeps to the contracts is computed along the run. -/
instance decidableAllowedRun : (o : SocksUdpGwClient) → (events : List Event) → Decidable (AllowedRun o events)
  | _, [] => isTrue trivial
  | o, event :: rest =>
      match stepped : event.step? o with
      | none => decidable_of_iff (event.Allowed o) (by simp [AllowedRun, stepped])
      | some o' =>
          have := decidableAllowedRun o' rest
          decidable_of_iff (event.Allowed o ∧ AllowedRun o' rest) (by simp [AllowedRun, stepped])

end Runs

section Invariant

/-- What holds of a `SocksUdpGwClient` between events. -/
structure Invariant (o : SocksUdpGwClient) : Prop where
  table : TableInvariant o.udpgwClient
  /-- a SOCKS client, or the timer that will make one, never both -/
  socks_xor_timer : o.haveSocks = !o.reconnectTimer
  /-- the udpgw client holds the SOCKS client's streams exactly while it is up -/
  haveServer_eq : o.udpgwClient.haveServer = (o.haveSocks && o.socksUp)
  /-- every call into the udpgw client ends with the jobs it set run -/
  idle : o.udpgwClient.pendingJobs = []

variable {o : SocksUdpGwClient}

/-- `free_socks` of a live SOCKS client succeeds: the client is gone and the udpgw client has no server. -/
theorem Invariant.freeSocks_spec (invariant : Invariant o) (live : o.haveSocks = true) :
    ∃ o', freeSocks o = some o' ∧ TableInvariant o'.udpgwClient ∧ o'.udpgwClient.pendingJobs = [] ∧
      o'.haveSocks = false ∧
      o'.udpgwClient.haveServer = false ∧ o'.reconnectTimer = o.reconnectTimer := by
  have server := invariant.haveServer_eq
  rw [live, Bool.true_and] at server
  unfold freeSocks
  rw [if_pos live]
  by_cases up : o.socksUp = true
  · -- up: UdpGwClient_DisconnectServer, whose ASSERT(o->have_server) holds
    rw [up] at server
    have disconnected : disconnectServer o.udpgwClient = some { o.udpgwClient with haveServer := false } := by
      simp [disconnectServer, server]
    refine ⟨{ o with udpgwClient := { o.udpgwClient with haveServer := false }, haveSocks := false }, ?_,
      invariant.table.step? (show Client.Event.disconnectServer.step? _ = _ from disconnected), invariant.idle,
      rfl, rfl, rfl⟩
    simp [up, disconnected]
  · -- never up: the udpgw client has no server to drop
    rw [Bool.not_eq_true] at up
    rw [up] at server
    refine ⟨{ o with haveSocks := false }, ?_, invariant.table, invariant.idle, rfl, server, rfl⟩
    simp [up]

/-- After `free_socks`, setting the timer restores the invariant. -/
theorem Invariant.afterFreeSocks (invariant : Invariant o) (live : o.haveSocks = true) :
    ∃ o', ((freeSocks o).map setReconnectTimer) = some o' ∧ Invariant o' ∧ o'.reconnectTimer = true := by
  obtain ⟨freed, spec, table, idle, gone, noServer, -⟩ := invariant.freeSocks_spec live
  refine ⟨setReconnectTimer freed, by rw [spec]; rfl, ⟨table, ?_, ?_, idle⟩, rfl⟩
  · simp [setReconnectTimer, gone]
  · simp [setReconnectTimer, gone, noServer]

/-- An error of a live SOCKS client: `free_socks`, then the timer. -/
theorem socksClientHandler_of_ne_up (live : o.haveSocks = true) {event : BSocksClient.Lifecycle.Event}
    (failed : event ≠ .up) (connected : Bool) :
    socksClientHandler o event connected = (freeSocks o).map setReconnectTimer := by
  unfold socksClientHandler
  rw [if_pos live]
  cases event with
  | up => exact absurd rfl failed
  | error => rfl
  | errorClosed => rfl

/-- A packet from the device, with the jobs it sets, leaves `have_server` as it was. -/
theorem haveServer_submitPacket {u result : UdpGwClient} (table : TableInvariant u) (idle : u.pendingJobs = [])
    {localAddr remoteAddr : BAddr} {isDns : Bool} {data : List UInt8} {allocation : Allocation}
    {out : List (List UInt8)}
    (step : Client.submitPacketThenJobs u localAddr remoteAddr isDns data allocation = some (result, out)) :
    result.haveServer = u.haveServer := by
  obtain ⟨_, _, existing | reused | failed | added⟩ := table.submitPacketThenJobs_cases idle step
  · obtain ⟨con, _, _, rfl, _⟩ := existing
    rfl
  · obtain ⟨_, _, con, _, rfl, _⟩ := reused
    rfl
  · obtain ⟨-, -, -, next, _, rfl, _⟩ := failed
    rfl
  · obtain ⟨_, _, next, _, _, rfl, _⟩ := added
    rfl

/-- A message from the server leaves `have_server` as it was, passed on or dropped. -/
theorem haveServer_received {u result : UdpGwClient} {data : List UInt8}
    (step : (Client.Event.received data).step? u = some result) : result.haveServer = u.haveServer := by
  obtain ⟨outcome, received, rfl⟩ := Option.map_eq_some_iff.mp step
  cases outcome with
  | ok passed =>
      obtain ⟨passedState, delivery⟩ := passed
      obtain ⟨_, _, _, _, _, con, _, _, _, _, _, rfl, _⟩ := recvInterfaceHandlerSend_eq_ok received
      rfl
  | error _ =>
      rfl

/-- A call into the udpgw client that keeps to its contract succeeds and keeps the invariant. -/
theorem Invariant.udpgwStep (invariant : Invariant o) {event : Client.Event} (allowed : event.Allowed o.udpgwClient)
    (keeps : ∀ result, event.step? o.udpgwClient = some result → result.haveServer = o.udpgwClient.haveServer) :
    ∃ o', (event.step? o.udpgwClient).map (fun udpgwClient => { o with udpgwClient }) = some o' ∧ Invariant o' := by
  obtain ⟨result, stepped⟩ := Option.isSome_iff_exists.mp (invariant.table.step?_isSome invariant.idle allowed)
  refine ⟨{ o with udpgwClient := result }, by rw [stepped]; rfl, invariant.table.step? stepped,
    invariant.socks_xor_timer, ?_, pendingJobs_step? invariant.idle stepped⟩
  rw [keeps result stepped]
  exact invariant.haveServer_eq

/--
From a state that keeps the invariant, every event within its contract is
handled without a failed `ASSERT`, and the invariant holds after it.
-/
theorem Invariant.step? (invariant : Invariant o) {event : Event} (allowed : event.Allowed o) :
    ∃ o', event.step? o = some o' ∧ Invariant o' := by
  have xor := invariant.socks_xor_timer
  have server := invariant.haveServer_eq
  cases event with
  | reconnectTimerExpired socksInit =>
      -- the timer runs, so there is no SOCKS client and no server
      simp only [Event.Allowed] at allowed
      rw [allowed] at xor
      simp only [Bool.not_true] at xor
      rw [xor, Bool.false_and] at server
      simp only [Event.step?, reconnectTimerHandler, tryConnect, xor, setReconnectTimer]
      cases socksInit
      · exact ⟨_, rfl, ⟨invariant.table, rfl, by simpa using server, invariant.idle⟩⟩
      · exact ⟨_, rfl, ⟨invariant.table, rfl, by simpa using server, invariant.idle⟩⟩
  | socks event connected =>
      cases event with
      | up =>
          -- a fresh SOCKS client: no timer and no server yet
          obtain ⟨live, notUp⟩ := allowed
          rw [live, notUp] at server
          have connectedState : connectServer o.udpgwClient connected =
              some { o.udpgwClient with haveServer := connected } := by
            simp [connectServer, server]
          have table : TableInvariant { o.udpgwClient with haveServer := connected } :=
            invariant.table.step? (show (Client.Event.connectServer connected).step? _ = _ from connectedState)
          simp only [Event.step?, socksClientHandler]
          rw [if_pos live, if_neg (Bool.eq_false_iff.mp notUp), connectedState, Option.bind_some]
          cases connected
          · -- UdpGwClient_ConnectServer failed: free the SOCKS client, set the timer
            have stillDown : Invariant { o with udpgwClient := { o.udpgwClient with haveServer := false } } :=
              ⟨table, invariant.socks_xor_timer, by simp [live, notUp], invariant.idle⟩
            obtain ⟨o', spec, kept, -⟩ := stillDown.afterFreeSocks live
            refine ⟨o', ?_, kept⟩
            rw [if_neg Bool.false_ne_true]
            exact spec
          · exact ⟨_, rfl, ⟨table, invariant.socks_xor_timer, by simp [live], invariant.idle⟩⟩
      | error =>
          rw [Event.step?, socksClientHandler_of_ne_up allowed (by decide)]
          exact (invariant.afterFreeSocks allowed).imp fun _ reached => ⟨reached.1, reached.2.1⟩
      | errorClosed =>
          rw [Event.step?, socksClientHandler_of_ne_up allowed (by decide)]
          exact (invariant.afterFreeSocks allowed).imp fun _ reached => ⟨reached.1, reached.2.1⟩
  | serverError =>
      -- only a client that is up has a server
      simp only [Event.Allowed] at allowed
      rw [allowed, eq_comm, Bool.and_eq_true] at server
      simp only [Event.step?, udpgwHandlerServererror, server, and_self, if_true]
      exact (invariant.afterFreeSocks server.1).imp fun _ reached => ⟨reached.1, reached.2.1⟩
  | submitPacket localAddr remoteAddr isDns data allocation =>
      refine invariant.udpgwStep allowed fun result stepped => ?_
      obtain ⟨⟨_, out⟩, submitted, rfl⟩ := Option.map_eq_some_iff.mp stepped
      exact haveServer_submitPacket invariant.table invariant.idle submitted
  | received data =>
      exact invariant.udpgwStep allowed fun _ stepped => haveServer_received stepped
  | udpgwWriterRecv con =>
      refine invariant.udpgwStep allowed fun result stepped => ?_
      obtain ⟨-, -, rfl⟩ := writerRecv_step? stepped
      rfl

/-- Over every run within the contracts, no `ASSERT` fails and the invariant holds at the end. -/
theorem Invariant.run? (invariant : Invariant o) {events : List Event} (allowed : AllowedRun o events) :
    ∃ o', SocksUdpGw.run? o events = some o' ∧ Invariant o' := by
  induction events generalizing o with
  | nil =>
      exact ⟨o, rfl, invariant⟩
  | cons event rest inductionHypothesis =>
      obtain ⟨here, later⟩ := allowed
      obtain ⟨next, stepped, kept⟩ := invariant.step? here
      obtain ⟨o', ran, final⟩ := inductionHypothesis kept (later next stepped)
      exact ⟨o', by rw [SocksUdpGw.run?, stepped, Option.bind_some, ran], final⟩

/-- The reconnect timer expires and `BSocksClient_Init` succeeds: a new SOCKS client, not yet up. -/
theorem Invariant.reconnectTimerExpired_step? (invariant : Invariant o) (running : o.reconnectTimer = true) :
    (Event.reconnectTimerExpired true).step? o =
      some { o with reconnectTimer := false, haveSocks := true, socksUp := false } := by
  have gone : o.haveSocks = false := by simpa [running] using invariant.socks_xor_timer
  simp [Event.step?, reconnectTimerHandler, tryConnect, gone]

/-- The SOCKS client comes up and `UdpGwClient_ConnectServer` succeeds: the udpgw client has its server. -/
theorem Invariant.up_step? (invariant : Invariant o) (live : o.haveSocks = true) (notUp : o.socksUp = false) :
    (Event.socks .up true).step? o =
      some { o with udpgwClient := { o.udpgwClient with haveServer := true }, socksUp := true } := by
  have noServer : o.udpgwClient.haveServer = false := by simpa [live, notUp] using invariant.haveServer_eq
  simp [Event.step?, socksClientHandler, live, notUp, connectServer, noServer]

/--
The client is never stuck: from every state that keeps the invariant, at most
two events within their contracts, the timer's expiry with a SOCKS client made
and that client's `UP` with the udpgw client connected, bring it up with the
udpgw client holding a server.
-/
theorem Invariant.reconnects (invariant : Invariant o) :
    ∃ events : List Event, events.length ≤ 2 ∧ AllowedRun o events ∧
      ∃ o', SocksUdpGw.run? o events = some o' ∧ o'.haveSocks = true ∧ o'.socksUp = true ∧
        o'.udpgwClient.haveServer = true := by
  have xor := invariant.socks_xor_timer
  have server := invariant.haveServer_eq
  cases live : o.haveSocks
  · -- no SOCKS client, so the timer runs: it expires, then the new client comes up
    have running : o.reconnectTimer = true := by simpa [live] using xor
    have made := invariant.reconnectTimerExpired_step? running
    have fresh : Invariant { o with reconnectTimer := false, haveSocks := true, socksUp := false } :=
      ⟨invariant.table, rfl, by simpa [live] using server, invariant.idle⟩
    have up := fresh.up_step? rfl rfl
    let connected : SocksUdpGwClient := ⟨{ o.udpgwClient with haveServer := true }, true, true, false⟩
    refine ⟨[.reconnectTimerExpired true, .socks .up true], by simp, ⟨running, ?_⟩, connected, ?_, rfl, rfl, rfl⟩
    · intro next stepped
      rw [made, Option.some.injEq] at stepped
      subst stepped
      exact ⟨⟨rfl, rfl⟩, fun _ _ => trivial⟩
    · simp only [SocksUdpGw.run?, made, up, Option.bind_some]
      rfl
  · cases upNow : o.socksUp
    · -- a SOCKS client that is not up yet: its UP
      refine ⟨[.socks .up true], by simp, ⟨⟨live, upNow⟩, fun _ _ => trivial⟩,
        { o with udpgwClient := { o.udpgwClient with haveServer := true }, socksUp := true }, ?_, live, rfl, rfl⟩
      simp only [SocksUdpGw.run?, invariant.up_step? live upNow, Option.bind_some]
    · -- already up
      exact ⟨[], by simp, trivial, o, rfl, live, upNow, by simpa [live, upNow] using server⟩

/--
`SocksUdpGwClient_Free` frees the SOCKS client after taking the udpgw client's
server off it, and stops the timer: nothing is left for `UdpGwClient_Free` to
disconnect.
-/
theorem Invariant.free_releases (invariant : Invariant o) :
    ∃ o', SocksUdpGw.free o = some o' ∧ o'.haveSocks = false ∧ o'.reconnectTimer = false ∧
      o'.udpgwClient.haveServer = false := by
  unfold SocksUdpGw.free
  cases live : o.haveSocks
  · have noServer : o.udpgwClient.haveServer = false := by simpa [live] using invariant.haveServer_eq
    exact ⟨_, rfl, live, rfl, noServer⟩
  · obtain ⟨freed, spec, -, -, gone, noServer, -⟩ := invariant.freeSocks_spec live
    exact ⟨{ freed with reconnectTimer := false }, by simp [spec], gone, rfl, noServer⟩

/-- `SocksUdpGwClient_Init` with `max_connections > 0` establishes the invariant, whatever `BSocksClient_Init` does. -/
theorem invariant_init (udpMtu : Nat) {maxConnections : Nat} (positive : 0 < maxConnections) (socksInit : Bool) :
    ∃ o, init udpMtu maxConnections socksInit = some o ∧ Invariant o := by
  have table := tableInvariant_init udpMtu positive
  cases socksInit
  · exact ⟨_, rfl, ⟨table, rfl, rfl, rfl⟩⟩
  · exact ⟨_, rfl, ⟨table, rfl, rfl, rfl⟩⟩

end Invariant

section Results

variable {o : SocksUdpGwClient}

/--
From `SocksUdpGwClient_Init` with `max_connections > 0`, every run of events
within their contracts is handled without a failed `ASSERT`, and in every state
it reaches there is a SOCKS client or a running reconnect timer, never both,
and the udpgw client has a server exactly when the SOCKS client is up.
-/
theorem runs_keep_one_connection_attempt {udpMtu maxConnections : Nat} (positive : 0 < maxConnections)
    {socksInit : Bool} (started : init udpMtu maxConnections socksInit = some o) {events : List Event}
    (allowed : AllowedRun o events) :
    ∃ o', run? o events = some o' ∧ o'.haveSocks = !o'.reconnectTimer ∧
      o'.udpgwClient.haveServer = (o'.haveSocks && o'.socksUp) := by
  obtain ⟨o₀, made, invariant⟩ := invariant_init udpMtu positive socksInit
  rw [started, Option.some.injEq] at made
  subst made
  obtain ⟨o', ran, final⟩ := invariant.run? allowed
  exact ⟨o', ran, final.socks_xor_timer, final.haveServer_eq⟩

theorem runs_keep_one_connection_attempt_reconnecting :
    AllowedRun ⟨Client.init 100 1, false, false, true⟩
        [.reconnectTimerExpired true, .socks .up true, .serverError, .reconnectTimerExpired true, .socks .error false] ∧
      ∃ o', run? ⟨Client.init 100 1, false, false, true⟩
          [.reconnectTimerExpired true, .socks .up true, .serverError, .reconnectTimerExpired true,
            .socks .error false] = some o' ∧
        o'.haveSocks = !o'.reconnectTimer ∧ o'.udpgwClient.haveServer = (o'.haveSocks && o'.socksUp) :=
  ⟨by decide, runs_keep_one_connection_attempt (by decide) (show init 100 1 false = some _ from rfl) (by decide)⟩

/--
After every run from `SocksUdpGwClient_Init`, the client can be brought up
again, with the udpgw client connected, by at most two more events within their
contracts: no run leaves it stuck without a SOCKS client and without a timer.
-/
theorem reconnects_after_every_run {udpMtu maxConnections : Nat} (positive : 0 < maxConnections)
    {socksInit : Bool} (started : init udpMtu maxConnections socksInit = some o) {events : List Event}
    (allowed : AllowedRun o events) {o' : SocksUdpGwClient} (ran : run? o events = some o') :
    ∃ more : List Event, more.length ≤ 2 ∧ AllowedRun o' more ∧
      ∃ o'', run? o' more = some o'' ∧ o''.socksUp = true ∧ o''.udpgwClient.haveServer = true := by
  obtain ⟨o₀, made, invariant⟩ := invariant_init udpMtu positive socksInit
  rw [started, Option.some.injEq] at made
  subst made
  obtain ⟨reached, ran', final⟩ := invariant.run? allowed
  rw [ran, Option.some.injEq] at ran'
  subst ran'
  obtain ⟨more, short, allowedMore, o'', ranMore, -, up, server⟩ := final.reconnects
  exact ⟨more, short, allowedMore, o'', ranMore, up, server⟩

theorem reconnects_after_every_run_failed_init :
    AllowedRun ⟨Client.init 100 1, false, false, true⟩ [] ∧
      ∃ more : List Event, more.length ≤ 2 ∧ AllowedRun ⟨Client.init 100 1, false, false, true⟩ more ∧
        ∃ o'', run? ⟨Client.init 100 1, false, false, true⟩ more = some o'' ∧ o''.socksUp = true ∧
          o''.udpgwClient.haveServer = true :=
  ⟨trivial, reconnects_after_every_run (by decide) (show init 100 1 false = some _ from rfl)
    (show AllowedRun _ [] from trivial) rfl⟩

/--
After every run from `SocksUdpGwClient_Init`, `SocksUdpGwClient_Free` succeeds
and leaves no SOCKS client, no running timer, and no server on the udpgw client.
-/
theorem free_after_every_run {udpMtu maxConnections : Nat} (positive : 0 < maxConnections)
    {socksInit : Bool} (started : init udpMtu maxConnections socksInit = some o) {events : List Event}
    (allowed : AllowedRun o events) {o' : SocksUdpGwClient} (ran : run? o events = some o') :
    ∃ o'', free o' = some o'' ∧ o''.haveSocks = false ∧ o''.reconnectTimer = false ∧
      o''.udpgwClient.haveServer = false := by
  obtain ⟨o₀, made, invariant⟩ := invariant_init udpMtu positive socksInit
  rw [started, Option.some.injEq] at made
  subst made
  obtain ⟨reached, ran', final⟩ := invariant.run? allowed
  rw [ran, Option.some.injEq] at ran'
  subst ran'
  exact final.free_releases

theorem free_after_every_run_up :
    AllowedRun ⟨Client.init 100 1, true, false, false⟩ [.socks .up true] ∧
      ∃ o'', free ⟨{ Client.init 100 1 with haveServer := true }, true, true, false⟩ = some o'' ∧
        o''.haveSocks = false ∧ o''.reconnectTimer = false ∧ o''.udpgwClient.haveServer = false :=
  ⟨by decide, free_after_every_run (by decide) (show init 100 1 true = some _ from rfl)
    (show AllowedRun _ [.socks .up true] by decide) rfl⟩

end Results

end SocksUdpGw

end Tun2SocksWinRT
