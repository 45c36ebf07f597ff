import Tun2SocksWinRT.UdpGwClientTable
import Tun2SocksWinRT.UdpgwServer

namespace Tun2SocksWinRT

namespace Udpgw

/-!
# A udpgw client and server over one stream

The client (`UdpGwClient`) and the server's side of it (`udpgw.c`) exchange
udpgw messages over one order-preserving stream in each direction.  Any
interleaving of these steps is a run: the client submits a packet from a local
endpoint, and the jobs this sets run; the server takes the next message; a
datagram arrives on one of the server's UDP sockets; a socket fails and its
connection closes; the client takes the next message and may pass a payload to
`handler_received`; a writer of either party gets its next buffer.

Every message carries, as a tag the code never reads, the conaddr of the
`SubmitPacket` it came from; a server connection keeps the tag of the message
that made it, and its replies carry that tag.  The model also records, as
ghost state, every pair of conid and conaddr the client has bound (`bindings`)
and how many times it re-keyed a connection (`rebinds`).

What is delivered as `(L, R, data)` was received by a server connection made
for a message from `SubmitPacket(L', R, ...)`, where `(L', R)` and `(L, R)` were
bound to one conid; `L' = L` as long as the client never re-keyed a connection
(`delivery_provenance`).  After a re-key that keeps the remote address, a
reply still in flight for the old local endpoint reaches the new one
(`stale_reply_crosses_endpoints`).
-/

open Client Client.UdpGwClient

/-- Both parties, the two streams, and the ghost state. -/
structure System where
  client : UdpGwClient
  server : Server.Client Conaddr
  /-- messages in the stream to the server, each with the conaddr it came from -/
  toServer : List (List UInt8 × Conaddr)
  /-- messages in the stream to the client, each with the conaddr it answers -/
  toClient : List (List UInt8 × Conaddr)
  /-- what `handler_received` was called with, and the conaddr the payload answers -/
  delivered : List (Delivery × Conaddr)
  /-- ghost: every conid and conaddr the client bound together -/
  bindings : List (Nat × Conaddr)
  /-- ghost: how many times `reuse_connection` ran -/
  rebinds : Nat

/-- The steps of the two parties. -/
inductive Event
  /-- `UdpGwClient_SubmitPacket`, and the jobs it sets -/
  | submitPacket (localAddr remoteAddr : BAddr) (isDns : Bool) (data : List UInt8)
      (allocation : Allocation)
  /-- the server reads the next message from the client -/
  | serverReceives (initSucceeds : Bool)
  /-- a datagram arrives on the UDP socket of the server connection with this conid -/
  | udpReceived (conid : Nat) (data : List UInt8)
  /-- the UDP socket of the server connection with this conid fails -/
  | udpError (conid : Nat)
  /-- the client reads the next message from the server -/
  | clientReceives
  /-- the writer of the client's connection at this address gets its next buffer -/
  | clientWriterRecv (con : Nat)
  /-- a writer of the server connection with this conid gets its next buffer -/
  | serverWriterRecv (conid : Nat) (writer : Server.Writer)

/-- The conid the client has for a conaddr after a step, bound to it. -/
def boundAfter (client : UdpGwClient) (conaddr : Conaddr) : List (Nat × Conaddr) :=
  match findConnectionByConaddr client conaddr with
  | some con => [(client.conidKey con, conaddr)]
  | none => []

/-- One step; `none` when the step is not possible or breaks an `ASSERT`. -/
def Event.step? (s : System) : Event → Option System
  | .submitPacket localAddr remoteAddr isDns data allocation =>
      (Client.submitPacketThenJobs s.client localAddr remoteAddr isDns data allocation).map
        fun (client, out) =>
          { s with
            client
            toServer := s.toServer ++ out.map fun message => (message, ⟨localAddr, remoteAddr⟩)
            bindings := boundAfter client ⟨localAddr, remoteAddr⟩ ++ s.bindings
            rebinds :=
              if findConnectionByConaddr s.client ⟨localAddr, remoteAddr⟩ = none ∧
                  s.client.numConnections = s.client.maxConnections then
                s.rebinds + 1
              else
                s.rebinds }
  | .serverReceives initSucceeds =>
      match s.toServer with
      | [] =>
          none
      | (message, origin) :: rest =>
          (Server.clientRecvIfHandlerSend s.server message origin initSucceeds).map fun
            | .ok (server, _) => { s with server, toServer := rest }
            | .error _ => { s with toServer := rest }
  | .udpReceived conid data =>
      match Server.findConnection s.server conid with
      | none =>
          none
      | some con =>
          if data.length ≤ s.server.udpMtu then
            let (server, reply) := Server.connectionUdpRecvIfHandlerSend s.server con data
            some { s with server, toClient := s.toClient ++ reply.toList }
          else
            none
  | .udpError conid =>
      (Server.findConnection s.server conid).map fun _ =>
        { s with server := Server.connectionClose s.server conid }
  | .clientReceives =>
      match s.toClient with
      | [] =>
          none
      | (message, origin) :: rest =>
          (recvInterfaceHandlerSend s.client message).map fun
            | .ok (client, delivery) =>
                { s with client, toClient := rest, delivered := s.delivered ++ [(delivery, origin)] }
            | .error _ => { s with toClient := rest }
  | .clientWriterRecv con =>
      ((Client.Event.writerRecv con).step? s.client).map fun client => { s with client }
  | .serverWriterRecv conid writer =>
      (Server.writerRecv s.server conid writer).map fun server => { s with server }

/-- A run of steps. -/
def run? (s : System) : List Event → Option System
  | [] =>
      some s
  | event :: rest =>
      (event.step? s).bind fun s => run? s rest

/--
A client just connected (`UdpGwClient_ConnectServer`) to a server with no
connections for it, nothing in flight.
-/
def System.init
    (udpMtu maxConnections maxConnectionsForClient : Nat)
    (dnsAddr : Option BAddr) :
    System where
  client := { Client.init udpMtu maxConnections with haveServer := true }
  server := ⟨[], maxConnectionsForClient, udpMtu, dnsAddr⟩
  toServer := []
  toClient := []
  delivered := []
  bindings := []
  rebinds := 0

/--
With room for one connection at the client: `(L1, R)` sends, the server makes
a connection and its socket receives a reply; then a packet for `(L2, R)` makes
the client re-key conid 0 to `(L2, R)` (its message is dropped, the writer not
having its next buffer yet), and the reply for `(L1, R)` is passed to `L2`.
-/
theorem stale_reply_crosses_endpoints :
    ((run? (System.init 1500 1 16 none)
      [.submitPacket (.ipv4 ⟨#[10, 0, 0, 1], rfl⟩ ⟨#[4, 0], rfl⟩)
          (.ipv4 ⟨#[8, 8, 8, 8], rfl⟩ ⟨#[0, 53], rfl⟩) false [1] .succeeds,
        .serverReceives true,
        .udpReceived 0 [9],
        .submitPacket (.ipv4 ⟨#[10, 0, 0, 1], rfl⟩ ⟨#[4, 1], rfl⟩)
          (.ipv4 ⟨#[8, 8, 8, 8], rfl⟩ ⟨#[0, 53], rfl⟩) false [2] .succeeds,
        .clientReceives]).map System.delivered) =
      some [(⟨.ipv4 ⟨#[10, 0, 0, 1], rfl⟩ ⟨#[4, 1], rfl⟩, .ipv4 ⟨#[8, 8, 8, 8], rfl⟩ ⟨#[0, 53], rfl⟩, [9]⟩,
        ⟨.ipv4 ⟨#[10, 0, 0, 1], rfl⟩ ⟨#[4, 0], rfl⟩, .ipv4 ⟨#[8, 8, 8, 8], rfl⟩ ⟨#[0, 53], rfl⟩⟩)] := by
  decide

/-! ## Where every message comes from -/

/--
A message in the stream to the server, as the client writes one: with flags
that announce its address, for a conid the client bound to the tagged conaddr,
to that conaddr's remote address.
-/
def SentFrom (bindings : List (Nat × Conaddr)) (message : List UInt8 × Conaddr) : Prop :=
  ∃ flags conid data, hasFlag flags udpgwClientFlagIpv6 = false ∧ (conid, message.2) ∈ bindings ∧
    message.1 = encode (addrFlags flags message.2.remoteAddr) conid message.2.remoteAddr data

/--
A message in the stream to the client, as a server connection made for the
tagged conaddr writes one: for a conid bound to the conaddr, from its remote
address.
-/
def RepliedFor (bindings : List (Nat × Conaddr)) (message : List UInt8 × Conaddr) : Prop :=
  ∃ conid data, (conid, message.2) ∈ bindings ∧
    message.1 = encode (addrFlags 0 message.2.remoteAddr) conid message.2.remoteAddr data

/--
A payload passed to `handler_received`, from the remote address of the conaddr
it answers, to a local endpoint bound to one conid with that conaddr.
-/
def DeliveredFor (bindings : List (Nat × Conaddr)) (entry : Delivery × Conaddr) : Prop :=
  entry.2.remoteAddr = entry.1.remoteAddr ∧
    ∃ conid, (conid, entry.2) ∈ bindings ∧ (conid, ⟨entry.1.localAddr, entry.1.remoteAddr⟩) ∈ bindings

section Growing

variable {bindings grown : List (Nat × Conaddr)}

theorem SentFrom.mono {message : List UInt8 × Conaddr} (sent : SentFrom bindings message)
    (sub : bindings ⊆ grown) : SentFrom grown message := by
  obtain ⟨flags, conid, data, clear, binding, written⟩ := sent
  exact ⟨flags, conid, data, clear, sub binding, written⟩

theorem RepliedFor.mono {message : List UInt8 × Conaddr} (replied : RepliedFor bindings message)
    (sub : bindings ⊆ grown) : RepliedFor grown message := by
  obtain ⟨conid, data, binding, written⟩ := replied
  exact ⟨conid, data, sub binding, written⟩

theorem DeliveredFor.mono {entry : Delivery × Conaddr} (delivered : DeliveredFor bindings entry)
    (sub : bindings ⊆ grown) : DeliveredFor grown entry := by
  obtain ⟨sameRemote, conid, tagged, delivering⟩ := delivered
  exact ⟨sameRemote, conid, sub tagged, sub delivering⟩

end Growing

/--
The invariant of the two parties: the client's table invariant, and where
every binding, message, server connection and delivery comes from.  As long as
no connection was re-keyed, every binding is still a live connection's.
-/
structure Sound (s : System) : Prop where
  table : TableInvariant s.client
  idle : s.client.pendingJobs = []
  bindings_small : ∀ binding ∈ s.bindings, binding.1 < 65536
  bound : ∀ con ∈ s.client.connectionsList,
    (s.client.conidKey con, s.client.conaddrKey con) ∈ s.bindings
  toServer : ∀ message ∈ s.toServer, SentFrom s.bindings message
  server : s.server.AllConnections fun con =>
    con.origAddr = con.ghost.remoteAddr ∧ (con.conid, con.ghost) ∈ s.bindings
  toClient : ∀ message ∈ s.toClient, RepliedFor s.bindings message
  delivered : ∀ entry ∈ s.delivered, DeliveredFor s.bindings entry
  unbroken : s.rebinds = 0 → ∀ binding ∈ s.bindings, ∃ con ∈ s.client.connectionsList,
    s.client.conidKey con = binding.1 ∧ s.client.conaddrKey con = binding.2

/-! ## What a submitted packet does to the live connections -/

namespace Client

section Submit

variable {o : UdpGwClient}

theorem TableInvariant.conidKey_small (invariant : TableInvariant o) {con : Nat}
    (member : con ∈ o.connectionsList) : o.conidKey con < 65536 :=
  Nat.lt_of_lt_of_le (invariant.conid_lt con member) invariant.maxConnections_le

/-- The binding a step records is the live connection's that has the conaddr. -/
theorem TableInvariant.boundAfter_of_mem (invariant : TableInvariant o) {con : Nat}
    {conaddr : Conaddr} (member : con ∈ o.connectionsList) (key : o.conaddrKey con = conaddr) :
    boundAfter o conaddr = [(o.conidKey con, conaddr)] := by
  rw [boundAfter, invariant.findConnectionByConaddr_eq_some_iff.mpr ⟨member, key⟩]

theorem TableInvariant.mem_boundAfter (invariant : TableInvariant o) {conaddr : Conaddr}
    {binding : Nat × Conaddr} (recorded : binding ∈ boundAfter o conaddr) :
    ∃ con ∈ o.connectionsList, o.conidKey con = binding.1 ∧ o.conaddrKey con = binding.2 := by
  unfold boundAfter at recorded
  split at recorded
  · rename_i con found
    obtain ⟨member, key⟩ := invariant.findConnectionByConaddr_eq_some_iff.mp found
    rw [List.mem_singleton.mp recorded]
    exact ⟨con, member, rfl, key⟩
  · cases recorded

theorem dnsFlags_clear (isDns : Bool) :
    hasFlag (if isDns then udpgwClientFlagDns else 0) udpgwClientFlagIpv6 = false := by
  cases isDns <;> decide

theorem rebindFlag_clear : hasFlag udpgwClientFlagRebind udpgwClientFlagIpv6 = false := by
  decide

variable {localAddr remoteAddr : BAddr} {isDns : Bool} {data : List UInt8}
  {allocation : Allocation} {result : UdpGwClient} {out : List (List UInt8)}

/--
After a submitted packet and its jobs, every live connection is one from before
with its old structure, or has the submitted conaddr.
-/
theorem TableInvariant.submitPacket_live (invariant : TableInvariant o) (idle : o.pendingJobs = [])
    (step : Client.submitPacketThenJobs o localAddr remoteAddr isDns data allocation = some (result, out)) :
    ∀ con ∈ result.connectionsList,
      (con ∈ o.connectionsList ∧ result.connections con = o.connections con) ∨
        result.conaddrKey con = ⟨localAddr, remoteAddr⟩ := by
  obtain ⟨_, _, existing | reused | failed | added⟩ := invariant.submitPacketThenJobs_cases idle step
  · obtain ⟨moved, member, _, rfl, _⟩ := existing
    intro con live
    exact Or.inl ⟨(moveToBack_perm member).mem_iff.mp live, rfl⟩
  · obtain ⟨_, _, rekeyed, head, rfl, _⟩ := reused
    have member := List.mem_of_mem_head? head
    intro con live
    by_cases same : con = rekeyed
    · subst same
      right
      simp [conaddrKey]
    · left
      exact ⟨(moveToBack_perm member).mem_iff.mp live,
        connections_rekeyConnection_of_ne o _ same⟩
  · obtain ⟨-, -, -, next, _, rfl, _⟩ := failed
    intro con live
    exact Or.inl ⟨live, rfl⟩
  · obtain ⟨_, _, next, _, _, rfl, _⟩ := added
    intro con live
    rcases List.mem_append.mp live with old | new
    · exact Or.inl ⟨old, connections_addConnection_of_ne _ _ (invariant.ne_heapTop old)⟩
    · rw [List.mem_singleton.mp new]
      right
      simp [conaddrKey]

/--
Unless the submit re-keys a connection, every live connection stays live with
its structure.
-/
theorem TableInvariant.submitPacket_keeps (invariant : TableInvariant o) (idle : o.pendingJobs = [])
    (step : Client.submitPacketThenJobs o localAddr remoteAddr isDns data allocation = some (result, out))
    (notReused : ¬(findConnectionByConaddr o ⟨localAddr, remoteAddr⟩ = none ∧
      o.numConnections = o.maxConnections)) :
    ∀ con ∈ o.connectionsList,
      con ∈ result.connectionsList ∧ result.connections con = o.connections con := by
  obtain ⟨_, _, existing | reused | failed | added⟩ := invariant.submitPacketThenJobs_cases idle step
  · obtain ⟨moved, member, _, rfl, _⟩ := existing
    intro con old
    exact ⟨(moveToBack_perm member).mem_iff.mpr old, rfl⟩
  · obtain ⟨full, fresh, _⟩ := reused
    exact absurd ⟨invariant.findConnectionByConaddr_eq_none_iff.mpr fresh, full⟩ notReused
  · obtain ⟨-, -, -, next, _, rfl, _⟩ := failed
    intro con old
    exact ⟨old, rfl⟩
  · obtain ⟨_, _, next, _, _, rfl, _⟩ := added
    intro con old
    exact ⟨List.mem_append_left _ old,
      connections_addConnection_of_ne _ _ (invariant.ne_heapTop old)⟩

/--
Every message a submitted packet and its jobs send goes out on a live
connection that has the submitted conaddr, with flags that announce its
address.
-/
theorem TableInvariant.submitPacket_out (invariant : TableInvariant o) (idle : o.pendingJobs = [])
    (step : Client.submitPacketThenJobs o localAddr remoteAddr isDns data allocation = some (result, out)) :
    ∀ message ∈ out, ∃ con ∈ result.connectionsList,
      result.conaddrKey con = ⟨localAddr, remoteAddr⟩ ∧
      ∃ flags sent, hasFlag flags udpgwClientFlagIpv6 = false ∧
        message = connectionSend result con flags sent := by
  obtain ⟨_, _, existing | reused | failed | added⟩ := invariant.submitPacketThenJobs_cases idle step
  · obtain ⟨con, member, key, rfl, rfl⟩ := existing
    intro message sent
    -- with no buffer, nothing was sent
    by_cases buffer : o.outHave con = true
    · rw [if_pos buffer, List.mem_singleton] at sent
      subst sent
      exact ⟨con, (moveToBack_perm member).mem_iff.mpr member, key, _, data, dnsFlags_clear isDns, rfl⟩
    · rw [if_neg buffer] at sent
      cases sent
  · obtain ⟨_, _, con, head, rfl, rfl⟩ := reused
    have member := List.mem_of_mem_head? head
    intro message sent
    by_cases buffer : o.outHave con = true
    · rw [if_pos buffer, List.mem_singleton] at sent
      subst sent
      exact ⟨con, (moveToBack_perm member).mem_iff.mpr member, by simp [conaddrKey], _, data,
        hasFlag_or_of_not (dnsFlags_clear isDns) rebindFlag_clear, rfl⟩
    · rw [if_neg buffer] at sent
      cases sent
  · obtain ⟨-, -, -, next, _, rfl, rfl⟩ := failed
    intro message sent
    cases sent
  · obtain ⟨_, _, next, _, _, rfl, rfl⟩ := added
    intro message sent
    rw [List.mem_singleton.mp sent]
    -- the first job sends the stored first packet with the rebind flag added
    exact ⟨o.heapTop, by simp, by simp [conaddrKey], _, _,
      hasFlag_or_of_not rebindFlag_clear (dnsFlags_clear isDns), rfl⟩

end Submit

end Client

/-! ## Every step keeps the invariant -/

section Steps

variable {s s' : System}

theorem Sound.submitPacket (sound : Sound s) {localAddr remoteAddr : BAddr} {isDns : Bool}
    {data : List UInt8} {allocation : Allocation}
    (step : (Event.submitPacket localAddr remoteAddr isDns data allocation).step? s = some s') :
    Sound s' := by
  obtain ⟨⟨client, out⟩, submitted, rfl⟩ := Option.map_eq_some_iff.mp step
  dsimp only
  have table := sound.table.submitPacketThenJobs submitted
  have grown : s.bindings ⊆ boundAfter client ⟨localAddr, remoteAddr⟩ ++ s.bindings :=
    List.subset_append_right _ _
  -- a live connection with the submitted conaddr is bound by this step
  have fresh : ∀ con ∈ client.connectionsList, client.conaddrKey con = ⟨localAddr, remoteAddr⟩ →
      (client.conidKey con, client.conaddrKey con) ∈
        boundAfter client ⟨localAddr, remoteAddr⟩ ++ s.bindings := by
    intro con member key
    rw [table.boundAfter_of_mem member key, key]
    exact List.mem_cons_self
  refine
    { table
      idle := (sound.table.submitPacketThenJobs_cases sound.idle submitted).2.1
      bindings_small := ?_
      bound := ?_
      toServer := ?_
      server := sound.server.imp fun con made => ⟨made.1, grown made.2⟩
      toClient := fun message inFlight => (sound.toClient message inFlight).mono grown
      delivered := fun entry was => (sound.delivered entry was).mono grown
      unbroken := ?_ }
  · intro binding member
    rcases List.mem_append.mp member with new | old
    · obtain ⟨con, live, conid, _⟩ := table.mem_boundAfter new
      rw [← conid]
      exact table.conidKey_small live
    · exact sound.bindings_small binding old
  · intro con live
    rcases sound.table.submitPacket_live sound.idle submitted con live with ⟨old, same⟩ | key
    · have keys : client.conidKey con = s.client.conidKey con ∧
          client.conaddrKey con = s.client.conaddrKey con := by
        simp only [conidKey, conaddrKey, same, and_self]
      rw [keys.1, keys.2]
      exact grown (sound.bound con old)
    · exact fresh con live key
  · intro message inFlight
    rcases List.mem_append.mp inFlight with old | new
    · exact (sound.toServer message old).mono grown
    · obtain ⟨sent, fromOut, rfl⟩ := List.mem_map.mp new
      obtain ⟨con, member, key, flags, payload, clear, rfl⟩ :=
        sound.table.submitPacket_out sound.idle submitted sent fromOut
      have binding := fresh con member key
      rw [key] at binding
      -- the connection writes its own remote address: the submitted one
      have remote : (client.connections con).conaddr.remoteAddr = remoteAddr :=
        congrArg Conaddr.remoteAddr key
      refine ⟨flags, client.conidKey con, payload, clear, binding, ?_⟩
      simp only [connectionSend, remote, conidKey]
  · intro noRebind
    split at noRebind
    · cases noRebind
    · rename_i notReused
      have kept := sound.table.submitPacket_keeps sound.idle submitted notReused
      intro binding member
      rcases List.mem_append.mp member with new | old
      · exact table.mem_boundAfter new
      · obtain ⟨con, live, conid, conaddr⟩ := sound.unbroken noRebind binding old
        obtain ⟨stillLive, same⟩ := kept con live
        refine ⟨con, stillLive, ?_, ?_⟩
        · simp only [conidKey, same] at conid ⊢
          exact conid
        · simp only [conaddrKey, same] at conaddr ⊢
          exact conaddr

theorem Sound.serverReceives (sound : Sound s) {initSucceeds : Bool}
    (step : (Event.serverReceives initSucceeds).step? s = some s') : Sound s' := by
  simp only [Event.step?] at step
  split at step
  · cases step
  · rename_i message origin rest queued
    obtain ⟨outcome, received, rfl⟩ := Option.map_eq_some_iff.mp step
    have remaining : ∀ later ∈ rest, SentFrom s.bindings later :=
      fun later member => sound.toServer later (queued ▸ List.mem_cons_of_mem _ member)
    cases outcome with
    | error _ =>
        exact { sound with toServer := remaining }
    | ok result =>
        obtain ⟨server, sent⟩ := result
        obtain ⟨flags, conid, payload, clear, binding, written⟩ :=
          sound.toServer (message, origin) (queued ▸ List.mem_cons_self)
        have small := sound.bindings_small _ binding
        refine { sound with server := ?_, toServer := remaining }
        apply sound.server.clientRecvIfHandlerSend (fun _ _ made => made) _ received
        -- a connection the message makes is for the conid and address it was written with
        intro readFlags readConid readRest origAddr readPayload addr header address
        dsimp only at written
        rw [written] at header
        obtain ⟨rfl, rfl, _⟩ := encode_parsed clear small header address
        exact ⟨rfl, binding⟩

theorem Sound.udpReceived (sound : Sound s) {conid : Nat} {data : List UInt8}
    (step : (Event.udpReceived conid data).step? s = some s') : Sound s' := by
  simp only [Event.step?] at step
  split at step
  · cases step
  · rename_i con found
    have member := (Server.findConnection_mem found).1
    have kept := sound.server.connectionUdpRecvIfHandlerSend member (fun _ _ made => made) data
    have replies : ∀ reply ∈ (Server.connectionUdpRecvIfHandlerSend s.server con data).2,
        reply = (encode (addrFlags 0 con.origAddr) con.conid con.origAddr data, con.ghost) :=
      fun _ sent => Server.connectionUdpRecvIfHandlerSend_reply sent
    split at step
    · generalize Server.connectionUdpRecvIfHandlerSend s.server con data = outcome at step kept replies
      obtain ⟨server, reply⟩ := outcome
      cases step
      refine { sound with server := kept, toClient := ?_ }
      intro message inFlight
      rcases List.mem_append.mp inFlight with old | new
      · exact sound.toClient message old
      · have answered := replies message (Option.mem_toList.mp new)
        -- the connection answers from the address of the message that made it
        obtain ⟨sameAddr, binding⟩ := sound.server con member
        rw [answered]
        exact ⟨con.conid, data, binding, by rw [sameAddr]⟩
    · cases step

theorem Sound.udpError (sound : Sound s) {conid : Nat}
    (step : (Event.udpError conid).step? s = some s') : Sound s' := by
  obtain ⟨_, _, rfl⟩ := Option.map_eq_some_iff.mp step
  exact { sound with server := sound.server.connectionClose conid }

theorem Sound.clientReceives (sound : Sound s) (step : Event.clientReceives.step? s = some s') :
    Sound s' := by
  simp only [Event.step?] at step
  split at step
  · cases step
  · rename_i message origin rest queued
    obtain ⟨outcome, received, rfl⟩ := Option.map_eq_some_iff.mp step
    have remaining : ∀ later ∈ rest, RepliedFor s.bindings later :=
      fun later member => sound.toClient later (queued ▸ List.mem_cons_of_mem _ member)
    cases outcome with
    | error _ =>
        exact { sound with toClient := remaining }
    | ok result =>
        obtain ⟨client, delivery⟩ := result
        obtain ⟨flags, readConid, readRest, remoteAddr, payload, con, header, address, _, found,
          sameRemote, rfl, rfl⟩ := recvInterfaceHandlerSend_eq_ok received
        obtain ⟨conid, sent, binding, written⟩ :=
          sound.toClient (message, origin) (queued ▸ List.mem_cons_self)
        dsimp only at written binding
        rw [written] at header
        -- the client reads back the conid, address and payload the server wrote
        obtain ⟨rfl, rfl, rfl⟩ :=
          encode_parsed (by decide) (sound.bindings_small _ binding) header address
        obtain ⟨member, key⟩ := sound.table.findConnectionByConid_eq_some_iff.mp found
        have perm := moveToBack_perm member
        refine
          { table := sound.table.permList perm
            idle := sound.idle
            bindings_small := sound.bindings_small
            bound := fun other live => sound.bound other (perm.mem_iff.mp live)
            toServer := sound.toServer
            server := sound.server
            toClient := remaining
            delivered := ?_
            unbroken := fun noRebind other recorded => ?_ }
        · intro entry was
          rcases List.mem_append.mp was with old | new
          · exact sound.delivered entry old
          · rw [List.mem_singleton.mp new]
            have conaddr : s.client.conaddrKey con =
                ⟨(s.client.connections con).conaddr.localAddr, origin.remoteAddr⟩ := by
              rw [← sameRemote]
              rfl
            have bound := sound.bound con member
            rw [key, conaddr] at bound
            exact ⟨rfl, readConid, binding, bound⟩
        · obtain ⟨live, liveMember, keys⟩ := sound.unbroken noRebind other recorded
          exact ⟨live, perm.mem_iff.mpr liveMember, keys⟩

theorem Sound.clientWriterRecv (sound : Sound s) {con : Nat}
    (step : (Event.clientWriterRecv con).step? s = some s') : Sound s' := by
  obtain ⟨client, stepped, rfl⟩ := Option.map_eq_some_iff.mp step
  obtain ⟨-, -, rfl⟩ := writerRecv_step? stepped
  exact { sound with table := sound.table.withWriters _ _ }

theorem Sound.serverWriterRecv (sound : Sound s) {conid : Nat} {writer : Server.Writer}
    (step : (Event.serverWriterRecv conid writer).step? s = some s') : Sound s' := by
  obtain ⟨server, stepped, rfl⟩ := Option.map_eq_some_iff.mp step
  exact { sound with server := sound.server.writerRecv (fun _ _ made => made) stepped }

theorem Sound.step? (sound : Sound s) {event : Event} (step : event.step? s = some s') :
    Sound s' := by
  cases event with
  | submitPacket => exact sound.submitPacket step
  | serverReceives => exact sound.serverReceives step
  | udpReceived => exact sound.udpReceived step
  | udpError => exact sound.udpError step
  | clientReceives => exact sound.clientReceives step
  | clientWriterRecv => exact sound.clientWriterRecv step
  | serverWriterRecv => exact sound.serverWriterRecv step

/-- Every run keeps the invariant; the induction is on the events, from any sound state. -/
theorem Sound.run? (sound : Sound s) {events : List Event} (ran : run? s events = some s') :
    Sound s' := by
  induction events generalizing s with
  | nil =>
      cases ran
      exact sound
  | cons event rest ih =>
      obtain ⟨next, stepped, rest⟩ := Option.bind_eq_some_iff.mp ran
      exact ih (sound.step? stepped) rest

theorem sound_init
    (udpMtu : Nat)
    {maxConnections : Nat}
    (positive : 0 < maxConnections)
    (maxConnectionsForClient : Nat)
    (dnsAddr : Option BAddr) :
    Sound (System.init udpMtu maxConnections maxConnectionsForClient dnsAddr) where
  table := { tableInvariant_init udpMtu positive with }
  idle := rfl
  bindings_small := fun _ member => absurd member List.not_mem_nil
  bound := fun _ member => absurd member List.not_mem_nil
  toServer := fun _ member => absurd member List.not_mem_nil
  server := fun _ member => absurd member List.not_mem_nil
  toClient := fun _ member => absurd member List.not_mem_nil
  delivered := fun _ member => absurd member List.not_mem_nil
  unbroken := fun _ _ member => absurd member List.not_mem_nil

end Steps

/--
Every payload passed to `handler_received` comes from the remote address of the
conaddr whose packet made the server connection it came back on; that conaddr
and the local endpoint it is passed to were bound to one conid; and while no
connection was re-keyed, the two are the same conaddr.
-/
theorem delivery_provenance
    (udpMtu : Nat)
    {maxConnections : Nat}
    (positive : 0 < maxConnections)
    (maxConnectionsForClient : Nat)
    (dnsAddr : Option BAddr)
    {events : List Event}
    {s : System}
    (ran : run? (System.init udpMtu maxConnections maxConnectionsForClient dnsAddr) events = some s)
    {entry : Delivery × Conaddr}
    (delivered : entry ∈ s.delivered) :
    entry.2.remoteAddr = entry.1.remoteAddr ∧
      (∃ conid, (conid, entry.2) ∈ s.bindings ∧
        (conid, ⟨entry.1.localAddr, entry.1.remoteAddr⟩) ∈ s.bindings) ∧
      (s.rebinds = 0 → entry.2 = ⟨entry.1.localAddr, entry.1.remoteAddr⟩) := by
  have sound := (sound_init udpMtu positive maxConnectionsForClient dnsAddr).run? ran
  obtain ⟨sameRemote, conid, tagged, delivering⟩ := sound.delivered entry delivered
  refine ⟨sameRemote, ⟨conid, tagged, delivering⟩, fun noRebind => ?_⟩
  -- with no re-key, both bindings of the conid are one live connection's
  obtain ⟨first, firstLive, firstConid, firstConaddr⟩ := sound.unbroken noRebind _ tagged
  obtain ⟨second, secondLive, secondConid, secondConaddr⟩ := sound.unbroken noRebind _ delivering
  have same : first = second :=
    (KeyedIndex.distinctKeys_iff_injective sound.table.nodup).mp sound.table.conids_distinct
      first firstLive second secondLive (firstConid.trans secondConid.symm)
  have firstKey : s.client.conaddrKey first = entry.2 := firstConaddr
  have secondKey : s.client.conaddrKey second = ⟨entry.1.localAddr, entry.1.remoteAddr⟩ :=
    secondConaddr
  rw [← firstKey, ← secondKey, same]

/-- One packet from `(L, R)`, its reply from `R`, passed back to `L`. -/
theorem delivery_provenance_one_reply :
    ((⟨.ipv4 ⟨#[10, 0, 0, 1], rfl⟩ ⟨#[4, 0], rfl⟩, .ipv4 ⟨#[8, 8, 8, 8], rfl⟩ ⟨#[0, 53], rfl⟩, [9]⟩,
        ⟨.ipv4 ⟨#[10, 0, 0, 1], rfl⟩ ⟨#[4, 0], rfl⟩, .ipv4 ⟨#[8, 8, 8, 8], rfl⟩ ⟨#[0, 53], rfl⟩⟩) :
        Delivery × Conaddr) ∈
      ((run? (System.init 1500 2 16 none)
        [.submitPacket (.ipv4 ⟨#[10, 0, 0, 1], rfl⟩ ⟨#[4, 0], rfl⟩)
            (.ipv4 ⟨#[8, 8, 8, 8], rfl⟩ ⟨#[0, 53], rfl⟩) false [1] .succeeds,
          .serverReceives true,
          .udpReceived 0 [9],
          .clientReceives]).get (by decide)).delivered ∧
    ((⟨.ipv4 ⟨#[10, 0, 0, 1], rfl⟩ ⟨#[4, 0], rfl⟩, .ipv4 ⟨#[8, 8, 8, 8], rfl⟩ ⟨#[0, 53], rfl⟩⟩ :
        Conaddr).remoteAddr = .ipv4 ⟨#[8, 8, 8, 8], rfl⟩ ⟨#[0, 53], rfl⟩ ∧
      (∃ conid, (conid, (⟨.ipv4 ⟨#[10, 0, 0, 1], rfl⟩ ⟨#[4, 0], rfl⟩,
          .ipv4 ⟨#[8, 8, 8, 8], rfl⟩ ⟨#[0, 53], rfl⟩⟩ : Conaddr)) ∈
          ((run? (System.init 1500 2 16 none)
            [.submitPacket (.ipv4 ⟨#[10, 0, 0, 1], rfl⟩ ⟨#[4, 0], rfl⟩)
                (.ipv4 ⟨#[8, 8, 8, 8], rfl⟩ ⟨#[0, 53], rfl⟩) false [1] .succeeds,
              .serverReceives true,
              .udpReceived 0 [9],
              .clientReceives]).get (by decide)).bindings ∧
        (conid, (⟨.ipv4 ⟨#[10, 0, 0, 1], rfl⟩ ⟨#[4, 0], rfl⟩,
          .ipv4 ⟨#[8, 8, 8, 8], rfl⟩ ⟨#[0, 53], rfl⟩⟩ : Conaddr)) ∈
          ((run? (System.init 1500 2 16 none)
            [.submitPacket (.ipv4 ⟨#[10, 0, 0, 1], rfl⟩ ⟨#[4, 0], rfl⟩)
                (.ipv4 ⟨#[8, 8, 8, 8], rfl⟩ ⟨#[0, 53], rfl⟩) false [1] .succeeds,
              .serverReceives true,
              .udpReceived 0 [9],
              .clientReceives]).get (by decide)).bindings) ∧
      (((run? (System.init 1500 2 16 none)
            [.submitPacket (.ipv4 ⟨#[10, 0, 0, 1], rfl⟩ ⟨#[4, 0], rfl⟩)
                (.ipv4 ⟨#[8, 8, 8, 8], rfl⟩ ⟨#[0, 53], rfl⟩) false [1] .succeeds,
              .serverReceives true,
              .udpReceived 0 [9],
              .clientReceives]).get (by decide)).rebinds = 0 →
        (⟨.ipv4 ⟨#[10, 0, 0, 1], rfl⟩ ⟨#[4, 0], rfl⟩, .ipv4 ⟨#[8, 8, 8, 8], rfl⟩ ⟨#[0, 53], rfl⟩⟩ :
          Conaddr) =
          ⟨.ipv4 ⟨#[10, 0, 0, 1], rfl⟩ ⟨#[4, 0], rfl⟩, .ipv4 ⟨#[8, 8, 8, 8], rfl⟩ ⟨#[0, 53], rfl⟩⟩)) := by
  refine ⟨?delivered, delivery_provenance 1500 (by decide) 16 none (Option.some_get _).symm ?delivered⟩
  case delivered => decide

end Udpgw

end Tun2SocksWinRT
