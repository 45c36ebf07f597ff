import Tun2SocksWinRT.UdpgwProto

namespace Tun2SocksWinRT

namespace Udpgw

namespace Server

/-!
# The udpgw server's side of one client

`udpgw/udpgw.c` serves each client connection with a table of connections,
one per conid.  A message from the client either goes out on the UDP socket of
the connection with its conid, or (when there is none, when it carries
`UDPGW_CLIENT_FLAG_REBIND`, or when its address is not the one the connection
was made for) makes a new connection, closing the old one and, with the table
full, the least recently used one.  A datagram received on a connection's
socket goes back to the client labelled with the connection's conid and the
address it was made for (`orig_addr`).

A connection carries a tag of a type the code never inspects (`Ghost`): the
tag of the message that made it, passed on to every message it sends back.
Being a parameter, it cannot change what the code does; the two-party model
uses it to say where a message came from.

`connections_tree` and `connections_list` are kept as one list in
least-recently-used order, looked up by conid: nothing here reads the tree's
shape.  A closed connection leaves the table at once; the messages it had
queued are already in the stream to the client in the two-party model.  The
UDP sockets are the datagrams sent (`addr` and payload).

A connection writes through two `BufferWriter`s, its messages to the client
(`send_if`) and its datagrams (`udp_send_writer`); each writes only while it
holds a buffer (`out_have`), and drops the packet otherwise ("out of client
buffer", "out of UDP buffer").  A writer hands its buffer back with each
packet and gets the next one when its `PacketBuffer` has room
(`writerRecv`).  The jobs `connection_init` sets (each writer's first
`Recv`, set after `first_job` and so run before it, then `first_job`) run at
the end of the call.
-/

/-- The two `BufferWriter`s of a connection. -/
inductive Writer
  /-- `send_if`, the input of the connection's `PacketProtoFlow` to the client -/
  | toClient
  /-- `udp_send_writer` -/
  | toUdp
  deriving DecidableEq, Repr

/-- `struct connection`: the fields the message paths read, and the tag. -/
structure Connection (Ghost : Type) where
  conid : Nat
  addr : BAddr
  origAddr : BAddr
  ghost : Ghost
  /-- `out_have` of each of its writers -/
  outHave : Writer → Bool

/-- `struct client`: its connections, least recently used first, and the server's options. -/
structure Client (Ghost : Type) where
  connections : List (Connection Ghost)
  maxConnectionsForClient : Nat
  udpMtu : Nat
  /-- `dns_addr`, when a DNS server is known -/
  dnsAddr : Option BAddr

variable {Ghost : Type}

/-- `udpgw_compute_mtu(options.udp_mtu)`. -/
def Client.udpgwMtu (client : Client Ghost) : Nat :=
  3 + 18 + client.udpMtu

/-- `find_connection`. -/
def findConnection (client : Client Ghost) (conid : Nat) : Option (Connection Ghost) :=
  client.connections.find? fun con => con.conid == conid

/-- `connection_close`: the connection leaves the table (and later is freed). -/
def connectionClose (client : Client Ghost) (conid : Nat) : Client Ghost :=
  { client with connections := client.connections.filter fun con => con.conid != conid }

/-- Put a connection's record, as it now is, at the back of the list. -/
def moveToBack (client : Client Ghost) (con : Connection Ghost) : Client Ghost :=
  { client with connections := (client.connections.filter fun other => other.conid != con.conid) ++ [con] }

/-- A connection whose writer has handed its buffer back. -/
def Connection.takeBuffer (con : Connection Ghost) (writer : Writer) : Connection Ghost :=
  { con with outHave := Function.update con.outHave writer false }

/--
`connection_send_to_udp`: move the connection to the back, and send the
datagram if the UDP writer has a buffer.
-/
def connectionSendToUdp (client : Client Ghost) (con : Connection Ghost) (data : List UInt8) :
    Client Ghost × List (BAddr × List UInt8) :=
  if con.outHave .toUdp then
    (moveToBack client (con.takeBuffer .toUdp), [(con.addr, data)])
  else
    -- out of UDP buffer
    (moveToBack client con, [])

/--
`output_handler_recv` of one writer of the connection with this conid: its
`PacketBuffer` hands it a buffer.
-/
def writerRecv (client : Client Ghost) (conid : Nat) (writer : Writer) : Option (Client Ghost) :=
  match findConnection client conid with
  | none =>
      none
  | some con =>
      -- `ASSERT(!o->out_have)`
      if con.outHave writer then
        none
      else
        some { client with
          connections := client.connections.map fun other =>
            if other.conid = conid then { other with outHave := Function.update other.outHave writer true }
            else other }

/--
`connection_init`: with every allocation succeeding, the connection joins the
table, both writers get their first buffer, and its first job sends the first
datagram through the UDP writer; otherwise nothing changes.
-/
def connectionInit
    (client : Client Ghost)
    (conid : Nat)
    (addr origAddr : BAddr)
    (data : List UInt8)
    (ghost : Ghost)
    (succeeds : Bool) :
    Option (Client Ghost × List (BAddr × List UInt8)) :=
  if client.connections.length < client.maxConnectionsForClient ∧
      (findConnection client conid).isNone ∧ data.length ≤ client.udpMtu then
    if succeeds then
      some ({ client with
          connections := client.connections ++
            [⟨conid, addr, origAddr, ghost, Function.update (fun _ => true) .toUdp false⟩] },
        [(addr, data)])
    else
      some (client, [])
  else
    none

/--
The end of `client_recv_if_handler_send` when no connection is kept for the
conid: with the table full the least recently used connection is closed, and a
connection is made for the message (to `dns_addr` for a DNS message, when a DNS
server is known).
-/
def createConnection
    (client : Client Ghost)
    (flags : UInt8)
    (conid : Nat)
    (origAddr : BAddr)
    (payload : List UInt8)
    (ghost : Ghost)
    (initSucceeds : Bool) :
    Option (Client Ghost × List (BAddr × List UInt8)) :=
  -- check number of connections: close the least recently used one
  let client :=
    match client.connections.head? with
    | some oldest =>
        if client.connections.length = client.maxConnectionsForClient then
          connectionClose client oldest.conid
        else
          client
    | none =>
        client
  -- if this is DNS, replace actual address, but keep the orig_addr
  let addr := if hasFlag flags udpgwClientFlagDns then client.dnsAddr.getD origAddr else origAddr
  connectionInit client conid addr origAddr payload ghost initSucceeds

/--
`client_recv_if_handler_send`: a message from the client, with its tag.  A
message that fails a check is dropped with the text logged; a keepalive is
ignored.  `none` is a failed `ASSERT`.
-/
def clientRecvIfHandlerSend
    (client : Client Ghost)
    (data : List UInt8)
    (ghost : Ghost)
    (initSucceeds : Bool) :
    Option (Except String (Client Ghost × List (BAddr × List UInt8))) :=
  match parseHeader data with
  | .error message =>
      some (.error message)
  | .ok (flags, conid, rest) =>
      -- if this is keepalive, ignore any payload
      if hasFlag flags udpgwClientFlagKeepalive then
        some (.ok (client, []))
      else
        match parseAddr flags rest with
        | .error message =>
            some (.error message)
        | .ok (origAddr, payload) =>
            if client.udpMtu < payload.length then
              some (.error "too much data")
            else
              match findConnection client conid with
              | some con =>
                  -- close the old connection on a rebind or a new address
                  if hasFlag flags udpgwClientFlagRebind || con.origAddr != origAddr then
                    (createConnection (connectionClose client conid) flags conid origAddr payload ghost
                      initSucceeds).map .ok
                  else
                    some (.ok (connectionSendToUdp client con payload))
              | none =>
                  (createConnection client flags conid origAddr payload ghost initSucceeds).map .ok

/--
`connection_udp_recv_if_handler_send`: a datagram received on the connection's
socket.  The connection moves to the back; `connection_send_to_client` sends the
message to the client, with the connection's tag, unless it is too large or the
writer to the client has no buffer.
-/
def connectionUdpRecvIfHandlerSend (client : Client Ghost) (con : Connection Ghost)
    (data : List UInt8) : Client Ghost × Option (List UInt8 × Ghost) :=
  let addrLen := match con.origAddr with
    | .ipv4 _ _ => 6
    | .ipv6 _ _ => 18
  if client.udpgwMtu < 3 + addrLen + data.length then
    -- packet is too large, cannot send to client
    (moveToBack client con, none)
  else if con.outHave .toClient then
    (moveToBack client (con.takeBuffer .toClient),
      some (encode (addrFlags 0 con.origAddr) con.conid con.origAddr data, con.ghost))
  else
    -- out of client buffer
    (moveToBack client con, none)

/-! ## What the server's steps make of its table -/

section Keeping

variable {P : Connection Ghost → Prop}

/-- Every connection of the table has the property. -/
def Client.AllConnections (client : Client Ghost) (P : Connection Ghost → Prop) : Prop :=
  ∀ con ∈ client.connections, P con

/-- A weaker property of all connections. -/
theorem Client.AllConnections.imp {client : Client Ghost} {Q : Connection Ghost → Prop}
    (all : client.AllConnections P) (weaker : ∀ con, P con → Q con) :
    client.AllConnections Q :=
  fun con member => weaker con (all con member)

/-- A found connection is in the table and has the conid. -/
theorem findConnection_mem {client : Client Ghost} {conid : Nat} {con : Connection Ghost}
    (found : findConnection client conid = some con) :
    con ∈ client.connections ∧ con.conid = conid := by
  have matching := List.find?_some found
  simp only [beq_iff_eq] at matching
  exact ⟨List.mem_of_find?_eq_some found, matching⟩

/-- Closing a connection keeps a property of all connections. -/
theorem Client.AllConnections.connectionClose {client : Client Ghost}
    (all : client.AllConnections P) (conid : Nat) :
    (Server.connectionClose client conid).AllConnections P :=
  fun con member => all con (List.mem_filter.mp member).1

/--
Moving a connection of the table to the back, its record changed in a way the
property does not see, keeps a property of all connections.
-/
theorem Client.AllConnections.moveToBack {client : Client Ghost}
    (all : client.AllConnections P) {con moved : Connection Ghost} (member : con ∈ client.connections)
    (keeps : P con → P moved) :
    (Server.moveToBack client moved).AllConnections P := by
  intro other inNew
  rcases List.mem_append.mp inNew with kept | back
  · exact all other (List.mem_filter.mp kept).1
  · rw [List.mem_singleton.mp back]
    exact keeps (all con member)

/-- A writer handed a buffer keeps a property of all connections that does not see the buffers. -/
theorem Client.AllConnections.writerRecv {client result : Client Ghost}
    (all : client.AllConnections P) {conid : Nat} {writer : Writer}
    (keeps : ∀ con outHave, P con → P { con with outHave })
    (step : Server.writerRecv client conid writer = some result) :
    result.AllConnections P := by
  unfold Server.writerRecv at step
  split at step
  · cases step
  · split at step
    · cases step
    · cases step
      intro other inNew
      obtain ⟨old, member, rfl⟩ := List.mem_map.mp inNew
      split
      · exact keeps old _ (all old member)
      · exact all old member

/-- A connection made with the property keeps it for all connections. -/
theorem Client.AllConnections.connectionInit {client : Client Ghost}
    (all : client.AllConnections P)
    {conid : Nat} {addr origAddr : BAddr} {data : List UInt8} {ghost : Ghost} {succeeds : Bool}
    {result : Client Ghost × List (BAddr × List UInt8)}
    (made : P ⟨conid, addr, origAddr, ghost, Function.update (fun _ => true) .toUdp false⟩)
    (step : Server.connectionInit client conid addr origAddr data ghost succeeds = some result) :
    result.1.AllConnections P := by
  unfold Server.connectionInit at step
  split at step
  · split at step
    · cases step
      intro con member
      rcases List.mem_append.mp member with old | new
      · exact all con old
      · rw [List.mem_singleton.mp new]
        exact made
    · cases step
      exact all
  · cases step

/-- Making a connection for a message keeps a property of all connections. -/
theorem Client.AllConnections.createConnection {client : Client Ghost}
    (all : client.AllConnections P)
    {flags : UInt8} {conid : Nat} {origAddr : BAddr} {payload : List UInt8} {ghost : Ghost}
    {initSucceeds : Bool} {result : Client Ghost × List (BAddr × List UInt8)}
    (made : ∀ addr, P ⟨conid, addr, origAddr, ghost, Function.update (fun _ => true) .toUdp false⟩)
    (step : createConnection client flags conid origAddr payload ghost initSucceeds = some result) :
    result.1.AllConnections P := by
  unfold Server.createConnection at step
  -- the table the connection joins: the old one, perhaps without its oldest connection
  have trimmed : Client.AllConnections
      (match client.connections.head? with
        | some oldest =>
            if client.connections.length = client.maxConnectionsForClient then
              Server.connectionClose client oldest.conid
            else
              client
        | none => client) P := by
    split
    · split
      · exact all.connectionClose _
      · exact all
    · exact all
  exact trimmed.connectionInit (made _) step

/--
A message from the client keeps a property of all connections, when every
connection it could make has it: one whose conid and `orig_addr` are read from
the message, with the message's tag.
-/
theorem Client.AllConnections.clientRecvIfHandlerSend {client : Client Ghost}
    (all : client.AllConnections P)
    {data : List UInt8} {ghost : Ghost} {initSucceeds : Bool}
    {result : Client Ghost × List (BAddr × List UInt8)}
    (keeps : ∀ con outHave, P con → P { con with outHave })
    (made : ∀ flags conid rest origAddr payload addr,
      parseHeader data = .ok (flags, conid, rest) → parseAddr flags rest = .ok (origAddr, payload) →
      P ⟨conid, addr, origAddr, ghost, Function.update (fun _ => true) .toUdp false⟩)
    (step : clientRecvIfHandlerSend client data ghost initSucceeds = some (.ok result)) :
    result.1.AllConnections P := by
  unfold Server.clientRecvIfHandlerSend at step
  split at step
  · cases step
  · rename_i flags conid rest header
    split at step
    · -- a keepalive
      cases step
      exact all
    · split at step
      · cases step
      · rename_i origAddr payload address
        have newConnection := made flags conid rest origAddr payload
        split at step
        · cases step
        · split at step
          · rename_i con found
            split at step
            · obtain ⟨created, creating, wrapped⟩ := Option.map_eq_some_iff.mp step
              cases wrapped
              exact (all.connectionClose conid).createConnection (newConnection · header address)
                creating
            · cases step
              -- the datagram goes out, or the UDP writer has no buffer
              unfold connectionSendToUdp
              split
              · exact all.moveToBack (findConnection_mem found).1 (keeps _ _)
              · exact all.moveToBack (findConnection_mem found).1 id
          · obtain ⟨created, creating, wrapped⟩ := Option.map_eq_some_iff.mp step
            cases wrapped
            exact all.createConnection (newConnection · header address) creating

/--
The message a datagram on a connection's socket sends back is labelled with
the connection's conid and `orig_addr`, with its tag.
-/
theorem connectionUdpRecvIfHandlerSend_reply {client : Client Ghost} {con : Connection Ghost}
    {data : List UInt8} {reply : List UInt8 × Ghost}
    (sent : reply ∈ (connectionUdpRecvIfHandlerSend client con data).2) :
    reply = (encode (addrFlags 0 con.origAddr) con.conid con.origAddr data, con.ghost) := by
  unfold connectionUdpRecvIfHandlerSend at sent
  dsimp only at sent
  split_ifs at sent
  · cases sent
  · exact (Option.mem_some_iff.mp sent).symm
  · cases sent

/-- A datagram on a connection's socket keeps a property of all connections that does not see the buffers. -/
theorem Client.AllConnections.connectionUdpRecvIfHandlerSend {client : Client Ghost}
    (all : client.AllConnections P) {con : Connection Ghost} (member : con ∈ client.connections)
    (keeps : ∀ con outHave, P con → P { con with outHave }) (data : List UInt8) :
    (Server.connectionUdpRecvIfHandlerSend client con data).1.AllConnections P := by
  unfold Server.connectionUdpRecvIfHandlerSend
  dsimp only
  split_ifs
  · exact all.moveToBack member id
  · exact all.moveToBack member (keeps _ _)
  · exact all.moveToBack member id

end Keeping

end Server

end Udpgw

end Tun2SocksWinRT
