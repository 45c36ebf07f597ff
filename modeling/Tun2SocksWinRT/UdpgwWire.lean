import Tun2SocksWinRT.UdpGwClient
import Tun2SocksWinRT.UdpgwServer

namespace Tun2SocksWinRT

namespace Udpgw

/-!
# One message format, four ends

A udpgw message is written in two places (`connection_send` in the client,
`connection_send_to_client` in the server) and read in two
(`recv_interface_handler_send` in the client, `client_recv_if_handler_send` in
the server).  Each reader checks the header, then the address that the IPv6
flag announces, then the payload length against `udp_mtu`, and only then looks
at its own table.

This module splits each reader at that point: `Client.acceptMessage` and
`Server.dispatchMessage` are what the readers do with the conid, the address
and the payload they have read.  A message written by either writer is read
back as written (`Client.recvInterfaceHandlerSend_connectionSend`,
`Client.recvInterfaceHandlerSend_sentToClient`,
`Server.clientRecvIfHandlerSend_connectionSend`), provided the flags the writer
is given do not already claim IPv6, which holds of every call the client makes;
and a message too short for the address its flags announce is refused before
anything is delivered (`Client.recvInterfaceHandlerSend_short`).
-/

open ByteMemory

/-- A message is a header, at most the larger address, and the payload. -/
theorem length_encode_le (flags : UInt8) (conid : Nat) (addr : BAddr) (data : List UInt8) :
    (encode flags conid addr data).length ≤ 3 + 18 + data.length := by
  cases addr <;> simp [encode, encodeHeader, encodeAddr] <;> omega

/--
The size of the address that a message's flags announce:
`sizeof(struct udpgw_addr_ipv6)` or `sizeof(struct udpgw_addr_ipv4)`.
-/
def addrSize (flags : UInt8) : Nat :=
  if hasFlag flags udpgwClientFlagIpv6 then 18 else 6

namespace Client

open UdpGwClient

/--
The end of `recv_interface_handler_send`, once the message is read: find the
connection of the conid, check its remote address, move it to the back of the
list and pass the payload to the user.
-/
def acceptMessage (o : UdpGwClient) (conid : Nat) (remoteAddr : BAddr) (payload : List UInt8) :
    Except String (UdpGwClient × Delivery) :=
  match findConnectionByConid o conid with
  | none =>
      throw "unknown conid"
  | some con =>
      if BAddr.compareOrder (o.connections con).conaddr.remoteAddr remoteAddr ≠ .eq then
        throw "wrong remote address"
      else
        pure ({ o with connectionsList := moveToBack o.connectionsList con },
          ⟨(o.connections con).conaddr.localAddr, (o.connections con).conaddr.remoteAddr,
            payload⟩)

/-- A message the client reads to the end goes on to `acceptMessage` with what was read. -/
theorem recvInterfaceHandlerSend_read
    {o : UdpGwClient}
    {data : List UInt8}
    (allowed : o.haveServer ∧ data.length ≤ o.udpgwMtu)
    {flags : UInt8}
    {conid : Nat}
    {rest : List UInt8}
    {remoteAddr : BAddr}
    {payload : List UInt8}
    (header : parseHeader data = .ok (flags, conid, rest))
    (address : parseAddr flags rest = .ok (remoteAddr, payload))
    (fits : payload.length ≤ o.udpMtu) :
    recvInterfaceHandlerSend o data = some (acceptMessage o conid remoteAddr payload) := by
  unfold recvInterfaceHandlerSend
  rw [if_pos allowed]
  simp only [header, address, bind, Except.bind, if_neg (Nat.not_lt.mpr fits)]
  rfl

/-- A message written with flags that announce its address is read back as written. -/
theorem recvInterfaceHandlerSend_encode
    {o : UdpGwClient}
    (server : o.haveServer = true)
    {flags : UInt8}
    (clear : hasFlag flags udpgwClientFlagIpv6 = false)
    {conid : Nat}
    (small : conid < 65536)
    (addr : BAddr)
    {data : List UInt8}
    (fits : data.length ≤ o.udpMtu) :
    recvInterfaceHandlerSend o (encode (addrFlags flags addr) conid addr data) =
      some (acceptMessage o conid addr data) := by
  have withinMtu : (encode (addrFlags flags addr) conid addr data).length ≤ o.udpgwMtu := by
    have bound := length_encode_le (addrFlags flags addr) conid addr data
    simp only [udpgwMtu]
    omega
  exact recvInterfaceHandlerSend_read ⟨server, withinMtu⟩ (parseHeader_encode _ small addr data)
    (parseAddr_encodeAddr clear addr data) fits

/-- What `connection_send` writes for a connection, a client reads back as written. -/
theorem recvInterfaceHandlerSend_connectionSend
    {o : UdpGwClient}
    (server : o.haveServer = true)
    {sender : UdpGwClient}
    {con : Nat}
    (small : (sender.connections con).conid < 65536)
    {flags : UInt8}
    (clear : hasFlag flags udpgwClientFlagIpv6 = false)
    {data : List UInt8}
    (fits : data.length ≤ o.udpMtu) :
    recvInterfaceHandlerSend o (connectionSend sender con flags data) =
      some (acceptMessage o (sender.connections con).conid
        (sender.connections con).conaddr.remoteAddr data) :=
  recvInterfaceHandlerSend_encode server clear small _ fits

/-- What `connection_send_to_client` writes, the client reads back as written. -/
theorem recvInterfaceHandlerSend_sentToClient
    {Ghost : Type}
    {client client' : Server.Client Ghost}
    {con : Server.Connection Ghost}
    {data message : List UInt8}
    {ghost : Ghost}
    (sent : Server.connectionUdpRecvIfHandlerSend client con data = (client', some (message, ghost)))
    (small : con.conid < 65536)
    {o : UdpGwClient}
    (server : o.haveServer = true)
    (fits : data.length ≤ o.udpMtu) :
    recvInterfaceHandlerSend o message = some (acceptMessage o con.conid con.origAddr data) := by
  have reply : (message, ghost) ∈ (Server.connectionUdpRecvIfHandlerSend client con data).2 := by
    rw [sent]
    rfl
  obtain ⟨rfl, -⟩ := Prod.mk.inj (Server.connectionUdpRecvIfHandlerSend_reply reply)
  have clear : hasFlag 0 udpgwClientFlagIpv6 = false := by decide
  exact recvInterfaceHandlerSend_encode server clear small con.origAddr fits

theorem parseAddr_short
    {flags : UInt8}
    {rest : List UInt8}
    (short : rest.length < addrSize flags) :
    ∃ message, parseAddr flags rest = .error message := by
  unfold parseAddr
  unfold addrSize at short
  by_cases announced : hasFlag flags udpgwClientFlagIpv6 = true
  · rw [if_pos announced] at short ⊢
    exact ⟨_, dif_neg (Nat.not_le.mpr short)⟩
  · rw [if_neg announced] at short ⊢
    exact ⟨_, dif_neg (Nat.not_le.mpr short)⟩

/--
A message shorter than a header and the address its flags announce is refused
with a logged error: nothing is delivered and the state is kept.
-/
theorem recvInterfaceHandlerSend_short
    {o : UdpGwClient}
    {data : List UInt8}
    (allowed : o.haveServer ∧ data.length ≤ o.udpgwMtu)
    (short : data.length < 3 + addrSize (data.headD 0)) :
    ∃ message, recvInterfaceHandlerSend o data = some (.error message) := by
  unfold recvInterfaceHandlerSend
  rw [if_pos allowed]
  rcases data with _ | ⟨flags, _ | ⟨low, _ | ⟨high, rest⟩⟩⟩
  case cons.cons.cons =>
    -- the header is there; the address is not
    have addressShort : rest.length < addrSize flags := by
      simp only [List.length_cons, List.headD_cons] at short
      omega
    obtain ⟨message, failed⟩ := parseAddr_short addressShort
    exact ⟨message, by simp only [parseHeader, failed, bind, Except.bind]⟩
  all_goals exact ⟨_, rfl⟩

end Client

/-- The IPv6 bit a writer adds leaves the keepalive bit as it was. -/
theorem hasFlag_addrFlags_keepalive (flags : UInt8) (addr : BAddr) :
    hasFlag (addrFlags flags addr) udpgwClientFlagKeepalive = hasFlag flags udpgwClientFlagKeepalive := by
  cases addr with
  | ipv4 ip port =>
      rfl
  | ipv6 ip port =>
      have sameBit :
          (flags ||| udpgwClientFlagIpv6) &&& udpgwClientFlagKeepalive =
            flags &&& udpgwClientFlagKeepalive := by
        apply UInt8.toBitVec_inj.mp
        have disjoint : udpgwClientFlagIpv6.toBitVec &&& udpgwClientFlagKeepalive.toBitVec = 0#8 := by
          decide
        simp only [UInt8.toBitVec_and, UInt8.toBitVec_or]
        rw [BitVec.and_or_distrib_right, disjoint, BitVec.or_zero]
      simp only [addrFlags, hasFlag, sameBit]

namespace Server

variable {Ghost : Type}

/--
The end of `client_recv_if_handler_send`, once the message is read: send on
the connection of the conid, or (on a rebind, a new address or no connection)
make a new one.
-/
def dispatchMessage
    (client : Client Ghost)
    (flags : UInt8)
    (conid : Nat)
    (origAddr : BAddr)
    (payload : List UInt8)
    (ghost : Ghost)
    (initSucceeds : Bool) :
    Option (Except String (Client Ghost × List (BAddr × List UInt8))) :=
  match findConnection client conid with
  | some con =>
      if hasFlag flags udpgwClientFlagRebind || con.origAddr != origAddr then
        (createConnection (connectionClose client conid) flags conid origAddr payload ghost
          initSucceeds).map .ok
      else
        some (.ok (connectionSendToUdp client con payload))
  | none =>
      (createConnection client flags conid origAddr payload ghost initSucceeds).map .ok

/-- A message the server reads to the end goes on to `dispatchMessage` with what was read. -/
theorem clientRecvIfHandlerSend_read
    {client : Client Ghost}
    {data : List UInt8}
    {flags : UInt8}
    {conid : Nat}
    {rest : List UInt8}
    {origAddr : BAddr}
    {payload : List UInt8}
    (header : parseHeader data = .ok (flags, conid, rest))
    (notKeepalive : hasFlag flags udpgwClientFlagKeepalive = false)
    (address : parseAddr flags rest = .ok (origAddr, payload))
    (fits : payload.length ≤ client.udpMtu)
    (ghost : Ghost)
    (initSucceeds : Bool) :
    clientRecvIfHandlerSend client data ghost initSucceeds =
      dispatchMessage client flags conid origAddr payload ghost initSucceeds := by
  unfold clientRecvIfHandlerSend
  rw [header]
  dsimp only
  rw [if_neg (Bool.eq_false_iff.mp notKeepalive), address]
  dsimp only
  rw [if_neg (Nat.not_lt.mpr fits)]
  rfl

/-- What `connection_send` writes for a connection, the server reads back as written. -/
theorem clientRecvIfHandlerSend_connectionSend
    {client : Client Ghost}
    {sender : Udpgw.Client.UdpGwClient}
    {con : Nat}
    (small : (sender.connections con).conid < 65536)
    {flags : UInt8}
    (clear : hasFlag flags udpgwClientFlagIpv6 = false)
    (notKeepalive : hasFlag flags udpgwClientFlagKeepalive = false)
    {data : List UInt8}
    (fits : data.length ≤ client.udpMtu)
    (ghost : Ghost)
    (initSucceeds : Bool) :
    clientRecvIfHandlerSend client (Udpgw.Client.connectionSend sender con flags data) ghost
        initSucceeds =
      dispatchMessage client (addrFlags flags (sender.connections con).conaddr.remoteAddr)
        (sender.connections con).conid (sender.connections con).conaddr.remoteAddr data ghost
        initSucceeds :=
  clientRecvIfHandlerSend_read (parseHeader_encode _ small _ data)
    (by rw [hasFlag_addrFlags_keepalive, notKeepalive]) (parseAddr_encodeAddr clear _ data) fits
    ghost initSucceeds

end Server

/--
The udpgw format read back at each end.  With flags that do not already claim
IPv6, a message `connection_send` writes is read by the client and by the
server with the conid, remote address and payload it was written with, and
passes the length check; so is a message `connection_send_to_client` writes,
read by the client.  And the client refuses, delivering nothing, any message
shorter than a header and the address its flags announce.
-/
theorem messages_read_as_written
    {flags : UInt8}
    (clear : hasFlag flags udpgwClientFlagIpv6 = false) :
    (∀ (o sender : Client.UdpGwClient) (con : Nat) (data : List UInt8),
      o.haveServer = true → (sender.connections con).conid < 65536 → data.length ≤ o.udpMtu →
      Client.recvInterfaceHandlerSend o (Client.connectionSend sender con flags data) =
        some (Client.acceptMessage o (sender.connections con).conid
          (sender.connections con).conaddr.remoteAddr data)) ∧
    (∀ {Ghost : Type} (client : Server.Client Ghost) (sender : Client.UdpGwClient) (con : Nat)
      (data : List UInt8) (ghost : Ghost) (initSucceeds : Bool),
      hasFlag flags udpgwClientFlagKeepalive = false →
      (sender.connections con).conid < 65536 → data.length ≤ client.udpMtu →
      Server.clientRecvIfHandlerSend client (Client.connectionSend sender con flags data) ghost
          initSucceeds =
        Server.dispatchMessage client (addrFlags flags (sender.connections con).conaddr.remoteAddr)
          (sender.connections con).conid (sender.connections con).conaddr.remoteAddr data ghost
          initSucceeds) ∧
    (∀ {Ghost : Type} (client client' : Server.Client Ghost) (con : Server.Connection Ghost)
      (data message : List UInt8) (ghost : Ghost) (o : Client.UdpGwClient),
      Server.connectionUdpRecvIfHandlerSend client con data = (client', some (message, ghost)) →
      con.conid < 65536 → o.haveServer = true → data.length ≤ o.udpMtu →
      Client.recvInterfaceHandlerSend o message =
        some (Client.acceptMessage o con.conid con.origAddr data)) ∧
    (∀ (o : Client.UdpGwClient) (data : List UInt8),
      o.haveServer = true → data.length ≤ o.udpgwMtu → data.length < 3 + addrSize (data.headD 0) →
      ∃ message, Client.recvInterfaceHandlerSend o data = some (.error message)) := by
  refine ⟨?clientToClient, ?clientToServer, ?serverToClient, ?refused⟩
  case clientToClient =>
    intro o sender con data server small fits
    exact Client.recvInterfaceHandlerSend_connectionSend server small clear fits
  case clientToServer =>
    intro Ghost client sender con data ghost initSucceeds notKeepalive small fits
    exact Server.clientRecvIfHandlerSend_connectionSend small clear notKeepalive fits ghost
      initSucceeds
  case serverToClient =>
    intro Ghost client client' con data message ghost o sent small server fits
    exact Client.recvInterfaceHandlerSend_sentToClient sent small server fits
  case refused =>
    intro o data server withinMtu short
    exact Client.recvInterfaceHandlerSend_short ⟨server, withinMtu⟩ short

theorem messages_read_as_written_dns :
    Client.recvInterfaceHandlerSend { Client.init 1500 4 with haveServer := true }
        (Client.connectionSend (Client.init 1500 4) 0 udpgwClientFlagDns [1, 2]) =
      some (Client.acceptMessage { Client.init 1500 4 with haveServer := true } 0 default [1, 2]) :=
  (messages_read_as_written (by decide)).1 _ _ 0 [1, 2] rfl (by decide) (by decide)

/--
`connection_send` only adds the IPv6 bit: flags that already carry it, with an
IPv4 remote, make a message that announces an IPv6 address it does not hold.
-/
theorem ipv6_flag_on_ipv4_remote_misread :
    Client.recvInterfaceHandlerSend { Client.init 1500 4 with haveServer := true }
        (Client.connectionSend (Client.init 1500 4) 0 udpgwClientFlagIpv6 [1, 2]) =
      some (.error "missing ipv6 address") :=
  rfl

end Udpgw

end Tun2SocksWinRT
