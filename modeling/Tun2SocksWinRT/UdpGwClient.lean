import Tun2SocksWinRT.KeyedIndex
import Tun2SocksWinRT.UdpgwProto

namespace Tun2SocksWinRT

namespace Udpgw

namespace Client

/-!
# `UdpGwClient`: the connection table

`udpgw_client/UdpGwClient.c` multiplexes the UDP flows of local endpoints over
one stream to a udpgw server.  Each flow, keyed by its local and remote address
(a `conaddr`), is a connection with a 16-bit connection id (`conid`) that
labels its messages.  The connections sit in three indexes at once: a tree by
conaddr, a tree by conid, and a list in least-recently-used order.  When the
table is full, a packet for a new conaddr takes over the least recently used
connection (`reuse_connection`) and tells the server with
`UDPGW_CLIENT_FLAG_REBIND`.

The connection structures live on a heap of addresses (`connections`), and the
indexes hold addresses, so the model keeps what the code shares: re-keying a
connection is one write that every index sees.  The two trees are `BAVL`s that
the client only inserts into, removes from and looks up exactly, so each is
modelled by its set of nodes (`KeyedIndex`); a table that keeps its invariant
has both as the nodes of `BAVL`s with the same lookups
(`TableInvariant.trees_are_bavls`).  `find_unused_conid` is a
`while (1)` loop; it runs here with `max_connections` rounds of fuel, which is
always enough (`findUnusedConid_isSome`).  An `ASSERT` that fails makes a
function return `none`.

Each connection writes its messages through a `BufferWriter` (`send_if`): a
message is written only while the writer holds a buffer (`out_have`), which
`BufferWriter_EndPacket` hands back and the connection's `PacketBuffer` hands
out again when it has room; with no buffer, `connection_send` logs "out of
buffer" and drops the message.  `connection_init` sets the connection's
`first_job` and then, through `PacketProtoFlow_Init`, the job that hands the
writer its first buffer; the jobs the client sets are kept in
`pendingJobs`, most recent first.  `BReactor_Exec` runs every pending job
before it dispatches the next event, and every call into the client comes
from an event (a packet read from the device completes through IOCP, a
message from the server through the stream), so a call from outside is
followed by the jobs it set, in that order (`submitPacketThenJobs`).

The table invariant (`TableInvariant`) holds from `UdpGwClient_Init` on, over
every run (`TableInvariant.run?`), and no call that keeps to the documented
preconditions is refused.
-/

/-- `struct UdpGwClient_conaddr`. -/
structure Conaddr where
  localAddr : BAddr
  remoteAddr : BAddr
  deriving DecidableEq, Repr, Inhabited

/-- `conaddr_comparator`: by remote address, then by local address. -/
def conaddrComparator (v1 v2 : Conaddr) : Ordering :=
  (BAddr.compareOrder v1.remoteAddr v2.remoteAddr).then
    (BAddr.compareOrder v1.localAddr v2.localAddr)

/-- Two conaddrs compare equal exactly when they are the same. -/
theorem conaddrComparator_eq_eq_iff (v1 v2 : Conaddr) :
    conaddrComparator v1 v2 = .eq ↔ v1 = v2 := by
  rw [conaddrComparator, Ordering.then_eq_eq, BAddr.compareOrder_eq_eq_iff,
    BAddr.compareOrder_eq_eq_iff]
  cases v1
  cases v2
  simp only [Conaddr.mk.injEq]
  exact And.comm

instance : Std.LawfulEqCmp conaddrComparator where
  compare_self := (conaddrComparator_eq_eq_iff _ _).mpr rfl
  eq_of_compare := (conaddrComparator_eq_eq_iff _ _).mp

/-- `conaddr_comparator` compares the numbers of the remote addresses, then those of the local ones. -/
theorem conaddrComparator_eq_compareLex :
    conaddrComparator = compareLex (compareOn fun v : Conaddr => BAddr.orderKey v.remoteAddr)
      (compareOn fun v : Conaddr => BAddr.orderKey v.localAddr) := by
  funext v1 v2
  simp only [conaddrComparator, compareLex, compareOn, BAddr.compareOrder_eq_compare]

instance : Std.TransCmp conaddrComparator :=
  conaddrComparator_eq_compareLex ▸ inferInstance

/-- `uint16_comparator`. -/
def uint16Comparator (v1 v2 : Nat) : Ordering :=
  compare v1 v2

instance : Std.LawfulEqCmp uint16Comparator where
  compare_self := compare_eq_iff_eq.mpr rfl
  eq_of_compare := compare_eq_iff_eq.mp

instance : Std.TransCmp uint16Comparator :=
  inferInstanceAs (Std.TransCmp (compare : Nat → Nat → Ordering))

/-- The conversion of an `int` to `uint16_t`. -/
def toUint16 (value : Nat) : Nat :=
  value % 65536

/-- A job of the client in the reactor's pending group. -/
inductive Job
  /-- `first_job` of the connection at this address -/
  | firstJob (con : Nat)
  /-- the `Recv` the connection's `PacketBuffer` makes of its `BufferWriter`, through the encoder -/
  | writerRecv (con : Nat)
  deriving DecidableEq, Repr

/-- `struct UdpGwClient_connection`: the fields the table and the sends read. -/
structure Connection where
  conaddr : Conaddr
  firstFlags : UInt8
  firstData : List UInt8
  conid : Nat
  deriving Inhabited

/-- The state of a `UdpGwClient` that the table and the message paths read. -/
structure UdpGwClient where
  udpMtu : Nat
  maxConnections : Nat
  /-- the connection structures, by address -/
  connections : Nat → Connection
  connectionsTreeByConaddr : List Nat
  connectionsTreeByConid : List Nat
  /-- least recently used first -/
  connectionsList : List Nat
  numConnections : Nat
  nextConid : Nat
  haveServer : Bool
  /-- the next address `malloc` hands out -/
  heapTop : Nat
  /-- `out_have` of the `BufferWriter` of the connection at each address -/
  outHave : Nat → Bool
  /-- the client's pending jobs, most recently set first -/
  pendingJobs : List Job

namespace UdpGwClient

/-- The key of a node of `connections_tree_by_conaddr`. -/
def conaddrKey (o : UdpGwClient) (con : Nat) : Conaddr :=
  (o.connections con).conaddr

/-- The key of a node of `connections_tree_by_conid`. -/
def conidKey (o : UdpGwClient) (con : Nat) : Nat :=
  (o.connections con).conid

/-- Store a connection structure at an address. -/
def writeConnection (o : UdpGwClient) (con : Nat) (record : Connection) : UdpGwClient :=
  { o with connections := fun other => if other = con then record else o.connections other }

/-- `malloc` of a connection structure at the next free address, its fields set. -/
def allocConnection (o : UdpGwClient) (record : Connection) : UdpGwClient :=
  { o.writeConnection o.heapTop record with heapTop := o.heapTop + 1 }

/-- Set `out_have` of the writer of one connection. -/
def setOutHave (o : UdpGwClient) (con : Nat) (value : Bool) : UdpGwClient :=
  { o with outHave := Function.update o.outHave con value }

/-- `udpgw_compute_mtu(udp_mtu)`: a header, the larger address, the payload. -/
def udpgwMtu (o : UdpGwClient) : Nat :=
  3 + 18 + o.udpMtu

end UdpGwClient

open UdpGwClient

/-- `find_connection_by_conaddr`. -/
def findConnectionByConaddr (o : UdpGwClient) (conaddr : Conaddr) : Option Nat :=
  KeyedIndex.lookupExact conaddrComparator o.conaddrKey o.connectionsTreeByConaddr conaddr

/-- `find_connection_by_conid`. -/
def findConnectionByConid (o : UdpGwClient) (conid : Nat) : Option Nat :=
  KeyedIndex.lookupExact uint16Comparator o.conidKey o.connectionsTreeByConid conid

/--
`find_unused_conid`: from `next_conid` on, wrapping at `max_connections`, the
first conid no connection has; `next_conid` is left at it.
-/
def findUnusedConid (o : UdpGwClient) : (fuel : Nat) → Option (Nat × UdpGwClient)
  | 0 =>
      none
  | fuel + 1 =>
      match findConnectionByConid o (toUint16 o.nextConid) with
      | none =>
          some (toUint16 o.nextConid, o)
      | some _ =>
          findUnusedConid
            { o with
              nextConid := if o.nextConid = o.maxConnections - 1 then 0 else o.nextConid + 1 }
            fuel

/-- How the allocations of `connection_init` turn out. -/
inductive Allocation
  /-- `malloc` of the connection fails -/
  | mallocFails
  /-- `PacketProtoFlow_Init` fails -/
  | packetProtoFlowInitFails
  | succeeds
  deriving DecidableEq, Repr

/--
`connection_init`: the new state, and the connection whose first job was set.
The first job is set, and after it (in `PacketProtoFlow_Init`, through
`PacketBuffer_Init`) the job that hands the new writer, which has no buffer
yet, its first buffer.  On a failure the connection is freed with its first
job and nothing is inserted.
-/
def connectionInit
    (o : UdpGwClient)
    (conaddr : Conaddr)
    (flags : UInt8)
    (data : List UInt8)
    (allocation : Allocation) :
    Option (UdpGwClient × Option Nat) :=
  if o.numConnections < o.maxConnections ∧ findConnectionByConaddr o conaddr = none ∧
      data.length ≤ o.udpMtu then
    if allocation = .mallocFails then
      some (o, none)
    else
      -- allocate conid
      match findUnusedConid o o.maxConnections with
      | none =>
          none
      | some (conid, o) =>
          if allocation = .packetProtoFlowInitFails then
            some (o, none)
          else
            let con := o.heapTop
            let o := o.allocConnection ⟨conaddr, flags, data, conid⟩
            match KeyedIndex.insert conaddrComparator o.conaddrKey o.connectionsTreeByConaddr con,
                KeyedIndex.insert uint16Comparator o.conidKey o.connectionsTreeByConid con with
            | some byConaddr, some byConid =>
                some ({ o.setOutHave con false with
                  connectionsTreeByConaddr := byConaddr
                  connectionsTreeByConid := byConid
                  connectionsList := o.connectionsList ++ [con]
                  numConnections := o.numConnections + 1
                  pendingJobs := .writerRecv con :: .firstJob con :: o.pendingJobs }, some con)
            | _, _ =>
                none
  else
    none

/--
The message `connection_send` writes into the connection's buffer, with
`UDPGW_CLIENT_FLAG_IPV6` for an IPv6 remote.
-/
def connectionSend (o : UdpGwClient) (con : Nat) (flags : UInt8) (data : List UInt8) :
    List UInt8 :=
  encode (addrFlags flags (o.connections con).conaddr.remoteAddr) (o.connections con).conid
    (o.connections con).conaddr.remoteAddr data

/--
`connection_send`: when `BufferWriter_StartPacket` finds no buffer, "out of
buffer" is logged and nothing is sent; otherwise the message is written and
`BufferWriter_EndPacket` hands the buffer back.
-/
def connectionSendPacket (o : UdpGwClient) (con : Nat) (flags : UInt8) (data : List UInt8) :
    UdpGwClient × List (List UInt8) :=
  if o.outHave con then
    (o.setOutHave con false, [connectionSend o con flags data])
  else
    -- out of buffer
    (o, [])

/-- `connection_first_job_handler`. -/
def connectionFirstJobHandler (o : UdpGwClient) (con : Nat) : UdpGwClient × List (List UInt8) :=
  connectionSendPacket o con (udpgwClientFlagRebind ||| (o.connections con).firstFlags)
    (o.connections con).firstData

/-- `output_handler_recv` of the connection's `BufferWriter`: it gets a buffer. -/
def outputHandlerRecv (o : UdpGwClient) (con : Nat) : Option UdpGwClient :=
  -- `ASSERT(!o->out_have)`
  if o.outHave con then none else some (o.setOutHave con true)

/--
Run one job of the client.  The jobs `BufferWriter_EndPacket` sets hand the
writer its next buffer only if the `PacketBuffer` has room: that is the
`writerRecv` event, not a job here.
-/
def runJob (o : UdpGwClient) : Job → Option (UdpGwClient × List (List UInt8))
  | .firstJob con =>
      some (connectionFirstJobHandler o con)
  | .writerRecv con =>
      (outputHandlerRecv o con).map fun o => (o, [])

/--
Run the given pending jobs in order, each popped from `pendingJobs` before it
runs (`BPendingGroup_ExecuteJob`), with the messages they send.
-/
def runJobs (o : UdpGwClient) : List Job → Option (UdpGwClient × List (List UInt8))
  | [] =>
      some (o, [])
  | job :: rest =>
      (runJob { o with pendingJobs := rest } job).bind fun (o, out) =>
        (runJobs o rest).map fun (o, more) => (o, out ++ more)

/-- `reuse_connection`: the least recently used connection gets the new conaddr. -/
def reuseConnection (o : UdpGwClient) (conaddr : Conaddr) : Option (UdpGwClient × Nat) :=
  if findConnectionByConaddr o conaddr = none ∧ 0 < o.numConnections then
    match o.connectionsList.head? with
    | none =>
        none
    | some con =>
        -- remove from connections tree by conaddr, set new conaddr, insert again
        let tree := o.connectionsTreeByConaddr.erase con
        let o := o.writeConnection con { o.connections con with conaddr }
        match KeyedIndex.insert conaddrComparator o.conaddrKey tree con with
        | some tree =>
            some ({ o with connectionsTreeByConaddr := tree }, con)
        | none =>
            none
  else
    none

/-- Move a connection to the most recently used end of `connections_list`. -/
def moveToBack (list : List Nat) (con : Nat) : List Nat :=
  list.erase con ++ [con]

/-- Use an existing connection: move it to the front of the list and send on it. -/
def sendOnConnection (o : UdpGwClient) (con : Nat) (flags : UInt8) (data : List UInt8) :
    UdpGwClient × List (List UInt8) :=
  connectionSendPacket { o with connectionsList := moveToBack o.connectionsList con } con flags data

/--
`UdpGwClient_SubmitPacket`: the new state, with the jobs it set, and the
messages it queued to the server.
-/
def submitPacket
    (o : UdpGwClient)
    (localAddr remoteAddr : BAddr)
    (isDns : Bool)
    (data : List UInt8)
    (allocation : Allocation) :
    Option (UdpGwClient × List (List UInt8)) :=
  if data.length ≤ o.udpMtu then
    let conaddr : Conaddr := ⟨localAddr, remoteAddr⟩
    -- route to remote DNS server instead of provided address
    let flags : UInt8 := if isDns then udpgwClientFlagDns else 0
    match findConnectionByConaddr o conaddr with
    | some con =>
        some (sendOnConnection o con flags data)
    | none =>
        -- if no connection and can't create a new one, reuse the least recently used one
        if o.numConnections = o.maxConnections then
          (reuseConnection o conaddr).map fun (o, con) =>
            sendOnConnection o con (flags ||| udpgwClientFlagRebind) data
        else
          (connectionInit o conaddr flags data allocation).map fun (o, _) => (o, [])
  else
    none

/--
`UdpGwClient_SubmitPacket` called from outside, then the jobs of the client
that are pending when it returns, which `BReactor_Exec` runs before the next
event: the messages of both.
-/
def submitPacketThenJobs
    (o : UdpGwClient)
    (localAddr remoteAddr : BAddr)
    (isDns : Bool)
    (data : List UInt8)
    (allocation : Allocation) :
    Option (UdpGwClient × List (List UInt8)) :=
  (submitPacket o localAddr remoteAddr isDns data allocation).bind fun (o, out) =>
    (runJobs o o.pendingJobs).map fun (o, more) => (o, out ++ more)

/-- What `handler_received` is called with: local address, remote address, payload. -/
structure Delivery where
  localAddr : BAddr
  remoteAddr : BAddr
  data : List UInt8
  deriving DecidableEq, Repr

/--
`recv_interface_handler_send`: a message from the server.  A message that
fails a check is dropped with the text logged, and the state is unchanged.
-/
def recvInterfaceHandlerSend (o : UdpGwClient) (data : List UInt8) :
    Option (Except String (UdpGwClient × Delivery)) :=
  if o.haveServer ∧ data.length ≤ o.udpgwMtu then
    some do
      let (flags, conid, rest) ← parseHeader data
      let (remoteAddr, payload) ← parseAddr flags rest
      if o.udpMtu < payload.length then
        throw "too much data"
      match findConnectionByConid o conid with
      | none =>
          throw "unknown conid"
      | some con =>
          if BAddr.compareOrder (o.connections con).conaddr.remoteAddr remoteAddr ≠ .eq then
            throw "wrong remote address"
          -- move connection to front of the list, pass packet to user
          pure ({ o with connectionsList := moveToBack o.connectionsList con },
            ⟨(o.connections con).conaddr.localAddr, (o.connections con).conaddr.remoteAddr,
              payload⟩)
  else
    none

/-- `UdpGwClient_Init`, with `max_connections` limited to the number of conids. -/
def init (udpMtu maxConnections : Nat) : UdpGwClient where
  udpMtu := udpMtu
  maxConnections := if maxConnections > 65535 + 1 then 65535 + 1 else maxConnections
  connections := fun _ => default
  connectionsTreeByConaddr := []
  connectionsTreeByConid := []
  connectionsList := []
  numConnections := 0
  nextConid := 0
  haveServer := false
  heapTop := 0
  outHave := fun _ => false
  pendingJobs := []

/--
`UdpGwClient_ConnectServer`, which fails when `PacketProtoDecoder_Init` does,
and `UdpGwClient_DisconnectServer`.
-/
def connectServer (o : UdpGwClient) (succeeds : Bool) : Option UdpGwClient :=
  if o.haveServer then none else some { o with haveServer := succeeds }

def disconnectServer (o : UdpGwClient) : Option UdpGwClient :=
  if o.haveServer then some { o with haveServer := false } else none

/-- The calls a `UdpGwClient` takes. -/
inductive Event
  /-- `UdpGwClient_SubmitPacket`, and the jobs it sets -/
  | submitPacket (localAddr remoteAddr : BAddr) (isDns : Bool) (data : List UInt8)
      (allocation : Allocation)
  | received (data : List UInt8)
  | connectServer (succeeds : Bool)
  | disconnectServer
  /--
  the `PacketBuffer` of the connection at this address has room again and
  hands its writer a buffer
  -/
  | writerRecv (con : Nat)

/-- One call, its outputs dropped. -/
def Event.step? (o : UdpGwClient) : Event → Option UdpGwClient
  | .submitPacket localAddr remoteAddr isDns data allocation =>
      (submitPacketThenJobs o localAddr remoteAddr isDns data allocation).map Prod.fst
  | .received data =>
      (recvInterfaceHandlerSend o data).map fun
        | .ok (o, _) => o
        | .error _ => o
  | .connectServer succeeds =>
      Client.connectServer o succeeds
  | .disconnectServer =>
      Client.disconnectServer o
  | .writerRecv con =>
      if con ∈ o.connectionsList then outputHandlerRecv o con else none

/-- A run of calls; `none` once a call breaks an `ASSERT`. -/
def run? (o : UdpGwClient) : List Event → Option UdpGwClient
  | [] =>
      some o
  | event :: rest =>
      (event.step? o).bind fun o => run? o rest

end Client

end Udpgw

end Tun2SocksWinRT
