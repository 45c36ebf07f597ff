import Tun2SocksWinRT.UdpGwClient
import Tun2SocksWinRT.BAVL

namespace Tun2SocksWinRT

namespace Udpgw

namespace Client

/-!
# The connection table invariant

What `UdpGwClient.c` keeps true of its three indexes: both trees hold the
connections of `connections_list`, each once; `num_connections` counts them and
stays within `max_connections`, itself at most `UINT16_MAX + 1`; conids are
distinct and below `max_connections`, conaddrs are distinct under
`conaddr_comparator`, and `next_conid` is below `max_connections`
(`TableInvariant`).

Each function that changes the table is first described by what it does
(`connectionInit_eq_some`, `reuseConnection_eq_some`): a new connection is added
(`addConnection`), a connection is re-keyed (`rekeyConnection`), a connection is
moved in the list, or only `next_conid` moves.  The invariant is kept by each of
these, so by every call (`TableInvariant.step?`) and every run
(`TableInvariant.run?`); and from a state that keeps it, no call made within its
documented preconditions fails an `ASSERT` or loops (`TableInvariant.step?_isSome`).
-/

open UdpGwClient

namespace UdpGwClient

@[simp] theorem connections_writeConnection_self (o : UdpGwClient) (con : Nat) (record : Connection) :
    (o.writeConnection con record).connections con = record := by
  simp [writeConnection]

@[simp] theorem connections_writeConnection_of_ne
    (o : UdpGwClient)
    {con other : Nat}
    (record : Connection)
    (different : other ≠ con) :
    (o.writeConnection con record).connections other = o.connections other := by
  simp [writeConnection, different]

@[simp] theorem allocConnection_connectionsTreeByConaddr (o : UdpGwClient) (record : Connection) :
    (o.allocConnection record).connectionsTreeByConaddr = o.connectionsTreeByConaddr :=
  rfl

@[simp] theorem allocConnection_connectionsTreeByConid (o : UdpGwClient) (record : Connection) :
    (o.allocConnection record).connectionsTreeByConid = o.connectionsTreeByConid :=
  rfl

/--
A new connection structure at the next free address, inserted into both trees
and appended to the list, its writer without a buffer and its two jobs set:
what a successful `connection_init` does.
-/
def addConnection (o : UdpGwClient) (record : Connection) : UdpGwClient :=
  { (o.allocConnection record).setOutHave o.heapTop false with
    connectionsTreeByConaddr := o.heapTop :: o.connectionsTreeByConaddr
    connectionsTreeByConid := o.heapTop :: o.connectionsTreeByConid
    connectionsList := o.connectionsList ++ [o.heapTop]
    numConnections := o.numConnections + 1
    pendingJobs := .writerRecv o.heapTop :: .firstJob o.heapTop :: o.pendingJobs }

/-- A connection given a new conaddr and put back into the conaddr tree: what `reuse_connection` does. -/
def rekeyConnection (o : UdpGwClient) (con : Nat) (conaddr : Conaddr) : UdpGwClient :=
  { o.writeConnection con { o.connections con with conaddr } with
    connectionsTreeByConaddr := con :: o.connectionsTreeByConaddr.erase con }

@[simp] theorem connectionsList_addConnection (o : UdpGwClient) (record : Connection) :
    (o.addConnection record).connectionsList = o.connectionsList ++ [o.heapTop] :=
  rfl

@[simp] theorem connections_addConnection_heapTop (o : UdpGwClient) (record : Connection) :
    (o.addConnection record).connections o.heapTop = record :=
  connections_writeConnection_self o o.heapTop record

theorem connections_addConnection_of_ne
    (o : UdpGwClient)
    {other : Nat}
    (record : Connection)
    (different : other ≠ o.heapTop) :
    (o.addConnection record).connections other = o.connections other :=
  connections_writeConnection_of_ne o record different

theorem conidKey_addConnection_of_ne
    (o : UdpGwClient)
    {other : Nat}
    (record : Connection)
    (different : other ≠ o.heapTop) :
    (o.addConnection record).conidKey other = o.conidKey other :=
  congrArg Connection.conid (connections_addConnection_of_ne o record different)

@[simp] theorem connections_rekeyConnection_self (o : UdpGwClient) (con : Nat) (conaddr : Conaddr) :
    (o.rekeyConnection con conaddr).connections con = { o.connections con with conaddr } :=
  connections_writeConnection_self o con _

theorem connections_rekeyConnection_of_ne
    (o : UdpGwClient)
    {con other : Nat}
    (conaddr : Conaddr)
    (different : other ≠ con) :
    (o.rekeyConnection con conaddr).connections other = o.connections other :=
  connections_writeConnection_of_ne o _ different

@[simp] theorem setOutHave_connections (o : UdpGwClient) (con : Nat) (value : Bool) :
    (o.setOutHave con value).connections = o.connections :=
  rfl

@[simp] theorem setOutHave_connectionsList (o : UdpGwClient) (con : Nat) (value : Bool) :
    (o.setOutHave con value).connectionsList = o.connectionsList :=
  rfl

@[simp] theorem setOutHave_pendingJobs (o : UdpGwClient) (con : Nat) (value : Bool) :
    (o.setOutHave con value).pendingJobs = o.pendingJobs :=
  rfl

@[simp] theorem setOutHave_outHave (o : UdpGwClient) (con : Nat) (value : Bool) :
    (o.setOutHave con value).outHave = Function.update o.outHave con value :=
  rfl

@[simp] theorem conaddrKey_setOutHave (o : UdpGwClient) (con : Nat) (value : Bool) :
    (o.setOutHave con value).conaddrKey = o.conaddrKey :=
  rfl

@[simp] theorem conidKey_setOutHave (o : UdpGwClient) (con : Nat) (value : Bool) :
    (o.setOutHave con value).conidKey = o.conidKey :=
  rfl

/-- Clearing `out_have` of a writer that has no buffer changes nothing. -/
theorem setOutHave_false_of_not (o : UdpGwClient) {con : Nat} (noBuffer : o.outHave con = false) :
    o.setOutHave con false = o := by
  have same : Function.update o.outHave con false = o.outHave :=
    Function.update_eq_self_iff.mpr noBuffer.symm
  simp only [setOutHave, same]

end UdpGwClient

/--
`connection_send` always leaves the writer without a buffer, and sends the
message exactly when the writer had one.
-/
theorem connectionSendPacket_eq (o : UdpGwClient) (con : Nat) (flags : UInt8) (data : List UInt8) :
    connectionSendPacket o con flags data =
      (o.setOutHave con false, if o.outHave con then [connectionSend o con flags data] else []) := by
  unfold connectionSendPacket
  split
  · rfl
  · rename_i noBuffer
    rw [o.setOutHave_false_of_not (by simpa using noBuffer)]

@[simp] theorem connectionSendPacket_fst_pendingJobs (o : UdpGwClient) (con : Nat) (flags : UInt8)
    (data : List UInt8) :
    (connectionSendPacket o con flags data).1.pendingJobs = o.pendingJobs := by
  rw [connectionSendPacket_eq]
  rfl

/-- Sending on an existing connection moves it to the back and calls `connection_send`. -/
theorem sendOnConnection_eq (o : UdpGwClient) (con : Nat) (flags : UInt8) (data : List UInt8) :
    sendOnConnection o con flags data =
      (({ o with connectionsList := moveToBack o.connectionsList con } : UdpGwClient).setOutHave con false,
        if o.outHave con then [connectionSend o con flags data] else []) :=
  connectionSendPacket_eq _ con flags data

/-- The table invariant. -/
structure TableInvariant (o : UdpGwClient) : Prop where
  byConaddr_perm : o.connectionsTreeByConaddr.Perm o.connectionsList
  byConid_perm : o.connectionsTreeByConid.Perm o.connectionsList
  nodup : o.connectionsList.Nodup
  numConnections_eq : o.numConnections = o.connectionsList.length
  numConnections_le : o.numConnections ≤ o.maxConnections
  conids_distinct : KeyedIndex.DistinctKeys uint16Comparator o.conidKey o.connectionsList
  conid_lt : ∀ con ∈ o.connectionsList, o.conidKey con < o.maxConnections
  conaddrs_distinct : KeyedIndex.DistinctKeys conaddrComparator o.conaddrKey o.connectionsList
  nextConid_lt : o.nextConid < o.maxConnections
  maxConnections_pos : 0 < o.maxConnections
  maxConnections_le : o.maxConnections ≤ 65536
  allocated : ∀ con ∈ o.connectionsList, con < o.heapTop

section Lookup

variable {o : UdpGwClient}

/-- No connection is found by conaddr exactly when none has it. -/
theorem TableInvariant.findConnectionByConaddr_eq_none_iff
    (invariant : TableInvariant o)
    {conaddr : Conaddr} :
    findConnectionByConaddr o conaddr = none ↔
      ∀ con ∈ o.connectionsList, o.conaddrKey con ≠ conaddr := by
  rw [findConnectionByConaddr, KeyedIndex.lookupExact_eq_none_iff]
  simp only [invariant.byConaddr_perm.mem_iff]

/-- The connection found by conaddr is the one connection that has it. -/
theorem TableInvariant.findConnectionByConaddr_eq_some_iff
    (invariant : TableInvariant o)
    {conaddr : Conaddr}
    {con : Nat} :
    findConnectionByConaddr o conaddr = some con ↔
      con ∈ o.connectionsList ∧ o.conaddrKey con = conaddr := by
  rw [findConnectionByConaddr,
    KeyedIndex.lookupExact_eq_some_iff
      (KeyedIndex.DistinctKeys.perm invariant.conaddrs_distinct invariant.byConaddr_perm),
    invariant.byConaddr_perm.mem_iff]

/-- No connection is found by conid exactly when none has it. -/
theorem TableInvariant.findConnectionByConid_eq_none_iff
    (invariant : TableInvariant o)
    {conid : Nat} :
    findConnectionByConid o conid = none ↔ ∀ con ∈ o.connectionsList, o.conidKey con ≠ conid := by
  rw [findConnectionByConid, KeyedIndex.lookupExact_eq_none_iff]
  simp only [invariant.byConid_perm.mem_iff]

/-- The connection found by conid is the one connection that has it. -/
theorem TableInvariant.findConnectionByConid_eq_some_iff
    (invariant : TableInvariant o)
    {conid : Nat}
    {con : Nat} :
    findConnectionByConid o conid = some con ↔ con ∈ o.connectionsList ∧ o.conidKey con = conid := by
  rw [findConnectionByConid,
    KeyedIndex.lookupExact_eq_some_iff
      (KeyedIndex.DistinctKeys.perm invariant.conids_distinct invariant.byConid_perm),
    invariant.byConid_perm.mem_iff]

/--
Both trees of a table that keeps the invariant are `BAVL`s: each is the set of
nodes of a tree that `BAVL_Insert` builds from `BAVL_Init`, and on that tree
`BAVL_LookupExact` is `find_connection_by_conaddr`, or
`find_connection_by_conid`.
-/
theorem TableInvariant.trees_are_bavls (invariant : TableInvariant o) :
    (∃ tree, BAVL.Represents ⟨o.conaddrKey, conaddrComparator⟩ tree o.connectionsTreeByConaddr ∧
      ∀ conaddr, BAVL.lookupExact ⟨o.conaddrKey, conaddrComparator⟩ tree conaddr =
        findConnectionByConaddr o conaddr) ∧
    (∃ tree, BAVL.Represents ⟨o.conidKey, uint16Comparator⟩ tree o.connectionsTreeByConid ∧
      ∀ conid, BAVL.lookupExact ⟨o.conidKey, uint16Comparator⟩ tree conid = findConnectionByConid o conid) := by
  -- at most 65536 connections, far below the bound of a count
  have short : o.connectionsList.length ≤ BAVL.countMax := by
    have counted := invariant.numConnections_eq
    have bounded := invariant.numConnections_le
    have capped := invariant.maxConnections_le
    norm_num [BAVL.countMax]
    omega
  obtain ⟨byConaddr, -, representsConaddr⟩ := BAVL.exists_represents (b := ⟨o.conaddrKey, conaddrComparator⟩)
    (invariant.conaddrs_distinct.perm invariant.byConaddr_perm) (invariant.byConaddr_perm.length_eq ▸ short)
  obtain ⟨byConid, -, representsConid⟩ := BAVL.exists_represents (b := ⟨o.conidKey, uint16Comparator⟩)
    (invariant.conids_distinct.perm invariant.byConid_perm) (invariant.byConid_perm.length_eq ▸ short)
  exact ⟨⟨byConaddr, representsConaddr, representsConaddr.lookupExact_eq⟩,
    ⟨byConid, representsConid, representsConid.lookupExact_eq⟩⟩

end Lookup

section FindUnusedConid

/-- Moving `next_conid` changes no lookup. -/
@[simp] theorem findConnectionByConid_nextConid (o : UdpGwClient) (next conid : Nat) :
    findConnectionByConid { o with nextConid := next } conid = findConnectionByConid o conid :=
  rfl

/--
What `find_unused_conid` returns: a conid no connection has, which is where
`next_conid` is left, the rest of the state unchanged.
-/
theorem findUnusedConid_eq_some
    {fuel : Nat}
    {o result : UdpGwClient}
    {conid : Nat}
    (found : findUnusedConid o fuel = some (conid, result)) :
    ∃ next, result = { o with nextConid := next } ∧ conid = toUint16 next ∧
      findConnectionByConid o conid = none ∧
      (o.nextConid < o.maxConnections → next < o.maxConnections) := by
  induction fuel generalizing o with
  | zero =>
      simp [findUnusedConid] at found
  | succ fuel inductionHypothesis =>
      unfold findUnusedConid at found
      split at found
      · rename_i unused
        simp only [Option.some.injEq, Prod.mk.injEq] at found
        obtain ⟨rfl, rfl⟩ := found
        exact ⟨o.nextConid, rfl, rfl, unused, id⟩
      · -- `next_conid` is in use: the loop goes on from the next value, wrapping
        obtain ⟨next, rfl, rfl, unused, bound⟩ := inductionHypothesis found
        refine ⟨next, rfl, rfl, unused, fun below => bound ?_⟩
        dsimp only
        split <;> omega

/-- The cyclic distance from `next` up to `conid`, below `max`. -/
def cyclicDistance (max next conid : Nat) : Nat :=
  if next ≤ conid then conid - next else conid + max - next

/--
`find_unused_conid` finds a free conid within as many rounds as its cyclic
distance from `next_conid`.
-/
theorem findUnusedConid_isSome_of_free
    {o : UdpGwClient}
    {conid : Nat}
    (free : ∀ con ∈ o.connectionsTreeByConid, o.conidKey con ≠ conid)
    (conidBound : conid < o.maxConnections)
    (small : o.maxConnections ≤ 65536)
    (fuel : Nat) :
    ∀ next, next < o.maxConnections → cyclicDistance o.maxConnections next conid < fuel →
      (findUnusedConid { o with nextConid := next } fuel).isSome := by
  induction fuel with
  | zero =>
      intro next _ below
      omega
  | succ fuel inductionHypothesis =>
      intro next nextBound below
      have exact16 : toUint16 next = next := Nat.mod_eq_of_lt (by omega)
      unfold findUnusedConid
      split
      · rfl
      · rename_i con found
        -- `next` is in use, so it is not the free conid and the distance shrinks
        rw [findConnectionByConid_nextConid, exact16] at found
        have used := KeyedIndex.lookupExact_mem found
        have notFree : next ≠ conid := fun same => free con used.1 (used.2.trans same)
        apply inductionHypothesis
        · dsimp only
          split <;> omega
        · unfold cyclicDistance at below ⊢
          dsimp only
          split <;> split <;> split at below <;> omega

/--
Fewer connections than `max_connections`: some conid below it is free.  If
every conid below it were taken, the connections would number at least as
many as those conids.
-/
theorem exists_free_conid
    {o : UdpGwClient}
    {cons : List Nat}
    (room : cons.length < o.maxConnections) :
    ∃ conid < o.maxConnections, ∀ con ∈ cons, o.conidKey con ≠ conid := by
  by_contra full
  push Not at full
  have covered : List.range o.maxConnections ⊆ cons.map o.conidKey := by
    intro conid member
    obtain ⟨con, member, hasConid⟩ := full conid (List.mem_range.mp member)
    exact List.mem_map.mpr ⟨con, member, hasConid⟩
  have counted := (List.subperm_of_subset List.nodup_range covered).length_le
  rw [List.length_range, List.length_map] at counted
  omega

/-- With room in the table, some conid below `max_connections` is free. -/
theorem TableInvariant.exists_free_conid
    {o : UdpGwClient}
    (invariant : TableInvariant o)
    (room : o.numConnections < o.maxConnections) :
    ∃ conid < o.maxConnections, ∀ con ∈ o.connectionsList, o.conidKey con ≠ conid :=
  Client.exists_free_conid (invariant.numConnections_eq ▸ room)

/-- With room in the table, `find_unused_conid` ends within `max_connections` rounds. -/
theorem TableInvariant.findUnusedConid_isSome
    {o : UdpGwClient}
    (invariant : TableInvariant o)
    (room : o.numConnections < o.maxConnections) :
    (findUnusedConid o o.maxConnections).isSome := by
  obtain ⟨conid, conidBound, free⟩ := invariant.exists_free_conid room
  have freeInTree : ∀ con ∈ o.connectionsTreeByConid, o.conidKey con ≠ conid :=
    fun con member => free con (invariant.byConid_perm.mem_iff.mp member)
  have distance : cyclicDistance o.maxConnections o.nextConid conid < o.maxConnections := by
    have := invariant.nextConid_lt
    unfold cyclicDistance
    split <;> omega
  exact findUnusedConid_isSome_of_free freeInTree conidBound invariant.maxConnections_le
    o.maxConnections o.nextConid invariant.nextConid_lt distance

/-- More rounds change nothing once the loop has returned. -/
theorem findUnusedConid_of_le
    {o : UdpGwClient}
    {fuel more : Nat}
    {found : Nat × UdpGwClient}
    (ran : findUnusedConid o fuel = some found)
    (enough : fuel ≤ more) :
    findUnusedConid o more = some found := by
  induction fuel generalizing o more with
  | zero =>
      simp [findUnusedConid] at ran
  | succ fuel inductionHypothesis =>
      obtain ⟨more, rfl⟩ : ∃ rest, more = rest + 1 := ⟨more - 1, by omega⟩
      unfold findUnusedConid at ran ⊢
      cases lookup : findConnectionByConid o (toUint16 o.nextConid) with
      | none =>
          simpa only [lookup] using ran
      | some con =>
          simp only [lookup] at ran ⊢
          exact inductionHypothesis ran (by omega)

/--
`find_unused_conid`, called with fewer connections in the conid tree than
`max_connections` (clamped to 65536) and with `next_conid` below it, returns
after at most `max_connections` lookups, so also within the rounds the model
gives it; the conid it returns is below `max_connections`, no node of the
tree has it, and `next_conid` is left at it.  Neither distinct conids nor
conids below `max_connections` are needed for this.
-/
theorem findUnusedConid_returns_fresh
    {o : UdpGwClient}
    (clamped : o.maxConnections ≤ 65536)
    (counted : o.numConnections = o.connectionsTreeByConid.length)
    (room : o.numConnections < o.maxConnections)
    (nextBound : o.nextConid < o.maxConnections) :
    ∃ lookups conid, lookups ≤ o.maxConnections ∧
      findUnusedConid o lookups = some (conid, { o with nextConid := conid }) ∧
      findUnusedConid o o.maxConnections = some (conid, { o with nextConid := conid }) ∧
      conid < o.maxConnections ∧ findConnectionByConid o conid = none ∧
      ∀ con ∈ o.connectionsTreeByConid, o.conidKey con ≠ conid := by
  obtain ⟨free, freeBound, freeness⟩ :=
    exists_free_conid (show o.connectionsTreeByConid.length < o.maxConnections from counted ▸ room)
  -- the loop meets the free conid after its cyclic distance from `next_conid`
  have distance : cyclicDistance o.maxConnections o.nextConid free < o.maxConnections := by
    unfold cyclicDistance
    split <;> omega
  have ends : (findUnusedConid o (cyclicDistance o.maxConnections o.nextConid free + 1)).isSome :=
    findUnusedConid_isSome_of_free freeness freeBound clamped _ o.nextConid nextBound (by omega)
  obtain ⟨⟨conid, result⟩, found⟩ := Option.isSome_iff_exists.mp ends
  obtain ⟨next, rfl, rfl, unused, bound⟩ := findUnusedConid_eq_some found
  have exact16 : toUint16 next = next := Nat.mod_eq_of_lt (by have := bound nextBound; omega)
  rw [exact16] at found unused
  refine ⟨_, next, by omega, found, findUnusedConid_of_le found (by omega), bound nextBound,
    unused, ?_⟩
  unfold findConnectionByConid at unused
  exact KeyedIndex.lookupExact_eq_none_iff.mp unused

/-- A table of two conids whose one connection holds conid 0, with `next_conid` at 0. -/
def conidZeroTaken : UdpGwClient :=
  { init 1500 2 with connectionsTreeByConid := [0], connectionsList := [0], numConnections := 1 }

/-- There `find_unused_conid` skips conid 0 and returns conid 1. -/
theorem findUnusedConid_returns_fresh_after_taken :
    ∃ lookups conid, lookups ≤ 2 ∧
      findUnusedConid conidZeroTaken lookups = some (conid, { conidZeroTaken with nextConid := conid }) ∧
      findUnusedConid conidZeroTaken 2 = some (conid, { conidZeroTaken with nextConid := conid }) ∧
      conid < 2 ∧ findConnectionByConid conidZeroTaken conid = none ∧
      ∀ con ∈ conidZeroTaken.connectionsTreeByConid, conidZeroTaken.conidKey con ≠ conid :=
  findUnusedConid_returns_fresh (o := conidZeroTaken) (by decide) rfl (by decide) (by decide)

example : (findUnusedConid conidZeroTaken 2).map Prod.fst = some 1 := by
  decide

end FindUnusedConid

section Keeping

variable {o : UdpGwClient}

/-- Moving `next_conid` within range keeps the invariant. -/
theorem TableInvariant.withNextConid
    (invariant : TableInvariant o)
    {next : Nat}
    (bound : next < o.maxConnections) :
    TableInvariant { o with nextConid := next } :=
  { invariant with nextConid_lt := bound }

/-- Moving a connection to the back of the list leaves the same connections. -/
theorem moveToBack_perm {list : List Nat} {con : Nat} (member : con ∈ list) :
    (moveToBack list con).Perm list :=
  (List.perm_append_singleton con (list.erase con)).trans (List.perm_cons_erase member).symm

/-- Reordering the list keeps the invariant. -/
theorem TableInvariant.permList
    (invariant : TableInvariant o)
    {list : List Nat}
    (perm : list.Perm o.connectionsList) :
    TableInvariant { o with connectionsList := list } where
  byConaddr_perm := invariant.byConaddr_perm.trans perm.symm
  byConid_perm := invariant.byConid_perm.trans perm.symm
  nodup := perm.nodup_iff.mpr invariant.nodup
  numConnections_eq := invariant.numConnections_eq.trans perm.length_eq.symm
  numConnections_le := invariant.numConnections_le
  conids_distinct := KeyedIndex.DistinctKeys.perm invariant.conids_distinct perm
  conid_lt := fun con member => invariant.conid_lt con (perm.mem_iff.mp member)
  conaddrs_distinct := KeyedIndex.DistinctKeys.perm invariant.conaddrs_distinct perm
  nextConid_lt := invariant.nextConid_lt
  maxConnections_pos := invariant.maxConnections_pos
  maxConnections_le := invariant.maxConnections_le
  allocated := fun con member => invariant.allocated con (perm.mem_iff.mp member)

/-- The new structure's address is not in the table, so the others' keys are unchanged. -/
theorem TableInvariant.ne_heapTop
    (invariant : TableInvariant o)
    {con : Nat}
    (member : con ∈ o.connectionsList) :
    con ≠ o.heapTop :=
  Nat.ne_of_lt (invariant.allocated con member)

/--
Adding a connection whose conaddr and conid no connection has, with a conid
below `max_connections`, into a table with room keeps the invariant.
-/
theorem TableInvariant.addConnection
    (invariant : TableInvariant o)
    {record : Connection}
    (room : o.numConnections < o.maxConnections)
    (freshConaddr : ∀ con ∈ o.connectionsList, o.conaddrKey con ≠ record.conaddr)
    (freshConid : ∀ con ∈ o.connectionsList, o.conidKey con ≠ record.conid)
    (conidBound : record.conid < o.maxConnections) :
    TableInvariant (o.addConnection record) := by
  -- the new list is the old one with the new address appended
  have appended := List.perm_append_singleton o.heapTop o.connectionsList
  have unchanged : ∀ con ∈ o.connectionsList,
      (o.addConnection record).connections con = o.connections con :=
    fun con member => connections_addConnection_of_ne o record (invariant.ne_heapTop member)
  have added : (o.addConnection record).connections o.heapTop = record :=
    connections_addConnection_heapTop o record
  have newMember : ∀ con ∈ (o.addConnection record).connectionsList,
      con ∈ o.connectionsList ∨ con = o.heapTop := by
    intro con member
    simpa [UdpGwClient.addConnection] using member
  refine
    { byConaddr_perm := (invariant.byConaddr_perm.cons o.heapTop).trans appended.symm
      byConid_perm := (invariant.byConid_perm.cons o.heapTop).trans appended.symm
      nodup := appended.nodup_iff.mpr
        (List.nodup_cons.mpr ⟨fun member => invariant.ne_heapTop member rfl, invariant.nodup⟩)
      numConnections_eq := by
        simp [UdpGwClient.addConnection, invariant.numConnections_eq]
      numConnections_le := room
      conids_distinct := ?_
      conid_lt := ?_
      conaddrs_distinct := ?_
      nextConid_lt := invariant.nextConid_lt
      maxConnections_pos := invariant.maxConnections_pos
      maxConnections_le := invariant.maxConnections_le
      allocated := ?_ }
  · apply KeyedIndex.DistinctKeys.perm _ appended
    apply KeyedIndex.DistinctKeys.cons
      (KeyedIndex.DistinctKeys.congr invariant.conids_distinct fun con member => by
        simp only [conidKey, unchanged con member])
    intro con member
    simp only [conidKey, unchanged con member, added]
    exact freshConid con member
  · intro con member
    rcases newMember con member with old | rfl
    · simp only [conidKey, unchanged con old]
      exact invariant.conid_lt con old
    · show (o.addConnection record).conidKey o.heapTop < o.maxConnections
      simpa only [conidKey, added] using conidBound
  · apply KeyedIndex.DistinctKeys.perm _ appended
    apply KeyedIndex.DistinctKeys.cons
      (KeyedIndex.DistinctKeys.congr invariant.conaddrs_distinct fun con member => by
        simp only [conaddrKey, unchanged con member])
    intro con member
    simp only [conaddrKey, unchanged con member, added]
    exact freshConaddr con member
  · intro con member
    rcases newMember con member with old | rfl
    · exact Nat.lt_succ_of_lt (invariant.allocated con old)
    · exact Nat.lt_succ_self _

/--
Giving a connection of the table a conaddr no connection has, and putting it
back into the conaddr tree, keeps the invariant.
-/
theorem TableInvariant.rekeyConnection
    (invariant : TableInvariant o)
    {con : Nat}
    {conaddr : Conaddr}
    (member : con ∈ o.connectionsList)
    (fresh : ∀ other ∈ o.connectionsList, o.conaddrKey other ≠ conaddr) :
    TableInvariant (o.rekeyConnection con conaddr) := by
  have unchanged : ∀ other ≠ con,
      (o.rekeyConnection con conaddr).connections other = o.connections other :=
    fun other different => connections_rekeyConnection_of_ne o conaddr different
  have rekeyed : (o.rekeyConnection con conaddr).connections con =
      { o.connections con with conaddr } :=
    connections_rekeyConnection_self o con conaddr
  -- the conid of every connection is as it was
  have sameConids : (o.rekeyConnection con conaddr).conidKey = o.conidKey := by
    funext other
    by_cases same : other = con
    · subst same
      simp only [conidKey, rekeyed]
    · simp only [conidKey, unchanged other same]
  have inTree : con ∈ o.connectionsTreeByConaddr := invariant.byConaddr_perm.mem_iff.mpr member
  have rest : ∀ other ∈ o.connectionsList.erase con, other ≠ con ∧ other ∈ o.connectionsList :=
    fun other inRest => (invariant.nodup.mem_erase_iff).mp inRest
  refine
    { byConaddr_perm := (List.perm_cons_erase inTree).symm.trans invariant.byConaddr_perm
      byConid_perm := invariant.byConid_perm
      nodup := invariant.nodup
      numConnections_eq := invariant.numConnections_eq
      numConnections_le := invariant.numConnections_le
      conids_distinct := by
        rw [sameConids]
        exact invariant.conids_distinct
      conid_lt := by
        rw [sameConids]
        exact invariant.conid_lt
      conaddrs_distinct := ?_
      nextConid_lt := invariant.nextConid_lt
      maxConnections_pos := invariant.maxConnections_pos
      maxConnections_le := invariant.maxConnections_le
      allocated := invariant.allocated }
  -- the re-keyed connection first, then the others with their old conaddrs
  apply KeyedIndex.DistinctKeys.perm _ (List.perm_cons_erase member)
  have others : KeyedIndex.DistinctKeys conaddrComparator o.conaddrKey
      (o.connectionsList.erase con) :=
    KeyedIndex.DistinctKeys.sublist invariant.conaddrs_distinct List.erase_sublist
  apply KeyedIndex.DistinctKeys.cons (KeyedIndex.DistinctKeys.congr others fun other inRest => by
    simp only [conaddrKey, unchanged other (rest other inRest).1])
  intro other inRest
  simp only [conaddrKey, unchanged other (rest other inRest).1, rekeyed]
  exact fresh other (rest other inRest).2

end Keeping

section Specs

variable {o : UdpGwClient}

/-- A freshly allocated structure goes into a tree in front, when its key is new. -/
theorem insert_allocConnection
    {Key : Type}
    (cmp : Key → Key → Ordering)
    [Std.LawfulEqCmp cmp]
    (field : Connection → Key)
    {record : Connection}
    {tree : List Nat}
    (inTable : ∀ con ∈ tree, con < o.heapTop)
    (fresh : ∀ con ∈ tree, field (o.connections con) ≠ field record) :
    KeyedIndex.insert cmp (fun con => field ((o.allocConnection record).connections con)) tree
      o.heapTop = some (o.heapTop :: tree) := by
  apply KeyedIndex.insert_eq_some_iff.mpr ⟨KeyedIndex.lookupExact_eq_none_iff.mpr ?_, rfl⟩
  intro con member
  have different : con ≠ o.heapTop := Nat.ne_of_lt (inTable con member)
  simp only [allocConnection, connections_writeConnection_of_ne o record different,
    connections_writeConnection_self]
  exact fresh con member

/-- Past its `ASSERT`s, `connection_init` has room, a new conaddr and a payload within `udp_mtu`. -/
theorem connectionInit_guard
    {conaddr : Conaddr}
    {flags : UInt8}
    {data : List UInt8}
    {allocation : Allocation}
    {result : UdpGwClient × Option Nat}
    (step : connectionInit o conaddr flags data allocation = some result) :
    o.numConnections < o.maxConnections ∧ findConnectionByConaddr o conaddr = none ∧
      data.length ≤ o.udpMtu := by
  unfold connectionInit at step
  split at step
  · assumption
  · cases step

/-- A failed `malloc` changes nothing. -/
theorem connectionInit_mallocFails
    {conaddr : Conaddr}
    {flags : UInt8}
    {data : List UInt8}
    (guard : o.numConnections < o.maxConnections ∧ findConnectionByConaddr o conaddr = none ∧
      data.length ≤ o.udpMtu) :
    connectionInit o conaddr flags data .mallocFails = some (o, none) := by
  unfold connectionInit
  rw [if_pos guard, if_pos rfl]

/--
Past the `malloc`, `connection_init` takes the conid `find_unused_conid` finds,
which is free and below `max_connections`, and leaves `next_conid` at it.  If
`PacketProtoFlow_Init` fails, nothing else changes; otherwise the connection is
added to the table.
-/
theorem TableInvariant.connectionInit_spec
    (invariant : TableInvariant o)
    {conaddr : Conaddr}
    {flags : UInt8}
    {data : List UInt8}
    {allocation : Allocation}
    (guard : o.numConnections < o.maxConnections ∧ findConnectionByConaddr o conaddr = none ∧
      data.length ≤ o.udpMtu)
    (allocated : allocation ≠ .mallocFails) :
    ∃ next < o.maxConnections, (∀ con ∈ o.connectionsList, o.conidKey con ≠ next) ∧
      connectionInit o conaddr flags data allocation =
        some (if allocation = .packetProtoFlowInitFails then ({ o with nextConid := next }, none)
          else (UdpGwClient.addConnection { o with nextConid := next } ⟨conaddr, flags, data, next⟩,
            some o.heapTop)) := by
  obtain ⟨room, absent, fits⟩ := guard
  obtain ⟨⟨conid, found⟩, search⟩ :=
    Option.isSome_iff_exists.mp (invariant.findUnusedConid_isSome room)
  obtain ⟨next, rfl, rfl, unused, bound⟩ := findUnusedConid_eq_some search
  have nextBound := bound invariant.nextConid_lt
  have exact16 : toUint16 next = next :=
    Nat.mod_eq_of_lt (Nat.lt_of_lt_of_le nextBound invariant.maxConnections_le)
  rw [exact16] at search unused
  have freeConid := invariant.findConnectionByConid_eq_none_iff.mp unused
  have freshConaddr := invariant.findConnectionByConaddr_eq_none_iff.mp absent
  refine ⟨next, nextBound, freeConid, ?_⟩
  -- both insertions find no equal key, so the `ASSERT_EXECUTE`s hold
  have insertConaddr :
      KeyedIndex.insert conaddrComparator
        (UdpGwClient.allocConnection { o with nextConid := next } ⟨conaddr, flags, data, next⟩).conaddrKey
        o.connectionsTreeByConaddr o.heapTop = some (o.heapTop :: o.connectionsTreeByConaddr) :=
    insert_allocConnection conaddrComparator Connection.conaddr
      (fun con member => invariant.allocated con (invariant.byConaddr_perm.mem_iff.mp member))
      (fun con member => freshConaddr con (invariant.byConaddr_perm.mem_iff.mp member))
  have insertConid :
      KeyedIndex.insert uint16Comparator
        (UdpGwClient.allocConnection { o with nextConid := next } ⟨conaddr, flags, data, next⟩).conidKey
        o.connectionsTreeByConid o.heapTop = some (o.heapTop :: o.connectionsTreeByConid) :=
    insert_allocConnection uint16Comparator Connection.conid
      (fun con member => invariant.allocated con (invariant.byConid_perm.mem_iff.mp member))
      (fun con member => freeConid con (invariant.byConid_perm.mem_iff.mp member))
  unfold connectionInit
  rw [if_pos ⟨room, absent, fits⟩, if_neg allocated, search]
  dsimp only
  by_cases failure : allocation = .packetProtoFlowInitFails
  · rw [if_pos failure, if_pos failure]
  · rw [if_neg failure, if_neg failure, allocConnection_connectionsTreeByConaddr,
      allocConnection_connectionsTreeByConid, insertConaddr, insertConid]
    rfl

/--
With a new conaddr and a connection in the table, `reuse_connection` re-keys
the least recently used connection.
-/
theorem TableInvariant.reuseConnection_spec
    (invariant : TableInvariant o)
    {conaddr : Conaddr}
    (absent : findConnectionByConaddr o conaddr = none)
    (nonempty : 0 < o.numConnections) :
    ∃ con, o.connectionsList.head? = some con ∧
      reuseConnection o conaddr = some (o.rekeyConnection con conaddr, con) := by
  obtain ⟨con, rest, listEq⟩ : ∃ con rest, o.connectionsList = con :: rest := by
    rw [invariant.numConnections_eq] at nonempty
    exact List.exists_cons_of_length_pos nonempty
  have head : o.connectionsList.head? = some con := by
    rw [listEq, List.head?_cons]
  have member : con ∈ o.connectionsList := List.mem_of_mem_head? head
  have fresh := invariant.findConnectionByConaddr_eq_none_iff.mp absent
  have treeNodup : o.connectionsTreeByConaddr.Nodup :=
    invariant.byConaddr_perm.nodup_iff.mpr invariant.nodup
  -- the others keep their conaddrs, none of which is the new one
  have insertRekeyed :
      KeyedIndex.insert conaddrComparator
        (o.writeConnection con { o.connections con with conaddr }).conaddrKey
        (o.connectionsTreeByConaddr.erase con) con =
      some (con :: o.connectionsTreeByConaddr.erase con) := by
    apply KeyedIndex.insert_eq_some_iff.mpr ⟨KeyedIndex.lookupExact_eq_none_iff.mpr ?_, rfl⟩
    intro other inRest
    obtain ⟨different, inTree⟩ := treeNodup.mem_erase_iff.mp inRest
    simp only [conaddrKey, connections_writeConnection_of_ne o _ different,
      connections_writeConnection_self]
    exact fresh other (invariant.byConaddr_perm.mem_iff.mp inTree)
  refine ⟨con, head, ?_⟩
  unfold reuseConnection
  rw [if_pos ⟨absent, nonempty⟩, head]
  dsimp only
  rw [insertRekeyed]
  rfl

/--
What `UdpGwClient_SubmitPacket` does, in four cases: it sends on the connection
the conaddr already has; or, with the table full, it re-keys the least recently
used connection and sends on it with `UDPGW_CLIENT_FLAG_REBIND`; or
`connection_init` fails and only `next_conid` moves; or a new connection is
added, with its jobs set and nothing sent yet.
-/
theorem TableInvariant.submitPacket_cases
    (invariant : TableInvariant o)
    {localAddr remoteAddr : BAddr}
    {isDns : Bool}
    {data : List UInt8}
    {allocation : Allocation}
    {result : UdpGwClient}
    {out : List (List UInt8)}
    (step : submitPacket o localAddr remoteAddr isDns data allocation = some (result, out)) :
    data.length ≤ o.udpMtu ∧
    ((∃ con ∈ o.connectionsList, o.conaddrKey con = ⟨localAddr, remoteAddr⟩ ∧
        sendOnConnection o con (if isDns then udpgwClientFlagDns else 0) data = (result, out)) ∨
      (o.numConnections = o.maxConnections ∧
        (∀ con ∈ o.connectionsList, o.conaddrKey con ≠ ⟨localAddr, remoteAddr⟩) ∧
        ∃ con, o.connectionsList.head? = some con ∧
          sendOnConnection (o.rekeyConnection con ⟨localAddr, remoteAddr⟩) con
            ((if isDns then udpgwClientFlagDns else 0) ||| udpgwClientFlagRebind) data = (result, out)) ∨
      (o.numConnections < o.maxConnections ∧
        (∀ con ∈ o.connectionsList, o.conaddrKey con ≠ ⟨localAddr, remoteAddr⟩) ∧ allocation ≠ .succeeds ∧
        ∃ next < o.maxConnections, result = { o with nextConid := next } ∧ out = []) ∨
      (o.numConnections < o.maxConnections ∧
        (∀ con ∈ o.connectionsList, o.conaddrKey con ≠ ⟨localAddr, remoteAddr⟩) ∧
        ∃ next < o.maxConnections, (∀ con ∈ o.connectionsList, o.conidKey con ≠ next) ∧
          result = UdpGwClient.addConnection { o with nextConid := next }
            ⟨⟨localAddr, remoteAddr⟩, if isDns then udpgwClientFlagDns else 0, data, next⟩ ∧
          out = [])) := by
  unfold submitPacket at step
  split at step
  · rename_i fits
    refine ⟨fits, ?_⟩
    dsimp only at step
    split at step
    · -- the conaddr has a connection
      rename_i con found
      obtain ⟨member, hasConaddr⟩ := invariant.findConnectionByConaddr_eq_some_iff.mp found
      exact Or.inl ⟨con, member, hasConaddr, Option.some.inj step⟩
    · rename_i absent
      have fresh := invariant.findConnectionByConaddr_eq_none_iff.mp absent
      split at step
      · -- the table is full: reuse the least recently used connection
        rename_i full
        obtain ⟨con, head, reused⟩ :=
          invariant.reuseConnection_spec absent (full ▸ invariant.maxConnections_pos)
        rw [reused, Option.map_some] at step
        exact Or.inr (Or.inl ⟨full, fresh, con, head, Option.some.inj step⟩)
      · rename_i notFull
        have room : o.numConnections < o.maxConnections :=
          Nat.lt_of_le_of_ne invariant.numConnections_le notFull
        by_cases malloc : allocation = .mallocFails
        · subst malloc
          rw [connectionInit_mallocFails ⟨room, absent, fits⟩] at step
          simp only [Option.map_some, Option.some.injEq, Prod.mk.injEq] at step
          obtain ⟨rfl, rfl⟩ := step
          exact Or.inr (Or.inr (Or.inl ⟨room, fresh, by decide, o.nextConid, invariant.nextConid_lt, rfl, rfl⟩))
        · obtain ⟨next, bound, free, spec⟩ := invariant.connectionInit_spec ⟨room, absent, fits⟩ malloc
          rw [spec] at step
          by_cases failure : allocation = .packetProtoFlowInitFails
          · rw [if_pos failure] at step
            simp only [Option.map_some, Option.some.injEq, Prod.mk.injEq] at step
            obtain ⟨rfl, rfl⟩ := step
            exact Or.inr (Or.inr (Or.inl ⟨room, fresh, by rw [failure]; decide, next, bound, rfl, rfl⟩))
          · rw [if_neg failure] at step
            simp only [Option.map_some, Option.some.injEq, Prod.mk.injEq] at step
            obtain ⟨rfl, rfl⟩ := step
            exact Or.inr (Or.inr (Or.inr ⟨room, fresh, next, bound, free, rfl, rfl⟩))
  · cases step

/--
What `recv_interface_handler_send` does with a message it accepts: it reads a
header and an address, finds the connection by the conid, checks the remote
address, moves the connection to the back of the list and passes the payload
with the connection's addresses.
-/
theorem recvInterfaceHandlerSend_eq_ok
    {data : List UInt8}
    {result : UdpGwClient}
    {delivery : Delivery}
    (step : recvInterfaceHandlerSend o data = some (.ok (result, delivery))) :
    ∃ flags conid rest remoteAddr payload con,
      parseHeader data = .ok (flags, conid, rest) ∧
      parseAddr flags rest = .ok (remoteAddr, payload) ∧
      payload.length ≤ o.udpMtu ∧
      findConnectionByConid o conid = some con ∧
      (o.connections con).conaddr.remoteAddr = remoteAddr ∧
      result = { o with connectionsList := moveToBack o.connectionsList con } ∧
      delivery = ⟨(o.connections con).conaddr.localAddr, remoteAddr, payload⟩ := by
  unfold recvInterfaceHandlerSend at step
  split at step
  · obtain ⟨⟨flags, conid, rest⟩, header, parsed⟩ := except_bind_eq_ok (Option.some.inj step)
    dsimp only at parsed
    obtain ⟨⟨remoteAddr, payload⟩, address, parsed⟩ := except_bind_eq_ok parsed
    dsimp only at parsed
    -- each failed check throws; only the last branch returns
    split at parsed
    · cases parsed
    · rename_i fits
      split at parsed
      · cases parsed
      · rename_i con found
        split at parsed
        · cases parsed
        · rename_i sameRemote
          have equal := (BAddr.compareOrder_eq_eq_iff _ _).mp (not_not.mp sameRemote)
          cases parsed
          exact ⟨flags, conid, rest, remoteAddr, payload, con, header, address,
            Nat.le_of_not_lt fits, found, equal, rfl, by rw [equal]⟩
  · cases step

end Specs

section Jobs

variable {o : UdpGwClient}

/-- Which writers hold a buffer, and which jobs are pending, is no part of the table. -/
theorem TableInvariant.withWriters (invariant : TableInvariant o) (outHave : Nat → Bool)
    (pendingJobs : List Job) :
    TableInvariant { o with outHave, pendingJobs } :=
  { invariant with }

/-- A job changes only which writers hold a buffer. -/
theorem runJob_eq_some {job : Job} {result : UdpGwClient} {out : List (List UInt8)}
    (ran : runJob o job = some (result, out)) :
    ∃ outHave, result = { o with outHave } := by
  cases job with
  | firstJob con =>
      simp only [runJob, connectionFirstJobHandler, connectionSendPacket_eq, Option.some.injEq,
        Prod.mk.injEq] at ran
      exact ⟨_, ran.1.symm⟩
  | writerRecv con =>
      simp only [runJob, outputHandlerRecv] at ran
      split at ran
      · cases ran
      · simp only [Option.map_some, Option.some.injEq, Prod.mk.injEq] at ran
        exact ⟨_, ran.1.symm⟩

/-- The first job is popped and run, then the others. -/
theorem runJobs_cons_eq_some {job : Job} {rest : List Job} {result : UdpGwClient}
    {out : List (List UInt8)} (ran : runJobs o (job :: rest) = some (result, out)) :
    ∃ middle first more, runJob { o with pendingJobs := rest } job = some (middle, first) ∧
      runJobs middle rest = some (result, more) ∧ out = first ++ more := by
  obtain ⟨⟨middle, first⟩, ranJob, ranOthers⟩ := Option.bind_eq_some_iff.mp ran
  dsimp only at ranOthers
  obtain ⟨⟨last, more⟩, ranRest, same⟩ := Option.map_eq_some_iff.mp ranOthers
  obtain ⟨rfl, rfl⟩ := Prod.mk.inj same
  exact ⟨middle, first, more, ranJob, ranRest, rfl⟩

/-- Running jobs changes only which writers hold a buffer and which jobs are pending. -/
theorem runJobs_eq_some {jobs : List Job} {result : UdpGwClient} {out : List (List UInt8)}
    (ran : runJobs o jobs = some (result, out)) :
    ∃ outHave pendingJobs, result = { o with outHave, pendingJobs } := by
  induction jobs generalizing o out with
  | nil =>
      obtain ⟨rfl, -⟩ := Prod.mk.inj (Option.some.inj ran)
      exact ⟨_, _, rfl⟩
  | cons job rest inductionHypothesis =>
      obtain ⟨middle, first, more, ranJob, ranRest, -⟩ := runJobs_cons_eq_some ran
      obtain ⟨outHave, rfl⟩ := runJob_eq_some ranJob
      obtain ⟨outHave', pendingJobs, rfl⟩ := inductionHypothesis ranRest
      exact ⟨outHave', pendingJobs, rfl⟩

/-- Running the pending jobs, each popped before it runs, leaves none pending. -/
theorem runJobs_pendingJobs {jobs : List Job} {result : UdpGwClient} {out : List (List UInt8)}
    (pending : o.pendingJobs = jobs) (ran : runJobs o jobs = some (result, out)) :
    result.pendingJobs = [] := by
  induction jobs generalizing o out with
  | nil =>
      obtain ⟨rfl, -⟩ := Prod.mk.inj (Option.some.inj ran)
      exact pending
  | cons job rest inductionHypothesis =>
      obtain ⟨middle, first, more, ranJob, ranRest, -⟩ := runJobs_cons_eq_some ran
      obtain ⟨outHave, rfl⟩ := runJob_eq_some ranJob
      exact inductionHypothesis rfl ranRest

/-- With no job pending, there is nothing to run. -/
theorem runJobs_of_idle (idle : o.pendingJobs = []) : runJobs o o.pendingJobs = some (o, []) := by
  rw [idle]
  rfl

/-- Sending on a connection sets no job: with none pending before, the jobs after it do nothing. -/
theorem runJobs_sendOnConnection {con : Nat} {flags : UInt8} {data : List UInt8}
    {called : UdpGwClient} {sent : List (List UInt8)}
    (sending : sendOnConnection o con flags data = (called, sent)) (idle : o.pendingJobs = [])
    {result : UdpGwClient} {more : List (List UInt8)}
    (jobs : runJobs called called.pendingJobs = some (result, more)) :
    result = called ∧ more = [] := by
  have none : called.pendingJobs = [] := by
    rw [← show (sendOnConnection o con flags data).1 = called from congrArg Prod.fst sending,
      sendOnConnection_eq]
    exact idle
  rw [none] at jobs
  exact Prod.mk.inj (Option.some.inj jobs).symm

theorem TableInvariant.runJobs (invariant : TableInvariant o) {jobs : List Job} {result : UdpGwClient}
    {out : List (List UInt8)} (ran : runJobs o jobs = some (result, out)) :
    TableInvariant result := by
  obtain ⟨outHave, pendingJobs, rfl⟩ := runJobs_eq_some ran
  exact invariant.withWriters outHave pendingJobs

/--
The jobs of a new connection, with no other job pending: the writer gets its
first buffer, then the first job sends the first packet with
`UDPGW_CLIENT_FLAG_REBIND` added and hands the buffer back.
-/
theorem runJobs_addConnection (o : UdpGwClient) (record : Connection) (idle : o.pendingJobs = []) :
    runJobs (o.addConnection record) (o.addConnection record).pendingJobs =
      some ({ o.addConnection record with pendingJobs := [] },
        [connectionSend (o.addConnection record) o.heapTop
          (udpgwClientFlagRebind ||| record.firstFlags) record.firstData]) := by
  simp [UdpGwClient.addConnection, UdpGwClient.allocConnection, idle, runJobs, runJob, outputHandlerRecv,
    connectionFirstJobHandler, connectionSendPacket, setOutHave, connectionSend]

end Jobs

section Runs

variable {o : UdpGwClient}

/-- `UdpGwClient_SubmitPacket` keeps the invariant. -/
theorem TableInvariant.submitPacket
    (invariant : TableInvariant o)
    {localAddr remoteAddr : BAddr}
    {isDns : Bool}
    {data : List UInt8}
    {allocation : Allocation}
    {result : UdpGwClient}
    {out : List (List UInt8)}
    (step : submitPacket o localAddr remoteAddr isDns data allocation = some (result, out)) :
    TableInvariant result := by
  obtain ⟨_, existing | reused | failed | added⟩ := invariant.submitPacket_cases step
  · obtain ⟨con, member, _, sent⟩ := existing
    rw [sendOnConnection_eq] at sent
    obtain ⟨rfl, -⟩ := Prod.mk.inj sent
    exact (invariant.permList (moveToBack_perm member)).withWriters _ _
  · obtain ⟨_, fresh, con, head, sent⟩ := reused
    have member : con ∈ o.connectionsList := List.mem_of_mem_head? head
    rw [sendOnConnection_eq] at sent
    obtain ⟨rfl, -⟩ := Prod.mk.inj sent
    exact ((invariant.rekeyConnection member fresh).permList (moveToBack_perm member)).withWriters _ _
  · obtain ⟨-, -, -, next, bound, rfl, _⟩ := failed
    exact invariant.withNextConid bound
  · obtain ⟨room, fresh, next, bound, free, rfl, _⟩ := added
    exact (invariant.withNextConid bound).addConnection room fresh free bound

/-- A call from outside is the call, then the jobs pending when it returns. -/
theorem submitPacketThenJobs_eq_some
    {localAddr remoteAddr : BAddr}
    {isDns : Bool}
    {data : List UInt8}
    {allocation : Allocation}
    {result : UdpGwClient}
    {out : List (List UInt8)}
    (step : submitPacketThenJobs o localAddr remoteAddr isDns data allocation = some (result, out)) :
    ∃ called sent more, submitPacket o localAddr remoteAddr isDns data allocation = some (called, sent) ∧
      runJobs called called.pendingJobs = some (result, more) ∧ out = sent ++ more := by
  obtain ⟨⟨called, sent⟩, call, jobs⟩ := Option.bind_eq_some_iff.mp step
  obtain ⟨⟨ran, more⟩, runs, same⟩ := Option.map_eq_some_iff.mp jobs
  obtain ⟨rfl, rfl⟩ := Prod.mk.inj same
  exact ⟨called, sent, more, call, runs, rfl⟩

/--
What a packet submitted from outside does, once the jobs it set have run, from
a state with no job pending: as `UdpGwClient_SubmitPacket` does, except that a
new connection's first job has sent the packet, with `UDPGW_CLIENT_FLAG_REBIND`
added; no job is left pending.
-/
theorem TableInvariant.submitPacketThenJobs_cases
    (invariant : TableInvariant o)
    (idle : o.pendingJobs = [])
    {localAddr remoteAddr : BAddr}
    {isDns : Bool}
    {data : List UInt8}
    {allocation : Allocation}
    {result : UdpGwClient}
    {out : List (List UInt8)}
    (step : submitPacketThenJobs o localAddr remoteAddr isDns data allocation = some (result, out)) :
    data.length ≤ o.udpMtu ∧ result.pendingJobs = [] ∧
    ((∃ con ∈ o.connectionsList, o.conaddrKey con = ⟨localAddr, remoteAddr⟩ ∧
        result = ({ o with connectionsList := moveToBack o.connectionsList con } : UdpGwClient).setOutHave
          con false ∧
        out = if o.outHave con then [connectionSend o con (if isDns then udpgwClientFlagDns else 0) data]
          else []) ∨
      (o.numConnections = o.maxConnections ∧
        (∀ con ∈ o.connectionsList, o.conaddrKey con ≠ ⟨localAddr, remoteAddr⟩) ∧
        ∃ con, o.connectionsList.head? = some con ∧
          result = ({ o.rekeyConnection con ⟨localAddr, remoteAddr⟩ with
            connectionsList := moveToBack o.connectionsList con } : UdpGwClient).setOutHave con false ∧
          out = if o.outHave con then
              [connectionSend (o.rekeyConnection con ⟨localAddr, remoteAddr⟩) con
                ((if isDns then udpgwClientFlagDns else 0) ||| udpgwClientFlagRebind) data]
            else []) ∨
      (o.numConnections < o.maxConnections ∧
        (∀ con ∈ o.connectionsList, o.conaddrKey con ≠ ⟨localAddr, remoteAddr⟩) ∧ allocation ≠ .succeeds ∧
        ∃ next < o.maxConnections, result = { o with nextConid := next } ∧ out = []) ∨
      (o.numConnections < o.maxConnections ∧
        (∀ con ∈ o.connectionsList, o.conaddrKey con ≠ ⟨localAddr, remoteAddr⟩) ∧
        ∃ next < o.maxConnections, (∀ con ∈ o.connectionsList, o.conidKey con ≠ next) ∧
          result = { UdpGwClient.addConnection { o with nextConid := next }
            ⟨⟨localAddr, remoteAddr⟩, if isDns then udpgwClientFlagDns else 0, data, next⟩ with
              pendingJobs := [] } ∧
          out = [connectionSend result o.heapTop
            (udpgwClientFlagRebind ||| (if isDns then udpgwClientFlagDns else 0)) data])) := by
  obtain ⟨called, sent, more, call, jobs, rfl⟩ := submitPacketThenJobs_eq_some step
  have cleared := runJobs_pendingJobs rfl jobs
  obtain ⟨fits, existing | reused | failed | added⟩ := invariant.submitPacket_cases call
  all_goals refine ⟨fits, cleared, ?_⟩
  · -- an existing connection: the call sets no job
    obtain ⟨con, member, key, sending⟩ := existing
    obtain ⟨rfl, rfl⟩ := runJobs_sendOnConnection sending idle jobs
    rw [sendOnConnection_eq] at sending
    obtain ⟨rfl, rfl⟩ := Prod.mk.inj sending
    exact .inl ⟨con, member, key, rfl, List.append_nil _⟩
  · obtain ⟨full, fresh, con, head, sending⟩ := reused
    obtain ⟨rfl, rfl⟩ := runJobs_sendOnConnection sending idle jobs
    rw [sendOnConnection_eq] at sending
    obtain ⟨rfl, rfl⟩ := Prod.mk.inj sending
    exact .inr (.inl ⟨full, fresh, con, head, rfl, List.append_nil _⟩)
  · obtain ⟨room, fresh, failing, next, bound, rfl, rfl⟩ := failed
    rw [runJobs_of_idle (o := { o with nextConid := next }) idle] at jobs
    obtain ⟨rfl, rfl⟩ := Prod.mk.inj (Option.some.inj jobs)
    exact .inr (.inr (.inl ⟨room, fresh, failing, next, bound, rfl, rfl⟩))
  · -- a new connection: its writer gets a buffer, then its first job sends
    obtain ⟨room, fresh, next, bound, free, rfl, rfl⟩ := added
    rw [runJobs_addConnection { o with nextConid := next } _ idle] at jobs
    obtain ⟨rfl, rfl⟩ := Prod.mk.inj (Option.some.inj jobs)
    exact .inr (.inr (.inr ⟨room, fresh, next, bound, free, rfl, rfl⟩))

/-- A packet submitted from outside keeps the invariant, with the jobs it set. -/
theorem TableInvariant.submitPacketThenJobs
    (invariant : TableInvariant o)
    {localAddr remoteAddr : BAddr}
    {isDns : Bool}
    {data : List UInt8}
    {allocation : Allocation}
    {result : UdpGwClient}
    {out : List (List UInt8)}
    (step : submitPacketThenJobs o localAddr remoteAddr isDns data allocation = some (result, out)) :
    TableInvariant result := by
  obtain ⟨called, sent, more, call, jobs, -⟩ := submitPacketThenJobs_eq_some step
  exact (invariant.submitPacket call).runJobs jobs

/-- A message from the server keeps the invariant, whether it is passed on or dropped. -/
theorem TableInvariant.recvInterfaceHandlerSend
    (invariant : TableInvariant o)
    {data : List UInt8}
    {result : UdpGwClient}
    {delivery : Delivery}
    (step : recvInterfaceHandlerSend o data = some (.ok (result, delivery))) :
    TableInvariant result := by
  obtain ⟨_, _, _, _, _, con, _, _, _, found, _, rfl, _⟩ := recvInterfaceHandlerSend_eq_ok step
  exact invariant.permList
    (moveToBack_perm (invariant.findConnectionByConid_eq_some_iff.mp found).1)

/-- A writer handed a buffer: `out_have` is set, the rest is as it was. -/
theorem writerRecv_step? {con : Nat} {result : UdpGwClient}
    (step : (Event.writerRecv con).step? o = some result) :
    con ∈ o.connectionsList ∧ o.outHave con = false ∧ result = o.setOutHave con true := by
  by_cases live : con ∈ o.connectionsList
  · by_cases buffer : o.outHave con = true
    · simp [Event.step?, outputHandlerRecv, live, buffer] at step
    · simp only [Event.step?, outputHandlerRecv, live, buffer, if_true, Bool.false_eq_true, if_false,
        Option.some.injEq] at step
      exact ⟨live, by simpa using buffer, step.symm⟩
  · simp [Event.step?, live] at step

/-- Every call keeps the invariant. -/
theorem TableInvariant.step?
    (invariant : TableInvariant o)
    {event : Event}
    {result : UdpGwClient}
    (step : event.step? o = some result) :
    TableInvariant result := by
  cases event with
  | submitPacket localAddr remoteAddr isDns data allocation =>
      obtain ⟨⟨_, out⟩, submitted, rfl⟩ := Option.map_eq_some_iff.mp step
      exact invariant.submitPacketThenJobs submitted
  | received data =>
      obtain ⟨outcome, received, rfl⟩ := Option.map_eq_some_iff.mp step
      cases outcome with
      | ok passed =>
          exact invariant.recvInterfaceHandlerSend received
      | error _ =>
          exact invariant
  | connectServer succeeds =>
      simp only [Event.step?, connectServer] at step
      split at step
      · cases step
      · cases step
        exact { invariant with }
  | disconnectServer =>
      simp only [Event.step?, disconnectServer] at step
      split at step
      · cases step
        exact { invariant with }
      · cases step
  | writerRecv con =>
      obtain ⟨-, -, rfl⟩ := writerRecv_step? step
      exact invariant.withWriters _ _

/-- Every run keeps the invariant. -/
theorem TableInvariant.run?
    (invariant : TableInvariant o)
    {events : List Event}
    {result : UdpGwClient}
    (ran : run? o events = some result) :
    TableInvariant result := by
  induction events generalizing o with
  | nil =>
      cases ran
      exact invariant
  | cons event rest inductionHypothesis =>
      obtain ⟨next, stepped, ran⟩ := Option.bind_eq_some_iff.mp ran
      exact inductionHypothesis (invariant.step? stepped) ran

/-- After every call, no job of the client is pending: `BReactor_Exec` ran them. -/
theorem pendingJobs_step?
    (idle : o.pendingJobs = [])
    {event : Event}
    {result : UdpGwClient}
    (step : event.step? o = some result) :
    result.pendingJobs = [] := by
  cases event with
  | submitPacket localAddr remoteAddr isDns data allocation =>
      obtain ⟨⟨_, out⟩, submitted, rfl⟩ := Option.map_eq_some_iff.mp step
      obtain ⟨called, sent, more, -, jobs, -⟩ := submitPacketThenJobs_eq_some submitted
      exact runJobs_pendingJobs rfl jobs
  | received data =>
      obtain ⟨outcome, received, rfl⟩ := Option.map_eq_some_iff.mp step
      cases outcome with
      | ok passed =>
          obtain ⟨passedState, delivery⟩ := passed
          obtain ⟨_, _, _, _, _, con, _, _, _, _, _, rfl, _⟩ := recvInterfaceHandlerSend_eq_ok received
          exact idle
      | error _ =>
          exact idle
  | connectServer succeeds =>
      simp only [Event.step?, connectServer] at step
      split at step
      · cases step
      · cases step
        exact idle
  | disconnectServer =>
      simp only [Event.step?, disconnectServer] at step
      split at step
      · cases step
        exact idle
      · cases step
  | writerRecv con =>
      obtain ⟨-, -, rfl⟩ := writerRecv_step? step
      exact idle

/-- Between calls, no job of the client is pending. -/
theorem pendingJobs_run?
    (idle : o.pendingJobs = [])
    {events : List Event}
    {result : UdpGwClient}
    (ran : run? o events = some result) :
    result.pendingJobs = [] := by
  induction events generalizing o with
  | nil =>
      cases ran
      exact idle
  | cons event rest inductionHypothesis =>
      obtain ⟨next, stepped, ran⟩ := Option.bind_eq_some_iff.mp ran
      exact inductionHypothesis (pendingJobs_step? idle stepped) ran

/-- `UdpGwClient_Init` with `max_connections > 0` establishes the invariant. -/
theorem tableInvariant_init (udpMtu : Nat) {maxConnections : Nat} (positive : 0 < maxConnections) :
    TableInvariant (init udpMtu maxConnections) where
  byConaddr_perm := List.Perm.refl _
  byConid_perm := List.Perm.refl _
  nodup := List.nodup_nil
  numConnections_eq := rfl
  numConnections_le := Nat.zero_le _
  conids_distinct := List.Pairwise.nil
  conid_lt := fun _ member => absurd member List.not_mem_nil
  conaddrs_distinct := List.Pairwise.nil
  nextConid_lt := by
    simp only [init]
    split <;> omega
  maxConnections_pos := by
    simp only [init]
    split <;> omega
  maxConnections_le := by
    simp only [init]
    split <;> omega
  allocated := fun _ member => absurd member List.not_mem_nil

/--
`UdpGwClient_SubmitPacket` and the jobs it sets leave the client's
configuration, `udp_mtu` and `max_connections`, as it was.
-/
theorem TableInvariant.config_submitPacketThenJobs
    (invariant : TableInvariant o)
    {localAddr remoteAddr : BAddr}
    {isDns : Bool}
    {data : List UInt8}
    {allocation : Allocation}
    {result : UdpGwClient}
    {out : List (List UInt8)}
    (submitted : Client.submitPacketThenJobs o localAddr remoteAddr isDns data allocation = some (result, out)) :
    result.udpMtu = o.udpMtu ∧ result.maxConnections = o.maxConnections := by
  obtain ⟨called, sent, more, call, jobs, -⟩ := submitPacketThenJobs_eq_some submitted
  obtain ⟨outHave, pendingJobs, rfl⟩ := runJobs_eq_some jobs
  show called.udpMtu = o.udpMtu ∧ called.maxConnections = o.maxConnections
  obtain ⟨_, existing | reused | failed | added⟩ := invariant.submitPacket_cases call
  · obtain ⟨con, _, _, sending⟩ := existing
    rw [sendOnConnection_eq] at sending
    obtain ⟨rfl, -⟩ := Prod.mk.inj sending
    exact ⟨rfl, rfl⟩
  · obtain ⟨_, _, con, _, sending⟩ := reused
    rw [sendOnConnection_eq] at sending
    obtain ⟨rfl, -⟩ := Prod.mk.inj sending
    exact ⟨rfl, rfl⟩
  · obtain ⟨-, -, -, next, _, rfl, _⟩ := failed
    exact ⟨rfl, rfl⟩
  · obtain ⟨_, _, next, _, _, rfl, _⟩ := added
    exact ⟨rfl, rfl⟩

/-- No call changes `max_connections`. -/
theorem TableInvariant.maxConnections_step?
    (invariant : TableInvariant o)
    {event : Event}
    {result : UdpGwClient}
    (step : event.step? o = some result) :
    result.maxConnections = o.maxConnections := by
  cases event with
  | submitPacket localAddr remoteAddr isDns data allocation =>
      obtain ⟨⟨_, out⟩, submitted, rfl⟩ := Option.map_eq_some_iff.mp step
      exact (invariant.config_submitPacketThenJobs submitted).2
  | received data =>
      obtain ⟨outcome, received, rfl⟩ := Option.map_eq_some_iff.mp step
      cases outcome with
      | ok passed =>
          obtain ⟨passedState, delivery⟩ := passed
          obtain ⟨_, _, _, _, _, con, _, _, _, _, _, rfl, _⟩ := recvInterfaceHandlerSend_eq_ok received
          rfl
      | error _ =>
          rfl
  | connectServer succeeds =>
      simp only [Event.step?, connectServer] at step
      split at step
      · cases step
      · cases step
        rfl
  | disconnectServer =>
      simp only [Event.step?, disconnectServer] at step
      split at step
      · cases step
        rfl
      · cases step
  | writerRecv con =>
      obtain ⟨-, -, rfl⟩ := writerRecv_step? step
      rfl

/-- No run changes `max_connections`. -/
theorem TableInvariant.maxConnections_run?
    (invariant : TableInvariant o)
    {events : List Event}
    {result : UdpGwClient}
    (ran : Client.run? o events = some result) :
    result.maxConnections = o.maxConnections := by
  induction events generalizing o with
  | nil =>
      cases ran
      rfl
  | cons event rest inductionHypothesis =>
      obtain ⟨next, stepped, ran⟩ := Option.bind_eq_some_iff.mp ran
      rw [inductionHypothesis (invariant.step? stepped) ran, invariant.maxConnections_step? stepped]

/-- `UdpGwClient_Init` limits `max_connections` to the 65536 conids. -/
theorem maxConnections_init (udpMtu maxConnections : Nat) :
    (init udpMtu maxConnections).maxConnections = min maxConnections 65536 := by
  simp only [init]
  split <;> omega

/-- What the documented preconditions of each call ask of the caller. -/
def Event.Allowed (o : UdpGwClient) : Event → Prop
  | .submitPacket _ _ _ data _ => data.length ≤ o.udpMtu
  | .received data => o.haveServer = true ∧ data.length ≤ o.udpgwMtu
  | .connectServer _ => o.haveServer = false
  | .disconnectServer => o.haveServer = true
  | .writerRecv con => con ∈ o.connectionsList ∧ o.outHave con = false

/-- Past its `ASSERT`s, `UdpGwClient_SubmitPacket` is never refused. -/
theorem TableInvariant.submitPacket_isSome
    (invariant : TableInvariant o)
    {localAddr remoteAddr : BAddr}
    {isDns : Bool}
    {data : List UInt8}
    {allocation : Allocation}
    (fits : data.length ≤ o.udpMtu) :
    (Client.submitPacket o localAddr remoteAddr isDns data allocation).isSome := by
  unfold Client.submitPacket
  rw [if_pos fits]
  dsimp only
  split
  · rfl
  · rename_i absent
    split
    · rename_i full
      obtain ⟨con, _, reused⟩ :=
        invariant.reuseConnection_spec absent (full ▸ invariant.maxConnections_pos)
      rw [reused]
      rfl
    · rename_i notFull
      have guard : o.numConnections < o.maxConnections ∧
          findConnectionByConaddr o ⟨localAddr, remoteAddr⟩ = none ∧ data.length ≤ o.udpMtu :=
        ⟨Nat.lt_of_le_of_ne invariant.numConnections_le notFull, absent, fits⟩
      by_cases malloc : allocation = .mallocFails
      · subst malloc
        rw [connectionInit_mallocFails guard]
        rfl
      · obtain ⟨next, _, _, spec⟩ := invariant.connectionInit_spec guard malloc
        rw [spec]
        rfl

/-- From a state with no job pending, a packet submitted from outside and the jobs it sets are not refused. -/
theorem TableInvariant.submitPacketThenJobs_isSome
    (invariant : TableInvariant o)
    (idle : o.pendingJobs = [])
    {localAddr remoteAddr : BAddr}
    {isDns : Bool}
    {data : List UInt8}
    {allocation : Allocation}
    (fits : data.length ≤ o.udpMtu) :
    (Client.submitPacketThenJobs o localAddr remoteAddr isDns data allocation).isSome := by
  have submitted : (Client.submitPacket o localAddr remoteAddr isDns data allocation).isSome :=
    invariant.submitPacket_isSome fits
  obtain ⟨⟨called, sent⟩, call⟩ := Option.isSome_iff_exists.mp submitted
  -- only a new connection has jobs to run
  have ran : ∃ result more, Client.runJobs called called.pendingJobs = some (result, more) := by
    obtain ⟨_, existing | reused | failed | added⟩ := invariant.submitPacket_cases call
    · obtain ⟨con, -, -, sending⟩ := existing
      obtain rfl : _ = called := congrArg Prod.fst sending
      exact ⟨_, _, runJobs_of_idle (by rw [sendOnConnection_eq]; exact idle)⟩
    · obtain ⟨-, -, con, -, sending⟩ := reused
      obtain rfl : _ = called := congrArg Prod.fst sending
      exact ⟨_, _, runJobs_of_idle (by rw [sendOnConnection_eq]; exact idle)⟩
    · obtain ⟨-, -, -, next, -, rfl, -⟩ := failed
      exact ⟨_, _, runJobs_of_idle (o := { o with nextConid := next }) idle⟩
    · obtain ⟨-, -, next, -, -, rfl, -⟩ := added
      exact ⟨_, _, runJobs_addConnection { o with nextConid := next } _ idle⟩
  obtain ⟨result, more, jobs⟩ := ran
  simp [Client.submitPacketThenJobs, call, jobs]

/-- From a state that keeps the invariant, no call within its preconditions is refused. -/
theorem TableInvariant.step?_isSome
    (invariant : TableInvariant o)
    (idle : o.pendingJobs = [])
    {event : Event}
    (allowed : event.Allowed o) :
    (event.step? o).isSome := by
  cases event with
  | submitPacket localAddr remoteAddr isDns data allocation =>
      simp only [Event.step?, Option.isSome_map]
      exact invariant.submitPacketThenJobs_isSome idle allowed
  | received data =>
      simp only [Event.Allowed] at allowed
      simp only [Event.step?, Option.isSome_map]
      unfold Client.recvInterfaceHandlerSend
      rw [if_pos allowed]
      rfl
  | connectServer succeeds =>
      simp only [Event.step?, connectServer, Event.Allowed] at allowed ⊢
      simp [allowed]
  | disconnectServer =>
      simp only [Event.step?, disconnectServer, Event.Allowed] at allowed ⊢
      simp [allowed]
  | writerRecv con =>
      obtain ⟨live, noBuffer⟩ := allowed
      simp [Event.step?, outputHandlerRecv, live, noBuffer]

/--
What holds of every state reached from `UdpGwClient_Init` with
`maxConnections`: the two trees and the list hold the same connections, each
once, and `num_connections` counts them; there are at most
`min maxConnections 65536` of them; conids are distinct and below that bound;
conaddrs are distinct under `conaddr_comparator`; `next_conid` is below the
bound; no call within its preconditions is refused; and a `connection_init`
that fails changes nothing but `next_conid`, which stays below the bound.
-/
structure TableSpec (maxConnections : Nat) (o : UdpGwClient) : Prop where
  sameConnections : o.connectionsTreeByConaddr.Perm o.connectionsList ∧
    o.connectionsTreeByConid.Perm o.connectionsList ∧ o.connectionsList.Nodup
  numConnections_eq : o.numConnections = o.connectionsList.length
  numConnections_le : o.numConnections ≤ min maxConnections 65536
  conids_distinct : (o.connectionsList.map o.conidKey).Nodup
  conid_lt : ∀ con ∈ o.connectionsList, o.conidKey con < min maxConnections 65536
  conaddrs_distinct : KeyedIndex.DistinctKeys conaddrComparator o.conaddrKey o.connectionsList
  nextConid_lt : o.nextConid < min maxConnections 65536
  accepts : ∀ event : Event, event.Allowed o → (event.step? o).isSome
  failedInit : ∀ conaddr flags data allocation, allocation ≠ .succeeds →
    o.numConnections < o.maxConnections → findConnectionByConaddr o conaddr = none →
    data.length ≤ o.udpMtu →
    ∃ next < min maxConnections 65536,
      connectionInit o conaddr flags data allocation = some ({ o with nextConid := next }, none)

/-- The connection table over every run from `UdpGwClient_Init(max_connections > 0)`. -/
theorem connectionTable_invariant
    (udpMtu : Nat)
    {maxConnections : Nat}
    (positive : 0 < maxConnections)
    {events : List Event}
    {o : UdpGwClient}
    (ran : run? (init udpMtu maxConnections) events = some o) :
    TableSpec maxConnections o := by
  have initial := tableInvariant_init udpMtu positive
  have invariant := initial.run? ran
  have clamped : o.maxConnections = min maxConnections 65536 := by
    rw [initial.maxConnections_run? ran, maxConnections_init]
  refine
    { sameConnections := ⟨invariant.byConaddr_perm, invariant.byConid_perm, invariant.nodup⟩
      numConnections_eq := invariant.numConnections_eq
      numConnections_le := clamped ▸ invariant.numConnections_le
      conids_distinct := KeyedIndex.distinctKeys_iff.mp invariant.conids_distinct
      conid_lt := clamped ▸ invariant.conid_lt
      conaddrs_distinct := invariant.conaddrs_distinct
      nextConid_lt := clamped ▸ invariant.nextConid_lt
      accepts := fun _ allowed => invariant.step?_isSome (pendingJobs_run? rfl ran) allowed
      failedInit := ?_ }
  intro conaddr flags data allocation failing room absent fits
  by_cases malloc : allocation = .mallocFails
  · subst malloc
    exact ⟨o.nextConid, clamped ▸ invariant.nextConid_lt,
      connectionInit_mallocFails ⟨room, absent, fits⟩⟩
  · -- past the `malloc`, the one other failure is `PacketProtoFlow_Init`
    have failure : allocation = .packetProtoFlowInitFails := by
      cases allocation <;> simp_all
    obtain ⟨next, bound, _, spec⟩ := invariant.connectionInit_spec ⟨room, absent, fits⟩ malloc
    refine ⟨next, clamped ▸ bound, ?_⟩
    rw [spec, if_pos failure]

/-- Two connections allowed, after one packet from one local endpoint. -/
theorem connectionTable_invariant_one_flow :
    TableSpec 2 ((run? (init 1500 2)
      [.submitPacket (.ipv4 ⟨#[10, 0, 0, 1], rfl⟩ ⟨#[4, 0], rfl⟩)
        (.ipv4 ⟨#[8, 8, 8, 8], rfl⟩ ⟨#[0, 53], rfl⟩) false [7] .succeeds]).get (by decide)) :=
  connectionTable_invariant 1500 (by decide) (Option.some_get _).symm

/--
A failed `connection_init` moves `next_conid`: after one connection (conid 0),
a packet for a second conaddr whose `PacketProtoFlow_Init` fails leaves
`next_conid` at 1, since `find_unused_conid` ran first.
-/
theorem connectionInit_failure_moves_nextConid :
    ((run? (init 1500 2)
      [.submitPacket (.ipv4 ⟨#[10, 0, 0, 1], rfl⟩ ⟨#[4, 0], rfl⟩)
        (.ipv4 ⟨#[8, 8, 8, 8], rfl⟩ ⟨#[0, 53], rfl⟩) false [7] .succeeds]).bind fun o =>
      (connectionInit o ⟨.ipv4 ⟨#[10, 0, 0, 1], rfl⟩ ⟨#[4, 1], rfl⟩,
          .ipv4 ⟨#[8, 8, 8, 8], rfl⟩ ⟨#[0, 53], rfl⟩⟩ 0 [7] .packetProtoFlowInitFails).map
        fun (failed, _) => (o.nextConid, failed.nextConid)) = some (0, 1) := by
  decide

end Runs

end Client

end Udpgw

end Tun2SocksWinRT
