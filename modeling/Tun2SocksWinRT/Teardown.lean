import Mathlib.Data.List.Basic

namespace Tun2SocksWinRT

namespace Teardown

/-!
# What tun2socks leaves registered with the reactor at exit

`tun2socks_Init` registers objects with the reactor `ss`, runs `BReactor_Exec`
until `terminate()` quits it, and then runs a cleanup ladder (`fail5:` down to
`fail2:`) that ends in `BReactor_Free`.  `BReactor_Free` first calls the
handler of every `BReactorIOCPOverlapped` still in `iocp_list`, last first,
with `BREACTOR_IOCP_EVENT_EXITING`, expecting each to free itself; then it
asserts that no job is pending and that no timer is running or expired.

The model keeps, for each object registered with the reactor, who registered
it (`Owner`): the set jobs, the timers in `timers_tree` or
`timers_expired_list`, and the overlapped objects with their handlers.  During
the event loop the objects tun2socks creates there (the udpgw client and the
TCP clients with their SOCKS connections) register and free their own
objects; the objects made before the loop change only as their own code does:
`tcp_timer_handler` sets `tcp_timer` again, and SockTun and BSignal keep their
overlapped objects.  The cleanup frees the udpgw client, the device reading
objects and `lwip_init_job`, finishes BSignal, and calls `BReactor_Free`; it
frees no TCP client, removes no timer and frees no SockTun.

`BReactor_Free` therefore never succeeds (`teardown_leaves_registrations`):
the last overlapped object is SockTun's receive object or one of a TCP
client's, and each of their handlers asserts that the event is
`BREACTOR_IOCP_EVENT_SUCCEEDED` or `BREACTOR_IOCP_EVENT_FAILED`; and
`tcp_timer` is still in the reactor when its timer checks are reached.
-/

/-- An object that registers jobs, timers or overlapped objects with the reactor. -/
inductive Owner
  /-- `bsignal_global` of `system/BSignal.c` -/
  | signal
  /-- the SockTun device `tunnel` -/
  | sockTun
  /-- `device_read_interface` and `device_read_buffer` -/
  | deviceRead
  /-- `udpgw_client`, a `SocksUdpGwClient` -/
  | udpgw
  /-- `lwip_init_job` -/
  | lwipInit
  /-- `tcp_timer` -/
  | tcpTimer
  /-- a `struct tcp_client` with its `BSocksClient` -/
  | tcpClient (id : Nat)
  deriving DecidableEq, Repr

/-- The objects that are made and freed while the event loop runs. -/
def Owner.Dynamic : Owner → Prop
  | .udpgw | .tcpClient _ => True
  | _ => False

instance : DecidablePred Owner.Dynamic := fun owner => by
  cases owner <;> simp only [Owner.Dynamic] <;> infer_instance

/-- The handler a `BReactorIOCPOverlapped` was initialized with. -/
inductive OlapHandler
  /-- `olap_handler` of `system/BSignal.c` -/
  | bSignal
  /-- `NULL`: SockTun's `send_olap` -/
  | null
  /-- `recv_olap_handler` of `tun2socks/SockTun.c` -/
  | sockTunRecv
  /-- `connection_send_olap_handler` of `system/BConnection_win.c` -/
  | connectionSend
  /-- `connection_recv_olap_handler` -/
  | connectionRecv
  /-- `connector_olap_handler` -/
  | connector
  /-- `listener_olap_handler` -/
  | listener
  deriving DecidableEq, Repr

/-- A `BReactorIOCPOverlapped` in `iocp_list`. -/
structure Olap where
  owner : Owner
  handler : OlapHandler
  deriving DecidableEq, Repr

/-- What a `BReactor` holds that `BReactor_Free` checks, and BSignal's `finished` flag. -/
structure Reactor where
  /-- the owners of the set `BPending` jobs -/
  pendingJobs : List Owner
  /-- the owners of the timers in `timers_tree` or `timers_expired_list` -/
  timers : List Owner
  /-- `iocp_list`, in the order of `BReactorIOCPOverlapped_Init` -/
  iocpList : List Olap
  /-- `bsignal_global.finished` -/
  signalFinished : Bool
  deriving DecidableEq, Repr

namespace Reactor

/-- `BReactorIOCPOverlapped_Init`: the object joins the end of `iocp_list`. -/
def addOlap (r : Reactor) (olap : Olap) : Reactor :=
  { r with iocpList := r.iocpList ++ [olap] }

/-- Free every job, timer and overlapped object of one owner. -/
def freeOwner (r : Reactor) (owner : Owner) : Reactor :=
  { r with
    pendingJobs := r.pendingJobs.filter (· != owner)
    timers := r.timers.filter (· != owner)
    iocpList := r.iocpList.filter (·.owner != owner) }

/--
The loop of `BReactor_Free` over `iocp_list` given last first: each handler is
called with `BREACTOR_IOCP_EVENT_EXITING`.  BSignal's handler frees its object
once `BSignal_Finish` has run; every other handler fails an `ASSERT` on the
event, and the send object's `NULL` handler cannot be called.
-/
def exitOverlapped (signalFinished : Bool) : List Olap → Option Unit
  | [] =>
      some ()
  | olap :: earlier =>
      match olap.handler with
      | .bSignal =>
          if signalFinished then exitOverlapped signalFinished earlier else none
      | _ =>
          none

/-- `BReactor_Free`: the overlapped objects' handlers, then the checks. -/
def free (r : Reactor) : Option Unit :=
  match exitOverlapped r.signalFinished r.iocpList.reverse with
  | none =>
      none
  | some () =>
      -- no pending job, no timer in timers_tree or timers_expired_list
      if r.pendingJobs = [] ∧ r.timers = [] then some () else none

end Reactor

/-- BSignal's overlapped object. -/
def signalOlap : Olap :=
  ⟨.signal, .bSignal⟩

/-- SockTun's `send_olap`, initialized with a `NULL` handler. -/
def sendOlap : Olap :=
  ⟨.sockTun, .null⟩

/-- SockTun's `recv_olap`. -/
def recvOlap : Olap :=
  ⟨.sockTun, .sockTunRecv⟩

/--
`tun2socks_Init` up to `BReactor_Exec`: `BReactor_Init`, `BSignal_Init`,
`SockTun_Init` (send then receive object), `SinglePacketBuffer_Init` (its
first `Recv` sets SockTun's job), the udpgw client when configured (its first
connection attempt registers a connector), `lwip_init_job` set, and
`tcp_timer` set.
-/
def tun2socksInit (udpgw : Bool) : Reactor :=
  let r : Reactor := ⟨[], [], [], false⟩
  let r := r.addOlap signalOlap
  let r := (r.addOlap sendOlap).addOlap recvOlap
  let r := { r with pendingJobs := .sockTun :: r.pendingJobs }
  let r := if udpgw then r.addOlap ⟨.udpgw, .connector⟩ else r
  let r := { r with pendingJobs := .lwipInit :: r.pendingJobs }
  { r with timers := .tcpTimer :: r.timers }

/-- What the event loop does to the reactor's registrations, until `terminate()`. -/
inductive LoopEvent
  /-- a udpgw or TCP client object initializes an overlapped object (never BSignal's kind) -/
  | addOlap (olap : Olap)
  /-- `BReactorIOCPOverlapped_Free` of one of those -/
  | freeOlap (olap : Olap)
  /-- a job is set or runs; `lwip_init_job` runs once -/
  | setJob (owner : Owner)
  | runJob (owner : Owner)
  /-- a loop-made object sets or removes a timer -/
  | setTimer (owner : Owner)
  | removeTimer (owner : Owner)
  /-- `tcp_timer` expires and `tcp_timer_handler` runs: it sets the timer again -/
  | tcpTimerFires
  deriving DecidableEq, Repr

/-- One event; `none` where the event is not one the loop can produce. -/
def LoopEvent.step? (r : Reactor) : LoopEvent → Option Reactor
  | .addOlap olap =>
      if olap.owner.Dynamic ∧ olap.handler ≠ .bSignal then some (r.addOlap olap) else none
  | .freeOlap olap =>
      if olap.owner.Dynamic ∧ olap ∈ r.iocpList then
        some { r with iocpList := r.iocpList.erase olap }
      else
        none
  | .setJob owner =>
      some { r with pendingJobs := owner :: r.pendingJobs }
  | .runJob owner =>
      if owner ∈ r.pendingJobs then some { r with pendingJobs := r.pendingJobs.erase owner } else none
  | .setTimer owner =>
      if owner.Dynamic then some { r with timers := owner :: r.timers.erase owner } else none
  | .removeTimer owner =>
      if owner.Dynamic then some { r with timers := r.timers.erase owner } else none
  | .tcpTimerFires =>
      -- BReactor_SetTimer unlinks the timer and inserts it again
      if .tcpTimer ∈ r.timers then
        some { r with timers := .tcpTimer :: r.timers.erase .tcpTimer }
      else
        none

/-- A run of the event loop. -/
def LoopEvent.run? (r : Reactor) : List LoopEvent → Option Reactor
  | [] =>
      some r
  | event :: rest =>
      (event.step? r).bind fun next => LoopEvent.run? next rest

/--
The ladder after `BReactor_Exec` returns, as far as `BReactor_Free`:
`BPending_Free(&lwip_init_job)`, `SocksUdpGwClient_Free` when configured,
`SinglePacketBuffer_Free` and `PacketPassInterface_Free` of the device reading
objects, and `BSignal_Finish`.
-/
def cleanupBeforeFree (udpgw : Bool) (r : Reactor) : Reactor :=
  let r := r.freeOwner .lwipInit
  let r := if udpgw then r.freeOwner .udpgw else r
  let r := r.freeOwner .deviceRead
  { r with signalFinished := true }

/-- The whole cleanup, ending in `BReactor_Free`. -/
def cleanup (udpgw : Bool) (r : Reactor) : Option Unit :=
  (cleanupBeforeFree udpgw r).free

/-! ## What stays registered -/

/-- The objects registered before the loop that the loop never frees, in `iocp_list` order. -/
def fixedOlaps : List Olap :=
  [signalOlap, sendOlap, recvOlap]

/--
The shape of the reactor throughout the event loop: `tcp_timer` is set, and
`iocp_list` is BSignal's and SockTun's objects followed by objects of the
udpgw and TCP clients, none with BSignal's handler.
-/
structure LoopShape (r : Reactor) : Prop where
  timer : .tcpTimer ∈ r.timers
  olaps : ∃ rest, r.iocpList = fixedOlaps ++ rest ∧
    ∀ olap ∈ rest, olap.owner.Dynamic ∧ olap.handler ≠ .bSignal

theorem loopShape_init (udpgw : Bool) : LoopShape (tun2socksInit udpgw) := by
  cases udpgw with
  | false =>
      exact ⟨by simp [tun2socksInit], [], by simp [tun2socksInit, fixedOlaps, Reactor.addOlap],
        fun _ member => absurd member List.not_mem_nil⟩
  | true =>
      refine ⟨by simp [tun2socksInit], [⟨.udpgw, .connector⟩], ?_, ?_⟩
      · simp [tun2socksInit, fixedOlaps, Reactor.addOlap]
      · intro olap member
        rw [List.mem_singleton.mp member]
        exact ⟨trivial, by decide⟩

/-- A loop-made object is none of the fixed ones. -/
theorem not_mem_fixedOlaps {olap : Olap} (dynamic : olap.owner.Dynamic) : olap ∉ fixedOlaps := by
  intro fixed
  simp only [fixedOlaps, List.mem_cons, List.not_mem_nil, or_false] at fixed
  rcases fixed with rfl | rfl | rfl <;> exact dynamic

/-- Every event of the loop keeps the shape. -/
theorem LoopShape.step? {r next : Reactor} (shape : LoopShape r) {event : LoopEvent}
    (step : event.step? r = some next) : LoopShape next := by
  obtain ⟨timer, rest, split, restDynamic⟩ := shape
  cases event with
  | addOlap olap =>
      simp only [LoopEvent.step?] at step
      split_ifs at step with allowed
      cases step
      refine ⟨timer, rest ++ [olap], by simp [Reactor.addOlap, split], ?_⟩
      intro other member
      rcases List.mem_append.mp member with old | new
      · exact restDynamic other old
      · rw [List.mem_singleton.mp new]
        exact allowed
  | freeOlap olap =>
      simp only [LoopEvent.step?] at step
      split_ifs at step with allowed
      cases step
      -- the freed object is a loop-made one, so it comes out of the rest
      refine ⟨timer, rest.erase olap, ?_, fun other member => restDynamic other (List.mem_of_mem_erase member)⟩
      rw [split, List.erase_append_right _ (not_mem_fixedOlaps allowed.1)]
  | setJob owner =>
      simp only [LoopEvent.step?, Option.some.injEq] at step
      subst step
      exact ⟨timer, rest, split, restDynamic⟩
  | runJob owner =>
      simp only [LoopEvent.step?] at step
      split_ifs at step
      cases step
      exact ⟨timer, rest, split, restDynamic⟩
  | setTimer owner =>
      simp only [LoopEvent.step?] at step
      split_ifs at step with dynamic
      cases step
      have other : Owner.tcpTimer ≠ owner := by
        rintro rfl
        exact dynamic
      exact ⟨List.mem_cons_of_mem _ ((List.mem_erase_of_ne other).mpr timer), rest, split, restDynamic⟩
  | removeTimer owner =>
      simp only [LoopEvent.step?] at step
      split_ifs at step with dynamic
      cases step
      have other : Owner.tcpTimer ≠ owner := by
        rintro rfl
        exact dynamic
      exact ⟨(List.mem_erase_of_ne other).mpr timer, rest, split, restDynamic⟩
  | tcpTimerFires =>
      simp only [LoopEvent.step?] at step
      split_ifs at step
      cases step
      exact ⟨List.mem_cons_self, rest, split, restDynamic⟩

/-- The shape holds after any run of the loop; the induction is on the events. -/
theorem LoopShape.run? {r final : Reactor} (shape : LoopShape r) {events : List LoopEvent}
    (ran : LoopEvent.run? r events = some final) : LoopShape final := by
  induction events generalizing r with
  | nil =>
      cases ran
      exact shape
  | cons event rest inductionHypothesis =>
      obtain ⟨next, stepped, later⟩ := Option.bind_eq_some_iff.mp ran
      exact inductionHypothesis (shape.step? stepped) later

/-- The owners the cleanup frees: `lwip_init_job`, the udpgw client when configured, device reading. -/
def FreedByCleanup (udpgw : Bool) (owner : Owner) : Prop :=
  owner = .deviceRead ∨ (udpgw = true ∧ owner = .udpgw) ∨ owner = .lwipInit

instance (udpgw : Bool) (owner : Owner) : Decidable (FreedByCleanup udpgw owner) := by
  unfold FreedByCleanup
  infer_instance

/-- The cleanup frees exactly its own owners' registrations. -/
theorem mem_cleanupBeforeFree_iocpList {udpgw : Bool} {r : Reactor} {olap : Olap} :
    olap ∈ (cleanupBeforeFree udpgw r).iocpList ↔
      olap ∈ r.iocpList ∧ ¬FreedByCleanup udpgw olap.owner := by
  cases udpgw <;>
    simp [cleanupBeforeFree, Reactor.freeOwner, FreedByCleanup]

theorem mem_cleanupBeforeFree_timers {udpgw : Bool} {r : Reactor} {owner : Owner} :
    owner ∈ (cleanupBeforeFree udpgw r).timers ↔ owner ∈ r.timers ∧ ¬FreedByCleanup udpgw owner := by
  cases udpgw <;>
    simp [cleanupBeforeFree, Reactor.freeOwner, FreedByCleanup]

/-- Freeing the registrations of an owner made in the loop or of a job keeps the shape. -/
theorem LoopShape.freeOwner {r : Reactor} (shape : LoopShape r) {owner : Owner}
    (notSignal : owner ≠ .signal) (notSockTun : owner ≠ .sockTun) (notTimer : owner ≠ .tcpTimer) :
    LoopShape (r.freeOwner owner) := by
  obtain ⟨timer, rest, split, restDynamic⟩ := shape
  have fixedKept : ∀ olap ∈ fixedOlaps, (olap.owner != owner) = true := by
    simp [fixedOlaps, signalOlap, sendOlap, recvOlap, notSignal.symm, notSockTun.symm]
  refine ⟨?_, rest.filter (·.owner != owner), ?_, ?_⟩
  · simpa [Reactor.freeOwner] using ⟨timer, notTimer.symm⟩
  · simp only [Reactor.freeOwner]
    rw [split, List.filter_append, List.filter_eq_self.mpr fixedKept]
  · intro olap member
    exact restDynamic olap (List.mem_filter.mp member).1

/-- After the cleanup the loop's shape remains. -/
theorem LoopShape.cleanupBeforeFree {r : Reactor} (shape : LoopShape r) (udpgw : Bool) :
    LoopShape (Teardown.cleanupBeforeFree udpgw r) := by
  have withoutJob : LoopShape (r.freeOwner .lwipInit) :=
    shape.freeOwner (by decide) (by decide) (by decide)
  -- the udpgw client is freed only when configured
  have withoutUdpgw : LoopShape (if udpgw then (r.freeOwner .lwipInit).freeOwner .udpgw
      else r.freeOwner .lwipInit) := by
    cases udpgw with
    | false => exact withoutJob
    | true => exact withoutJob.freeOwner (by decide) (by decide) (by decide)
  have withoutDevice : LoopShape ((if udpgw then (r.freeOwner .lwipInit).freeOwner .udpgw
      else r.freeOwner .lwipInit).freeOwner .deviceRead) :=
    withoutUdpgw.freeOwner (by decide) (by decide) (by decide)
  -- finishing BSignal changes no registration
  exact ⟨withoutDevice.timer, withoutDevice.olaps⟩

/--
`BReactor_Free` fails on a reactor of this shape: the last object of
`iocp_list` is SockTun's receive object or a loop-made one, and neither
handler accepts `BREACTOR_IOCP_EVENT_EXITING`.
-/
theorem LoopShape.free_eq_none {r : Reactor} (shape : LoopShape r) : r.free = none := by
  obtain ⟨_, rest, split, restDynamic⟩ := shape
  have lastFails : Reactor.exitOverlapped r.signalFinished r.iocpList.reverse = none := by
    rw [split, List.reverse_append]
    cases restReversed : rest.reverse with
    | nil =>
        -- nothing after SockTun: its receive handler is called first
        simp [fixedOlaps, recvOlap, Reactor.exitOverlapped]
    | cons last earlier =>
        have member : last ∈ rest := List.mem_reverse.mp (restReversed ▸ List.mem_cons_self)
        have notSignal := (restDynamic last member).2
        rw [List.cons_append, Reactor.exitOverlapped]
        split
        · exact absurd ‹last.handler = .bSignal› notSignal
        · rfl
  simp [Reactor.free, lastFails]

/--
Whatever the event loop did before `terminate()`, the cleanup leaves
`tcp_timer` in the reactor, SockTun's two overlapped objects in `iocp_list` and
every overlapped object of a TCP client registered, and `BReactor_Free` fails.
-/
theorem teardown_leaves_registrations
    (udpgw : Bool)
    {events : List LoopEvent}
    {r : Reactor}
    (ran : LoopEvent.run? (tun2socksInit udpgw) events = some r) :
    Owner.tcpTimer ∈ (cleanupBeforeFree udpgw r).timers ∧
      sendOlap ∈ (cleanupBeforeFree udpgw r).iocpList ∧
      recvOlap ∈ (cleanupBeforeFree udpgw r).iocpList ∧
      (∀ olap ∈ r.iocpList, ∀ id, olap.owner = .tcpClient id →
        olap ∈ (cleanupBeforeFree udpgw r).iocpList) ∧
      cleanup udpgw r = none := by
  have cleaned := ((loopShape_init udpgw).run? ran).cleanupBeforeFree udpgw
  obtain ⟨rest, split, _⟩ := cleaned.olaps
  refine ⟨cleaned.timer, by simp [split, fixedOlaps], by simp [split, fixedOlaps], ?_,
    cleaned.free_eq_none⟩
  -- the cleanup frees no TCP client
  intro olap member id client
  exact mem_cleanupBeforeFree_iocpList.mpr ⟨member, by simp [FreedByCleanup, client]⟩

/-- Quitting before any other event, with no udpgw server configured. -/
theorem teardown_leaves_registrations_at_once :
    Owner.tcpTimer ∈ (cleanupBeforeFree false (tun2socksInit false)).timers ∧
      sendOlap ∈ (cleanupBeforeFree false (tun2socksInit false)).iocpList ∧
      recvOlap ∈ (cleanupBeforeFree false (tun2socksInit false)).iocpList ∧
      (∀ olap ∈ (tun2socksInit false).iocpList, ∀ id, olap.owner = .tcpClient id →
        olap ∈ (cleanupBeforeFree false (tun2socksInit false)).iocpList) ∧
      cleanup false (tun2socksInit false) = none :=
  @teardown_leaves_registrations false [] _ rfl

end Teardown

end Tun2SocksWinRT
