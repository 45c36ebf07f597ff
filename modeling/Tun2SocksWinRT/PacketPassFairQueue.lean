import Mathlib
import Tun2SocksWinRT.SortedTree

namespace Tun2SocksWinRT.PacketPassFairQueue

/-!
# `PacketPassFairQueue`

`flow/PacketPassFairQueue.c` shares one packet output among flows.  Each flow
has a virtual `time`; a flow with a packet waiting is in `queued_tree`, an AVL
tree ordered by `compare_flows` (time, then address), and the output always
takes the first flow of the tree.  A flow's time grows by `packet_weight` plus
the packet length each time it is served, and a flow that starts sending is
raised to the time the queue is at (`get_current_time`), except right after
its own packet (`previous_flow`).  Times are `uint64_t`; when one would pass
`FAIRQUEUE_MAX_TIME`, `increment_sent_flow` takes the least queued time off
every flow.

Flows are named by their addresses, and the tree is its in-order list
(`SortedTree`).  Handler calls are events (`Event`); the user's busy handler
and the flows' sources are the environment, whose calls are the events again.
An `ASSERT` that fails makes a step `none`; `Event.Allowed` is what the
interfaces require of their callers.  `schedule`, `get_current_time` and
`increment_sent_flow` each assert that the first flow of the tree is queued,
which holds of every flow in the tree (`Wellformed.isQueued_of_head`).

Main facts (`scheduler_invariant` gathers them over every run):
* `Consistent`: the tree holds exactly the queued flows, in order; the sending
  flow is not queued and its time is at most every queued time.
* `Consistent.step?`, `Consistent.step?_isSome`: every event keeps it, and
  every allowed event passes all the `ASSERT`s.
* `Consistent.scheduleJobHandler_spec`: the schedule job sends the least flow.
* `Consistent.outputHandlerDone_spec`: after `increment_sent_flow` every
  queued time has dropped by one amount, and the finished flow's time is
  exactly its old time plus the packet's weight, minus that amount.
-/

/-- `FAIRQUEUE_MAX_TIME`, which is `UINT64_MAX`. -/
def fairqueueMaxTime : Nat := 2 ^ 64 - 1

/-- The fields of a `PacketPassFairQueueFlow` the scheduler reads. -/
structure Flow where
  time : Nat
  isQueued : Bool
  /-- `queued.data_len`: the length of the packet the flow has waiting. -/
  queuedLen : Nat
  deriving DecidableEq, Repr

/-- A `PacketPassFairQueue` with its flows, by address. -/
structure FairQueue where
  /-- `PacketPassInterface_GetMTU(output)`, which is also every flow's MTU. -/
  outputMtu : Nat
  packetWeight : Nat
  flows : Nat → Flow
  /-- `flows_list`: the flows initialized and not yet freed. -/
  flowsList : List Nat
  /-- `queued_tree`, in order. -/
  queuedTree : List Nat
  sendingFlow : Option Nat
  sendingLen : Nat
  previousFlow : Option Nat
  /-- `BPending_IsSet(&m->schedule_job)`. -/
  scheduleJobSet : Bool
  /-- Ghost: the packets handed to the output, by flow and length. -/
  sent : List (Nat × Nat)

/-- `compare_flows`: by time, then by address. -/
def compareFlows (flows : Nat → Flow) (f1 f2 : Nat) : Ordering :=
  (compare (flows f1).time (flows f2).time).then (compare f1 f2)

instance (flows : Nat → Flow) : Std.TransCmp (compareFlows flows) :=
  inferInstanceAs (Std.TransCmp (compareLex (compareOn fun f => (flows f).time) compare))

instance (flows : Nat → Flow) : Std.LawfulEqCmp (compareFlows flows) where
  eq_of_compare same := by
    simp only [compareFlows, Ordering.then_eq_eq, Std.compare_eq_iff_eq] at same
    exact same.2

/--
`get_current_time`: the sending flow's time, or else the least of the first
queued and the previous flow's.  `none` where `ASSERT(first_flow->is_queued)`
fails.
-/
def getCurrentTime (q : FairQueue) : Option Nat :=
  match q.sendingFlow with
  | some sending => some (q.flows sending).time
  | none =>
      let first : Option (Nat × Bool) := match q.queuedTree with
        | first :: _ => if (q.flows first).isQueued then some ((q.flows first).time, true) else none
        | [] => some (0, false)
      first.map fun first =>
        let current : Nat × Bool := match q.previousFlow with
          | some previous =>
              if !first.2 || decide ((q.flows previous).time < first.1) then ((q.flows previous).time, true)
              else first
          | none => first
        if current.2 then current.1 else 0

/--
The loop of `increment_sent_flow` over `flows_list`, taking `subtract` off
every flow's time as `uint64_t`.  `none` where `ASSERT(!someflow->is_queued)`
fails.
-/
def subtractTimes (flow subtract : Nat) (flows : Nat → Flow) : List Nat → Option (Nat → Flow)
  | [] => some flows
  | someflow :: rest =>
      -- don't subtract more time than there is, except for the just finished flow,
      -- where we allow time to underflow and then overflow to the correct value after adding to it
      if subtract > (flows someflow).time ∧ someflow ≠ flow then
        if (flows someflow).isQueued then none
        else subtractTimes flow subtract (Function.update flows someflow { flows someflow with time := 0 }) rest
      else
        subtractTimes flow subtract
          (Function.update flows someflow
            { flows someflow with time := ((flows someflow).time + 2 ^ 64 - subtract) % 2 ^ 64 }) rest

/-- `increment_sent_flow`, returning the flows.  `none` where an `ASSERT` fails. -/
def incrementSentFlow (q : FairQueue) (flow amount : Nat) : Option (Nat → Flow) :=
  if amount > fairqueueMaxTime ∨ (q.flows flow).isQueued ∨ q.sendingFlow.isSome then none
  else
    -- does time overflow?
    let subtracted :=
      if amount > fairqueueMaxTime - (q.flows flow).time then
        -- get time to subtract
        let subtract : Option Nat := match q.queuedTree with
          | [] => some (q.flows flow).time
          | first :: _ => if (q.flows first).isQueued then some (q.flows first).time else none
        subtract.bind fun subtract => subtractTimes flow subtract q.flows q.flowsList
      else some q.flows
    subtracted.map fun flows =>
      Function.update flows flow { flows flow with time := ((flows flow).time + amount) % 2 ^ 64 }

/-- `schedule`: send the first queued flow's packet.  `none` where an `ASSERT` fails. -/
def schedule (q : FairQueue) : Option FairQueue :=
  if q.sendingFlow.isSome ∨ q.previousFlow.isSome then none
  else
    match q.queuedTree with
    | [] => none
    | qflow :: rest =>
        if (q.flows qflow).isQueued then
          some { q with
            queuedTree := rest
            flows := Function.update q.flows qflow { q.flows qflow with isQueued := false }
            sendingFlow := some qflow
            sendingLen := (q.flows qflow).queuedLen
            sent := q.sent ++ [(qflow, (q.flows qflow).queuedLen)] }
        else none

/-- `schedule_job_handler`, run when the job is set; `none` where an `ASSERT` fails. -/
def scheduleJobHandler (q : FairQueue) : Option FairQueue :=
  if !q.scheduleJobSet || q.sendingFlow.isSome then none
  else
    -- remove previous flow
    let q := { q with scheduleJobSet := false, previousFlow := none }
    if q.queuedTree.isEmpty then some q else schedule q

/--
`input_handler_send` on `flow` with a packet of `dataLen` bytes.  `none` where
an `ASSERT` fails, among them the input interface's `data_len <= mtu`.
-/
def inputHandlerSend (q : FairQueue) (flow dataLen : Nat) : Option FairQueue :=
  if flow ∉ q.flowsList ∨ q.sendingFlow = some flow ∨ (q.flows flow).isQueued ∨ dataLen > q.outputMtu then none
  else
    -- remove from previous flow, or raise time
    let raised : Option (Option Nat × Nat) :=
      if q.previousFlow = some flow then some (none, (q.flows flow).time)
      else (getCurrentTime q).map fun current => (q.previousFlow, max (q.flows flow).time current)
    raised.bind fun raised =>
      let flows := Function.update q.flows flow { q.flows flow with time := raised.2, queuedLen := dataLen }
      match SortedTree.insert (compareFlows flows) flow q.queuedTree with
      | none => none
      | some tree =>
          let q := { q with
            previousFlow := raised.1
            flows := Function.update flows flow { flows flow with isQueued := true }
            queuedTree := tree }
          if q.sendingFlow.isNone && !q.scheduleJobSet then schedule q else some q

/--
`output_handler_done`: the sending flow's packet is out.  The flow's `Done`
and its busy handler are the environment's next events.
-/
def outputHandlerDone (q : FairQueue) : Option FairQueue :=
  match q.sendingFlow with
  | none => none
  | some flow =>
      if q.previousFlow.isSome ∨ q.scheduleJobSet ∨ (q.flows flow).isQueued then none
      else
        -- sending finished; remember this flow so the schedule job can remove its time if it didn't send
        let q := { q with sendingFlow := none, previousFlow := some flow }
        (incrementSentFlow q flow (q.packetWeight + q.sendingLen)).map fun flows =>
          { q with flows, scheduleJobSet := true }

/-- `PacketPassFairQueue_Init`; `none` where it fails (the MTU is too large) or an `ASSERT` fails. -/
def init (outputMtu packetWeight : Nat) : Option FairQueue :=
  if packetWeight = 0 then none
  -- make sure that (output MTU + packet_weight <= FAIRQUEUE_MAX_TIME)
  else if ¬(outputMtu ≤ fairqueueMaxTime ∧ packetWeight ≤ fairqueueMaxTime - outputMtu) then none
  else
    some
      { outputMtu, packetWeight
        flows := fun _ => { time := 0, isQueued := false, queuedLen := 0 }
        flowsList := []
        queuedTree := []
        sendingFlow := none
        sendingLen := 0
        previousFlow := none
        scheduleJobSet := false
        sent := [] }

/-- `PacketPassFairQueueFlow_Init` on a new flow object. -/
def flowInit (q : FairQueue) (flow : Nat) : Option FairQueue :=
  if flow ∈ q.flowsList then none
  else
    some { q with
      flows := Function.update q.flows flow { q.flows flow with time := 0, isQueued := false }
      flowsList := q.flowsList ++ [flow] }

/--
`PacketPassFairQueueFlow_Free`, with the queue not freeing: `none` where
`ASSERT(m->freeing || flow != m->sending_flow)` fails.
-/
def flowFree (q : FairQueue) (flow : Nat) : Option FairQueue :=
  if flow ∉ q.flowsList ∨ q.sendingFlow = some flow then none
  else
    some { q with
      sendingFlow := if q.sendingFlow = some flow then none else q.sendingFlow
      previousFlow := if q.previousFlow = some flow then none else q.previousFlow
      queuedTree := if (q.flows flow).isQueued then q.queuedTree.erase flow else q.queuedTree
      flowsList := q.flowsList.erase flow }

/-- A call into the queue: from a flow's user, from the output, or the schedule job. -/
inductive Event where
  | flowInit (flow : Nat)
  | flowFree (flow : Nat)
  | send (flow dataLen : Nat)
  | outputDone
  | scheduleJob
  deriving DecidableEq, Repr

/-- One event; `none` where an `ASSERT` fails. -/
def Event.step? (q : FairQueue) : Event → Option FairQueue
  | .flowInit flow => PacketPassFairQueue.flowInit q flow
  | .flowFree flow => PacketPassFairQueue.flowFree q flow
  | .send flow dataLen => inputHandlerSend q flow dataLen
  | .outputDone => outputHandlerDone q
  | .scheduleJob => scheduleJobHandler q

/-- A run of events. -/
def run? (q : FairQueue) : List Event → Option FairQueue
  | [] => some q
  | event :: rest => (event.step? q).bind fun next => run? next rest

/--
What the interfaces ask of the callers: a new flow object is not in use; a
freed flow is not busy; a flow sends one packet at a time, at most the MTU
long; the output reports `Done` only while sending; the job runs only when set.
-/
def Event.Allowed (q : FairQueue) : Event → Prop
  | .flowInit flow => flow ∉ q.flowsList
  | .flowFree flow => flow ∈ q.flowsList ∧ q.sendingFlow ≠ some flow
  | .send flow dataLen =>
      flow ∈ q.flowsList ∧ q.sendingFlow ≠ some flow ∧ (q.flows flow).isQueued = false ∧ dataLen ≤ q.outputMtu
  | .outputDone => q.sendingFlow.isSome
  | .scheduleJob => q.scheduleJobSet = true

/-! ## The order and the clock -/

section Order

variable {flows flows' : Nat → Flow}

/-- `compare_flows` only reads the two times, besides the addresses. -/
theorem compareFlows_congr {a b : Nat} (first : (flows' a).time = (flows a).time)
    (second : (flows' b).time = (flows b).time) : compareFlows flows' a b = compareFlows flows a b := by
  simp only [compareFlows, first, second]

/-- Taking one amount off both times keeps their comparison. -/
theorem compareFlows_of_sub {a b subtract : Nat} (first : (flows' a).time + subtract = (flows a).time)
    (second : (flows' b).time + subtract = (flows b).time) : compareFlows flows' a b = compareFlows flows a b := by
  have shifted : compare (flows' a).time (flows' b).time = compare (flows a).time (flows b).time := by
    rcases Nat.lt_trichotomy (flows' a).time (flows' b).time with lt | same | gt
    · rw [Nat.compare_eq_lt.mpr lt, Nat.compare_eq_lt.mpr (by omega)]
    · have sameOld : (flows a).time = (flows b).time := by omega
      simp [same, sameOld]
    · rw [Nat.compare_eq_gt.mpr gt, Nat.compare_eq_gt.mpr (by omega)]
  simp only [compareFlows, shifted]

theorem time_update_of_time {f g : Nat} {new : Flow} (sameTime : new.time = (flows f).time) :
    (Function.update flows f new g).time = (flows g).time := by
  rw [Function.update_apply]
  split_ifs with same
  · subst same
    exact sameTime
  · rfl

/-- Changing a flow's other fields leaves the order as it is. -/
theorem compareFlows_update_of_time {f : Nat} {new : Flow} (sameTime : new.time = (flows f).time) :
    compareFlows (Function.update flows f new) = compareFlows flows := by
  funext a b
  exact compareFlows_congr (time_update_of_time sameTime) (time_update_of_time sameTime)

/-- Changing a flow outside the tree leaves the tree in order. -/
theorem sorted_update_of_not_mem {tree : List Nat} {f : Nat} (new : Flow) (absent : f ∉ tree)
    (sorted : SortedTree.Sorted (compareFlows flows) tree) :
    SortedTree.Sorted (compareFlows (Function.update flows f new)) tree :=
  sorted.congr fun _ first _ second => compareFlows_congr
    (by rw [Function.update_of_ne (ne_of_mem_of_not_mem first absent)])
    (by rw [Function.update_of_ne (ne_of_mem_of_not_mem second absent)])

/-- The first flow of the tree has the least time. -/
theorem Sorted.head_time_le {first g : Nat} {rest : List Nat}
    (sorted : SortedTree.Sorted (compareFlows flows) (first :: rest)) (member : g ∈ first :: rest) :
    (flows first).time ≤ (flows g).time := by
  rcases List.mem_cons.mp member with rfl | later
  · exact Nat.le_refl _
  · have lt := sorted.head_lt later
    simp only [compareFlows, Ordering.then_eq_lt, Nat.compare_eq_lt, Nat.compare_eq_eq] at lt
    omega

end Order

theorem getCurrentTime_of_sending {q : FairQueue} {sending : Nat} (isSending : q.sendingFlow = some sending) :
    getCurrentTime q = some (q.flows sending).time := by
  simp [getCurrentTime, isSending]

/-! ## The invariant -/

/--
The flows and the tree: the tree holds exactly the queued flows, in the order
of `compare_flows`; the sending flow is not queued and not later than any
queued flow; every time is a `uint64_t`; every packet fits the MTU.
-/
structure Wellformed (q : FairQueue) : Prop where
  flowsNodup : q.flowsList.Nodup
  treeLive : ∀ f ∈ q.queuedTree, f ∈ q.flowsList
  queued_iff : ∀ f ∈ q.flowsList, (q.flows f).isQueued = true ↔ f ∈ q.queuedTree
  sorted : SortedTree.Sorted (compareFlows q.flows) q.queuedTree
  sendingLive : ∀ f, q.sendingFlow = some f → f ∈ q.flowsList ∧ (q.flows f).isQueued = false
  sendingLower : ∀ f, q.sendingFlow = some f → ∀ g ∈ q.queuedTree, (q.flows f).time ≤ (q.flows g).time
  timeBounded : ∀ f, (q.flows f).time ≤ fairqueueMaxTime
  queuedLenBounded : ∀ f ∈ q.queuedTree, (q.flows f).queuedLen ≤ q.outputMtu
  sendingLenBounded : q.sendingFlow.isSome → q.sendingLen ≤ q.outputMtu
  /-- What `PacketPassFairQueue_Init` checked. -/
  weightFits : 0 < q.packetWeight ∧ q.outputMtu + q.packetWeight ≤ fairqueueMaxTime

/--
What every reachable queue satisfies: `Wellformed`, and the schedule job is
set exactly around a finished packet: while sending there is no previous flow
and no job; a previous flow means the job is set; with neither a flow sending
nor the job set, nothing is queued.
-/
structure Consistent (q : FairQueue) : Prop extends Wellformed q where
  sendingIdle : q.sendingFlow.isSome → q.previousFlow = none ∧ q.scheduleJobSet = false
  previousPending : q.previousFlow.isSome → q.scheduleJobSet = true
  idleEmpty : q.sendingFlow = none → q.scheduleJobSet = false → q.queuedTree = []

section Invariant

variable {q : FairQueue}

theorem Wellformed.not_mem_tree_of_unqueued (w : Wellformed q) {f : Nat} (unqueued : (q.flows f).isQueued = false) :
    f ∉ q.queuedTree := by
  intro member
  have := (w.queued_iff f (w.treeLive f member)).mpr member
  simp [unqueued] at this

theorem Wellformed.treeNodup (w : Wellformed q) : q.queuedTree.Nodup :=
  w.sorted.nodup

/-- The first flow of the tree is queued: no `ASSERT(first_flow->is_queued)` fails. -/
theorem Wellformed.isQueued_of_head (w : Wellformed q) {first : Nat} {rest : List Nat}
    (tree : q.queuedTree = first :: rest) : (q.flows first).isQueued = true := by
  have inTree : first ∈ q.queuedTree := tree ▸ List.mem_cons_self
  exact (w.queued_iff first (w.treeLive first inTree)).mpr inTree

/-- `get_current_time` passes its `ASSERT`, and gives some flow's time or 0. -/
theorem Wellformed.getCurrentTime_cases (w : Wellformed q) :
    ∃ current, getCurrentTime q = some current ∧ (current = 0 ∨ ∃ f, current = (q.flows f).time) := by
  unfold getCurrentTime
  split
  · exact ⟨_, rfl, .inr ⟨_, rfl⟩⟩
  · -- the first queued flow's time or the previous flow's, whichever the tests pick
    cases tree : q.queuedTree with
    | nil =>
        refine ⟨_, rfl, ?_⟩
        dsimp only
        split <;> split_ifs
        all_goals first | exact .inl rfl | exact .inr ⟨_, rfl⟩
    | cons head rest =>
        dsimp only
        rw [if_pos (w.isQueued_of_head tree), Option.map_some]
        refine ⟨_, rfl, ?_⟩
        dsimp only
        split <;> split_ifs
        all_goals first | exact .inl rfl | exact .inr ⟨_, rfl⟩

/-! ### `increment_sent_flow` -/

/-- What the loop of `increment_sent_flow` leaves of one flow's time. -/
def subtractedTime (flow subtract someflow time : Nat) : Nat :=
  if subtract > time ∧ someflow ≠ flow then 0 else (time + 2 ^ 64 - subtract) % 2 ^ 64

/-- The loop passes its `ASSERT` when no queued flow is below `subtract`, and then changes only times. -/
theorem subtractTimes_spec {flow subtract : Nat} {list : List Nat} (nodup : list.Nodup) (flows : Nat → Flow)
    (unqueued : ∀ g ∈ list, subtract > (flows g).time → g ≠ flow → (flows g).isQueued = false) :
    subtractTimes flow subtract flows list =
      some fun g => if g ∈ list then { flows g with time := subtractedTime flow subtract g (flows g).time }
        else flows g := by
  induction list generalizing flows with
  | nil =>
      simp [subtractTimes]
  | cons someflow rest inductionHypothesis =>
      obtain ⟨absent, restNodup⟩ := List.nodup_cons.mp nodup
      -- the rest of the loop does not see the flow just changed
      have restUnqueued : ∀ new : Flow, ∀ g ∈ rest, subtract > (Function.update flows someflow new g).time →
          g ≠ flow → (Function.update flows someflow new g).isQueued = false := by
        intro new g member
        rw [Function.update_of_ne (ne_of_mem_of_not_mem member absent)]
        exact unqueued g (List.mem_cons_of_mem _ member)
      unfold subtractTimes
      split_ifs with clamped queued
      · exact absurd (unqueued someflow List.mem_cons_self clamped.1 clamped.2) (by simp [queued])
      · rw [inductionHypothesis restNodup _ (restUnqueued _)]
        congr 1
        funext g
        by_cases same : g = someflow
        · subst same
          simp [absent, subtractedTime, clamped]
        · simp [same]
      · rw [inductionHypothesis restNodup _ (restUnqueued _)]
        congr 1
        funext g
        by_cases same : g = someflow
        · subst same
          simp [absent, subtractedTime, clamped]
        · simp [same]

/--
What `increment_sent_flow` does when its `ASSERT`s pass: only times change,
every queued time drops by `subtract`, and the finished flow ends at its old
time plus `amount`, minus `subtract`; every time is still a `uint64_t`.
-/
structure Incremented (flows : Nat → Flow) (queuedTree : List Nat) (flow amount subtract : Nat)
    (flows' : Nat → Flow) : Prop where
  isQueued_eq : ∀ g, (flows' g).isQueued = (flows g).isQueued
  queuedLen_eq : ∀ g, (flows' g).queuedLen = (flows g).queuedLen
  timeBounded : ∀ g, (flows' g).time ≤ fairqueueMaxTime
  queuedDrop : ∀ g ∈ queuedTree, (flows' g).time + subtract = (flows g).time
  flowTime : (flows' flow).time + subtract = (flows flow).time + amount

/-- The overflow branch, for an amount to subtract that no queued time is below. -/
theorem Wellformed.subtractTimes_add (w : Wellformed q) {flow amount subtract : Nat} (live : flow ∈ q.flowsList)
    (unqueued : (q.flows flow).isQueued = false) (small : amount ≤ fairqueueMaxTime)
    (bounded : subtract ≤ fairqueueMaxTime) (below : ∀ g ∈ q.queuedTree, subtract ≤ (q.flows g).time)
    (above : (q.flows flow).time ≤ subtract) (net : subtract ≤ (q.flows flow).time + amount) :
    ∃ flows', (subtractTimes flow subtract q.flows q.flowsList).map (fun flows =>
        Function.update flows flow { flows flow with time := ((flows flow).time + amount) % 2 ^ 64 }) = some flows' ∧
      Incremented q.flows q.queuedTree flow amount subtract flows' := by
  have unqueuedBelow : ∀ g ∈ q.flowsList, subtract > (q.flows g).time → g ≠ flow → (q.flows g).isQueued = false := by
    intro g member lt _
    cases queued : (q.flows g).isQueued
    · rfl
    · exact absurd (below g ((w.queued_iff g member).mp queued)) (by omega)
  have flowBounded := w.timeBounded flow
  rw [subtractTimes_spec w.flowsNodup _ unqueuedBelow, Option.map_some]
  refine ⟨_, rfl, ⟨fun g => ?_, fun g => ?_, fun g => ?_, fun g member => ?_, ?_⟩⟩
  · by_cases same : g = flow
    · subst same
      simp [live]
    · by_cases inList : g ∈ q.flowsList <;> simp [same, inList]
  · by_cases same : g = flow
    · subst same
      simp [live]
    · by_cases inList : g ∈ q.flowsList <;> simp [same, inList]
  · by_cases same : g = flow
    · subst same
      simp only [Function.update_self, fairqueueMaxTime]
      omega
    · by_cases inList : g ∈ q.flowsList
      · simp only [Function.update_of_ne same, inList, if_true, subtractedTime, fairqueueMaxTime]
        split_ifs <;> omega
      · simpa [same, inList] using w.timeBounded g
  · -- a queued flow is not clamped: it loses exactly `subtract`
    have different : g ≠ flow := ne_of_mem_of_not_mem member (w.not_mem_tree_of_unqueued unqueued)
    have gBounded := w.timeBounded g
    have atLeast := below g member
    simp only [Function.update_of_ne different, w.treeLive g member, if_true, subtractedTime, fairqueueMaxTime] at gBounded ⊢
    split_ifs <;> omega
  · -- the finished flow underflows and overflows back to its exact new time
    simp only [Function.update_self, live, if_true, subtractedTime, ne_eq, not_true_eq_false, and_false,
      if_false, fairqueueMaxTime] at flowBounded small bounded ⊢
    omega

/--
`increment_sent_flow` on a finished flow that was not later than any queued
flow passes its `ASSERT`s and does what `Incremented` says.
-/
theorem Wellformed.incrementSentFlow_spec (w : Wellformed q) {flow amount : Nat} (idle : q.sendingFlow = none)
    (live : flow ∈ q.flowsList) (unqueued : (q.flows flow).isQueued = false) (small : amount ≤ fairqueueMaxTime)
    (lower : ∀ g ∈ q.queuedTree, (q.flows flow).time ≤ (q.flows g).time) :
    ∃ flows' subtract, incrementSentFlow q flow amount = some flows' ∧
      Incremented q.flows q.queuedTree flow amount subtract flows' := by
  have asserts : ¬(amount > fairqueueMaxTime ∨ (q.flows flow).isQueued = true ∨ q.sendingFlow.isSome = true) := by
    simp only [unqueued, idle, Option.isSome_none, Bool.false_eq_true, or_false]
    omega
  have flowBounded := w.timeBounded flow
  unfold incrementSentFlow
  rw [if_neg asserts]
  dsimp only
  split_ifs with overflow
  · -- the least queued time comes off, or the flow's own time when nothing is queued
    cases tree : q.queuedTree with
    | nil =>
        obtain ⟨flows', result, incremented⟩ := w.subtractTimes_add live unqueued small flowBounded
          (by simp [tree]) (Nat.le_refl _) (by omega)
        exact ⟨flows', _, result, tree ▸ incremented⟩
    | cons first rest =>
        have inTree : first ∈ q.queuedTree := tree ▸ List.mem_cons_self
        have sorted := tree ▸ w.sorted
        have firstBounded := w.timeBounded first
        have net : (q.flows first).time ≤ (q.flows flow).time + amount := by
          simp only [fairqueueMaxTime] at overflow flowBounded firstBounded
          omega
        obtain ⟨flows', result, incremented⟩ := w.subtractTimes_add live unqueued small firstBounded
          (fun g member => Sorted.head_time_le sorted (tree ▸ member)) (lower first inTree) net
        refine ⟨flows', _, ?_, tree ▸ incremented⟩
        -- the first queued flow passes `ASSERT(first_flow->is_queued)`
        dsimp only
        rw [if_pos (w.isQueued_of_head tree), Option.bind_some]
        exact result
  · -- no overflow: only the flow's time changes, by the whole amount
    refine ⟨_, 0, rfl, ⟨fun g => ?_, fun g => ?_, fun g => ?_, fun g member => ?_, ?_⟩⟩
    · by_cases same : g = flow
      · subst same
        simp
      · simp [same]
    · by_cases same : g = flow
      · subst same
        simp
      · simp [same]
    · by_cases same : g = flow
      · subst same
        simp only [Function.update_self, fairqueueMaxTime]
        omega
      · simpa [same] using w.timeBounded g
    · have different : g ≠ flow := ne_of_mem_of_not_mem member (w.not_mem_tree_of_unqueued unqueued)
      simp [different]
    · simp only [Function.update_self, fairqueueMaxTime] at overflow flowBounded ⊢
      omega

/-! ### `schedule` -/

/-- With nothing sending and no previous flow, `schedule` sends the first queued flow. -/
theorem schedule_eq {qflow : Nat} {rest : List Nat} (idle : q.sendingFlow = none) (noPrevious : q.previousFlow = none)
    (tree : q.queuedTree = qflow :: rest) (queued : (q.flows qflow).isQueued = true) :
    schedule q = some { q with
      queuedTree := rest
      flows := Function.update q.flows qflow { q.flows qflow with isQueued := false }
      sendingFlow := some qflow
      sendingLen := (q.flows qflow).queuedLen
      sent := q.sent ++ [(qflow, (q.flows qflow).queuedLen)] } := by
  simp [schedule, idle, noPrevious, tree, queued]

/-- The flow `schedule` takes out of the tree is a well-formed sending flow. -/
theorem Wellformed.schedule (w : Wellformed q) {qflow : Nat} {rest : List Nat} (tree : q.queuedTree = qflow :: rest) :
    Wellformed { q with
      queuedTree := rest
      flows := Function.update q.flows qflow { q.flows qflow with isQueued := false }
      sendingFlow := some qflow
      sendingLen := (q.flows qflow).queuedLen
      sent := q.sent ++ [(qflow, (q.flows qflow).queuedLen)] } := by
  have sorted := tree ▸ w.sorted
  have first : qflow ∈ q.queuedTree := tree ▸ List.mem_cons_self
  have later : ∀ g ∈ rest, g ∈ q.queuedTree := fun g member => tree ▸ List.mem_cons_of_mem qflow member
  have notLater : qflow ∉ rest := (List.nodup_cons.mp (tree ▸ w.treeNodup)).1
  have sameTime : ∀ g, (Function.update q.flows qflow { q.flows qflow with isQueued := false } g).time =
      (q.flows g).time := fun g => time_update_of_time rfl
  refine ⟨w.flowsNodup, fun g member => w.treeLive g (later g member), fun g live => ?_, ?_,
    fun g sending => ?_, fun g sending h member => ?_, fun g => (sameTime g).trans_le (w.timeBounded g),
    fun g member => ?_, fun _ => w.queuedLenBounded qflow first, w.weightFits⟩
  · by_cases same : g = qflow
    · subst same
      simp [notLater]
    · simp only [Function.update_of_ne same]
      rw [w.queued_iff g live, tree, List.mem_cons, or_iff_right same]
  · exact sorted.tail.congr fun a _ b _ => compareFlows_congr (sameTime a) (sameTime b)
  · cases sending
    exact ⟨w.treeLive qflow first, by simp⟩
  · cases sending
    rw [sameTime, sameTime]
    exact Sorted.head_time_le sorted (List.mem_cons_of_mem qflow member)
  · have different : g ≠ qflow := ne_of_mem_of_not_mem member notLater
    simpa [Function.update_of_ne different] using w.queuedLenBounded g (later g member)

/-- The scheduling fields do not enter `Wellformed`. -/
theorem Wellformed.withScheduling (w : Wellformed q) (previous : Option Nat) (jobSet : Bool) :
    Wellformed { q with previousFlow := previous, scheduleJobSet := jobSet } :=
  ⟨w.flowsNodup, w.treeLive, w.queued_iff, w.sorted, w.sendingLive, w.sendingLower, w.timeBounded,
    w.queuedLenBounded, w.sendingLenBounded, w.weightFits⟩

/-- Nothing sending is always well formed on the sending side. -/
theorem Wellformed.stopSending (w : Wellformed q) (previous : Option Nat) :
    Wellformed { q with sendingFlow := none, previousFlow := previous } :=
  ⟨w.flowsNodup, w.treeLive, w.queued_iff, w.sorted, (fun _ stopped => nomatch stopped),
    (fun _ stopped => nomatch stopped), w.timeBounded, w.queuedLenBounded, (fun stopped => nomatch stopped),
    w.weightFits⟩

/-! ### The events -/

theorem Consistent.idle_of_set (c : Consistent q) (set : q.scheduleJobSet = true) : q.sendingFlow = none := by
  cases sending : q.sendingFlow
  · rfl
  · have := (c.sendingIdle (by simp [sending])).2
    simp [set] at this

/-- The end of `input_handler_send`: a queue with a flow just queued schedules it if nothing else will. -/
theorem Consistent.afterQueue {queued : FairQueue} {idleNow : Bool} (w : Wellformed queued)
    (sendingIdle : queued.sendingFlow.isSome → queued.previousFlow = none ∧ queued.scheduleJobSet = false)
    (previousPending : queued.previousFlow.isSome → queued.scheduleJobSet = true) (nonempty : queued.queuedTree ≠ [])
    (isIdle : idleNow = (queued.sendingFlow.isNone && !queued.scheduleJobSet)) :
    ∃ q', (if idleNow then schedule queued else some queued) = some q' ∧ Consistent q' := by
  subst isIdle
  split_ifs with idle
  · -- nothing sending and no job: the new flow is sent at once
    simp only [Bool.and_eq_true, Option.isNone_iff_eq_none, Bool.not_eq_eq_eq_not, Bool.not_true] at idle
    have noPrevious : queued.previousFlow = none := by
      cases previous : queued.previousFlow
      · rfl
      · have := previousPending (by simp [previous])
        simp [idle.2] at this
    obtain ⟨qflow, rest, tree⟩ := List.exists_cons_of_ne_nil nonempty
    refine ⟨_, schedule_eq idle.1 noPrevious tree (w.isQueued_of_head tree), w.schedule tree,
      fun _ => ⟨noPrevious, idle.2⟩, ?_,
      fun stopped => nomatch stopped⟩
    simp [noPrevious]
  · refine ⟨queued, rfl, w, sendingIdle, previousPending, fun stopped notSet => ?_⟩
    simp [stopped, notSet] at idle

/--
The first part of `input_handler_send`: the flow leaves `previous_flow`, or its
time is raised to `get_current_time`, which passes its `ASSERT`.  The new time
is a `uint64_t` and not below the sending flow's.
-/
theorem Consistent.raise_spec (c : Consistent q) (flow : Nat) :
    ∃ previousFlow time,
      (if q.previousFlow = some flow then some ((none : Option Nat), (q.flows flow).time)
        else (getCurrentTime q).map fun current => (q.previousFlow, max (q.flows flow).time current)) =
          some (previousFlow, time) ∧
      (previousFlow = none ∨ previousFlow = q.previousFlow) ∧ time ≤ fairqueueMaxTime ∧
      ∀ s, q.sendingFlow = some s → (q.flows s).time ≤ time := by
  split_ifs with wasPrevious
  · refine ⟨none, _, rfl, .inl rfl, c.timeBounded flow, fun s sending => ?_⟩
    -- a flow sending means there is no previous flow
    have := (c.sendingIdle (by simp [sending])).1
    simp [this] at wasPrevious
  · obtain ⟨current, got, currentCases⟩ := c.getCurrentTime_cases
    rw [got, Option.map_some]
    refine ⟨_, _, rfl, .inr rfl, max_le (c.timeBounded flow) ?_, fun s sending => ?_⟩
    · rcases currentCases with zero | ⟨f, rfl⟩
      · simp [zero]
      · exact c.timeBounded f
    · rw [getCurrentTime_of_sending sending, Option.some.injEq] at got
      rw [← got]
      exact le_max_right _ _

/-- An allowed `input_handler_send` passes its `ASSERT`s and keeps the invariant. -/
theorem Consistent.inputHandlerSend_spec (c : Consistent q) {flow dataLen : Nat} (live : flow ∈ q.flowsList)
    (notSending : q.sendingFlow ≠ some flow) (unqueued : (q.flows flow).isQueued = false)
    (fits : dataLen ≤ q.outputMtu) :
    ∃ q', inputHandlerSend q flow dataLen = some q' ∧ Consistent q' := by
  have asserts : ¬(flow ∉ q.flowsList ∨ q.sendingFlow = some flow ∨ (q.flows flow).isQueued = true ∨
      dataLen > q.outputMtu) := by
    simp only [live, notSending, unqueued, not_true_eq_false, Bool.false_eq_true, false_or]
    omega
  unfold inputHandlerSend
  rw [if_neg asserts]
  dsimp only
  obtain ⟨previousFlow, time, picked, previousOk, bounded, raised⟩ := c.raise_spec flow
  rw [picked, Option.bind_some]
  dsimp only
  have absent : flow ∉ q.queuedTree := c.not_mem_tree_of_unqueued unqueued
  obtain ⟨inserted, insertion, sorted, permuted⟩ := SortedTree.insert_spec
    (sorted_update_of_not_mem { q.flows flow with time, queuedLen := dataLen } absent c.sorted) absent
  rw [insertion]
  dsimp only
  have notFlow : ∀ s, q.sendingFlow = some s → s ≠ flow := fun s sending same => notSending (same ▸ sending)
  have inserted_iff : ∀ g, g ∈ inserted ↔ g = flow ∨ g ∈ q.queuedTree := fun g => by
    rw [permuted.mem_iff, List.mem_cons]
  refine Consistent.afterQueue ⟨c.flowsNodup, fun g member => ?_, fun g member => ?_, ?_, fun s sending => ?_,
    fun s sending g member => ?_, fun g => ?_, fun g member => ?_, c.sendingLenBounded, c.weightFits⟩
    (fun sending => ?_) (fun previous => ?_) (fun empty => ?_) rfl
  · rcases (inserted_iff g).mp member with rfl | old
    · exact live
    · exact c.treeLive g old
  · by_cases same : g = flow
    · subst same
      simp [inserted_iff]
    · simp only [Function.update_of_ne same, inserted_iff, same, false_or]
      exact c.queued_iff g member
  · -- setting the flag keeps the times the tree was sorted by
    exact sorted.congr fun a _ b _ => compareFlows_congr (time_update_of_time rfl) (time_update_of_time rfl)
  · simp only [Function.update_of_ne (notFlow s sending)]
    exact c.sendingLive s sending
  · -- the new time is at least the sending flow's, as `get_current_time` reads it
    have different := notFlow s sending
    by_cases same : g = flow
    · subst same
      simpa [different] using raised s sending
    · simpa [different, same] using c.sendingLower s sending g (((inserted_iff g).mp member).resolve_left same)
  · by_cases same : g = flow
    · subst same
      simpa using bounded
    · simpa [same] using c.timeBounded g
  · by_cases same : g = flow
    · subst same
      simpa using fits
    · simpa [Function.update_of_ne same] using c.queuedLenBounded g (((inserted_iff g).mp member).resolve_left same)
  · have idle := c.sendingIdle sending
    rcases previousOk with none | old
    · exact ⟨none, idle.2⟩
    · exact ⟨old.trans idle.1, idle.2⟩
  · rcases previousOk with none | old
    · simp [none] at previous
    · exact c.previousPending (old ▸ previous)
  · have none : inserted = [] := empty
    rw [none] at permuted
    exact List.cons_ne_nil _ _ (List.perm_nil.mp permuted.symm)

/--
`output_handler_done` on a reachable queue: it passes its `ASSERT`s, makes the
sending flow the previous one, sets the job, and moves the times as
`Incremented` says.
-/
theorem Consistent.outputHandlerDone_spec (c : Consistent q) {flow : Nat} (sending : q.sendingFlow = some flow) :
    ∃ flows' subtract,
      outputHandlerDone q =
        some { q with sendingFlow := none, previousFlow := some flow, flows := flows', scheduleJobSet := true } ∧
      Incremented q.flows q.queuedTree flow (q.packetWeight + q.sendingLen) subtract flows' := by
  obtain ⟨live, unqueued⟩ := c.sendingLive flow sending
  obtain ⟨noPrevious, notSet⟩ := c.sendingIdle (by simp [sending])
  have small : q.packetWeight + q.sendingLen ≤ fairqueueMaxTime := by
    have := c.sendingLenBounded (by simp [sending])
    have := c.weightFits
    omega
  obtain ⟨flows', subtract, incremented, facts⟩ := (c.stopSending (some flow)).incrementSentFlow_spec rfl live
    unqueued small (c.sendingLower flow sending)
  refine ⟨flows', subtract, ?_, facts⟩
  unfold outputHandlerDone
  rw [sending]
  dsimp only
  rw [if_neg (by simp [noPrevious, notSet, unqueued]), incremented, Option.map_some]

/-- After `output_handler_done` the queue is consistent again, with the tree in the order of the new times. -/
theorem Consistent.outputHandlerDone {q' : FairQueue} {flow subtract : Nat} {flows' : Nat → Flow}
    (c : Consistent q) (incremented : Incremented q.flows q.queuedTree flow (q.packetWeight + q.sendingLen) subtract flows')
    (result : q' = { q with sendingFlow := none, previousFlow := some flow, flows := flows', scheduleJobSet := true }) :
    Consistent q' := by
  subst result
  refine ⟨⟨c.flowsNodup, c.treeLive, fun g member => ?_, ?_, (fun _ stopped => nomatch stopped),
    (fun _ stopped => nomatch stopped), incremented.timeBounded, fun g member => ?_, (fun stopped => nomatch stopped),
    c.weightFits⟩, (fun stopped => nomatch stopped), (fun _ => rfl), (fun _ notSet => nomatch notSet)⟩
  · rw [incremented.isQueued_eq]
    exact c.queued_iff g member
  · -- every queued time dropped by the same amount, so the order stands
    exact c.sorted.congr fun a first b second =>
      compareFlows_of_sub (incremented.queuedDrop a first) (incremented.queuedDrop b second)
  · rw [incremented.queuedLen_eq]
    exact c.queuedLenBounded g member

/--
`schedule_job_handler` on a reachable queue with the job set: it clears the
previous flow and, if a flow is queued, sends the first one.
-/
theorem Consistent.scheduleJobHandler_spec (c : Consistent q) (set : q.scheduleJobSet = true) :
    ∃ q', scheduleJobHandler q = some q' ∧ Consistent q' ∧
      (q.queuedTree = [] → q'.sendingFlow = none ∧ q'.sent = q.sent) ∧
      ∀ qflow rest, q.queuedTree = qflow :: rest →
        q'.sendingFlow = some qflow ∧ q'.sent = q.sent ++ [(qflow, (q.flows qflow).queuedLen)] ∧
          q'.queuedTree = rest := by
  have idle := c.idle_of_set set
  have cleared := c.withScheduling none false
  unfold scheduleJobHandler
  rw [if_neg (by simp [set, idle])]
  dsimp only
  by_cases empty : q.queuedTree = []
  · rw [if_pos (by simp [empty])]
    refine ⟨_, rfl, ⟨cleared, fun _ => ⟨rfl, rfl⟩, (fun noPrevious => nomatch noPrevious), fun _ _ => empty⟩,
      fun _ => ⟨idle, rfl⟩, fun qflow rest tree => ?_⟩
    simp [empty] at tree
  · obtain ⟨qflow, rest, tree⟩ := List.exists_cons_of_ne_nil empty
    rw [if_neg (by simp [tree])]
    refine ⟨_, schedule_eq idle rfl tree (c.isQueued_of_head tree), ⟨cleared.schedule tree, fun _ => ⟨rfl, rfl⟩,
      (fun noPrevious => nomatch noPrevious), (fun stopped => nomatch stopped)⟩, fun nil => absurd nil empty,
      fun first later same => ?_⟩
    obtain ⟨rfl, rfl⟩ := List.cons.inj (tree.symm.trans same)
    exact ⟨rfl, rfl, rfl⟩

theorem Consistent.flowInit (c : Consistent q) {flow : Nat} (fresh : flow ∉ q.flowsList) :
    ∃ q', PacketPassFairQueue.flowInit q flow = some q' ∧ Consistent q' := by
  have absent : flow ∉ q.queuedTree := fun member => fresh (c.treeLive flow member)
  have notFlow : ∀ g ∈ q.queuedTree, g ≠ flow := fun g member => ne_of_mem_of_not_mem member absent
  refine ⟨_, if_neg fresh, ⟨List.Nodup.append c.flowsNodup (List.nodup_singleton flow) (by simpa using fresh),
    fun g member => List.mem_append_left _ (c.treeLive g member), fun g member => ?_,
    sorted_update_of_not_mem _ absent c.sorted, fun s sending => ?_, fun s sending g member => ?_, fun g => ?_,
    fun g member => ?_, c.sendingLenBounded, c.weightFits⟩, c.sendingIdle, c.previousPending, c.idleEmpty⟩
  · by_cases same : g = flow
    · subst same
      simp [absent]
    · simp only [Function.update_of_ne same]
      exact c.queued_iff g ((List.mem_append.mp member).resolve_right (by simpa using same))
  · have live := (c.sendingLive s sending).1
    have different : s ≠ flow := ne_of_mem_of_not_mem live fresh
    simpa [Function.update_of_ne different, live] using (c.sendingLive s sending).2
  · have different : s ≠ flow := ne_of_mem_of_not_mem (c.sendingLive s sending).1 fresh
    simpa [Function.update_of_ne different, Function.update_of_ne (notFlow g member)] using
      c.sendingLower s sending g member
  · by_cases same : g = flow
    · subst same
      simp
    · simpa [Function.update_of_ne same] using c.timeBounded g
  · simpa [Function.update_of_ne (notFlow g member)] using c.queuedLenBounded g member

/-- The tree after `PacketPassFairQueueFlow_Free`: the flow taken out if it was queued. -/
theorem Wellformed.mem_freedTree (w : Wellformed q) (flow g : Nat) :
    g ∈ (if (q.flows flow).isQueued then q.queuedTree.erase flow else q.queuedTree) ↔ g ∈ q.queuedTree ∧ g ≠ flow := by
  split_ifs with queued
  · exact w.treeNodup.mem_erase_iff.trans and_comm
  · have absent := w.not_mem_tree_of_unqueued (by simpa using queued)
    exact ⟨fun member => ⟨member, ne_of_mem_of_not_mem member absent⟩, And.left⟩

theorem Consistent.flowFree (c : Consistent q) {flow : Nat} (live : flow ∈ q.flowsList)
    (notSending : q.sendingFlow ≠ some flow) :
    ∃ q', PacketPassFairQueue.flowFree q flow = some q' ∧ Consistent q' := by
  have freed := c.mem_freedTree flow
  have remaining : ∀ g, g ∈ q.flowsList.erase flow ↔ g ≠ flow ∧ g ∈ q.flowsList := fun g =>
    c.flowsNodup.mem_erase_iff
  have asserts : ¬(flow ∉ q.flowsList ∨ q.sendingFlow = some flow) := by
    simp [live, notSending]
  refine ⟨_, if_neg asserts, ⟨c.flowsNodup.erase flow, fun g member => ?_, fun g member => ?_, ?_,
    fun s sending => ?_, fun s sending g member => ?_, c.timeBounded, fun g member => ?_, fun sending => ?_,
    c.weightFits⟩, fun sending => ?_, fun previous => ?_, fun stopped notSet => ?_⟩
  · obtain ⟨inTree, different⟩ := (freed g).mp member
    exact (remaining g).mpr ⟨different, c.treeLive g inTree⟩
  · obtain ⟨different, inList⟩ := (remaining g).mp member
    rw [freed, c.queued_iff g inList]
    exact ⟨fun inTree => ⟨inTree, different⟩, And.left⟩
  · -- the tree loses at most the freed flow
    show SortedTree.Sorted (compareFlows q.flows)
      (if (q.flows flow).isQueued then q.queuedTree.erase flow else q.queuedTree)
    split_ifs
    · exact c.sorted.erase flow
    · exact c.sorted
  all_goals simp only [if_neg notSending] at *
  · exact ⟨(remaining s).mpr ⟨fun same => notSending (same ▸ sending), (c.sendingLive s sending).1⟩,
      (c.sendingLive s sending).2⟩
  · exact c.sendingLower s sending g ((freed g).mp member).1
  · exact c.queuedLenBounded g ((freed g).mp member).1
  · exact c.sendingLenBounded sending
  · have idle := c.sendingIdle sending
    split_ifs
    · exact ⟨rfl, idle.2⟩
    · exact idle
  · split_ifs at previous
    · simp at previous
    · exact c.previousPending previous
  · have empty := c.idleEmpty stopped notSet
    split_ifs
    · simp [empty]
    · exact empty

/-! ### Every event and every run -/

/-- A step that succeeds was allowed: the callers' side of the `ASSERT`s held. -/
theorem Event.allowed_of_step? {q' : FairQueue} {event : Event} (stepped : event.step? q = some q') :
    event.Allowed q := by
  cases event with
  | flowInit flow =>
      by_cases used : flow ∈ q.flowsList
      · simp [Event.step?, PacketPassFairQueue.flowInit, used] at stepped
      · exact used
  | flowFree flow =>
      by_cases failed : flow ∉ q.flowsList ∨ q.sendingFlow = some flow
      · simp [Event.step?, PacketPassFairQueue.flowFree, failed] at stepped
      · simp only [not_or, not_not] at failed
        exact failed
  | send flow dataLen =>
      by_cases failed : flow ∉ q.flowsList ∨ q.sendingFlow = some flow ∨ (q.flows flow).isQueued ∨
          dataLen > q.outputMtu
      · simp only [Event.step?, inputHandlerSend, if_pos failed, reduceCtorEq] at stepped
      · simp only [not_or, not_not, Bool.not_eq_true, not_lt] at failed
        exact failed
  | outputDone =>
      cases sending : q.sendingFlow
      · simp [Event.step?, outputHandlerDone, sending] at stepped
      · simp [Event.Allowed, sending]
  | scheduleJob =>
      cases set : q.scheduleJobSet
      · simp [Event.step?, scheduleJobHandler, set] at stepped
      · exact set

/-- Every allowed event passes every `ASSERT` and keeps the invariant. -/
theorem Consistent.step?_spec (c : Consistent q) {event : Event} (allowed : event.Allowed q) :
    ∃ q', event.step? q = some q' ∧ Consistent q' := by
  cases event with
  | flowInit flow =>
      exact c.flowInit allowed
  | flowFree flow =>
      exact c.flowFree allowed.1 allowed.2
  | send flow dataLen =>
      exact c.inputHandlerSend_spec allowed.1 allowed.2.1 allowed.2.2.1 allowed.2.2.2
  | outputDone =>
      obtain ⟨flow, sending⟩ := Option.isSome_iff_exists.mp allowed
      obtain ⟨flows', subtract, done, incremented⟩ := c.outputHandlerDone_spec sending
      exact ⟨_, done, c.outputHandlerDone incremented rfl⟩
  | scheduleJob =>
      obtain ⟨q', ran, consistent, _⟩ := c.scheduleJobHandler_spec allowed
      exact ⟨q', ran, consistent⟩

theorem Consistent.step? {q' : FairQueue} (c : Consistent q) {event : Event} (stepped : event.step? q = some q') :
    Consistent q' := by
  obtain ⟨q'', stepped', consistent⟩ := c.step?_spec (Event.allowed_of_step? stepped)
  rw [stepped, Option.some.injEq] at stepped'
  exact stepped' ▸ consistent

/-- No call within the interfaces' contracts fails an `ASSERT`. -/
theorem Consistent.step?_isSome (c : Consistent q) {event : Event} (allowed : event.Allowed q) :
    (event.step? q).isSome := by
  obtain ⟨q', stepped, _⟩ := c.step?_spec allowed
  simp [stepped]

theorem Consistent.run? {q' : FairQueue} (c : Consistent q) {events : List Event}
    (ran : PacketPassFairQueue.run? q events = some q') : Consistent q' := by
  induction events generalizing q with
  | nil =>
      cases ran
      exact c
  | cons event rest inductionHypothesis =>
      obtain ⟨next, stepped, ran⟩ := Option.bind_eq_some_iff.mp ran
      exact inductionHypothesis (c.step? stepped) ran

theorem consistent_init {outputMtu packetWeight : Nat} (initialized : init outputMtu packetWeight = some q) :
    Consistent q := by
  unfold init at initialized
  split_ifs at initialized with zero fits
  cases initialized
  refine ⟨⟨List.nodup_nil, (fun _ member => nomatch member), (fun _ member => nomatch member),
    SortedTree.sorted_nil, (fun _ stopped => nomatch stopped), (fun _ stopped => nomatch stopped),
    (fun _ => Nat.zero_le _), (fun _ member => nomatch member), (fun stopped => nomatch stopped),
    ⟨Nat.pos_of_ne_zero zero, ?_⟩⟩, (fun stopped => nomatch stopped), (fun noPrevious => nomatch noPrevious),
    fun _ _ => rfl⟩
  show outputMtu + packetWeight ≤ fairqueueMaxTime
  omega

end Invariant

/-! ## The scheduler over every run -/

/--
The scheduling invariant of `PacketPassFairQueue` over every run from a queue
`PacketPassFairQueue_Init` accepted: the tree holds exactly the queued flows,
ordered by `compare_flows`; the (single) sending flow is not queued; the
schedule job sends the least queued flow; `output_handler_done` takes one
amount off every queued time, so the tree needs no reinsertion, and leaves the
finished flow at exactly its old time plus the packet's weight, minus that
amount, within `FAIRQUEUE_MAX_TIME`; and no call within the interfaces'
contracts fails an `ASSERT`.
-/
theorem scheduler_invariant {outputMtu packetWeight : Nat} {q0 q : FairQueue} {events : List Event}
    (initialized : init outputMtu packetWeight = some q0) (ran : run? q0 events = some q) :
    (∀ f ∈ q.flowsList, (q.flows f).isQueued = true ↔ f ∈ q.queuedTree) ∧
    (∀ f ∈ q.queuedTree, f ∈ q.flowsList) ∧
    SortedTree.Sorted (compareFlows q.flows) q.queuedTree ∧
    (∀ f, q.sendingFlow = some f → (q.flows f).isQueued = false ∧ f ∉ q.queuedTree) ∧
    (∀ q', scheduleJobHandler q = some q' → q.queuedTree ≠ [] →
      ∃ f, q'.sendingFlow = some f ∧ q'.sent = q.sent ++ [(f, (q.flows f).queuedLen)] ∧ f ∈ q.queuedTree ∧
        ∀ g ∈ q.queuedTree, g ≠ f → compareFlows q.flows f g = .lt) ∧
    (∀ q' f, outputHandlerDone q = some q' → q.sendingFlow = some f →
      ∃ subtract, (∀ g ∈ q.queuedTree, (q'.flows g).time + subtract = (q.flows g).time) ∧
        (q'.flows f).time + subtract = (q.flows f).time + (q.packetWeight + q.sendingLen) ∧
        (q'.flows f).time ≤ fairqueueMaxTime ∧ q'.queuedTree = q.queuedTree ∧
        SortedTree.Sorted (compareFlows q'.flows) q'.queuedTree) ∧
    (∀ event : Event, event.Allowed q → (event.step? q).isSome) := by
  have c := (consistent_init initialized).run? ran
  refine ⟨c.queued_iff, c.treeLive, c.sorted, fun f sending => ?_, fun q' scheduled nonempty => ?_,
    fun q' f done sending => ?_, fun _ allowed => c.step?_isSome allowed⟩
  · have unqueued := (c.sendingLive f sending).2
    exact ⟨unqueued, c.not_mem_tree_of_unqueued unqueued⟩
  · -- the job was set, so it sends the first flow of the tree, the least one
    have set : q.scheduleJobSet = true := Event.allowed_of_step? (show Event.scheduleJob.step? q = some q' from scheduled)
    obtain ⟨qflow, rest, tree⟩ := List.exists_cons_of_ne_nil nonempty
    obtain ⟨q'', scheduled', _, _, first⟩ := c.scheduleJobHandler_spec set
    rw [scheduled, Option.some.injEq] at scheduled'
    subst scheduled'
    obtain ⟨sendingFirst, sentFirst, _⟩ := first qflow rest tree
    refine ⟨qflow, sendingFirst, sentFirst, tree ▸ List.mem_cons_self, fun g member different => ?_⟩
    rw [tree] at member
    exact (tree ▸ c.sorted).head_lt ((List.mem_cons.mp member).resolve_left different)
  · obtain ⟨flows', subtract, done', incremented⟩ := c.outputHandlerDone_spec sending
    rw [done, Option.some.injEq] at done'
    have consistent := c.outputHandlerDone incremented done'
    subst done'
    exact ⟨subtract, incremented.queuedDrop, incremented.flowTime, incremented.timeBounded f, rfl, consistent.sorted⟩

/-- Two flows queued behind each other, both served: each step passes and the tree stays in order. -/
theorem scheduler_invariant_two_flows :
    ∃ q0 q, init 1500 1 = some q0 ∧
      run? q0 [.flowInit 1, .flowInit 2, .send 1 100, .send 2 50, .outputDone, .scheduleJob] = some q ∧
      q.sent = [(1, 100), (2, 50)] ∧ (Event.outputDone.step? q).isSome := by
  have initialized : init 1500 1 = some ((init 1500 1).get rfl) := (Option.some_get _).symm
  have succeeds : (run? ((init 1500 1).get rfl)
      [.flowInit 1, .flowInit 2, .send 1 100, .send 2 50, .outputDone, .scheduleJob]).isSome = true := rfl
  have ran := (Option.some_get succeeds).symm
  exact ⟨_, _, initialized, ran, rfl, (scheduler_invariant initialized ran).2.2.2.2.2.2 .outputDone rfl⟩

set_option maxRecDepth 4096 in
/--
`get_current_time` is 0 while the queue is idle, but flows keep their times: a
flow served alone for two packets, then backlogged again behind a new flow,
is two packets' weight behind it, more than `MTU + packet_weight`, and the new
flow is sent twice before it.
-/
theorem newcomer_overtakes_backlogged_flow :
    ∃ q0 q q', init 10 1 = some q0 ∧
      run? q0 [.flowInit 1, .flowInit 2, .send 1 10, .outputDone, .scheduleJob, .send 1 10, .outputDone,
        .scheduleJob, .send 2 10, .send 1 10] = some q ∧
      q.sendingFlow = some 2 ∧ q.queuedTree = [1] ∧ (q.flows 2).time = 0 ∧ (q.flows 1).time = 22 ∧
      (q.flows 1).time - (q.flows 2).time > q.outputMtu + q.packetWeight ∧
      run? q [.outputDone, .send 2 10, .scheduleJob] = some q' ∧
      q'.sendingFlow = some 2 ∧ q'.queuedTree = [1] ∧ q'.sent = [(1, 10), (1, 10), (2, 10), (2, 10)] := by
  have initialized : init 10 1 = some ((init 10 1).get rfl) := (Option.some_get _).symm
  have backlogged : (run? ((init 10 1).get rfl) [.flowInit 1, .flowInit 2, .send 1 10, .outputDone, .scheduleJob,
      .send 1 10, .outputDone, .scheduleJob, .send 2 10, .send 1 10]).isSome = true := rfl
  have ran := (Option.some_get backlogged).symm
  have servedAgain : (run? ((run? ((init 10 1).get rfl) [.flowInit 1, .flowInit 2, .send 1 10, .outputDone,
      .scheduleJob, .send 1 10, .outputDone, .scheduleJob, .send 2 10, .send 1 10]).get backlogged)
      [.outputDone, .send 2 10, .scheduleJob]).isSome = true := rfl
  exact ⟨_, _, _, initialized, ran, rfl, rfl, rfl, rfl, (by decide : 11 < 22), (Option.some_get servedAgain).symm,
    rfl, rfl, rfl⟩

end Tun2SocksWinRT.PacketPassFairQueue
