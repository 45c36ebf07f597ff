import Tun2SocksWinRT.BPending

namespace Tun2SocksWinRT

/-!
# `BReactor_Synchronize`: running pending jobs down to a mark

`BReactor_Synchronize(bsys, ref)` executes pending jobs, most recently set
first, until `ref` is the first pending job (result `1`) or the reactor is
exiting (result `0`).  tun2socks uses it as `SYNC_COMMIT`: a fresh `BPending`
mark is set before calling into lwIP, and the jobs set during the call run
before the callback returns.

The jobs are the rest of the program.  A job is modelled by what its handler
does: a list of calls on the pending group and `BReactor_Quit`, computed from
the reactor state it runs in.  A job may run other jobs, as a nested
`BReactor_Synchronize` does: their `BPendingGroup_ExecuteJob` and the calls of
the jobs it runs are then part of the list.  The loop is bounded by a number of
iterations, so a run either returns, is still running, or was refused because
a debug check failed.
-/

/-- The part of a `BReactor` that `BReactor_Synchronize` reads and writes. -/
structure BReactor (Job : Type) where
  pendingJobs : BPendingGroup Job
  exiting : Bool

/-- One call a job's handler makes. -/
inductive ReactorOp (Job : Type) where
  | pending (op : PendingOp Job)
  | quit
  deriving Repr, DecidableEq

namespace ReactorOp

variable {Job : Type} [DecidableEq Job]

/-- Perform one call; `quit` is `BReactor_Quit`, which sets `exiting`. -/
def step? (r : BReactor Job) : ReactorOp Job → Option (BReactor Job)
  | pending op =>
      match op.step? r.pendingJobs with
      | none =>
          none
      | some g =>
          some { r with pendingJobs := g }
  | quit =>
      some { r with exiting := true }

end ReactorOp

/-- How a bounded run of `BReactor_Synchronize` ended. -/
inductive SyncOutcome where
  | returned (code : Nat)
  | running
  | refused
  deriving Repr, DecidableEq

namespace BReactor

variable {Job : Type} [DecidableEq Job]

/-- Perform a handler's calls in order, stopping at the first refused one. -/
def run? (r : BReactor Job) : List (ReactorOp Job) → Option (BReactor Job)
  | [] =>
      some r
  | op :: rest =>
      match op.step? r with
      | none =>
          none
      | some next =>
          run? next rest

/--
`BReactor_Synchronize` for at most `fuel` iterations of its loop: how the run
ended, the final reactor, and each executed job with the state in which the
loop chose it.  `handler job r` is what the handler of `job` does when it runs
in state `r`.
-/
def synchronize
    (handler : Job → BReactor Job → List (ReactorOp Job))
    (ref : Job) :
    Nat → BReactor Job → SyncOutcome × BReactor Job × List (Job × BReactor Job)
  | 0, r =>
      (.running, r, [])
  | fuel + 1, r =>
      if r.exiting then
        (.returned 0, r, [])
      else
        -- `ASSERT(BPendingGroup_HasJobs(...))` in the source
        match r.pendingJobs.peekJob with
        | none =>
            (.refused, r, [])
        | some top =>
            if top = ref then
              (.returned 1, r, [])
            else
              match r.pendingJobs.executeJob with
              | none =>
                  (.refused, r, [])
              | some (job, g) =>
                  let popped := { r with pendingJobs := g }
                  match popped.run? (handler job popped) with
                  | none =>
                      (.refused, popped, [(job, r)])
                  | some next =>
                      let rest := synchronize handler ref fuel next
                      (rest.1, rest.2.1, (job, r) :: rest.2.2)

/--
A run of calls from `r` leaves `ref` set: no call unsets or frees it, and no
`BPendingGroup_ExecuteJob` is made while `ref` is the first pending job.  The
condition on each call is read in the state the calls before it lead to.
-/
def KeepsRef (ref : Job) : BReactor Job → List (ReactorOp Job) → Prop
  | _, [] =>
      True
  | r, op :: rest =>
      op ≠ .pending (.unset ref) ∧ op ≠ .pending (.free ref) ∧
        (op = .pending .executeJob → r.pendingJobs.peekJob ≠ some ref) ∧
        ∀ next, op.step? r = some next → KeepsRef ref next rest

/-- What the source expects of the jobs that `BReactor_Synchronize` runs. -/
structure JobContract
    (handler : Job → BReactor Job → List (ReactorOp Job))
    (ref : Job) : Prop where
  /-- jobs only make calls that the debug checks accept -/
  accepted : ∀ job (r : BReactor Job) stack, r.pendingJobs.Represents stack →
    ∃ next, r.run? (handler job r) = some next
  /-- jobs, and the jobs they run, never unset, free or execute a pending `ref` -/
  keepsRef : ∀ job (r : BReactor Job) stack, r.pendingJobs.Represents stack → ref ∈ stack →
    KeepsRef ref r (handler job r)

/-- `ref` is pending in the reactor's job stack. -/
def RefPending (ref : Job) (r : BReactor Job) : Prop :=
  ∃ stack, r.pendingJobs.Represents stack ∧ ref ∈ stack

/--
What a bounded run of `BReactor_Synchronize` guarantees: `ref` is still
pending; every executed job was the top of the stack, strictly above `ref`,
when the loop chose it; and the loop returned `1` with `ref` on top, returned
`0` because the reactor is exiting, or used all its iterations.
-/
structure SyncSpec
    (ref : Job)
    (fuel : Nat)
    (result : SyncOutcome × BReactor Job × List (Job × BReactor Job)) : Prop where
  refPending : RefPending ref result.2.1
  executedTop : ∀ entry ∈ result.2.2, entry.2.exiting = false ∧
    ∃ stack, entry.2.pendingJobs.Represents stack ∧
      stack.head? = some entry.1 ∧ ref ∈ stack.tail
  ended :
    (result.1 = .returned 1 ∧ result.2.1.pendingJobs.peekJob = some ref ∧
        result.2.1.exiting = false) ∨
      (result.1 = .returned 0 ∧ result.2.1.exiting = true) ∨
      (result.1 = .running ∧ result.2.2.length = fuel)

/-- A call that unsets or frees another job, or pops a top other than `ref`, keeps `ref` on the stack. -/
theorem mem_pendingAfter
    {ref : Job}
    {stack : List Job}
    {op : PendingOp Job}
    (member : ref ∈ stack)
    (notUnset : op ≠ .unset ref)
    (notFree : op ≠ .free ref)
    (notTop : op = .executeJob → stack.head? ≠ some ref) :
    ref ∈ op.pendingAfter stack := by
  cases op with
  | init job =>
      exact member
  | free job =>
      have different : ref ≠ job := by
        rintro rfl
        exact notFree rfl
      exact (List.mem_erase_of_ne different).mpr member
  | set job =>
      by_cases same : ref = job
      · subst same
        exact List.mem_cons_self
      · exact List.mem_cons_of_mem _ ((List.mem_erase_of_ne same).mpr member)
  | unset job =>
      have different : ref ≠ job := by
        rintro rfl
        exact notUnset rfl
      exact (List.mem_erase_of_ne different).mpr member
  | executeJob =>
      -- the popped top is not `ref`, so `ref` is in the rest
      cases stack with
      | nil =>
          simp at member
      | cons top rest =>
          have different : ref ≠ top := fun same => notTop rfl (by rw [same]; rfl)
          exact (List.mem_cons.mp member).resolve_left different

/-- One call that keeps `ref`, in the sense of `KeepsRef`, leaves it pending. -/
theorem RefPending.step?
    {ref : Job}
    {r next : BReactor Job}
    {op : ReactorOp Job}
    (refPending : RefPending ref r)
    (notUnset : op ≠ .pending (.unset ref))
    (notFree : op ≠ .pending (.free ref))
    (notTop : op = .pending .executeJob → r.pendingJobs.peekJob ≠ some ref)
    (stepped : op.step? r = some next) :
    RefPending ref next := by
  obtain ⟨stack, represents, member⟩ := refPending
  cases op with
  | pending call =>
      simp only [ReactorOp.step?] at stepped
      cases groupStep : call.step? r.pendingJobs with
      | none =>
          simp [groupStep] at stepped
      | some g =>
          simp only [groupStep, Option.some.injEq] at stepped
          subst stepped
          -- `BPendingGroup_PeekJob` reads the head of the stack
          have peeked : r.pendingJobs.peekJob = stack.head? := represents.linked.first_eq
          refine ⟨call.pendingAfter stack, represents.step groupStep, mem_pendingAfter member ?_ ?_ ?_⟩
          · exact fun same => notUnset (congrArg ReactorOp.pending same)
          · exact fun same => notFree (congrArg ReactorOp.pending same)
          · exact fun same => peeked ▸ notTop (congrArg ReactorOp.pending same)
  | quit =>
      simp only [ReactorOp.step?, Option.some.injEq] at stepped
      subst stepped
      exact ⟨stack, represents, member⟩

/-- A run of calls that keeps `ref` leaves it pending. -/
theorem run?_refPending
    {ref : Job}
    {r next : BReactor Job}
    {ops : List (ReactorOp Job)}
    (refPending : RefPending ref r)
    (keeps : KeepsRef ref r ops)
    (run : r.run? ops = some next) :
    RefPending ref next := by
  induction ops generalizing r with
  | nil =>
      simp only [run?, Option.some.injEq] at run
      exact run ▸ refPending
  | cons op rest inductionHypothesis =>
      obtain ⟨notUnset, notFree, notTop, keepsRest⟩ := keeps
      simp only [run?] at run
      cases stepped : op.step? r with
      | none =>
          simp [stepped] at run
      | some middle =>
          rw [stepped] at run
          exact inductionHypothesis (refPending.step? notUnset notFree notTop stepped)
            (keepsRest middle stepped) run

omit [DecidableEq Job] in
/-- A reactor with `ref` pending has a nonempty stack. -/
theorem RefPending.exists_top
    {ref : Job}
    {r : BReactor Job}
    (refPending : RefPending ref r) :
    ∃ top rest, r.pendingJobs.Represents (top :: rest) ∧ ref ∈ top :: rest := by
  obtain ⟨stack, represents, member⟩ := refPending
  cases stack with
  | nil =>
      simp at member
  | cons top rest =>
      exact ⟨top, rest, represents, member⟩

/-- An iteration that finds a job above `ref` pops it, runs its handler, and loops. -/
theorem synchronize_succ_of_above
    {handler : Job → BReactor Job → List (ReactorOp Job)}
    {ref top : Job}
    {r next : BReactor Job}
    {g : BPendingGroup Job}
    (fuel : Nat)
    (notExiting : r.exiting = false)
    (peeked : r.pendingJobs.peekJob = some top)
    (above : top ≠ ref)
    (executed : r.pendingJobs.executeJob = some (top, g))
    (handled : ({ r with pendingJobs := g } : BReactor Job).run?
      (handler top { r with pendingJobs := g }) = some next) :
    synchronize handler ref (fuel + 1) r =
      ((synchronize handler ref fuel next).1,
        (synchronize handler ref fuel next).2.1,
        (top, r) :: (synchronize handler ref fuel next).2.2) := by
  rw [notExiting] at handled
  simp [synchronize, notExiting, peeked, above, executed, handled]

/--
Every bounded run of `BReactor_Synchronize` from a state with `ref` pending
meets `SyncSpec`, whatever the jobs do within `JobContract`.
-/
theorem synchronize_spec
    {handler : Job → BReactor Job → List (ReactorOp Job)}
    {ref : Job}
    (contract : JobContract handler ref)
    (fuel : Nat) :
    ∀ r : BReactor Job, RefPending ref r →
      SyncSpec ref fuel (synchronize handler ref fuel r) := by
  induction fuel with
  | zero =>
      intro r refPending
      exact ⟨refPending, by simp [synchronize], by simp [synchronize]⟩
  | succ fuel inductionHypothesis =>
      intro r refPending
      obtain ⟨top, rest, represents, member⟩ := refPending.exists_top
      have peeked : r.pendingJobs.peekJob = some top := represents.linked.first_eq
      by_cases exiting : r.exiting = true
      · -- the loop condition fails at once
        have returnedZero :
            synchronize handler ref (fuel + 1) r = (.returned 0, r, []) := by
          simp [synchronize, exiting]
        rw [returnedZero]
        exact ⟨refPending, by simp, by simp [exiting]⟩
      · have notExiting : r.exiting = false := by simpa using exiting
        by_cases reached : top = ref
        · -- `ref` is the first pending job
          subst reached
          have returnedOne :
              synchronize handler top (fuel + 1) r = (.returned 1, r, []) := by
            simp [synchronize, notExiting, peeked]
          rw [returnedOne]
          exact ⟨refPending, by simp, by simp [notExiting, peeked]⟩
        · -- the top job is above `ref`; it is popped and its handler runs
          have refBelow : ref ∈ rest :=
            (List.mem_cons.mp member).resolve_left fun same => reached same.symm
          obtain ⟨g, executed, popped⟩ := represents.executeJob_some
          obtain ⟨next, handled⟩ := contract.accepted top
            { r with pendingJobs := g } rest popped
          have nextPending : RefPending ref next :=
            run?_refPending ⟨rest, popped, refBelow⟩ (contract.keepsRef top _ rest popped refBelow) handled
          have restSpec := inductionHypothesis next nextPending
          rw [synchronize_succ_of_above fuel notExiting peeked reached executed handled]
          refine ⟨restSpec.refPending, ?_, ?_⟩
          · intro entry inExecuted
            rcases List.mem_cons.mp inExecuted with rfl | later
            · exact ⟨notExiting, top :: rest, represents, rfl, refBelow⟩
            · exact restSpec.executedTop entry later
          · rcases restSpec.ended with returnedOne | returnedZero | stillRunning
            · exact Or.inl returnedOne
            · exact Or.inr (Or.inl returnedZero)
            · exact Or.inr (Or.inr ⟨stillRunning.1, by simp [stillRunning.2]⟩)

/-- Every iteration of the loop that runs a job lowers `measure`. -/
def Lowers
    (handler : Job → BReactor Job → List (ReactorOp Job))
    (ref : Job)
    (measure : BReactor Job → Nat) : Prop :=
  ∀ (r : BReactor Job) job g next, RefPending ref r → r.exiting = false →
    r.pendingJobs.executeJob = some (job, g) → job ≠ ref →
    ({ r with pendingJobs := g } : BReactor Job).run?
      (handler job { r with pendingJobs := g }) = some next →
    measure next < measure r

/--
`BReactor_Synchronize` returns once the jobs it runs stop setting new work:
if every iteration that runs a job lowers `measure`, then `measure r + 1`
iterations suffice.
-/
theorem synchronize_returns
    {handler : Job → BReactor Job → List (ReactorOp Job)}
    {ref : Job}
    (contract : JobContract handler ref)
    (measure : BReactor Job → Nat)
    (lowers : Lowers handler ref measure)
    (fuel : Nat) :
    ∀ r : BReactor Job, RefPending ref r → measure r < fuel →
      ∃ code, (synchronize handler ref fuel r).1 = .returned code := by
  induction fuel with
  | zero =>
      intro r _ bounded
      omega
  | succ fuel inductionHypothesis =>
      intro r refPending bounded
      obtain ⟨top, rest, represents, member⟩ := refPending.exists_top
      have peeked : r.pendingJobs.peekJob = some top := represents.linked.first_eq
      by_cases exiting : r.exiting = true
      · exact ⟨0, by simp [synchronize, exiting]⟩
      · have notExiting : r.exiting = false := by simpa using exiting
        by_cases reached : top = ref
        · subst reached
          exact ⟨1, by simp [synchronize, notExiting, peeked]⟩
        · have refBelow : ref ∈ rest :=
            (List.mem_cons.mp member).resolve_left fun same => reached same.symm
          obtain ⟨g, executed, popped⟩ := represents.executeJob_some
          obtain ⟨next, handled⟩ := contract.accepted top
            { r with pendingJobs := g } rest popped
          have nextPending : RefPending ref next :=
            run?_refPending ⟨rest, popped, refBelow⟩ (contract.keepsRef top _ rest popped refBelow) handled
          have smaller := lowers r top g next refPending notExiting executed reached handled
          obtain ⟨code, returned⟩ := inductionHypothesis next nextPending (by omega)
          rw [synchronize_succ_of_above fuel notExiting peeked reached executed handled]
          exact ⟨code, returned⟩

/-- A job whose handler sets the job again. -/
def setsItselfAgain (job : Nat) (_ : BReactor Nat) : List (ReactorOp Nat) :=
  [.pending (.set job)]

/-- With job `1` above the mark `0` and setting itself again, the mark is never reached. -/
theorem setsItselfAgain_running (fuel : Nat) :
    ∀ r : BReactor Nat, r.exiting = false → r.pendingJobs.Represents [1, 0] →
      (synchronize setsItselfAgain 0 fuel r).1 = .running := by
  induction fuel with
  | zero =>
      intro r _ _
      rfl
  | succ fuel inductionHypothesis =>
      intro r notExiting represents
      have peeked : r.pendingJobs.peekJob = some 1 := represents.linked.first_eq
      obtain ⟨g, executed, popped⟩ := represents.executeJob_some
      have oneLive : g.debugObject 1 = true := by
        rw [BPendingGroup.executeJob_debugObject executed]
        exact represents.live 1 (by simp)
      have handled : ({ r with pendingJobs := g } : BReactor Nat).run?
          (setsItselfAgain 1 { r with pendingJobs := g }) =
            some { r with pendingJobs := BSmallPending.set 1 g } := by
        simp [setsItselfAgain, run?, ReactorOp.step?, PendingOp.step?, oneLive]
      rw [synchronize_succ_of_above fuel notExiting peeked (by decide) executed handled]
      have setAgain := popped.set oneLive
      exact inductionHypothesis _ notExiting (by simpa using setAgain)

/--
`BReactor_Synchronize` need not return: the mark `0` is set first and job `1`
after it, and job `1` sets itself again each time it runs.
-/
theorem synchronize_never_returns :
    ∃ g : BPendingGroup Nat,
      (BPendingGroup.init ⟨none, fun _ => none, fun _ => none⟩).run?
          [.init 0, .init 1, .set 0, .set 1] = some g ∧
        ∀ fuel, (synchronize setsItselfAgain 0 fuel ⟨g, false⟩).1 = .running := by
  obtain ⟨g, run⟩ : ∃ g : BPendingGroup Nat,
      (BPendingGroup.init ⟨none, fun _ => none, fun _ => none⟩).run?
        [.init 0, .init 1, .set 0, .set 1] = some g := by
    simp [BPendingGroup.run?, PendingOp.step?, BPendingGroup.init, BSmallPending.init,
      BSmallPending.set]
  have fresh : SetOrdered ([] : List (PendingOp Nat)) [] := ⟨List.Pairwise.nil, by simp⟩
  have represents :=
    (BPendingGroup.run?_invariant (BPendingGroup.represents_init _) fresh run).1
  exact ⟨g, run, fun fuel => setsItselfAgain_running fuel ⟨g, false⟩ rfl represents⟩

/--
The pending-job stack and `BReactor_Synchronize`: every run of calls from a
fresh group keeps `StackInvariant`; every bounded run of the loop from a state
with `ref` pending meets `SyncSpec`; and the loop returns within `measure + 1`
iterations when every job it runs lowers `measure`.
-/
theorem pendingJobs_lifo :
    (∀ (memory : SLinkedList Job) (history : List (PendingOp Job)) (g : BPendingGroup Job),
      (BPendingGroup.init memory).run? history = some g →
      ∃ pending, BPendingGroup.StackInvariant history g pending) ∧
    (∀ handler ref, JobContract handler ref →
      ∀ fuel (r : BReactor Job), RefPending ref r →
        SyncSpec ref fuel (synchronize handler ref fuel r)) ∧
    (∀ handler ref, JobContract handler ref →
      ∀ measure, Lowers handler ref measure →
        ∀ fuel (r : BReactor Job), RefPending ref r → measure r < fuel →
          ∃ code, (synchronize handler ref fuel r).1 = .returned code) :=
  ⟨fun memory history _ run => BPendingGroup.init_run?_stack memory history run,
    fun _ _ contract fuel => synchronize_spec contract fuel,
    fun _ _ contract measure lowers fuel => synchronize_returns contract measure lowers fuel⟩

/--
A job that first runs the next pending job itself, as a nested
`BReactor_Synchronize` down to the job below it does, unless that is the mark
`0`, and then quits the reactor.
-/
def runsNextThenQuits (_ : Nat) (r : BReactor Nat) : List (ReactorOp Nat) :=
  match r.pendingJobs.peekJob with
  | some top =>
      if top = 0 then [.quit] else [.pending .executeJob, .quit]
  | none =>
      [.quit]

/--
Job `2` above job `1` above the mark `0`: the loop runs job `2`, which runs
job `1` itself and quits, and the loop returns `0`.
-/
theorem pendingJobs_lifo_nested_quit :
    ∃ g : BPendingGroup Nat,
      (BPendingGroup.init ⟨none, fun _ => none, fun _ => none⟩).run?
          [.init 0, .init 1, .init 2, .set 0, .set 1, .set 2] = some g ∧
        (∃ pending,
          BPendingGroup.StackInvariant [.init 0, .init 1, .init 2, .set 0, .set 1, .set 2] g pending) ∧
        SyncSpec 0 2 (synchronize runsNextThenQuits 0 2 ⟨g, false⟩) ∧
        ∃ code, (synchronize runsNextThenQuits 0 2 ⟨g, false⟩).1 = .returned code := by
  obtain ⟨g, run⟩ : ∃ g : BPendingGroup Nat,
      (BPendingGroup.init ⟨none, fun _ => none, fun _ => none⟩).run?
        [.init 0, .init 1, .init 2, .set 0, .set 1, .set 2] = some g := by
    simp [BPendingGroup.run?, PendingOp.step?, BPendingGroup.init, BSmallPending.init,
      BSmallPending.set]
  have fresh : SetOrdered ([] : List (PendingOp Nat)) [] := ⟨List.Pairwise.nil, by simp⟩
  have represents :=
    (BPendingGroup.run?_invariant (BPendingGroup.represents_init _) fresh run).1
  have refPending : RefPending 0 (⟨g, false⟩ : BReactor Nat) :=
    ⟨[2, 1, 0], represents, by simp⟩
  have contract : JobContract runsNextThenQuits 0 := by
    constructor
    · -- the nested `BPendingGroup_ExecuteJob` is made only with a job pending
      intro _ r _ _
      unfold runsNextThenQuits
      cases peeked : r.pendingJobs.peekJob with
      | none =>
          exact ⟨_, rfl⟩
      | some top =>
          have first : r.pendingJobs.jobs.first = some top := peeked
          by_cases mark : top = 0 <;>
            simp [mark, run?, ReactorOp.step?, PendingOp.step?, BPendingGroup.executeJob, first]
    · -- and never with the mark on top
      intro _ r _ _ _
      unfold runsNextThenQuits
      cases peeked : r.pendingJobs.peekJob with
      | none =>
          simp [KeepsRef]
      | some top =>
          by_cases mark : top = 0 <;> simp [mark, KeepsRef, peeked]
  have lowers : Lowers runsNextThenQuits 0 fun r => if r.exiting then 0 else 1 := by
    intro r job g next _ notExiting _ _ handled
    -- every run of the job ends with `BReactor_Quit`
    have quits : next.exiting = true := by
      unfold runsNextThenQuits at handled
      split at handled
      · split at handled
        · simp only [run?, ReactorOp.step?, Option.some.injEq] at handled
          simp [← handled]
        · simp only [run?, ReactorOp.step?] at handled
          split at handled
          · cases handled
          · simp only [Option.some.injEq] at handled
            simp [← handled]
      · simp only [run?, ReactorOp.step?, Option.some.injEq] at handled
        simp [← handled]
    simp [quits, notExiting]
  exact ⟨g, run, pendingJobs_lifo.1 _ _ g run,
    pendingJobs_lifo.2.1 runsNextThenQuits 0 contract 2 ⟨g, false⟩ refPending,
    pendingJobs_lifo.2.2 runsNextThenQuits 0 contract _ lowers 2 ⟨g, false⟩ refPending (by simp)⟩

end BReactor

end Tun2SocksWinRT
