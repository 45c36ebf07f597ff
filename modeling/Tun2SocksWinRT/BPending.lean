import Tun2SocksWinRT.SLinkedList

namespace Tun2SocksWinRT

/-!
# `BPending`: the job stack of a pending group

`base/BPending.c` keeps the set jobs of a group in an `SLinkedList`.  Setting a
job unlinks it if it is already pending and prepends it, so the list is a
stack ordered by the time of the most recent `BSmallPending_Set`, and
`BPendingGroup_ExecuteJob` pops and runs its head.  A job that is not pending
is marked by a `next` pointer to itself, which is all `BSmallPending_IsSet`
reads.

The model keeps the group's list, the link fields of every job, and the
`DebugObject` state of every job, which the source's debug checks read.  A call
whose debug check would fail is refused by `PendingOp.step?`.  The
representation invariant `BPendingGroup.Represents` ties the pointers to an
abstract list of pending jobs; `PendingOp.pendingAfter` is what each call does
to that list.
-/

open PointerChain

/-- A `BPendingGroup` with the `pending_node` and `DebugObject` of every job. -/
structure BPendingGroup (Job : Type) where
  jobs : SLinkedList Job
  debugObject : Job → Bool

namespace BPendingGroup

variable {Job : Type}

/-- `BPendingGroup_Init`: an empty job list over whatever the nodes hold. -/
def init (memory : SLinkedList Job) : BPendingGroup Job where
  jobs := memory.init
  debugObject := fun _ => false

/-- `BPendingGroup_HasJobs`. -/
def hasJobs (g : BPendingGroup Job) : Bool :=
  !g.jobs.isEmpty

/-- `BPendingGroup_PeekJob`. -/
def peekJob (g : BPendingGroup Job) : Option Job :=
  g.jobs.first

variable [DecidableEq Job]

/--
`BPendingGroup_ExecuteJob`: pop the first job and mark it not pending.  The
source then calls the job's handler; the job is returned so that a caller can
run it.
-/
def executeJob (g : BPendingGroup Job) : Option (Job × BPendingGroup Job) :=
  match g.jobs.first with
  | none =>
      none
  | some job =>
      some (job, { g with jobs := g.jobs.removeFirst.markRemoved job })

/-- Popping a job leaves the `DebugObject` state of every job alone. -/
theorem executeJob_debugObject
    {g : BPendingGroup Job}
    {job : Job}
    {next : BPendingGroup Job}
    (executed : g.executeJob = some (job, next)) :
    next.debugObject = g.debugObject := by
  unfold BPendingGroup.executeJob at executed
  split at executed
  · simp at executed
  · simp only [Option.some.injEq, Prod.mk.injEq] at executed
    rw [← executed.2]

end BPendingGroup

namespace BSmallPending

variable {Job : Type} [DecidableEq Job]

/-- `BSmallPending_Init`: mark the job not pending. -/
def init (o : Job) (g : BPendingGroup Job) : BPendingGroup Job where
  jobs := g.jobs.markRemoved o
  debugObject := Function.update g.debugObject o true

/-- `BSmallPending_Free`: unlink the job if it is pending. -/
def free (o : Job) (g : BPendingGroup Job) : BPendingGroup Job where
  jobs := if g.jobs.isRemoved o then g.jobs else g.jobs.remove o
  debugObject := Function.update g.debugObject o false

/-- `BSmallPending_Set`: unlink the job if it is pending, then prepend it. -/
def set (o : Job) (g : BPendingGroup Job) : BPendingGroup Job :=
  let jobs := if g.jobs.isRemoved o then g.jobs else g.jobs.remove o
  { g with jobs := jobs.prepend o }

/-- `BSmallPending_Unset`: unlink the job and mark it not pending. -/
def unset (o : Job) (g : BPendingGroup Job) : BPendingGroup Job :=
  if g.jobs.isRemoved o then
    g
  else
    { g with jobs := (g.jobs.remove o).markRemoved o }

/-- `BSmallPending_IsSet`. -/
def isSet (o : Job) (g : BPendingGroup Job) : Bool :=
  !g.jobs.isRemoved o

end BSmallPending

/-- One call on a pending group. -/
inductive PendingOp (Job : Type) where
  | init (job : Job)
  | free (job : Job)
  | set (job : Job)
  | unset (job : Job)
  | executeJob
  deriving Repr, DecidableEq

namespace PendingOp

variable {Job : Type} [DecidableEq Job]

/--
Perform one call.  `BSmallPending_Init` needs an uninitialized job and every
other per-job call an initialized one (`DebugObject_Access`);
`BPendingGroup_ExecuteJob` needs a pending job.
-/
def step? (g : BPendingGroup Job) : PendingOp Job → Option (BPendingGroup Job)
  | init job =>
      if g.debugObject job then none else some (BSmallPending.init job g)
  | free job =>
      if g.debugObject job then some (BSmallPending.free job g) else none
  | set job =>
      if g.debugObject job then some (BSmallPending.set job g) else none
  | unset job =>
      if g.debugObject job then some (BSmallPending.unset job g) else none
  | executeJob =>
      (g.executeJob).map Prod.snd

/-- What one call does to the stack of pending jobs. -/
def pendingAfter (pending : List Job) : PendingOp Job → List Job
  | init _ => pending
  | free job => pending.erase job
  | set job => job :: pending.erase job
  | unset job => pending.erase job
  | executeJob => pending.tail

end PendingOp

namespace BPendingGroup

variable {Job : Type} [DecidableEq Job]

/-- Perform calls in order, stopping at the first refused one. -/
def run? (g : BPendingGroup Job) : List (PendingOp Job) → Option (BPendingGroup Job)
  | [] =>
      some g
  | op :: rest =>
      match op.step? g with
      | none =>
          none
      | some next =>
          run? next rest

/--
The pointers of `g` hold the stack `pending`: the list is linked, pending jobs
are initialized, and every other initialized job is marked removed.
-/
structure Represents (g : BPendingGroup Job) (pending : List Job) : Prop where
  linked : g.jobs.Linked pending
  live : ∀ job ∈ pending, g.debugObject job = true
  marked : ∀ job, g.debugObject job = true → job ∉ pending → g.jobs.next job = some job

namespace Represents

variable {g : BPendingGroup Job} {pending : List Job}

/-- For an initialized job, membership is exactly the absence of the mark. -/
theorem mem_iff_not_removed
    (represents : g.Represents pending)
    {job : Job}
    (initialized : g.debugObject job = true) :
    job ∈ pending ↔ g.jobs.isRemoved job = false := by
  constructor
  · exact represents.linked.isRemoved_eq_false
  · intro notRemoved
    by_contra outside
    simp [SLinkedList.isRemoved, represents.marked job initialized outside] at notRemoved

/-- `BSmallPending_IsSet` holds exactly for the jobs on the stack. -/
theorem isSet_iff
    (represents : g.Represents pending)
    {job : Job}
    (initialized : g.debugObject job = true) :
    BSmallPending.isSet job g = true ↔ job ∈ pending := by
  rw [represents.mem_iff_not_removed initialized]
  simp [BSmallPending.isSet]

/-- A job marked removed is not on the stack. -/
theorem not_mem_of_removed
    (represents : g.Represents pending)
    {job : Job}
    (removed : g.jobs.isRemoved job = true) :
    job ∉ pending := fun member => by
  simp [represents.linked.isRemoved_eq_false member] at removed

/--
The unlinking step shared by `BSmallPending_Set` and `BSmallPending_Free`
erases the job from the stack and keeps `next` of every job off the stack.
-/
theorem unlinkIfPending
    (represents : g.Represents pending)
    {job : Job}
    (initialized : g.debugObject job = true) :
    (if g.jobs.isRemoved job then g.jobs else g.jobs.remove job).Linked
        (pending.erase job) ∧
      ∀ other ∉ pending,
        (if g.jobs.isRemoved job then g.jobs else g.jobs.remove job).next other =
          g.jobs.next other := by
  by_cases removed : g.jobs.isRemoved job = true
  · rw [List.erase_of_not_mem (represents.not_mem_of_removed removed)]
    rw [if_pos removed]
    exact ⟨represents.linked, fun _ _ => rfl⟩
  · have member : job ∈ pending :=
      (represents.mem_iff_not_removed initialized).mpr (by simpa using removed)
    rw [if_neg removed]
    exact ⟨SLinkedList.linked_remove represents.linked member,
      fun _ outside => SLinkedList.remove_next_of_not_mem represents.linked member outside⟩

/-- `BSmallPending_Init` keeps the stack. -/
theorem init_job
    (represents : g.Represents pending)
    {job : Job}
    (uninitialized : g.debugObject job = false) :
    (BSmallPending.init job g).Represents pending := by
  have fresh : job ∉ pending := fun member => by
    simp [represents.live job member] at uninitialized
  refine ⟨SLinkedList.linked_markRemoved represents.linked fresh, ?_, ?_⟩
  · intro other member
    have different : other ≠ job := ne_of_mem_of_not_mem member fresh
    simp [BSmallPending.init, different, represents.live other member]
  · intro other initialized outside
    by_cases same : other = job
    · subst same
      simp [BSmallPending.init]
    · have wasInitialized : g.debugObject other = true := by
        simpa [BSmallPending.init, same] using initialized
      simp only [BSmallPending.init]
      rw [SLinkedList.markRemoved_next_of_ne _ same]
      exact represents.marked other wasInitialized outside

/-- `BSmallPending_Set` moves the job to the top of the stack. -/
theorem set
    (represents : g.Represents pending)
    {job : Job}
    (initialized : g.debugObject job = true) :
    (BSmallPending.set job g).Represents (job :: pending.erase job) := by
  obtain ⟨unlinked, framed⟩ := represents.unlinkIfPending initialized
  have fresh : job ∉ pending.erase job := represents.linked.nodup.not_mem_erase
  refine ⟨SLinkedList.linked_prepend unlinked fresh, ?_, ?_⟩
  · intro other member
    rcases List.mem_cons.mp member with rfl | inErased
    · exact initialized
    · exact represents.live other (List.mem_of_mem_erase inErased)
  · intro other otherInitialized outside
    have different : other ≠ job := fun same => outside (same ▸ List.mem_cons_self)
    have offStack : other ∉ pending := fun member =>
      outside (List.mem_cons_of_mem _ ((List.mem_erase_of_ne different).mpr member))
    simp only [BSmallPending.set]
    rw [SLinkedList.prepend_next_of_ne _ different, framed other offStack]
    exact represents.marked other otherInitialized offStack

/-- `BSmallPending_Free` erases the job from the stack. -/
theorem free
    (represents : g.Represents pending)
    {job : Job}
    (initialized : g.debugObject job = true) :
    (BSmallPending.free job g).Represents (pending.erase job) := by
  obtain ⟨unlinked, framed⟩ := represents.unlinkIfPending initialized
  have noDuplicates := represents.linked.nodup
  refine ⟨unlinked, ?_, ?_⟩
  · intro other member
    have different : other ≠ job := ((noDuplicates.mem_erase_iff).mp member).1
    simp [BSmallPending.free, different,
      represents.live other (List.mem_of_mem_erase member)]
  · intro other otherInitialized outside
    have different : other ≠ job := by
      rintro rfl
      simp [BSmallPending.free] at otherInitialized
    have offStack : other ∉ pending := fun member =>
      outside ((List.mem_erase_of_ne different).mpr member)
    have wasInitialized : g.debugObject other = true := by
      simpa [BSmallPending.free, different] using otherInitialized
    simp only [BSmallPending.free]
    rw [framed other offStack]
    exact represents.marked other wasInitialized offStack

/-- `BSmallPending_Unset` erases the job from the stack and marks it. -/
theorem unset
    (represents : g.Represents pending)
    {job : Job}
    (initialized : g.debugObject job = true) :
    (BSmallPending.unset job g).Represents (pending.erase job) := by
  by_cases removed : g.jobs.isRemoved job = true
  · rw [List.erase_of_not_mem (represents.not_mem_of_removed removed)]
    simpa [BSmallPending.unset, removed] using represents
  · have member : job ∈ pending :=
      (represents.mem_iff_not_removed initialized).mpr (by simpa using removed)
    have fresh : job ∉ pending.erase job := represents.linked.nodup.not_mem_erase
    have unlinked := SLinkedList.linked_remove represents.linked member
    simp only [BSmallPending.unset, removed, Bool.false_eq_true, if_false]
    refine ⟨SLinkedList.linked_markRemoved unlinked fresh, ?_, ?_⟩
    · exact fun other inErased => represents.live other (List.mem_of_mem_erase inErased)
    · intro other otherInitialized outside
      by_cases same : other = job
      · subst same
        simp
      · have offStack : other ∉ pending := fun member =>
          outside ((List.mem_erase_of_ne same).mpr member)
        rw [SLinkedList.markRemoved_next_of_ne _ same,
          SLinkedList.remove_next_of_not_mem represents.linked member offStack]
        exact represents.marked other otherInitialized offStack

/-- `BPendingGroup_ExecuteJob` pops the top of the stack. -/
theorem executeJob
    (represents : g.Represents pending)
    {job : Job}
    {next : BPendingGroup Job}
    (executed : g.executeJob = some (job, next)) :
    pending = job :: pending.tail ∧ next.Represents pending.tail := by
  unfold BPendingGroup.executeJob at executed
  cases firstShape : g.jobs.first with
  | none =>
      simp [firstShape] at executed
  | some first =>
      simp only [firstShape, Option.some.injEq, Prod.mk.injEq] at executed
      obtain ⟨rfl, rfl⟩ := executed
      have headShape : pending.head? = some first := by
        rw [← represents.linked.first_eq, firstShape]
      obtain ⟨rest, rfl⟩ : ∃ rest, pending = first :: rest := by
        cases pending with
        | nil =>
            simp at headShape
        | cons head rest =>
            simp only [List.head?_cons, Option.some.injEq] at headShape
            exact ⟨rest, by rw [headShape]⟩
      have fresh : first ∉ rest := (List.nodup_cons.mp represents.linked.nodup).1
      refine ⟨rfl, SLinkedList.linked_markRemoved
        (SLinkedList.linked_removeFirst represents.linked) fresh, ?_, ?_⟩
      · exact fun other member => represents.live other (List.mem_cons_of_mem _ member)
      · intro other otherInitialized outside
        by_cases same : other = first
        · subst same
          simp
        · have offStack : other ∉ first :: rest := by
            simpa [same] using outside
          rw [SLinkedList.markRemoved_next_of_ne _ same, SLinkedList.removeFirst_next]
          exact represents.marked other otherInitialized offStack

/-- A nonempty stack lets `BPendingGroup_ExecuteJob` pop its top. -/
theorem executeJob_some
    {top : Job}
    {rest : List Job}
    (represents : g.Represents (top :: rest)) :
    ∃ next, g.executeJob = some (top, next) ∧ next.Represents rest := by
  have firstTop : g.jobs.first = some top := represents.linked.first_eq
  have executed : g.executeJob =
      some (top, { g with jobs := g.jobs.removeFirst.markRemoved top }) := by
    simp [BPendingGroup.executeJob, firstTop]
  exact ⟨_, executed, (represents.executeJob executed).2⟩

/-- Every accepted call acts on the stack as `PendingOp.pendingAfter` says. -/
theorem step
    (represents : g.Represents pending)
    {op : PendingOp Job}
    {next : BPendingGroup Job}
    (stepped : op.step? g = some next) :
    next.Represents (op.pendingAfter pending) := by
  cases op with
  | init job =>
      by_cases initialized : g.debugObject job = true
      · simp [PendingOp.step?, initialized] at stepped
      · simp only [PendingOp.step?, initialized, Bool.false_eq_true, if_false,
          Option.some.injEq] at stepped
        subst stepped
        exact represents.init_job (by simpa using initialized)
  | free job =>
      by_cases initialized : g.debugObject job = true
      · simp only [PendingOp.step?, initialized, if_true, Option.some.injEq] at stepped
        subst stepped
        exact represents.free initialized
      · simp [PendingOp.step?, initialized] at stepped
  | set job =>
      by_cases initialized : g.debugObject job = true
      · simp only [PendingOp.step?, initialized, if_true, Option.some.injEq] at stepped
        subst stepped
        exact represents.set initialized
      · simp [PendingOp.step?, initialized] at stepped
  | unset job =>
      by_cases initialized : g.debugObject job = true
      · simp only [PendingOp.step?, initialized, if_true, Option.some.injEq] at stepped
        subst stepped
        exact represents.unset initialized
      · simp [PendingOp.step?, initialized] at stepped
  | executeJob =>
      simp only [PendingOp.step?, Option.map_eq_some_iff, Prod.exists] at stepped
      obtain ⟨job, after, executed, rfl⟩ := stepped
      exact (represents.executeJob executed).2

end Represents

omit [DecidableEq Job] in
/-- A fresh group represents the empty stack. -/
theorem represents_init (memory : SLinkedList Job) :
    (init memory).Represents [] where
  linked := SLinkedList.linked_init memory
  live := by simp
  marked := by simp [init]

end BPendingGroup

namespace PendingOp

variable {Job : Type} [DecidableEq Job]

/--
The time of the most recent `set job` in `history`: its position counted from
one, or `0` when the job was never set.
-/
def lastSet (job : Job) : List (PendingOp Job) → Nat
  | [] =>
      0
  | op :: rest =>
      if lastSet job rest = 0 then
        if op = set job then 1 else 0
      else
        lastSet job rest + 1

theorem lastSet_le_length (job : Job) (history : List (PendingOp Job)) :
    lastSet job history ≤ history.length := by
  induction history with
  | nil =>
      simp [lastSet]
  | cons op rest inductionHypothesis =>
      simp only [lastSet, List.length_cons]
      split
      · split <;> omega
      · omega

/-- A new `set job` is the most recent one. -/
theorem lastSet_append_set (job : Job) (history : List (PendingOp Job)) :
    lastSet job (history ++ [set job]) = history.length + 1 := by
  induction history with
  | nil =>
      simp [lastSet]
  | cons op rest inductionHypothesis =>
      simp [lastSet, inductionHypothesis]

/-- Any other call leaves the time of the most recent `set job` alone. -/
theorem lastSet_append_of_ne
    {job : Job}
    {op : PendingOp Job}
    (different : op ≠ set job)
    (history : List (PendingOp Job)) :
    lastSet job (history ++ [op]) = lastSet job history := by
  induction history with
  | nil =>
      simp [lastSet, different]
  | cons first rest inductionHypothesis =>
      simp [lastSet, inductionHypothesis]

end PendingOp

open PendingOp in
/--
The stack lists jobs by strictly decreasing time of their most recent set, and
every job on it has been set.
-/
structure SetOrdered {Job : Type} [DecidableEq Job]
    (history : List (PendingOp Job)) (pending : List Job) : Prop where
  decreasing : pending.Pairwise fun newer older => lastSet older history < lastSet newer history
  wasSet : ∀ job ∈ pending, 0 < lastSet job history

namespace SetOrdered

open PendingOp

variable {Job : Type} [DecidableEq Job]
variable {history : List (PendingOp Job)} {pending : List Job}

/-- Dropping jobs from the stack keeps it ordered. -/
theorem sublist
    (ordered : SetOrdered history pending)
    {smaller : List Job}
    (sub : List.Sublist smaller pending) :
    SetOrdered history smaller :=
  ⟨ordered.decreasing.sublist sub, fun job member => ordered.wasSet job (sub.subset member)⟩

/-- A call that sets no job leaves every set time alone. -/
theorem append_of_not_set
    (ordered : SetOrdered history pending)
    {op : PendingOp Job}
    (notSet : ∀ job, op ≠ set job) :
    SetOrdered (history ++ [op]) pending := by
  have unchanged : ∀ job, lastSet job (history ++ [op]) = lastSet job history :=
    fun job => lastSet_append_of_ne (notSet job) history
  exact ⟨by simpa only [unchanged] using ordered.decreasing,
    by simpa only [unchanged] using ordered.wasSet⟩

/-- Setting a job puts it above every other pending job. -/
theorem append_set
    (ordered : SetOrdered history pending)
    (noDuplicates : pending.Nodup)
    (job : Job) :
    SetOrdered (history ++ [set job]) (job :: pending.erase job) := by
  have unchanged : ∀ other ∈ pending.erase job,
      lastSet other (history ++ [set job]) = lastSet other history := by
    intro other member
    have different : other ≠ job := ((noDuplicates.mem_erase_iff).mp member).1
    exact lastSet_append_of_ne (by simpa using different.symm) history
  refine ⟨List.Pairwise.cons ?_ ?_, ?_⟩
  · intro other member
    rw [unchanged other member, lastSet_append_set]
    have := lastSet_le_length other history
    omega
  · refine (ordered.decreasing.sublist List.erase_sublist).imp_of_mem ?_
    intro newer older newerMember olderMember earlier
    rw [unchanged newer newerMember, unchanged older olderMember]
    exact earlier
  · intro other member
    rcases List.mem_cons.mp member with rfl | inErased
    · simp [lastSet_append_set]
    · rw [unchanged other inErased]
      exact ordered.wasSet other (List.mem_of_mem_erase inErased)

/-- Every call keeps the stack ordered by set time. -/
theorem step
    (ordered : SetOrdered history pending)
    (noDuplicates : pending.Nodup)
    (op : PendingOp Job) :
    SetOrdered (history ++ [op]) (op.pendingAfter pending) := by
  cases op with
  | init job =>
      exact ordered.append_of_not_set (by simp)
  | free job =>
      have erased : List.Sublist (pending.erase job) pending := List.erase_sublist
      exact (ordered.sublist erased).append_of_not_set (by simp)
  | set job =>
      exact ordered.append_set noDuplicates job
  | unset job =>
      have erased : List.Sublist (pending.erase job) pending := List.erase_sublist
      exact (ordered.sublist erased).append_of_not_set (by simp)
  | executeJob =>
      exact (ordered.sublist (List.tail_sublist pending)).append_of_not_set (by simp)

/-- The head of an ordered stack is the most recently set pending job. -/
theorem head_most_recent
    {job : Job}
    {rest : List Job}
    (ordered : SetOrdered history (job :: rest))
    {other : Job}
    (member : other ∈ rest) :
    lastSet other history < lastSet job history :=
  (List.pairwise_cons.mp ordered.decreasing).1 other member

end SetOrdered

namespace BPendingGroup

open PendingOp

variable {Job : Type} [DecidableEq Job]

/--
Every run of accepted calls keeps the representation, acting on the stack as
the calls' `pendingAfter` say, and keeps the stack ordered by set time.
-/
theorem run?_invariant
    {g final : BPendingGroup Job}
    {pending : List Job}
    {history ops : List (PendingOp Job)}
    (represents : g.Represents pending)
    (ordered : SetOrdered history pending)
    (run : g.run? ops = some final) :
    final.Represents (ops.foldl pendingAfter pending) ∧
      SetOrdered (history ++ ops) (ops.foldl pendingAfter pending) := by
  induction ops generalizing g pending history with
  | nil =>
      simp only [run?, Option.some.injEq] at run
      subst run
      exact ⟨represents, by simpa using ordered⟩
  | cons op rest inductionHypothesis =>
      simp only [run?] at run
      cases stepped : op.step? g with
      | none =>
          simp [stepped] at run
      | some next =>
          rw [stepped] at run
          have invariant := inductionHypothesis (represents.step stepped)
            (ordered.step represents.linked.nodup op) run
          simpa using invariant

/--
What a group reached by `history` holds: the linked stack of the set jobs,
each once, by decreasing time of their most recent set; jobs off the stack are
marked by a `next` pointer to themselves; and `BPendingGroup_ExecuteJob` pops
the most recently set pending job.
-/
structure StackInvariant
    (history : List (PendingOp Job))
    (g : BPendingGroup Job)
    (pending : List Job) : Prop where
  stack : pending = history.foldl pendingAfter []
  linked : g.jobs.Linked pending
  nodup : pending.Nodup
  isSet_iff : ∀ job, g.debugObject job = true →
    (BSmallPending.isSet job g = true ↔ job ∈ pending)
  marked : ∀ job, g.debugObject job = true → job ∉ pending → g.jobs.next job = some job
  ordered : SetOrdered history pending
  executeJob : ∀ job next, g.executeJob = some (job, next) →
    pending.head? = some job ∧
      (∀ other ∈ pending, other ≠ job → lastSet other history < lastSet job history) ∧
      next.Represents pending.tail

/-- From a fresh group, every run of accepted calls keeps `StackInvariant`. -/
theorem init_run?_stack
    (memory : SLinkedList Job)
    (history : List (PendingOp Job))
    {g : BPendingGroup Job}
    (run : (init memory).run? history = some g) :
    ∃ pending, StackInvariant history g pending := by
  obtain ⟨represents, ordered⟩ :=
    run?_invariant (represents_init memory) ⟨List.Pairwise.nil, by simp⟩ run
  rw [List.nil_append] at ordered
  refine ⟨_, ⟨rfl, represents.linked, represents.linked.nodup,
    fun job initialized => represents.isSet_iff initialized, represents.marked, ordered, ?_⟩⟩
  intro job next executed
  obtain ⟨stackShape, popped⟩ := represents.executeJob executed
  refine ⟨by rw [stackShape]; rfl, ?_, popped⟩
  intro other member different
  rw [stackShape] at member ordered
  exact ordered.head_most_recent
    ((List.mem_cons.mp member).resolve_left different)

end BPendingGroup

end Tun2SocksWinRT
