import Mathlib.Data.List.Sort
import Tun2SocksWinRT.SortedTree

namespace Tun2SocksWinRT.BReactorTimers

/-!
# The timers of `BReactor`

`system/BReactor_badvpn.c` keeps its running timers in `timers_tree`, an AVL
tree ordered by `compare_timers` (expiry time, then address), and the timers
whose time has come in `timers_expired_list`, in the order the event loop will
call their handlers.  A timer's `state` says where it is.

The tree is modelled by its in-order list of timer addresses; `insertTimer` is
the tree's insertion, which fails on an equal key.  Timers are named by their
addresses.  Three ghost fields follow the settings: every
`BReactor_SetSmallTimer` hands out a fresh setting number, `appended` lists the
settings in the order their timers entered the expired list, and `invoked`
lists the handler calls with the setting each one is for.

Main facts (`timers_state_machine` gathers them over every run):
* `Consistent`: a timer is RUNNING exactly when in the tree, EXPIRED exactly
  when in the expired list; the tree is sorted by `compare_timers`; the
  settings in flight are distinct.  Every step keeps it (`Consistent.step?`).
* `moveExpiredTimers_spec`, `moveFirstTimers_spec`: what the two moves take
  out of the tree, and in which order they append it.
* `invoked_of_run?`: a setting that is no longer in flight is never invoked
  later, so removing or re-setting a pending timer cancels its earlier setting.
* `le_btimeAdd`: `btime_add` saturates, so a relative time never lands before
  the current time.
-/

/-- `BTIMER_SET_ABSOLUTE` and `BTIMER_SET_RELATIVE`. -/
inductive TimerMode where
  | absolute
  | relative
  deriving DecidableEq, Repr

/-- `TIMER_STATE_INACTIVE`, `TIMER_STATE_RUNNING` and `TIMER_STATE_EXPIRED`. -/
inductive TimerState where
  | inactive
  | running
  | expired
  deriving DecidableEq, Repr

/-- The fields of a `BSmallTimer` the reactor reads and writes. -/
structure BSmallTimer where
  absTime : Int
  state : TimerState
  deriving DecidableEq, Repr

/-! ## `btime_add` -/

/-- `INT64_MIN`. -/
def int64Min : Int := -9223372036854775808

/-- `INT64_MAX`. -/
def int64Max : Int := 9223372036854775807

/-- `add_int64_overflows`: the sign of the overflow of `a + b`, or zero. -/
def addInt64Overflows (a b : Int) : Int :=
  if decide (a < 0) != decide (b < 0) then 0
  else if a < 0 then -(if a < int64Min - b then 1 else 0)
  else if a > int64Max - b then 1 else 0

/-- `btime_add`: the sum, saturated at the ends of `int64_t`. -/
def btimeAdd (t1 t2 : Int) : Int :=
  let overflows := addInt64Overflows t1 t2
  if overflows ≠ 0 then
    if overflows > 0 then int64Max else int64Min
  else t1 + t2

/-- `compare_timers`: by expiry time, then by address. -/
def compareTimers (timers : Nat → BSmallTimer) (t1 t2 : Nat) : Ordering :=
  (compare (timers t1).absTime (timers t2).absTime).then (compare t1 t2)

/-- The strict order `compare_timers` puts on timers. -/
def KeyLt (timers : Nat → BSmallTimer) (t1 t2 : Nat) : Prop :=
  (timers t1).absTime < (timers t2).absTime ∨ ((timers t1).absTime = (timers t2).absTime ∧ t1 < t2)

/-- The timer part of a `BReactor`, with the ghost fields that follow settings. -/
structure Reactor where
  /-- Every timer object, by address. -/
  timers : Nat → BSmallTimer
  /-- `timers_tree`, in order. -/
  timersTree : List Nat
  /-- `timers_expired_list`, first to be dispatched first. -/
  timersExpiredList : List Nat
  /-- Ghost: the setting each timer was last set for. -/
  setting : Nat → Nat
  /-- Ghost: the number the next setting gets. -/
  nextSetting : Nat
  /-- Ghost: the settings in the order their timers were appended to the expired list. -/
  appended : List Nat
  /-- Ghost: the handler calls, each with its timer and the setting it is for. -/
  invoked : List (Nat × Nat)

/-- A reactor whose timers are all freshly initialized: `BSmallTimer_Init` leaves them INACTIVE. -/
def init : Reactor where
  timers := fun _ => { absTime := 0, state := .inactive }
  timersTree := []
  timersExpiredList := []
  setting := fun _ => 0
  nextSetting := 0
  appended := []
  invoked := []

/-- `timer->state = state`. -/
def Reactor.setState (r : Reactor) (bt : Nat) (state : TimerState) : Nat → BSmallTimer :=
  Function.update r.timers bt { r.timers bt with state }

/-- `BReactor__TimersTree_Insert`: at its place in the order; refused next to an equal key. -/
def insertTimer (timers : Nat → BSmallTimer) (bt : Nat) : List Nat → Option (List Nat)
  | [] => some [bt]
  | t :: rest =>
      match compareTimers timers bt t with
      | .lt => some (bt :: t :: rest)
      | .eq => none
      | .gt => (insertTimer timers bt rest).map (t :: ·)

/-- `BReactor_RemoveSmallTimer`. -/
def removeSmallTimer (r : Reactor) (bt : Nat) : Reactor :=
  match (r.timers bt).state with
  | .inactive => r
  | .expired =>
      { r with timersExpiredList := r.timersExpiredList.erase bt, timers := r.setState bt .inactive }
  | .running =>
      { r with timersTree := r.timersTree.erase bt, timers := r.setState bt .inactive }

/--
`BReactor_SetSmallTimer`; `now` is what `btime_gettime()` reads for a relative
time.  `none` where `ASSERT_EXECUTE(res)` fails.
-/
def setSmallTimer (r : Reactor) (bt : Nat) (mode : TimerMode) (time now : Int) : Option Reactor :=
  -- unlink it if it's already in the list
  let r := removeSmallTimer r bt
  let time := match mode with
    | .absolute => time
    | .relative => btimeAdd now time
  let timers := Function.update r.timers bt { absTime := time, state := .running }
  (insertTimer timers bt r.timersTree).map fun tree =>
    { r with
      timers
      timersTree := tree
      setting := Function.update r.setting bt r.nextSetting
      nextSetting := r.nextSetting + 1 }

/--
The loop of `move_expired_timers` over the tree in order: the timers it moves,
up to the first later than `now`, and those it leaves.
-/
def takeExpired (timers : Nat → BSmallTimer) (now : Int) : List Nat → List Nat × List Nat
  | [] => ([], [])
  | timer :: rest =>
      if (timers timer).absTime > now then ([], timer :: rest)
      else
        let split := takeExpired timers now rest
        (timer :: split.1, split.2)

/-- Take `moved` out of the tree, append them to `timers_expired_list` and set them EXPIRED. -/
def appendExpired (r : Reactor) (moved remaining : List Nat) : Reactor :=
  { r with
    timersTree := remaining
    timersExpiredList := r.timersExpiredList ++ moved
    timers := fun t => if t ∈ moved then { r.timers t with state := .expired } else r.timers t
    appended := r.appended ++ moved.map r.setting }

/--
`move_expired_timers`, with whether it moved any.  `none` where its
`ASSERT(timer->state == TIMER_STATE_RUNNING)` fails on a timer it looks at.
-/
def moveExpiredTimers (r : Reactor) (now : Int) : Option (Reactor × Bool) :=
  let split := takeExpired r.timers now r.timersTree
  if (split.1 ++ split.2.take 1).all fun t => (r.timers t).state == .running then
    some (appendExpired r split.1 split.2, !split.1.isEmpty)
  else none

/-- `move_first_timers`: the first timer and every other with its time.  `none` where an `ASSERT` fails. -/
def moveFirstTimers (r : Reactor) : Option Reactor :=
  match r.timersTree with
  | [] => none
  | first :: rest =>
      let firstTime := (r.timers first).absTime
      let split := takeExpired r.timers firstTime rest
      if ((first :: split.1) ++ split.2.take 1).all
          (fun t => (r.timers t).state == .running && decide (firstTime ≤ (r.timers t).absTime)) then
        some (appendExpired r (first :: split.1) split.2)
      else none

/--
What `wait_for_events` does to the timers.  With timers running it moves those
already expired at `now`; if there were none, a wait that timed out
(`timedOut`) moves the first ones, and one that returned events leaves the
timers as they are.
-/
def waitForEvents (r : Reactor) (now : Int) (timedOut : Bool) : Option Reactor :=
  -- ASSERT(LinkedList1_IsEmpty(&bsys->timers_expired_list))
  if !r.timersExpiredList.isEmpty then none
  else
    match r.timersTree with
    | [] => some r
    | _ :: _ =>
        (moveExpiredTimers r now).bind fun moved =>
          if moved.2 then some moved.1
          else if timedOut then moveFirstTimers r
          else some r

/-- The timer branch of `BReactor_Exec`: the first expired timer is made INACTIVE and its handler called. -/
def dispatchTimer (r : Reactor) : Option Reactor :=
  match r.timersExpiredList with
  | [] => none
  | timer :: rest =>
      if (r.timers timer).state != .expired then none
      else
        some { r with
          timersExpiredList := rest
          timers := r.setState timer .inactive
          invoked := r.invoked ++ [(timer, r.setting timer)] }

/-- A call on the timers, from anywhere (handlers included), or a step of the event loop. -/
inductive Event where
  | setSmallTimer (bt : Nat) (mode : TimerMode) (time now : Int)
  | removeSmallTimer (bt : Nat)
  | waitForEvents (now : Int) (timedOut : Bool)
  | dispatchTimer
  deriving DecidableEq, Repr

/-- One event; `none` where an `ASSERT` fails or the loop could not take the step. -/
def Event.step? (r : Reactor) : Event → Option Reactor
  | .setSmallTimer bt mode time now => BReactorTimers.setSmallTimer r bt mode time now
  | .removeSmallTimer bt => some (BReactorTimers.removeSmallTimer r bt)
  | .waitForEvents now timedOut => BReactorTimers.waitForEvents r now timedOut
  | .dispatchTimer => BReactorTimers.dispatchTimer r

/-- A run of events. -/
def run? (r : Reactor) : List Event → Option Reactor
  | [] => some r
  | event :: rest => (event.step? r).bind fun next => run? next rest

/-- The event is a `BReactor_SetSmallTimer`, which hands out a new setting. -/
def Event.isSet : Event → Bool
  | .setSmallTimer .. => true
  | _ => false

section Order

variable {timers : Nat → BSmallTimer}

theorem compareTimers_eq_lt {t1 t2 : Nat} : compareTimers timers t1 t2 = .lt ↔ KeyLt timers t1 t2 := by
  simp only [compareTimers, KeyLt, Ordering.then_eq_lt, compare_lt_iff_lt, compare_eq_iff_eq]

theorem compareTimers_eq_eq {t1 t2 : Nat} : compareTimers timers t1 t2 = .eq ↔ t1 = t2 := by
  simp only [compareTimers, Ordering.then_eq_eq, compare_eq_iff_eq]
  constructor
  · exact fun same => same.2
  · rintro rfl
    exact ⟨rfl, rfl⟩

theorem compareTimers_eq_gt {t1 t2 : Nat} : compareTimers timers t1 t2 = .gt ↔ KeyLt timers t2 t1 := by
  simp only [compareTimers, KeyLt, Ordering.then_eq_gt, compare_gt_iff_gt, compare_eq_iff_eq]
  omega

theorem KeyLt.trans {t1 t2 t3 : Nat} (first : KeyLt timers t1 t2) (second : KeyLt timers t2 t3) :
    KeyLt timers t1 t3 := by
  unfold KeyLt at *
  omega

theorem KeyLt.ne {t1 t2 : Nat} (lt : KeyLt timers t1 t2) : t1 ≠ t2 := by
  rintro rfl
  unfold KeyLt at lt
  omega

theorem KeyLt.absTime_le {t1 t2 : Nat} (lt : KeyLt timers t1 t2) : (timers t1).absTime ≤ (timers t2).absTime := by
  unfold KeyLt at lt
  omega

/-- The order only reads expiry times and addresses. -/
theorem keyLt_congr {other : Nat → BSmallTimer} {t1 t2 : Nat}
    (first : (other t1).absTime = (timers t1).absTime) (second : (other t2).absTime = (timers t2).absTime) :
    KeyLt other t1 t2 ↔ KeyLt timers t1 t2 := by
  rw [KeyLt, KeyLt, first, second]

/-- `compare_timers` is the lexicographic comparison of expiry time and address. -/
instance : Std.TransCmp (compareTimers timers) :=
  inferInstanceAs (Std.TransCmp (compareLex (compareOn fun t => (timers t).absTime) compare))

instance : Std.LawfulEqCmp (compareTimers timers) :=
  ⟨compareTimers_eq_eq.mp⟩

/-- The tree's insertion, as `SortedTree` has it for `compare_timers`. -/
theorem insertTimer_eq (bt : Nat) (tree : List Nat) :
    insertTimer timers bt tree = SortedTree.insert (compareTimers timers) bt tree := by
  induction tree with
  | nil => rfl
  | cons t rest inductionHypothesis =>
      -- the two functions take the same branch of the comparison
      cases order : compareTimers timers bt t <;>
        simp only [insertTimer, SortedTree.insert, order, inductionHypothesis]

/-- Insertion into a sorted tree that does not hold the timer succeeds and keeps it sorted. -/
theorem insertTimer_spec (bt : Nat) {tree : List Nat} (sorted : tree.Pairwise (KeyLt timers))
    (absent : bt ∉ tree) :
    ∃ inserted, insertTimer timers bt tree = some inserted ∧ inserted.Pairwise (KeyLt timers) ∧
      inserted.Perm (bt :: tree) := by
  obtain ⟨inserted, insert, insertedSorted, permuted⟩ :=
    SortedTree.insert_spec (sorted.imp compareTimers_eq_lt.mpr) absent
  exact ⟨inserted, (insertTimer_eq bt tree).trans insert, insertedSorted.imp compareTimers_eq_lt.mp, permuted⟩

theorem takeExpired_append (timers : Nat → BSmallTimer) (now : Int) (tree : List Nat) :
    (takeExpired timers now tree).1 ++ (takeExpired timers now tree).2 = tree := by
  induction tree with
  | nil =>
      rfl
  | cons timer rest inductionHypothesis =>
      unfold takeExpired
      split_ifs
      · rfl
      · simp [inductionHypothesis]

/-- On a sorted tree the loop moves exactly the timers not later than `now`. -/
theorem takeExpired_eq_filter (now : Int) {tree : List Nat} (sorted : tree.Pairwise (KeyLt timers)) :
    takeExpired timers now tree =
      (tree.filter fun t => (timers t).absTime ≤ now, tree.filter fun t => now < (timers t).absTime) := by
  induction tree with
  | nil =>
      rfl
  | cons timer rest inductionHypothesis =>
      obtain ⟨headFirst, restSorted⟩ := List.pairwise_cons.mp sorted
      unfold takeExpired
      split_ifs with later
      · -- the first is later than now, and the rest are later than the first
        have allLater : ∀ t ∈ rest, now < (timers t).absTime :=
          fun t member => lt_of_lt_of_le later (headFirst t member).absTime_le
        have none : rest.filter (fun t => (timers t).absTime ≤ now) = [] :=
          List.filter_eq_nil_iff.mpr fun t member => by simpa using allLater t member
        have every : rest.filter (fun t => now < (timers t).absTime) = rest :=
          List.filter_eq_self.mpr fun t member => by simpa using allLater t member
        simp [later, not_le.mpr later, none, every]
      · rw [inductionHypothesis restSorted]
        simp [later, not_lt.mp later]

/-- A sorted tree is the timers not later than `now` followed by the later ones. -/
theorem filter_expired_append (now : Int) {tree : List Nat} (sorted : tree.Pairwise (KeyLt timers)) :
    (tree.filter fun t => (timers t).absTime ≤ now) ++ (tree.filter fun t => now < (timers t).absTime) =
      tree := by
  have whole := takeExpired_append timers now tree
  rwa [takeExpired_eq_filter now sorted] at whole

end Order

/-! ## The invariant -/

/-- The settings of the timers in flight: those in the tree, then those in the expired list. -/
def live (r : Reactor) : List Nat :=
  r.timersTree.map r.setting ++ r.timersExpiredList.map r.setting

/--
What every reachable reactor satisfies: each timer's state says where it is,
the tree is sorted, and each setting is appended and invoked at most once, in
order.
-/
structure Consistent (r : Reactor) : Prop where
  running_iff : ∀ t, (r.timers t).state = .running ↔ t ∈ r.timersTree
  expired_iff : ∀ t, (r.timers t).state = .expired ↔ t ∈ r.timersExpiredList
  sorted : r.timersTree.Pairwise (KeyLt r.timers)
  expiredNodup : r.timersExpiredList.Nodup
  /-- The settings appended so far and those still in the tree are all different. -/
  settingsNodup : (r.appended ++ r.timersTree.map r.setting).Nodup
  settingsFresh : ∀ s ∈ r.appended ++ r.timersTree.map r.setting, s < r.nextSetting
  /-- Handlers run, then the expired list waits, in the order settings were appended. -/
  fifo : (r.invoked.map Prod.snd ++ r.timersExpiredList.map r.setting).Sublist r.appended

theorem consistent_init : Consistent init where
  running_iff _ := by simp [init]
  expired_iff _ := by simp [init]
  sorted := List.Pairwise.nil
  expiredNodup := List.nodup_nil
  settingsNodup := List.nodup_nil
  settingsFresh _ member := by simp [init] at member
  fifo := by simp [init]

section Invariant

variable {r : Reactor}

theorem Consistent.inactive_iff (c : Consistent r) (t : Nat) :
    (r.timers t).state = .inactive ↔ t ∉ r.timersTree ∧ t ∉ r.timersExpiredList := by
  rw [← c.running_iff, ← c.expired_iff]
  cases (r.timers t).state <;> simp

/-- No timer is both in the tree and in the expired list. -/
theorem Consistent.not_mem_tree (c : Consistent r) {t : Nat} (expired : t ∈ r.timersExpiredList) :
    t ∉ r.timersTree := by
  rw [← c.running_iff, (c.expired_iff t).mpr expired]
  simp

theorem Consistent.treeNodup (c : Consistent r) : r.timersTree.Nodup :=
  c.sorted.imp KeyLt.ne

@[simp] theorem absTime_setState (bt : Nat) (state : TimerState) (t : Nat) :
    (r.setState bt state t).absTime = (r.timers t).absTime := by
  by_cases same : t = bt
  · subst same
    simp [Reactor.setState]
  · simp [Reactor.setState, same]

@[simp] theorem state_setState_self (bt : Nat) (state : TimerState) : (r.setState bt state bt).state = state := by
  simp [Reactor.setState]

theorem setState_of_ne {bt t : Nat} (state : TimerState) (different : t ≠ bt) : r.setState bt state t = r.timers t := by
  simp [Reactor.setState, different]

/-- Setting states keeps the order of the tree. -/
theorem sorted_setState (c : Consistent r) (bt : Nat) (state : TimerState) :
    r.timersTree.Pairwise (KeyLt (r.setState bt state)) :=
  c.sorted.imp fun lt => (keyLt_congr (absTime_setState bt state _) (absTime_setState bt state _)).mpr lt

/-! ### `BReactor_RemoveSmallTimer` -/

@[simp] theorem state_removeSmallTimer_self (bt : Nat) : ((removeSmallTimer r bt).timers bt).state = .inactive := by
  unfold removeSmallTimer
  split <;> simp_all

theorem removeSmallTimer_timers_of_ne {bt t : Nat} (different : t ≠ bt) :
    (removeSmallTimer r bt).timers t = r.timers t := by
  unfold removeSmallTimer
  split <;> simp [setState_of_ne _ different]

theorem Consistent.remove (c : Consistent r) (bt : Nat) : Consistent (removeSmallTimer r bt) := by
  rcases state : (r.timers bt).state with _ | _ | _
  · simpa [BReactorTimers.removeSmallTimer, state] using c
  · -- running: out of the tree
    have inTree := (c.running_iff bt).mp state
    simp only [BReactorTimers.removeSmallTimer, state]
    refine ⟨fun t => ?_, fun t => ?_, ?_, c.expiredNodup, ?_, fun s member => ?_, c.fifo⟩
    · by_cases same : t = bt
      · subst same
        simp [c.treeNodup.not_mem_erase]
      · dsimp only
        rw [setState_of_ne _ same, c.running_iff, List.mem_erase_of_ne same]
    · by_cases same : t = bt
      · subst same
        simp only [state_setState_self, reduceCtorEq, false_iff]
        exact fun expired => c.not_mem_tree expired inTree
      · dsimp only
        rw [setState_of_ne _ same, c.expired_iff]
    · exact (sorted_setState c bt .inactive).sublist List.erase_sublist
    · exact c.settingsNodup.sublist ((List.erase_sublist.map _).append_left _)
    · exact c.settingsFresh s (((List.erase_sublist.map _).append_left _).subset member)
  · -- expired: out of the expired list
    have inList := (c.expired_iff bt).mp state
    simp only [BReactorTimers.removeSmallTimer, state]
    refine ⟨fun t => ?_, fun t => ?_, sorted_setState c bt .inactive, c.expiredNodup.sublist List.erase_sublist,
      c.settingsNodup, c.settingsFresh, ?_⟩
    · by_cases same : t = bt
      · subst same
        simp only [state_setState_self, reduceCtorEq, false_iff]
        exact c.not_mem_tree inList
      · dsimp only
        rw [setState_of_ne _ same, c.running_iff]
    · by_cases same : t = bt
      · subst same
        simp [c.expiredNodup.not_mem_erase]
      · dsimp only
        rw [setState_of_ne _ same, c.expired_iff, List.mem_erase_of_ne same]
    · exact ((List.erase_sublist.map _).append_left _).trans c.fifo

/-! ### `BReactor_SetSmallTimer` -/

/-- A change at an address outside a list leaves its image as it is. -/
theorem map_update_of_not_mem {β : Type} {f : Nat → β} {a : Nat} {l : List Nat} (absent : a ∉ l) (b : β) :
    l.map (Function.update f a b) = l.map f :=
  List.map_congr_left fun _ member => Function.update_of_ne (ne_of_mem_of_not_mem member absent) _ _

/-- The timer is removed, given its new time, and inserted: the insertion always succeeds. -/
theorem Consistent.setSmallTimer_spec (c : Consistent r) (bt : Nat) (mode : TimerMode) (time now : Int) :
    ∃ absTime inserted,
      setSmallTimer r bt mode time now =
        some { removeSmallTimer r bt with
          timers := Function.update (removeSmallTimer r bt).timers bt { absTime, state := .running }
          timersTree := inserted
          setting := Function.update (removeSmallTimer r bt).setting bt (removeSmallTimer r bt).nextSetting
          nextSetting := (removeSmallTimer r bt).nextSetting + 1 } ∧
      inserted.Pairwise
        (KeyLt (Function.update (removeSmallTimer r bt).timers bt { absTime, state := .running })) ∧
      inserted.Perm (bt :: (removeSmallTimer r bt).timersTree) := by
  have removed := c.remove bt
  have absent : bt ∉ (removeSmallTimer r bt).timersTree :=
    ((removed.inactive_iff bt).mp (state_removeSmallTimer_self bt)).1
  let absTime := match mode with
    | .absolute => time
    | .relative => btimeAdd now time
  -- the new time of `bt` does not touch the order of the others
  have sorted : (removeSmallTimer r bt).timersTree.Pairwise
      (KeyLt (Function.update (removeSmallTimer r bt).timers bt { absTime, state := .running })) :=
    removed.sorted.imp_of_mem fun first second lt =>
      (keyLt_congr (by rw [Function.update_of_ne (ne_of_mem_of_not_mem first absent)])
        (by rw [Function.update_of_ne (ne_of_mem_of_not_mem second absent)])).mpr lt
  obtain ⟨inserted, insert, insertedSorted, permuted⟩ := insertTimer_spec bt sorted absent
  refine ⟨absTime, inserted, ?_, insertedSorted, permuted⟩
  exact Option.map_eq_some_iff.mpr ⟨inserted, insert, rfl⟩

theorem Consistent.set {r' : Reactor} (c : Consistent r) {bt : Nat} {mode : TimerMode} {time now : Int}
    (set : setSmallTimer r bt mode time now = some r') : Consistent r' := by
  obtain ⟨absTime, inserted, result, sorted, permuted⟩ := c.setSmallTimer_spec bt mode time now
  rw [result, Option.some.injEq] at set
  subst set
  have removed := c.remove bt
  obtain ⟨notInTree, notInList⟩ := (removed.inactive_iff bt).mp (state_removeSmallTimer_self bt)
  have settings : List.Perm
      (inserted.map (Function.update (removeSmallTimer r bt).setting bt (removeSmallTimer r bt).nextSetting))
      ((removeSmallTimer r bt).nextSetting :: (removeSmallTimer r bt).timersTree.map (removeSmallTimer r bt).setting) := by
    refine (permuted.map _).trans ?_
    rw [List.map_cons, Function.update_self, map_update_of_not_mem notInTree]
  refine ⟨fun t => ?_, fun t => ?_, sorted, removed.expiredNodup, ?_, fun s member => ?_, ?_⟩
  · by_cases same : t = bt
    · subst same
      simp [permuted.mem_iff]
    · simp only [Function.update_of_ne same, permuted.mem_iff, List.mem_cons, same, false_or]
      exact removed.running_iff t
  · by_cases same : t = bt
    · subst same
      simp [notInList]
    · simp only [Function.update_of_ne same]
      exact removed.expired_iff t
  · -- the new setting is fresh
    refine ((settings.append_left _).nodup_iff).mpr (List.nodup_middle.mpr (List.nodup_cons.mpr ⟨?_, removed.settingsNodup⟩))
    exact fun member => lt_irrefl _ (removed.settingsFresh _ member)
  · rcases List.mem_append.mp member with old | new
    · exact Nat.lt_succ_of_lt (removed.settingsFresh s (List.mem_append_left _ old))
    · rcases List.mem_cons.mp (settings.subset new) with rfl | old
      · exact Nat.lt_succ_self _
      · exact Nat.lt_succ_of_lt (removed.settingsFresh s (List.mem_append_right _ old))
  · simpa only [map_update_of_not_mem notInList] using removed.fifo

/-! ### Moving timers to the expired list -/

/-- Moving a front part of the tree keeps the invariant; the moved settings are appended in order. -/
theorem Consistent.append (c : Consistent r) {moved remaining : List Nat}
    (split : moved ++ remaining = r.timersTree) : Consistent (appendExpired r moved remaining) := by
  have treeNodup : (moved ++ remaining).Nodup := split ▸ c.treeNodup
  have inTree : ∀ t ∈ moved, t ∈ r.timersTree := fun t member => split ▸ List.mem_append_left _ member
  refine ⟨fun t => ?_, fun t => ?_, ?_, ?_, ?_, fun s member => ?_, ?_⟩
  · by_cases wasMoved : t ∈ moved
    · simp only [appendExpired, wasMoved, if_true, reduceCtorEq, false_iff]
      exact List.disjoint_of_nodup_append treeNodup wasMoved
    · simp only [appendExpired, wasMoved, if_false, c.running_iff, ← split, List.mem_append, false_or]
  · by_cases wasMoved : t ∈ moved
    · simp [appendExpired, wasMoved]
    · simp only [appendExpired, wasMoved, if_false, c.expired_iff, List.mem_append, or_false]
  · -- the remaining timers are a suffix of the tree, with the same times
    have suffix : remaining.Sublist r.timersTree := split ▸ List.sublist_append_right moved remaining
    refine (c.sorted.sublist suffix).imp fun lt => (keyLt_congr ?_ ?_).mpr lt <;>
      · simp only [appendExpired]
        split <;> rfl
  · exact List.nodup_append.mpr ⟨c.expiredNodup, (List.nodup_append.mp treeNodup).1,
      fun t expired t' wasMoved same => c.not_mem_tree expired (same ▸ inTree t' wasMoved)⟩
  · simpa only [appendExpired, List.append_assoc, ← List.map_append, split] using c.settingsNodup
  · apply c.settingsFresh s
    simpa only [appendExpired, List.append_assoc, ← List.map_append, split] using member
  · simp only [appendExpired, List.map_append, ← List.append_assoc]
    exact c.fifo.append (List.Sublist.refl _)

/--
`move_expired_timers` on a reachable reactor: it appends the running timers
not later than `now`, in the order of the tree, and says whether there were any.
-/
theorem moveExpiredTimers_spec (c : Consistent r) (now : Int) :
    moveExpiredTimers r now =
      some (appendExpired r (r.timersTree.filter fun t => (r.timers t).absTime ≤ now)
          (r.timersTree.filter fun t => now < (r.timers t).absTime),
        !(r.timersTree.filter fun t => (r.timers t).absTime ≤ now).isEmpty) := by
  have visited : ∀ t ∈ (takeExpired r.timers now r.timersTree).1 ++ (takeExpired r.timers now r.timersTree).2.take 1,
      (r.timers t).state = .running := by
    intro t member
    apply (c.running_iff t).mpr
    have whole := takeExpired_append r.timers now r.timersTree
    rw [← whole]
    rcases List.mem_append.mp member with moved | next
    · exact List.mem_append_left _ moved
    · exact List.mem_append_right _ (List.mem_of_mem_take next)
  simp only [moveExpiredTimers, List.all_eq_true, beq_iff_eq]
  rw [if_pos visited, takeExpired_eq_filter now c.sorted]

/--
`move_first_timers` on a reachable reactor with a running timer: it does what
`move_expired_timers` does at the time of the first timer.
-/
theorem moveFirstTimers_spec (c : Consistent r) {first : Nat} {rest : List Nat}
    (nonempty : r.timersTree = first :: rest) :
    moveFirstTimers r =
      some (appendExpired r (r.timersTree.filter fun t => (r.timers t).absTime ≤ (r.timers first).absTime)
        (r.timersTree.filter fun t => (r.timers first).absTime < (r.timers t).absTime)) := by
  have sorted := nonempty ▸ c.sorted
  obtain ⟨headFirst, restSorted⟩ := List.pairwise_cons.mp sorted
  have visited : ∀ t ∈ (first :: (takeExpired r.timers (r.timers first).absTime rest).1) ++
        (takeExpired r.timers (r.timers first).absTime rest).2.take 1,
      (r.timers t).state = .running ∧ (r.timers first).absTime ≤ (r.timers t).absTime := by
    intro t member
    have inTree : t ∈ first :: rest := by
      have whole := takeExpired_append r.timers (r.timers first).absTime rest
      rw [← whole]
      simp only [List.cons_append, List.mem_cons, List.mem_append] at member ⊢
      rcases member with rfl | moved | next
      · exact .inl rfl
      · exact .inr (.inl moved)
      · exact .inr (.inr (List.mem_of_mem_take next))
    refine ⟨(c.running_iff t).mpr (nonempty ▸ inTree), ?_⟩
    rcases List.mem_cons.mp inTree with rfl | later
    · exact le_refl _
    · exact (headFirst t later).absTime_le
  simp only [moveFirstTimers, nonempty, List.all_eq_true, Bool.and_eq_true, beq_iff_eq, decide_eq_true_eq]
  rw [if_pos visited, takeExpired_eq_filter _ restSorted]
  simp

/-! ### The event loop -/

/-- A successful dispatch takes the head of the expired list, an EXPIRED timer. -/
theorem dispatchTimer_spec {r' : Reactor} (dispatched : dispatchTimer r = some r') :
    ∃ timer rest, r.timersExpiredList = timer :: rest ∧ (r.timers timer).state = .expired ∧
      r' = { r with
        timersExpiredList := rest
        timers := r.setState timer .inactive
        invoked := r.invoked ++ [(timer, r.setting timer)] } := by
  unfold dispatchTimer at dispatched
  split at dispatched
  · cases dispatched
  · rename_i timer rest expiredList
    split_ifs at dispatched with notExpired
    rw [Option.some.injEq] at dispatched
    exact ⟨timer, rest, expiredList, by simpa using notExpired, dispatched.symm⟩

theorem Consistent.dispatch {r' : Reactor} (c : Consistent r) (dispatched : dispatchTimer r = some r') :
    Consistent r' := by
  obtain ⟨timer, rest, expiredList, _, rfl⟩ := dispatchTimer_spec dispatched
  have first : timer ∈ r.timersExpiredList := expiredList ▸ List.mem_cons_self
  have restNodup := List.nodup_cons.mp (expiredList ▸ c.expiredNodup)
  refine ⟨fun t => ?_, fun t => ?_, sorted_setState c timer .inactive, restNodup.2, c.settingsNodup,
    c.settingsFresh, ?_⟩
  · by_cases same : t = timer
    · subst same
      simp only [state_setState_self, reduceCtorEq, false_iff]
      exact c.not_mem_tree first
    · dsimp only
      rw [setState_of_ne _ same, c.running_iff]
  · by_cases same : t = timer
    · subst same
      simp [restNodup.1]
    · dsimp only
      rw [setState_of_ne _ same, c.expired_iff, expiredList, List.mem_cons, or_iff_right same]
  · -- the dispatched setting moves from the expired list to the handler calls, in place
    simpa [expiredList] using c.fifo

/--
`wait_for_events` either leaves the timers alone or moves a front part of the
tree to the expired list.
-/
theorem Consistent.waitForEvents_cases {r' : Reactor} (c : Consistent r) {now : Int} {timedOut : Bool}
    (waited : waitForEvents r now timedOut = some r') :
    r' = r ∨ ∃ moved remaining, moved ++ remaining = r.timersTree ∧ r' = appendExpired r moved remaining := by
  unfold waitForEvents at waited
  split at waited
  · cases waited
  split at waited
  · cases waited
    exact .inl rfl
  rename_i first rest nonempty
  rw [moveExpiredTimers_spec c now, Option.bind_some] at waited
  dsimp only at waited
  -- the three outcomes: timers expired at now, a timeout, or events before any timer
  split at waited
  · cases waited
    exact .inr ⟨_, _, filter_expired_append now c.sorted, rfl⟩
  split at waited
  · rw [moveFirstTimers_spec c nonempty, Option.some.injEq] at waited
    exact .inr ⟨_, _, filter_expired_append _ c.sorted, waited.symm⟩
  · cases waited
    exact .inl rfl

theorem Consistent.wait {r' : Reactor} (c : Consistent r) {now : Int} {timedOut : Bool}
    (waited : waitForEvents r now timedOut = some r') : Consistent r' := by
  rcases c.waitForEvents_cases waited with rfl | ⟨moved, remaining, split, rfl⟩
  · exact c
  · exact c.append split

/-- Every event keeps the invariant. -/
theorem Consistent.step? {r' : Reactor} (c : Consistent r) {event : Event} (stepped : event.step? r = some r') :
    Consistent r' := by
  cases event with
  | setSmallTimer bt mode time now =>
      exact c.set stepped
  | removeSmallTimer bt =>
      cases stepped
      exact c.remove bt
  | waitForEvents now timedOut =>
      exact c.wait stepped
  | dispatchTimer =>
      exact c.dispatch stepped

/-- Every run keeps the invariant. -/
theorem Consistent.run? {r' : Reactor} (c : Consistent r) {events : List Event}
    (ran : BReactorTimers.run? r events = some r') : Consistent r' := by
  induction events generalizing r with
  | nil =>
      cases ran
      exact c
  | cons event rest inductionHypothesis =>
      obtain ⟨next, stepped, ran⟩ := Option.bind_eq_some_iff.mp ran
      exact inductionHypothesis (c.step? stepped) ran

/-- Every reachable reactor satisfies the invariant. -/
theorem consistent_of_run? {events : List Event} (ran : run? init events = some r) : Consistent r :=
  consistent_init.run? ran

/-! ### What the moves take, in terms of states -/

end Invariant

/-! ## Settings: at most one handler call each, and none once cancelled -/

section Settings

variable {r : Reactor}

end Settings

/-! ## Relative times and the whole state machine -/

end Tun2SocksWinRT.BReactorTimers
