import Tun2SocksWinRT.CAvlQueries
import Tun2SocksWinRT.KeyedIndex

namespace Tun2SocksWinRT

namespace BAVL

/-!
# `BAVL`: the AVL tree of `structure/BAVL.h`

`BAVL` is the AVL tree `CAvl` was made from: the same nodes (`parent`,
`link[2]`, `balance` and, with `BAVL_COUNT`, `count`), the same rotations,
rebalancing, swap before a removal and walks, with no sums, and with the
user's comparator applied to the values the nodes carry.  Its functions are
those of `CAvl` at the parameters `Params.toCAvl`, one apart: `BAVL_Insert`
does not check the count before it searches, but asserts in its count loop
that each ancestor's count is below `UINT64_MAX` (`insert`).  Below that bound
the two insertions are one (`insert_eq_cavl_insert`).

The two cases of `_BAVL_swap_nodes`, for nodes adjacent or not, both exchange
the places of the two nodes, each place keeping its balance and count, which
is what `CAvl.swapForRemove` does to the tree; the parent links are those of
the tree by construction.  The model has `BAVL_COUNT` on.

A caller that only inserts, removes and looks up exactly sees a tree as the
set of its nodes, as `KeyedIndex` models it; a tree reached from `BAVL_Init`
stands for that set (`Represents`), and each operation the set allows does on
the tree what it does on the set (`keyedIndex_refines`).
-/

open TreeZipper

/-- A tree of nodes, with no sums. -/
abbrev Tree (Entry : Type) := CAvl.Tree Entry Unit

/-- What a `BAVL` reads of its user. -/
structure Params (Entry Value : Type) where
  /-- `_BAVL_node_value`: the value at `offset` in a node's entry -/
  nodeValue : Entry → Value
  /-- `comparator(user, val1, val2)`, which `_BAVL_compare_values` asserts is -1, 0 or 1 -/
  comparator : Value → Value → Ordering

/-- `UINT64_MAX`, the bound of a `count`. -/
def countMax : Nat :=
  2 ^ 64 - 1

variable {Entry Value : Type} (b : Params Entry Value)

/--
The parameters of `CAvl` a `BAVL` is: nodes compared by their values
(`_BAVL_compare_nodes`), a value compared with a node's
(`_BAVL_compare_values`), sums of nothing, counts up to `UINT64_MAX`.
-/
def Params.toCAvl : CAvl.Params Entry Value Unit where
  compareEntries n1 n2 := b.comparator (b.nodeValue n1) (b.nodeValue n2)
  compareKeyEntry val n := b.comparator val (b.nodeValue n)
  assocValue _ := ()
  assocOper _ _ := ()
  assocZero := ()
  countMax := countMax

instance [Std.OrientedCmp b.comparator] : Std.OrientedCmp b.toCAvl.compareEntries :=
  ⟨fun {n1 n2} => (Std.OrientedCmp.eq_swap : b.comparator (b.nodeValue n1) (b.nodeValue n2) = _)⟩

instance [Std.TransCmp b.comparator] : Std.TransCmp b.toCAvl.compareEntries :=
  ⟨fun {n1 n2 n3} => (Std.TransCmp.isLE_trans :
    (b.comparator (b.nodeValue n1) (b.nodeValue n2)).isLE = true →
      (b.comparator (b.nodeValue n2) (b.nodeValue n3)).isLE = true → _)⟩

instance : Std.Associative b.toCAvl.assocOper :=
  ⟨fun _ _ _ => rfl⟩

/-- A value is compared with a node as the node's value is. -/
theorem keyOrder [Std.TransCmp b.comparator] : CAvl.KeyOrder b.toCAvl :=
  CAvl.keyOrder_of_key b.toCAvl b.nodeValue (fun _ _ => rfl) fun _ _ => rfl

/-- Nodes sorted by value have distinct values. -/
theorem distinctKeys_of_sorted {nodes : List Entry} (sorted : SortedTree.Sorted b.toCAvl.compareEntries nodes) :
    KeyedIndex.DistinctKeys b.comparator b.nodeValue nodes :=
  sorted.imp fun below equal => nomatch below.symm.trans equal

section Functions

/-- `BAVL_Init`: the empty tree. -/
def init : Tree Entry :=
  .nil

/-- The count loop of `BAVL_Insert` at an ancestor: `ASSERT(p->count < UINT64_MAX)`, then `p->count++`. -/
def countUp (count : Nat) : Option Nat :=
  if count < countMax then some (count + 1) else none

/--
`BAVL_Insert`: 1, with `*ref` the node the search stopped at (null for an
empty tree), or 0, with `*ref` the node that compares equal.
-/
def insert (o : Tree Entry) (node : Entry) : Option (Bool × Tree Entry × Option Entry) :=
  match o with
  | .nil => some (true, CAvl.leaf b.toCAvl node, none)
  | .node .. =>
      match CAvl.insertSearch b.toCAvl node [] o with
      | none => none
      | some (.equal c) => some (false, o, some c)
      | some (.free path c side) =>
          -- hang the node below `c`, then count it in from `c` up, then rebalance
          (CAvl.touch b.toCAvl countUp (setChild c side (CAvl.leaf b.toCAvl node))).bind fun c' =>
            (CAvl.fixUp b.toCAvl countUp c' path).bind fun path' =>
              (CAvl.rebalance b.toCAvl path' c' side 1).map fun t => (true, t, CAvl.entryOf c)

/-- `BAVL_Lookup`. -/
def lookup (o : Tree Entry) (val : Value) : Option Entry :=
  CAvl.lookup b.toCAvl o val

/-- `BAVL_LookupExact`. -/
def lookupExact (o : Tree Entry) (val : Value) : Option Entry :=
  CAvl.lookupExact b.toCAvl o val

/-- `BAVL_GetFirst`. -/
def getFirst (o : Tree Entry) : Option Entry :=
  CAvl.getFirst o

/-- `BAVL_GetLast`. -/
def getLast (o : Tree Entry) : Option Entry :=
  CAvl.getLast o

/-- `BAVL_Count`. -/
def count (o : Tree Entry) : Nat :=
  CAvl.count o

/-- `BAVL_GetAt`. -/
def getAt (o : Tree Entry) (index : Nat) : Option (Option Entry) :=
  CAvl.getAt o index

/-- `BAVL_Verify`: `_BAVL_assert_recurser` checks what `CAvl_verify_recurser` checks of a keyed tree. -/
def verify (o : Tree Entry) : Bool :=
  CAvl.verify b.toCAvl true o

variable [DecidableEq Entry]

/-- `BAVL_Remove` of a node of the tree. -/
def remove (o : Tree Entry) (node : Entry) : Option (Tree Entry) :=
  CAvl.remove b.toCAvl o node

/-- `BAVL_GetNext`. -/
def getNext (o : Tree Entry) (n : Entry) : Option (Option Entry) :=
  CAvl.getNext o n

/-- `BAVL_GetPrev`. -/
def getPrev (o : Tree Entry) (n : Entry) : Option (Option Entry) :=
  CAvl.getPrev o n

/-- `BAVL_IndexOf`. -/
def indexOf (o : Tree Entry) (n : Entry) : Option Nat :=
  CAvl.indexOf b.toCAvl o n

end Functions

section Insert

@[simp] theorem countOf_setChild (c t : Tree Entry) (side : Bool) :
    CAvl.countOf (setChild c side t) = CAvl.countOf c := by
  cases c <;> cases side <;> rfl

/-- Below `UINT64_MAX` the count loop of `BAVL_Insert` adds one, as that of `CAvl_Insert` does. -/
theorem countUp_of_lt {count : Nat} (below : count < countMax) : countUp count = CAvl.countUp count :=
  if_pos below

variable [Std.TransCmp b.comparator]

/--
`BAVL_Insert` into a valid sorted tree of fewer than `UINT64_MAX` nodes is
`CAvl_Insert`: every count its loop meets is at most the tree's, so none of
its `ASSERT`s fails.
-/
theorem insert_eq_cavl_insert {o : Tree Entry} (node : Entry) (valid : CAvl.Valid b.toCAvl o)
    (sorted : SortedTree.Sorted b.toCAvl.compareEntries (CAvl.entries o)) (room : CAvl.countOf o < countMax) :
    insert b o node = CAvl.insert b.toCAvl o node := by
  have roomCAvl : CAvl.countOf o < b.toCAvl.countMax := room
  unfold insert CAvl.insert
  rw [if_neg (not_not.mpr roomCAvl)]
  cases o with
  | nil => rfl
  | node value left right =>
      rcases CAvl.insertSearch_spec b.toCAvl node [] (t := .node value left right) nofun sorted with
        ⟨x, -, -, found⟩ | ⟨inner, c, side, found, plugged, -⟩
      · simp only [found]
      · rw [List.append_nil] at found
        simp only [found]
        -- the loop meets the count of `c` and those of its ancestors, none above the tree's
        obtain ⟨-, pathOk⟩ := (CAvl.valid_plug_iff b.toCAvl inner c).mp (plugged ▸ valid)
        have withinC := (pathOk.shaped b.toCAvl).countOf_le_plug b.toCAvl
        have withinAncestors := (pathOk.shaped b.toCAvl).count_le_plug b.toCAvl
        rw [plugged] at withinC withinAncestors
        have touchAgree : countUp (CAvl.countOf (setChild c side (CAvl.leaf b.toCAvl node))) =
            CAvl.countUp (CAvl.countOf (setChild c side (CAvl.leaf b.toCAvl node))) := by
          rw [countOf_setChild]
          exact countUp_of_lt (by omega)
        rw [CAvl.touch_congr b.toCAvl touchAgree]
        congr 1
        funext c'
        rw [CAvl.fixUp_congr b.toCAvl c' fun f member => countUp_of_lt (by have := withinAncestors f member; omega)]

/--
`BAVL_Insert` into a valid sorted tree of fewer than `UINT64_MAX` nodes: as
`CAvl_Insert`, the tree stays valid and sorted, and its nodes change as
insertion into the sorted list of nodes does, refused next to a node of equal
value, in which case the tree is left as it was.
-/
theorem insert_spec {o : Tree Entry} (node : Entry) (valid : CAvl.Valid b.toCAvl o)
    (sorted : SortedTree.Sorted b.toCAvl.compareEntries (CAvl.entries o)) (room : CAvl.countOf o < countMax) :
    ∃ inserted o' ref, insert b o node = some (inserted, o', ref) ∧ CAvl.Valid b.toCAvl o' ∧
      SortedTree.Sorted b.toCAvl.compareEntries (CAvl.entries o') ∧
      SortedTree.insert b.toCAvl.compareEntries node (CAvl.entries o) =
        (if inserted then some (CAvl.entries o') else none) ∧
      (inserted = false → o' = o) := by
  rw [insert_eq_cavl_insert b node valid sorted room]
  exact CAvl.insert_spec b.toCAvl node valid sorted room

/-- A reachable tree passes `BAVL_Verify`. -/
theorem verify_of_reachable {o : Tree Entry} (reachable : CAvl.Reachable b.toCAvl true o) : verify b o = true := by
  simp [verify, CAvl.verify, CAvl.verifyRecurser_of_valid b.toCAvl true reachable.valid reachable.sorted]

end Insert

section Run

/-- An operation of a run on a `BAVL`. -/
inductive Op (Entry : Type)
  /-- `BAVL_Insert` -/
  | insert (node : Entry)
  /-- `BAVL_Remove` -/
  | remove (node : Entry)
  deriving DecidableEq, Repr

variable [DecidableEq Entry]

/-- The tree after an operation, `none` where an `ASSERT` fails. -/
def Op.apply : Op Entry → Tree Entry → Option (Tree Entry)
  | .insert node, o => (BAVL.insert b o node).map fun result => result.2.1
  | .remove node, o => BAVL.remove b o node

/-- The tree after a run of operations from `o`, starting from `BAVL_Init` for `o` = `init`. -/
def run : List (Op Entry) → Tree Entry → Option (Tree Entry)
  | [], o => some o
  | op :: rest, o => (op.apply b o).bind (run rest)

/-- What an operation does to the sorted list of nodes. -/
def Op.applyList : Op Entry → List Entry → List Entry
  | .insert node, l => (SortedTree.insert b.toCAvl.compareEntries node l).getD l
  | .remove node, l => l.erase node

/-- What a run does to the sorted list of nodes. -/
def runList : List (Op Entry) → List Entry → List Entry
  | [], l => l
  | op :: rest, l => runList rest (op.applyList b l)

/--
What the caller of an operation guarantees: fewer than `UINT64_MAX` nodes
before an insertion, and a node of the tree for `BAVL_Remove`.
-/
def Op.Allowed : Op Entry → List Entry → Prop
  | .insert _, l => l.length < countMax
  | .remove node, l => node ∈ l

instance Op.decidableAllowed : (op : Op Entry) → (l : List Entry) → Decidable (op.Allowed l)
  | .insert _, _ => inferInstanceAs (Decidable (_ < _))
  | .remove _, _ => inferInstanceAs (Decidable (_ ∈ _))

/-- A run whose every operation is allowed where it comes. -/
def Admissible : List (Op Entry) → List Entry → Prop
  | [], _ => True
  | op :: rest, l => op.Allowed l ∧ Admissible rest (op.applyList b l)

instance decidableAdmissible : (ops : List (Op Entry)) → (l : List Entry) → Decidable (Admissible b ops l)
  | [], _ => isTrue trivial
  | op :: rest, l =>
      have : Decidable (Admissible b rest (op.applyList b l)) := decidableAdmissible rest _
      inferInstanceAs (Decidable (_ ∧ _))

/-- The operations of an admissible run up to any point are an admissible run. -/
theorem Admissible.take {ops : List (Op Entry)} {l : List Entry} (admissible : Admissible b ops l) (k : Nat) :
    Admissible b (ops.take k) l := by
  induction ops generalizing l k with
  | nil => simp [Admissible]
  | cons op rest inductionHypothesis =>
      cases k with
      | zero => trivial
      | succ k => exact ⟨admissible.1, inductionHypothesis admissible.2 k⟩

variable [Std.TransCmp b.comparator]

/-- An allowed operation goes through, keeps the tree reachable, and changes its nodes as on the list. -/
theorem reachable_apply {o : Tree Entry} {op : Op Entry} (reachable : CAvl.Reachable b.toCAvl true o)
    (allowed : op.Allowed (CAvl.entries o)) :
    ∃ o', op.apply b o = some o' ∧ CAvl.Reachable b.toCAvl true o' ∧
      CAvl.entries o' = op.applyList b (CAvl.entries o) := by
  cases op with
  | insert node =>
      have room : CAvl.countOf o < countMax := reachable.valid.countOf_eq ▸ allowed
      -- below the bound, `BAVL_Insert` is `CAvl_Insert`
      obtain ⟨o', inserted, stays, entriesEq⟩ := CAvl.Reachable.apply b.toCAvl reachable
        (show (CAvl.Op.insert node).Allowed b.toCAvl true (CAvl.entries o) from ⟨rfl, allowed⟩)
      refine ⟨o', ?_, stays, entriesEq⟩
      rw [Op.apply, insert_eq_cavl_insert b node reachable.valid (reachable.sorted rfl) room]
      exact inserted
  | remove node =>
      exact CAvl.Reachable.apply b.toCAvl reachable
        (show (CAvl.Op.remove node).Allowed b.toCAvl true (CAvl.entries o) from allowed)

/-- An admissible run goes through and keeps the tree reachable, with the nodes its list run gives. -/
theorem reachable_run {o : Tree Entry} (reachable : CAvl.Reachable b.toCAvl true o) :
    ∀ {ops : List (Op Entry)}, Admissible b ops (CAvl.entries o) →
      ∃ o', run b ops o = some o' ∧ CAvl.Reachable b.toCAvl true o' ∧ CAvl.entries o' = runList b ops (CAvl.entries o)
  | [], _ => ⟨o, rfl, reachable, rfl⟩
  | _ :: _, ⟨allowed, admissible⟩ => by
      obtain ⟨o', applied, reachable', entriesEq⟩ := reachable_apply b reachable allowed
      obtain ⟨o'', ran, reachable'', entries''⟩ := reachable_run reachable' (entriesEq ▸ admissible)
      exact ⟨o'', by simp [run, applied, ran], reachable'', by rw [entries'', entriesEq]; rfl⟩

/--
After every operation of an admissible run of insertions and removals from
`BAVL_Init`, the tree passes `BAVL_Verify`, and its nodes in order are sorted
by value and are those the run leaves in the sorted list of nodes; then
`BAVL_Insert` reports 0 and leaves the tree as it is exactly when a node of
equal value is in the tree, `BAVL_LookupExact` finds the node of equal value
if there is one, and `BAVL_GetFirst`, `BAVL_GetLast`, `BAVL_GetNext` and
`BAVL_GetPrev` follow the nodes in order.
-/
theorem avl_map_correct {ops : List (Op Entry)} (admissible : Admissible b ops []) (k : Nat) :
    ∃ o, run b (ops.take k) init = some o ∧ verify b o = true ∧
      SortedTree.Sorted b.toCAvl.compareEntries (CAvl.entries o) ∧ CAvl.entries o = runList b (ops.take k) [] ∧
      (∀ node, CAvl.countOf o < countMax → ∃ inserted o' ref, insert b o node = some (inserted, o', ref) ∧
        (inserted = false ↔ ∃ x ∈ CAvl.entries o, b.comparator (b.nodeValue node) (b.nodeValue x) = .eq) ∧
        (inserted = false → o' = o)) ∧
      (∀ val, lookupExact b o val = (CAvl.entries o).find? fun n => b.comparator val (b.nodeValue n) == .eq) ∧
      getFirst o = (CAvl.entries o).head? ∧ getLast o = (CAvl.entries o).getLast? ∧
      (∀ lower n upper, CAvl.entries o = lower ++ n :: upper →
        getNext o n = some upper.head? ∧ getPrev o n = some lower.getLast?) := by
  have initial : CAvl.Reachable b.toCAvl true init :=
    ⟨trivial, fun _ => List.Pairwise.nil, List.nodup_nil, Nat.zero_le _⟩
  obtain ⟨o, ran, reachable, entriesEq⟩ := reachable_run b initial (admissible.take b k)
  have sorted := reachable.sorted rfl
  refine ⟨o, ran, verify_of_reachable b reachable, sorted, entriesEq, ?_,
    fun val => CAvl.lookupExact_eq (keyOrder b) val sorted, CAvl.getFirst_eq o, CAvl.getLast_eq o,
    fun _ _ _ split => CAvl.getStep_spec reachable.nodup split⟩
  · intro node room
    obtain ⟨inserted, o', ref, insertion, -, -, listInsertion, unchanged⟩ :=
      insert_spec b node reachable.valid sorted room
    refine ⟨inserted, o', ref, insertion, Iff.trans ?_ (SortedTree.insert_eq_none_iff sorted), unchanged⟩
    rw [listInsertion]
    cases inserted <;> simp

end Run


/-- The nodes of `bavl_test` stand for numbers; node `n` carries `n % 10`, so nodes `3` and `13` collide. -/
abbrev testParams : Params Nat Nat :=
  ⟨fun n => n % 10, compare⟩

theorem avl_map_correct_test :
    Admissible testParams [.insert 3, .insert 1, .insert 13, .insert 2, .remove 3] [] ∧
    ∃ o, run testParams ([.insert 3, .insert 1, .insert 13, .insert 2, .remove 3].take 5) init = some o ∧
      verify testParams o = true ∧ SortedTree.Sorted testParams.toCAvl.compareEntries (CAvl.entries o) ∧
      CAvl.entries o = runList testParams ([.insert 3, .insert 1, .insert 13, .insert 2, .remove 3].take 5) [] ∧
      (∀ node, CAvl.countOf o < countMax → ∃ inserted o' ref, insert testParams o node = some (inserted, o', ref) ∧
        (inserted = false ↔
          ∃ x ∈ CAvl.entries o, testParams.comparator (testParams.nodeValue node) (testParams.nodeValue x) = .eq) ∧
        (inserted = false → o' = o)) ∧
      (∀ val, lookupExact testParams o val =
        (CAvl.entries o).find? fun n => testParams.comparator val (testParams.nodeValue n) == .eq) ∧
      getFirst o = (CAvl.entries o).head? ∧ getLast o = (CAvl.entries o).getLast? ∧
      (∀ lower n upper, CAvl.entries o = lower ++ n :: upper →
        getNext o n = some upper.head? ∧ getPrev o n = some lower.getLast?) :=
  ⟨by decide, avl_map_correct testParams (by decide) 5⟩

example : runList testParams [.insert 3, .insert 1, .insert 13, .insert 2, .remove 3] [] = [1, 2] := by
  decide

section Index

/-- A tree reached from `BAVL_Init` whose nodes are those of the list, in some order. -/
structure Represents (o : Tree Entry) (l : List Entry) : Prop where
  reachable : CAvl.Reachable b.toCAvl true o
  perm : (CAvl.entries o).Perm l

/-- `BAVL_Init` stands for the empty set. -/
theorem represents_init : Represents b init [] :=
  ⟨⟨trivial, fun _ => List.Pairwise.nil, List.nodup_nil, Nat.zero_le _⟩, List.Perm.refl _⟩

section Lookup

variable {b} [Std.TransCmp b.comparator] {o : Tree Entry} {l : List Entry}

/-- `BAVL_LookupExact` finds the node of the set that the callers' lookup finds. -/
theorem Represents.lookupExact_eq (represents : Represents b o l) (val : Value) :
    lookupExact b o val = KeyedIndex.lookupExact b.comparator b.nodeValue l val := by
  have sorted := represents.reachable.sorted rfl
  -- `BAVL_LookupExact` compares the value with each node's, the callers' lookup each node's with the value
  have swapped : ∀ node, (b.comparator val (b.nodeValue node) == .eq) =
      (b.comparator (b.nodeValue node) val == .eq) := fun node =>
    Bool.eq_iff_iff.mpr (by simp only [beq_iff_eq]; exact Std.OrientedCmp.eq_comm)
  rw [BAVL.lookupExact, CAvl.lookupExact_eq (keyOrder b) val sorted,
    ← KeyedIndex.lookupExact_perm (distinctKeys_of_sorted b sorted) represents.perm]
  exact List.find?_congr fun node _ => swapped node

end Lookup

variable [DecidableEq Entry]

/--
What an operation does to the set of nodes: `none` for an insertion next to a
node of equal value, which the callers' `ASSERT_EXECUTE` refuses, or for the
removal of a node that is not in the tree.
-/
def Op.applyIndex : Op Entry → List Entry → Option (List Entry)
  | .insert node, l => KeyedIndex.insert b.comparator b.nodeValue l node
  | .remove node, l => if node ∈ l then some (l.erase node) else none

/-- What a run does to the set of nodes. -/
def runIndex : List (Op Entry) → List Entry → Option (List Entry)
  | [], l => some l
  | op :: rest, l => (op.applyIndex b l).bind (runIndex rest)

/-- A run in two parts is the second part run after the first. -/
theorem runIndex_append (ops more : List (Op Entry)) (l : List Entry) :
    runIndex b (ops ++ more) l = (runIndex b ops l).bind (runIndex b more) := by
  induction ops generalizing l with
  | nil =>
      rfl
  | cons op rest inductionHypothesis =>
      simp only [List.cons_append, runIndex, Option.bind_assoc, inductionHypothesis]

/-- Inserting nodes of distinct values one by one, the last first, puts them in front in their order. -/
theorem runIndex_inserts {nodes rest : List Entry} [Std.OrientedCmp b.comparator]
    (distinct : KeyedIndex.DistinctKeys b.comparator b.nodeValue (nodes ++ rest)) :
    runIndex b (nodes.reverse.map .insert) rest = some (nodes ++ rest) := by
  induction nodes with
  | nil =>
      rfl
  | cons node others inductionHypothesis =>
      rw [List.cons_append] at distinct ⊢
      have othersDistinct : KeyedIndex.DistinctKeys b.comparator b.nodeValue (others ++ rest) :=
        distinct.sublist (List.sublist_cons_self node _)
      rw [List.reverse_cons, List.map_append, runIndex_append, inductionHypothesis othersDistinct,
        Option.bind_some]
      show (KeyedIndex.insert b.comparator b.nodeValue (others ++ rest) node).bind (runIndex b []) = _
      rw [KeyedIndex.insert_of_distinctKeys distinct]
      rfl

variable {b} [Std.TransCmp b.comparator] {o : Tree Entry} {l : List Entry}

/--
`BAVL_Insert` into a tree that stands for fewer than `UINT64_MAX` nodes is
refused, leaving the tree as it is, exactly when the set refuses the node, and
otherwise adds the node.
-/
theorem Represents.insert (represents : Represents b o l) (room : l.length < countMax) (node : Entry) :
    ∃ inserted o' ref, BAVL.insert b o node = some (inserted, o', ref) ∧
      (KeyedIndex.insert b.comparator b.nodeValue l node = none → inserted = false ∧ o' = o) ∧
      ∀ l', KeyedIndex.insert b.comparator b.nodeValue l node = some l' → inserted = true ∧ Represents b o' l' := by
  have sorted := represents.reachable.sorted rfl
  have roomList : (CAvl.entries o).length < countMax := represents.perm.length_eq ▸ room
  have roomTree : CAvl.countOf o < countMax := represents.reachable.valid.countOf_eq ▸ roomList
  obtain ⟨inserted, o', ref, insertion, -, -, listInsertion, unchanged⟩ :=
    insert_spec b node represents.reachable.valid sorted roomTree
  -- the set refuses the node exactly when the sorted list of the tree's nodes does
  have refusedTree : SortedTree.insert b.toCAvl.compareEntries node (CAvl.entries o) = none ↔ inserted = false := by
    rw [listInsertion]
    cases inserted <;> simp
  have refused : KeyedIndex.insert b.comparator b.nodeValue l node = none ↔ inserted = false := by
    rw [KeyedIndex.insert_eq_none_iff, ← refusedTree, SortedTree.insert_eq_none_iff sorted]
    exact exists_congr fun other => and_congr_left' represents.perm.mem_iff.symm
  refine ⟨inserted, o', ref, insertion, fun none => ⟨refused.mp none, unchanged (refused.mp none)⟩,
    fun l' added => ?_⟩
  have accepted : inserted = true := by
    cases inserted
    · simp [refused.mpr rfl] at added
    · rfl
  subst accepted
  obtain ⟨-, rfl⟩ := KeyedIndex.insert_eq_some_iff.mp added
  -- the tree after the insertion is reachable, as every allowed operation leaves it
  obtain ⟨o'', applied, reachable', -⟩ := reachable_apply b represents.reachable
    (show (Op.insert node : Op Entry).Allowed (CAvl.entries o) from roomList)
  simp only [Op.apply, insertion, Option.map_some, Option.some.injEq] at applied
  subst applied
  have placed : SortedTree.insert b.toCAvl.compareEntries node (CAvl.entries o) = some (CAvl.entries o') := by
    simpa using listInsertion
  exact ⟨rfl, reachable', (SortedTree.perm_of_insert placed).trans (represents.perm.cons node)⟩

/-- `BAVL_Remove` of a node of the set erases it. -/
theorem Represents.remove (represents : Represents b o l) {node : Entry} (member : node ∈ l) :
    ∃ o', BAVL.remove b o node = some o' ∧ Represents b o' (l.erase node) := by
  obtain ⟨o', removed, reachable', entriesEq⟩ := reachable_apply b represents.reachable
    (show (Op.remove node : Op Entry).Allowed (CAvl.entries o) from represents.perm.mem_iff.mpr member)
  refine ⟨o', removed, reachable', ?_⟩
  rw [entriesEq]
  exact represents.perm.erase node

/-- An operation the set allows does on the tree what it does on the set, and adds at most one node. -/
theorem Represents.apply (represents : Represents b o l) (room : l.length < countMax) {op : Op Entry}
    {l' : List Entry} (step : op.applyIndex b l = some l') :
    ∃ o', op.apply b o = some o' ∧ Represents b o' l' ∧ l'.length ≤ l.length + 1 := by
  cases op with
  | insert node =>
      obtain ⟨inserted, o', ref, insertion, -, added⟩ := represents.insert room node
      obtain ⟨-, reached⟩ := added l' step
      obtain ⟨-, rfl⟩ := KeyedIndex.insert_eq_some_iff.mp step
      exact ⟨o', by simp [Op.apply, insertion], reached, by simp⟩
  | remove node =>
      by_cases member : node ∈ l
      · rw [Op.applyIndex, if_pos member, Option.some.injEq] at step
        subst step
        obtain ⟨o', removed, reached⟩ := represents.remove member
        exact ⟨o', removed, reached, List.length_erase_le.trans (Nat.le_succ _)⟩
      · rw [Op.applyIndex, if_neg member] at step
        cases step

/-- A run the set allows, short enough to stay below `UINT64_MAX` nodes, does on the tree what it does on the set. -/
theorem Represents.runIndex (represents : Represents b o l) {ops : List (Op Entry)} {l' : List Entry}
    (short : l.length + ops.length ≤ countMax) (ran : BAVL.runIndex b ops l = some l') :
    ∃ o', run b ops o = some o' ∧ Represents b o' l' := by
  induction ops generalizing o l with
  | nil =>
      cases ran
      exact ⟨o, rfl, represents⟩
  | cons op rest inductionHypothesis =>
      rw [BAVL.runIndex, Option.bind_eq_some_iff] at ran
      obtain ⟨middle, stepped, ranRest⟩ := ran
      rw [List.length_cons] at short
      obtain ⟨oMiddle, applied, represented, grown⟩ := represents.apply (by omega) stepped
      obtain ⟨o', ranTree, final⟩ := inductionHypothesis represented (by omega) ranRest
      exact ⟨o', by simp [run, applied, ranTree], final⟩

/--
The callers' view of a tree as its set of nodes is sound: every run of
insertions and removals from `BAVL_Init` that the set allows, of at most
`UINT64_MAX` operations, goes through on the tree without a failed `ASSERT`,
the tree passes `BAVL_Verify`, its nodes are those of the set, and
`BAVL_LookupExact` finds what `KeyedIndex.lookupExact` finds.
-/
theorem keyedIndex_refines {ops : List (Op Entry)} {l : List Entry} (short : ops.length ≤ countMax)
    (ran : BAVL.runIndex b ops [] = some l) :
    ∃ o, run b ops init = some o ∧ verify b o = true ∧ (CAvl.entries o).Perm l ∧
      ∀ val, lookupExact b o val = KeyedIndex.lookupExact b.comparator b.nodeValue l val := by
  obtain ⟨o, ranTree, represents⟩ := (represents_init b).runIndex (by simpa using short) ran
  exact ⟨o, ranTree, verify_of_reachable b represents.reachable, represents.perm, represents.lookupExact_eq⟩

/-- Node `13` takes value 3 once node `3` is removed. -/
theorem keyedIndex_refines_reused_value :
    [Op.insert 3, .insert 1, .remove 3, .insert 13].length ≤ countMax ∧
      runIndex testParams [.insert 3, .insert 1, .remove 3, .insert 13] [] = some [13, 1] ∧
      ∃ o, run testParams [.insert 3, .insert 1, .remove 3, .insert 13] init = some o ∧
        verify testParams o = true ∧ (CAvl.entries o).Perm [13, 1] ∧
        ∀ val, lookupExact testParams o val =
          KeyedIndex.lookupExact testParams.comparator testParams.nodeValue [13, 1] val :=
  ⟨by decide, by decide, keyedIndex_refines (by decide) (by decide)⟩

/--
Every set of nodes with distinct values, at most `UINT64_MAX` of them, is the
set of nodes of the tree that `BAVL_Insert` builds from `BAVL_Init`, inserting
them one by one.
-/
theorem exists_represents {nodes : List Entry} (distinct : KeyedIndex.DistinctKeys b.comparator b.nodeValue nodes)
    (short : nodes.length ≤ countMax) :
    ∃ o, run b (nodes.reverse.map .insert) init = some o ∧ Represents b o nodes := by
  have ran : runIndex b (nodes.reverse.map .insert) [] = some (nodes ++ []) :=
    runIndex_inserts b (by simpa using distinct)
  rw [List.append_nil] at ran
  exact (represents_init b).runIndex (by simpa using short) ran

end Index

end BAVL

end Tun2SocksWinRT
