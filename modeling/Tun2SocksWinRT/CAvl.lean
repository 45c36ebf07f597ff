import Mathlib
import Tun2SocksWinRT.TreeZipper

namespace Tun2SocksWinRT

namespace CAvl

/-!
# `CAvl`: the AVL tree template

`structure/CAvl_impl.h` is an AVL tree over entries the user owns: the tree
keeps in each entry its `parent` and `link[2]`, a `balance` (the height of the
right subtree minus that of the left), with `CAVL_PARAM_FEATURE_COUNTS` a
`count` (the size of the subtree) and with `CAVL_PARAM_FEATURE_ASSOC` an
`assoc`, the `ASSOC_OPER` product of the subtree's values.  The model has every
feature on; a configuration without counts or sums keeps the same tree and
ignores those fields.

The entries and their links are an inductive tree (`Tree`) whose nodes are
the entries with the fields the tree keeps (`Node`).  A reference to an entry
in the tree is its position, the subtree rooted at it and the chain of its
ancestors (`TreeZipper`): walking `parent` links is walking that chain, so the
parent links are consistent by construction, and the pointer assignments of
`CAvl_rotate`, `CAvl_swap_for_remove` and `CAvl_replace_subtree_fix_assoc` are
modelled by what they do to the tree.  The counts and sums are stored fields,
recomputed where the source recomputes them.  An `ASSERT` that fails, or a
dereference of a null link, makes a function return `none`.

The macros of the template are `Params`: the two comparators, the value of an
entry and the operation of the sums with their zero, and the largest count.
-/

open BinaryTree TreeZipper

/-- An entry with the fields `CAvl` keeps in it besides its links. -/
structure Node (Entry Assoc : Type) where
  entry : Entry
  balance : Int
  count : Nat
  assoc : Assoc
  deriving DecidableEq, Repr

/-- A tree of entries: the subtree below a link, `nil` for a null link. -/
abbrev Tree (Entry Assoc : Type) := BinaryTree (Node Entry Assoc)

/-- The chain of ancestors of a position, nearest first. -/
abbrev Path (Entry Assoc : Type) := List (Frame (Node Entry Assoc))

/-- The parameters of the template that its functions read. -/
structure Params (Entry Key Assoc : Type) where
  /-- `CAVL_PARAM_FUN_COMPARE_ENTRIES` -/
  compareEntries : Entry → Entry → Ordering
  /-- `CAVL_PARAM_FUN_COMPARE_KEY_ENTRY` -/
  compareKeyEntry : Key → Entry → Ordering
  /-- `CAVL_PARAM_FUN_ASSOC_VALUE` -/
  assocValue : Entry → Assoc
  /-- `CAVL_PARAM_FUN_ASSOC_OPER` -/
  assocOper : Assoc → Assoc → Assoc
  /-- `CAVL_PARAM_VALUE_ASSOC_ZERO` -/
  assocZero : Assoc
  /-- `CAVL_PARAM_VALUE_COUNT_MAX` -/
  countMax : Nat

variable {Entry Key Assoc : Type}

section Fields

/-- `CAvl_count` of a link's entry, 0 for a null link. -/
def countOf : Tree Entry Assoc → Nat
  | nil => 0
  | node value _ _ => value.count

/-- `CAvl_assoc` of a link's entry, nothing for a null link. -/
def assocOf : Tree Entry Assoc → Option Assoc
  | nil => none
  | node value _ _ => some value.assoc

/-- `CAvl_balance` of a link's entry, 0 for a null link. -/
def balanceOf : Tree Entry Assoc → Int
  | nil => 0
  | node value _ _ => value.balance

/-- The entry a link points to, nothing for a null link. -/
def entryOf : Tree Entry Assoc → Option Entry
  | nil => none
  | node value _ _ => some value.entry

/-- Whether the entry rooting `t` has a child on `side` (a non-null link there). -/
def hasChild (t : Tree Entry Assoc) (side : Bool) : Bool :=
  match child t side with
  | nil => false
  | node .. => true

/-- Set the balance of a link's entry. -/
def setBalance (balance : Int) : Tree Entry Assoc → Tree Entry Assoc
  | nil => nil
  | node value left right => node { value with balance } left right

/-- Set the balance of the entry of the child on `side`. -/
def setChildBalance (side : Bool) (balance : Int) (t : Tree Entry Assoc) : Tree Entry Assoc :=
  setChild t side (setBalance balance (child t side))

@[simp] theorem countOf_nil : countOf (nil : Tree Entry Assoc) = 0 :=
  rfl

@[simp] theorem countOf_node (value : Node Entry Assoc) (left right : Tree Entry Assoc) :
    countOf (node value left right) = value.count :=
  rfl

@[simp] theorem assocOf_nil : assocOf (nil : Tree Entry Assoc) = none :=
  rfl

@[simp] theorem assocOf_node (value : Node Entry Assoc) (left right : Tree Entry Assoc) :
    assocOf (node value left right) = some value.assoc :=
  rfl

@[simp] theorem balanceOf_node (value : Node Entry Assoc) (left right : Tree Entry Assoc) :
    balanceOf (node value left right) = value.balance :=
  rfl

@[simp] theorem entryOf_node (value : Node Entry Assoc) (left right : Tree Entry Assoc) :
    entryOf (node value left right) = some value.entry :=
  rfl

@[simp] theorem setBalance_node (balance : Int) (value : Node Entry Assoc) (left right : Tree Entry Assoc) :
    setBalance balance (node value left right) = node { value with balance } left right :=
  rfl

@[simp] theorem setChildBalance_false (balance : Int) (value : Node Entry Assoc)
    (left right : Tree Entry Assoc) :
    setChildBalance false balance (node value left right) = node value (setBalance balance left) right :=
  rfl

@[simp] theorem setChildBalance_true (balance : Int) (value : Node Entry Assoc)
    (left right : Tree Entry Assoc) :
    setChildBalance true balance (node value left right) = node value left (setBalance balance right) :=
  rfl

end Fields

variable (p : Params Entry Key Assoc)

section Update

/--
`CAvl_compute_node_assoc`: the entry's value, with the left child's sum
before it and the right child's sum after it.
-/
def computeNodeAssoc (entry : Entry) (left right : Tree Entry Assoc) : Assoc :=
  let sum := p.assocValue entry
  let sum :=
    match left with
    | nil => sum
    | node leftValue _ _ => p.assocOper leftValue.assoc sum
  match right with
  | nil => sum
  | node rightValue _ _ => p.assocOper sum rightValue.assoc

/--
`CAvl_update_count_from_children` and `CAvl_compute_node_assoc` at the root
of a subtree, as `CAvl_rotate` does for each of the two entries it moves.
-/
def fix : Tree Entry Assoc → Tree Entry Assoc
  | nil => nil
  | node value left right =>
      node { value with
        count := 1 + countOf left + countOf right
        assoc := computeNodeAssoc p value.entry left right } left right

/--
`CAvl_rotate(r, dir)`: `nr`, the child of `r` on side `!dir`, takes `r`'s
place; `r` becomes `nr`'s child on side `dir` and takes `nr`'s former child on
that side in place of `nr`.  The counts and sums of `r`, then `nr`, are
recomputed.
-/
def rotate (r : Tree Entry Assoc) (dir : Bool) : Option (Tree Entry Assoc) :=
  match child r (!dir) with
  | nil => none
  | nr@(node ..) => some (fix p (setChild nr dir (fix p (setChild r (!dir) (child nr dir)))))

/--
One round of the loops that fix counts and sums on the way to the root: the
count of the entry adjusted (`none` where an `ASSERT` of the loop fails), its
sum recomputed from its children.
-/
def touch (adjust : Nat → Option Nat) : Tree Entry Assoc → Option (Tree Entry Assoc)
  | nil => none
  | node value left right =>
      (adjust value.count).map fun count =>
        node { value with count, assoc := computeNodeAssoc p value.entry left right } left right

/--
The rest of such a loop, over the ancestors of the subtree `below` that has
changed: each ancestor is touched with its new child in place.
-/
def fixUp (adjust : Nat → Option Nat) : Tree Entry Assoc → Path Entry Assoc → Option (Path Entry Assoc)
  | _, [] => some []
  | below, f :: rest =>
      match touch p adjust (f.plug below) with
      | some (node value _ _) =>
          (fixUp adjust (Frame.plug { f with value } below) rest).map ({ f with value } :: ·)
      | _ => none

end Update

section Rebalance

/-- `CAvl_OPTNEG`. -/
def optneg (a : Int) (neg : Bool) : Int :=
  if neg then -a else a

/--
The transformations of `CAvl_rebalance` at the entry rooting `t`, whose balance
has just been updated to `balance`, with `delta` the change of its height so
far: none unless the balance is 2 or -2; else a single rotation when the heavy
child leans the same way (the height drops by one) or is balanced, and a double
rotation through the grandchild when it leans the other way.
-/
def transform (t : Tree Entry Assoc) (balance delta : Int) : Option (Tree Entry Assoc × Int) :=
  if balance = 2 ∨ balance = -2 then
    let bside : Bool := balance = 2
    let bsidef : Int := if balance = 2 then 1 else -1
    match child t bside with
    | nil => none
    | node childEntry _ _ =>
        if childEntry.balance * bsidef = 1 then
          (rotate p t (!bside)).map fun rotated =>
            (setChildBalance (!bside) 0 (setBalance 0 rotated), delta - 1)
        else if childEntry.balance * bsidef = 0 then
          (rotate p t (!bside)).map fun rotated =>
            (setChildBalance (!bside) (1 * bsidef) (setBalance (-1 * bsidef) rotated), delta)
        else if childEntry.balance * bsidef = -1 then
          match child (child t bside) (!bside) with
          | nil => none
          | node gchild _ _ =>
              (rotate p (child t bside) bside).bind fun inner =>
                (rotate p (setChild t bside inner) (!bside)).map fun rotated =>
                  (setChildBalance bside (max 0 (-gchild.balance * bsidef) * bsidef)
                    (setChildBalance (!bside) (-max 0 (gchild.balance * bsidef) * bsidef)
                      (setBalance 0 rotated)), delta - 1)
        else
          none
  else
    some (t, delta)

/--
One round of `CAvl_rebalance` at the entry rooting `t`, whose child on `side`
changed height by `deltac` (not 0): the subtree that takes the entry's place
and how much its height changed.
-/
def rebalanceAt (t : Tree Entry Assoc) (side : Bool) (deltac : Int) :
    Option (Tree Entry Assoc × Int) :=
  match t with
  | nil => none
  | node entry _ _ =>
      -- calculate how much our height changed
      let delta := max deltac (optneg entry.balance side) - max 0 (optneg entry.balance side)
      if ¬(-1 ≤ delta ∧ delta ≤ 1) then
        none
      else
        -- update our balance factor
        let balance := entry.balance - optneg deltac side
        transform p (setBalance balance t) balance delta

/--
`CAvl_rebalance(node, side, deltac)`, for the entry at the position `path`,
`t`: the whole tree once no height changes any more or the root is reached.
-/
def rebalance : Path Entry Assoc → Tree Entry Assoc → Bool → Int → Option (Tree Entry Assoc)
  | path, t, side, deltac =>
      match t with
      | nil => none
      | node entry _ _ =>
          if ¬(-1 ≤ deltac ∧ deltac ≤ 1) ∨ ¬(-1 ≤ entry.balance ∧ entry.balance ≤ 1) then
            none
          -- if no subtree changed its height, no more rebalancing is needed
          else if deltac = 0 then
            some (plug path t)
          else
            match rebalanceAt p t side deltac with
            | none => none
            | some (t, delta) =>
                if ¬(-1 ≤ delta ∧ delta ≤ 1) then
                  none
                else
                  match path with
                  | [] => some t
                  | f :: rest => rebalance rest (f.plug t) f.side delta

end Rebalance

section Insert

/-- A new entry, as `CAvl_Insert` sets its fields: no children, balance 0, count 1, its own value. -/
def leaf (entry : Entry) : Tree Entry Assoc :=
  node ⟨entry, 0, 1, p.assocValue entry⟩ nil nil

/-- Where the search loop of `CAvl_Insert` stops. -/
inductive InsertPosition (Entry Assoc : Type)
  /-- at an entry that compares equal -/
  | equal (entry : Entry)
  /-- at the position `path`, `c` of an entry whose child on `side` is null -/
  | free (path : Path Entry Assoc) (c : Tree Entry Assoc) (side : Bool)

/-- The search loop of `CAvl_Insert`, from the entry at `path`, `c`. -/
def insertSearch (entry : Entry) : Path Entry Assoc → Tree Entry Assoc → Option (InsertPosition Entry Assoc)
  | _, nil => none
  | path, node c left right =>
      match p.compareEntries entry c.entry with
      | .eq => some (.equal c.entry)
      | .lt =>
          match left with
          | nil => some (.free path (node c left right) false)
          | node .. => insertSearch entry (⟨false, c, right⟩ :: path) left
      | .gt =>
          match right with
          | nil => some (.free path (node c left right) true)
          | node .. => insertSearch entry (⟨true, c, left⟩ :: path) right

/-- The count loops of `CAvl_Insert` and `CAvl_InsertAt`: one more entry below. -/
def countUp (count : Nat) : Option Nat :=
  some (count + 1)

/--
`CAvl_Insert`: whether the entry went in (1) or an equal one was there (0),
the tree after, and `out_ref`: the entry the search stopped at, null for an
empty tree.
-/
def insert (o : Tree Entry Assoc) (entry : Entry) : Option (Bool × Tree Entry Assoc × Option Entry) :=
  if ¬ countOf o < p.countMax then
    none
  else
    match o with
    | nil => some (true, leaf p entry, none)
    | node .. =>
        match insertSearch p entry [] o with
        | none => none
        | some (.equal c) => some (false, o, some c)
        | some (.free path c side) =>
            -- hang the entry below `c`, then fix counts and sums from `c` up, then rebalance
            (touch p countUp (setChild c side (leaf p entry))).bind fun c' =>
              (fixUp p countUp c' path).bind fun path' =>
                (rebalance p path' c' side 1).map fun t => (true, t, entryOf c)

/--
The search loop of `CAvl_InsertAt`, from the entry at `path`, `c`, whose
index is `cIdx`: right when `index > c_idx`, else left.
-/
def insertAtSearch (index : Nat) :
    Path Entry Assoc → Tree Entry Assoc → Nat → Option (Path Entry Assoc × Tree Entry Assoc × Bool)
  | _, nil, _ => none
  | path, node c left right, cIdx =>
      if index > cIdx then
        match right with
        | nil => some (path, node c left right, true)
        | node .. =>
            insertAtSearch index (⟨true, c, left⟩ :: path) right (cIdx + (1 + countOf (child right false)))
      else
        match left with
        | nil => some (path, node c left right, false)
        | node .. =>
            insertAtSearch index (⟨false, c, right⟩ :: path) left (cIdx - (1 + countOf (child left true)))

/-- `CAvl_InsertAt`, for trees whose keys are the indices of the entries. -/
def insertAt (o : Tree Entry Assoc) (entry : Entry) (index : Nat) : Option (Tree Entry Assoc) :=
  if ¬(index ≤ countOf o ∧ countOf o < p.countMax) then
    none
  else
    match o with
    | nil => some (leaf p entry)
    | node _ left _ =>
        (insertAtSearch index [] o (countOf left)).bind fun (path, c, side) =>
          (touch p countUp (setChild c side (leaf p entry))).bind fun c' =>
            (fixUp p countUp c' path).bind fun path' => rebalance p path' c' side 1

end Insert

section Remove

variable [DecidableEq Entry]

/-- The position of an entry in the tree: what its `parent` links lead through. -/
def position (o : Tree Entry Assoc) (entry : Entry) : Option (Path Entry Assoc × Tree Entry Assoc) :=
  locate (fun node => decide (node.entry = entry)) [] o

/--
`CAvl_swap_for_remove` of the entry rooting `t` at `path`, which has two
children, with `enode`, the greatest entry of its left subtree
(`CAvl_subtree_max`): the two entries change places, each position keeps its
balance and count (they are swapped with the links), and each entry keeps its
own `assoc`, to be recomputed by `CAvl_replace_subtree_fix_assoc`.  The result
is the entry's new position.
-/
def swapForRemove (path : Path Entry Assoc) (t : Tree Entry Assoc) :
    Option (Path Entry Assoc × Tree Entry Assoc) :=
  match t with
  | nil => none
  | node entry left right =>
      match descend true [] left with
      | (inner, node enode enodeLeft enodeRight) =>
          let top : Node Entry Assoc := { entry with entry := enode.entry, assoc := enode.assoc }
          some (inner ++ ⟨false, top, right⟩ :: path,
            node { enode with entry := entry.entry, assoc := entry.assoc } enodeLeft enodeRight)
      | _ => none

/--
The counts of `CAvl_replace_subtree_fix_assoc`: each ancestor loses the count
of `dest` and gains that of `n`, under the loop's `ASSERT`s.
-/
def replaceCount (dest n : Tree Entry Assoc) (count : Nat) : Option Nat :=
  if countOf dest ≤ count then
    match n with
    | nil => some (count - countOf dest)
    | node .. =>
        if countOf n ≤ p.countMax - (count - countOf dest) then
          some (count - countOf dest + countOf n)
        else
          none
  else
    none

/-- `CAvl_replace_subtree_fix_assoc(dest, n, dest_parent)` with `dest` at `path`. -/
def replaceSubtreeFixAssoc (dest n : Tree Entry Assoc) (path : Path Entry Assoc) :
    Option (Path Entry Assoc) :=
  fixUp p (replaceCount p dest n) n path

/-- `CAvl_Remove` of an entry in the tree. -/
def remove (o : Tree Entry Assoc) (entry : Entry) : Option (Tree Entry Assoc) :=
  (position o entry).bind fun (path, t) =>
    -- with two children, swap with the greatest entry of the left subtree first
    (if hasChild t false ∧ hasChild t true then swapForRemove path t else some (path, t)).bind
      fun (path, t) =>
        if hasChild t false ∧ hasChild t true then
          none
        else
          let n := if hasChild t false then child t false else child t true
          match path with
          | [] => some n
          | f :: rest =>
              (replaceSubtreeFixAssoc p t n (f :: rest)).bind fun path' =>
                match path' with
                | [] => none
                | f' :: rest' => rebalance p rest' (f'.plug n) f'.side (-1)

end Remove

section Queries

/--
The loops of `CAvl_Lookup` (`exact` false: the last entry of the search path
when none compares equal) and `CAvl_LookupExact` (`exact` true: null).
-/
def lookupFrom (key : Key) (exact : Bool) : Tree Entry Assoc → Option Entry
  | nil => none
  | node c left right =>
      match p.compareKeyEntry key c.entry with
      | .eq => some c.entry
      | .lt =>
          match left with
          | nil => if exact then none else some c.entry
          | node .. => lookupFrom key exact left
      | .gt =>
          match right with
          | nil => if exact then none else some c.entry
          | node .. => lookupFrom key exact right

/-- `CAvl_Lookup`. -/
def lookup (o : Tree Entry Assoc) (key : Key) : Option Entry :=
  lookupFrom p key false o

/-- `CAvl_LookupExact`. -/
def lookupExact (o : Tree Entry Assoc) (key : Key) : Option Entry :=
  lookupFrom p key true o

/-- `CAvl_GetFirst` (`side` false, `CAvl_subtree_min`) and `CAvl_GetLast` (true, `CAvl_subtree_max`). -/
def getExtreme (side : Bool) (o : Tree Entry Assoc) : Option Entry :=
  entryOf (descend side [] o).2

/-- `CAvl_GetFirst`. -/
def getFirst (o : Tree Entry Assoc) : Option Entry :=
  getExtreme false o

/-- `CAvl_GetLast`. -/
def getLast (o : Tree Entry Assoc) : Option Entry :=
  getExtreme true o

/--
The climbing loop of `CAvl_GetNext` (`dir` true) and `CAvl_GetPrev` (false):
up while the entry is its parent's child on `dir`, then the parent.
-/
def climb (dir : Bool) : Path Entry Assoc → Option Entry
  | [] => none
  | f :: rest => if f.side = dir then climb dir rest else some f.value.entry

variable [DecidableEq Entry]

/--
`CAvl_GetNext` (`dir` true) and `CAvl_GetPrev` (false) of an entry in the
tree: the extreme entry of its subtree on `dir`, or the first ancestor it is
not on the `dir` side of.
-/
def getStep (dir : Bool) (o : Tree Entry Assoc) (entry : Entry) : Option (Option Entry) :=
  (position o entry).map fun (path, t) =>
    match child t dir with
    | nil => climb dir path
    | c@(node ..) => entryOf (descend (!dir) [] c).2

/-- `CAvl_GetNext`. -/
def getNext (o : Tree Entry Assoc) (entry : Entry) : Option (Option Entry) :=
  getStep true o entry

/-- `CAvl_GetPrev`. -/
def getPrev (o : Tree Entry Assoc) (entry : Entry) : Option (Option Entry) :=
  getStep false o entry

/--
`CAvl_GetFirstGreater`, `CAvl_GetLastLesser`, `CAvl_GetFirstGreaterEqual` and
`CAvl_GetLastLesserEqual`: `CAvl_Lookup`, then one step on `dir` unless the
comparison of the key with the entry found already is one `wanted` accepts,
then the `ASSERT` that it is.
-/
def getNear (wanted : Ordering → Bool) (dir : Bool) (o : Tree Entry Assoc) (key : Key) :
    Option (Option Entry) :=
  match lookup p o key with
  | none => some none
  | some c =>
      if wanted (p.compareKeyEntry key c) then
        some (some c)
      else
        (getStep dir o c).bind fun
          | none => some none
          | some c' => if wanted (p.compareKeyEntry key c') then some (some c') else none

/-- `CAvl_GetFirstGreater`: stays where `key < c`, else steps forward. -/
def getFirstGreater (o : Tree Entry Assoc) (key : Key) : Option (Option Entry) :=
  getNear p (fun comparison => comparison == Ordering.lt) true o key

/-- `CAvl_GetLastLesser`: stays where `key > c`, else steps back. -/
def getLastLesser (o : Tree Entry Assoc) (key : Key) : Option (Option Entry) :=
  getNear p (fun comparison => comparison == Ordering.gt) false o key

/-- `CAvl_GetFirstGreaterEqual`: stays where `key <= c`, else steps forward. -/
def getFirstGreaterEqual (o : Tree Entry Assoc) (key : Key) : Option (Option Entry) :=
  getNear p (fun comparison => comparison != Ordering.gt) true o key

/-- `CAvl_GetLastLesserEqual`: stays where `key >= c`, else steps back. -/
def getLastLesserEqual (o : Tree Entry Assoc) (key : Key) : Option (Option Entry) :=
  getNear p (fun comparison => comparison != Ordering.lt) false o key

/-- `CAvl_Count`. -/
def count (o : Tree Entry Assoc) : Nat :=
  countOf o

/--
The loop of `CAvl_IndexOf` up from an entry whose count is `count`: each time
the entry is its parent's right child, the parent and its left subtree come
before it.
-/
def indexOfUp (index count : Nat) : Path Entry Assoc → Option Nat
  | [] => some index
  | f :: rest =>
      if f.side then
        if ¬(count < f.value.count ∧ f.value.count - count ≤ p.countMax - index) then
          none
        else
          indexOfUp (index + (f.value.count - count)) f.value.count rest
      else
        indexOfUp index f.value.count rest

/-- `CAvl_IndexOf`. -/
def indexOf (o : Tree Entry Assoc) (entry : Entry) : Option Nat :=
  (position o entry).bind fun (path, t) => indexOfUp p (countOf (child t false)) (countOf t) path

/-- The loop of `CAvl_GetAt`, down from the entry rooting `c`. -/
def getAtFrom (index : Nat) : Tree Entry Assoc → Option Entry
  | nil => none
  | node c left right =>
      if ¬ index < c.count then
        none
      else if index = countOf left then
        some c.entry
      else if index < countOf left then
        getAtFrom index left
      else
        getAtFrom (index - (countOf left + 1)) right

/-- `CAvl_GetAt`: null past the last index. -/
def getAt (o : Tree Entry Assoc) (index : Nat) : Option (Option Entry) :=
  if index ≥ count o then some none else (getAtFrom index o).map some

/-- `CAvl_AssocSum`. -/
def assocSum (o : Tree Entry Assoc) : Assoc :=
  (assocOf o).getD p.assocZero

/--
The loop of `CAvl_ExclusiveAssocPrefixSum` up from an entry: each time the
entry is its parent's right child, the parent's value and then the sum of its
left subtree go in front of the sum.
-/
def prefixSumUp (sum : Assoc) : Path Entry Assoc → Assoc
  | [] => sum
  | f :: rest =>
      if f.side then
        let sum := p.assocOper (p.assocValue f.value.entry) sum
        let sum :=
          match f.sibling with
          | nil => sum
          | node leftEntry _ _ => p.assocOper leftEntry.assoc sum
        prefixSumUp sum rest
      else
        prefixSumUp sum rest

/-- `CAvl_ExclusiveAssocPrefixSum`. -/
def exclusiveAssocPrefixSum (o : Tree Entry Assoc) (entry : Entry) : Option Assoc :=
  (position o entry).map fun (path, t) => prefixSumUp p ((assocOf (child t false)).getD p.assocZero) path

/--
The loop of `CAvl_FindLastExclusiveAssocPrefixSumLesserEqual` down from `c`,
with the sum of everything before `c`'s subtree (`sum_offset`) and the last
entry whose prefix sum was not above `sum`.
-/
def findLastFrom (sum : Assoc) (sumLess : Assoc → Assoc → Bool) :
    Assoc → Option Entry → Tree Entry Assoc → Option Entry
  | _, result, nil => result
  | sumOffset, result, node c left right =>
      let cPrefixsum := p.assocOper sumOffset ((assocOf left).getD p.assocZero)
      if sumLess sum cPrefixsum then
        findLastFrom sum sumLess sumOffset result left
      else
        findLastFrom sum sumLess (p.assocOper cPrefixsum (p.assocValue c.entry)) (some c.entry) right

/-- `CAvl_FindLastExclusiveAssocPrefixSumLesserEqual`, with `sum_less` as a Boolean. -/
def findLastExclusiveAssocPrefixSumLesserEqual (o : Tree Entry Assoc) (sum : Assoc)
    (sumLess : Assoc → Assoc → Bool) : Option Entry :=
  findLastFrom p sum sumLess p.assocZero none o

end Queries

section Verify

variable [DecidableEq Assoc]

/--
`CAvl_verify_recurser`: the height of the subtree, or `none` where an
`ASSERT_FORCE` fails.  `keyed` is `!CAVL_PARAM_FEATURE_KEYS_ARE_INDICES`, under
which each child must compare below (left) or above (right) its parent.
-/
def verifyRecurser (keyed : Bool) : Tree Entry Assoc → Option Nat
  | nil => some 0
  | node n left right =>
      if ¬(-1 ≤ n.balance ∧ n.balance ≤ 1) then
        none
      else
        let heightLeft :=
          match left with
          | nil => some 0
          | node leftEntry _ _ =>
              if keyed ∧ p.compareEntries leftEntry.entry n.entry ≠ Ordering.lt then none
              else verifyRecurser keyed left
        let heightRight :=
          match right with
          | nil => some 0
          | node rightEntry _ _ =>
              if keyed ∧ p.compareEntries rightEntry.entry n.entry ≠ Ordering.gt then none
              else verifyRecurser keyed right
        heightLeft.bind fun heightLeft => heightRight.bind fun heightRight =>
          if n.balance = (heightRight : Int) - heightLeft ∧ n.count = 1 + countOf left + countOf right ∧
              n.assoc = computeNodeAssoc p n.entry left right then
            some (max heightLeft heightRight + 1)
          else
            none

/-- `CAvl_Verify`: the root has no parent by construction; the recursion must not fail. -/
def verify (keyed : Bool) (o : Tree Entry Assoc) : Bool :=
  (verifyRecurser p keyed o).isSome

end Verify

end CAvl

end Tun2SocksWinRT
