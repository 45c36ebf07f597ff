import Tun2SocksWinRT.CAvlInvariant

namespace Tun2SocksWinRT

namespace CAvl

/-!
# The queries of `CAvl`

Each query of `structure/CAvl_impl.h` walks one path of the tree, down from
the root or up from an entry, and answers what a scan of the entries in order
would.  The walks up are inductions on the chain of ancestors, which puts the
entries `before` and `after` a position; the walks down are inductions on the
subtree.

A search by key asks only that `COMPARE_KEY_ENTRY` compare a key as
`COMPARE_ENTRIES` compares entries (`KeyOrder`): along sorted entries the
comparisons with a key are then `gt` up to where the key falls and `lt` after,
and `CAvl_Lookup` stops at that place (`lookupFrom_spec`).
-/

open BinaryTree TreeZipper

variable {Entry Key Assoc : Type} (p : Params Entry Key Assoc)

section Navigate

/-- The least entry of a subtree is where a descent on the left stops. -/
theorem entryOf_descend_false (path : Path Entry Assoc) (t : Tree Entry Assoc) :
    entryOf (descend false path t).2 = (entries t).head? := by
  induction t generalizing path with
  | nil => rfl
  | node value left right leftHypothesis _ =>
      cases left with
      | nil => rfl
      | node leftValue leftLeft leftRight =>
          rw [descend, leftHypothesis, entries_node, List.head?_append]
          simp

/-- The greatest entry of a subtree is where a descent on the right stops. -/
theorem entryOf_descend_true (path : Path Entry Assoc) (t : Tree Entry Assoc) :
    entryOf (descend true path t).2 = (entries t).getLast? := by
  induction t generalizing path with
  | nil => rfl
  | node value left right _ rightHypothesis =>
      cases right with
      | nil => simp [descend]
      | node rightValue rightLeft rightRight =>
          rw [descend, rightHypothesis, entries_node]
          simp [List.getLast?_cons]

/-- Climbing forward finds the first entry after a position. -/
theorem climb_true (path : Path Entry Assoc) :
    climb true path = ((after path).map Node.entry).head? := by
  induction path with
  | nil => rfl
  | cons f rest inductionHypothesis =>
      rcases f with ⟨_ | _, value, sibling⟩ <;> simp [climb, Frame.after, inductionHypothesis]

/-- Climbing back finds the last entry before a position. -/
theorem climb_false (path : Path Entry Assoc) :
    climb false path = ((before path).map Node.entry).getLast? := by
  induction path with
  | nil => rfl
  | cons f rest inductionHypothesis =>
      rcases f with ⟨_ | _, value, sibling⟩ <;> simp [climb, Frame.before, inductionHypothesis]

theorem getFirst_eq (o : Tree Entry Assoc) : getFirst o = (entries o).head? :=
  entryOf_descend_false [] o

theorem getLast_eq (o : Tree Entry Assoc) : getLast o = (entries o).getLast? :=
  entryOf_descend_true [] o

variable [DecidableEq Entry]

/-- The position of an entry of distinct entries splits them at it. -/
theorem position_split {o : Tree Entry Assoc} {entry : Entry} {lower upper : List Entry}
    (nodup : (entries o).Nodup) (split : entries o = lower ++ entry :: upper) :
    ∃ path value left right, position o entry = some (path, node value left right) ∧
      plug path (node value left right) = o ∧ value.entry = entry ∧
      lower = (before path).map Node.entry ++ entries left ∧
      upper = entries right ++ (after path).map Node.entry := by
  have present : entry ∈ entries o := by simp [split]
  obtain ⟨⟨path, t⟩, found⟩ := Option.isSome_iff_exists.mp (position_isSome present)
  obtain ⟨plugged, value, left, right, rfl, rfl⟩ := position_spec found
  have arranged : entries o =
      ((before path).map Node.entry ++ entries left) ++ value.entry :: (entries right ++ (after path).map Node.entry) := by
    rw [← plugged, entries_plug]
    simp
  rw [split] at nodup
  -- the entry is neither before nor after itself, so the two splits agree
  have notMem := (List.nodup_cons.mp (List.nodup_middle.mp nodup)).1
  have parts := (List.append_cons_inj_of_notMem (fun member => notMem (List.mem_append_left upper member))
    (fun member => notMem (List.mem_append_right lower member))).mp (split.symm.trans arranged)
  exact ⟨path, value, left, right, found, plugged, rfl, parts.1, parts.2.2⟩

/-- `CAvl_GetNext` and `CAvl_GetPrev` of an entry are its neighbours in order. -/
theorem getStep_spec {o : Tree Entry Assoc} {entry : Entry} {lower upper : List Entry}
    (nodup : (entries o).Nodup) (split : entries o = lower ++ entry :: upper) :
    getNext o entry = some upper.head? ∧ getPrev o entry = some lower.getLast? := by
  obtain ⟨path, value, left, right, found, -, -, rfl, rfl⟩ := position_split nodup split
  constructor
  · -- the least entry of the right subtree, or else the first one after the position
    cases right <;> simp [getNext, getStep, found, climb_true, entryOf_descend_false, List.head?_append]
  · cases left <;> simp [getPrev, getStep, found, climb_false, entryOf_descend_true, List.getLast?_append,
      List.getLast?_cons]

end Navigate

section Lookup

/--
`COMPARE_KEY_ENTRY` compares a key as `COMPARE_ENTRIES` compares entries: a
key not above an entry is below every greater entry, and a key not below an
entry is above every lesser one.
-/
structure KeyOrder : Prop where
  lt_of_lt : ∀ key a b, p.compareEntries a b = .lt → p.compareKeyEntry key a ≠ .gt → p.compareKeyEntry key b = .lt
  gt_of_lt : ∀ key a b, p.compareEntries a b = .lt → p.compareKeyEntry key b ≠ .lt → p.compareKeyEntry key a = .gt

/-- Comparators that both compare keys under one total order, an entry by its key, agree. -/
theorem keyOrder_of_key {cmp : Key → Key → Ordering} [Std.TransCmp cmp] (keyOf : Entry → Key)
    (entriesByKey : ∀ a b, p.compareEntries a b = cmp (keyOf a) (keyOf b))
    (keyByKey : ∀ key entry, p.compareKeyEntry key entry = cmp key (keyOf entry)) : KeyOrder p where
  lt_of_lt key a b below notAbove := by
    rw [entriesByKey] at below
    rw [keyByKey] at notAbove ⊢
    exact Std.TransCmp.lt_of_isLE_of_lt (Ordering.isLE_iff_ne_gt.mpr notAbove) below
  gt_of_lt key a b below notBelow := by
    rw [entriesByKey] at below
    rw [keyByKey] at notBelow ⊢
    exact Std.TransCmp.gt_of_isGE_of_gt (Ordering.isGE_iff_ne_lt.mpr notBelow) (Std.OrientedCmp.gt_iff_lt.mpr below)

variable {p}

/--
The loops of `CAvl_Lookup` and `CAvl_LookupExact` in a sorted subtree stop at
the entry `c` where the key falls: every entry before `c` is below the key,
every entry after it above.  `CAvl_LookupExact` keeps `c` only when it
compares equal.
-/
theorem lookupFrom_spec (order : KeyOrder p) (key : Key) {t : Tree Entry Assoc} (nonempty : t ≠ nil)
    (sorted : SortedTree.Sorted p.compareEntries (entries t)) :
    ∃ lower c upper, entries t = lower ++ c :: upper ∧ (∀ x ∈ lower, p.compareKeyEntry key x = .gt) ∧
      (∀ y ∈ upper, p.compareKeyEntry key y = .lt) ∧ lookupFrom p key false t = some c ∧
      lookupFrom p key true t = if p.compareKeyEntry key c = .eq then some c else none := by
  induction t with
  | nil => exact absurd rfl nonempty
  | node value left right leftHypothesis rightHypothesis =>
      obtain ⟨leftSorted, rightSorted, leftBelow, rightAbove⟩ := sorted_node p sorted
      -- the key is above the whole left subtree once it is not below the entry, and symmetrically
      have leftGt (notLt : p.compareKeyEntry key value.entry ≠ .lt) :
          ∀ x ∈ entries left, p.compareKeyEntry key x = .gt :=
        fun x member => order.gt_of_lt key x value.entry (leftBelow x member) notLt
      have rightLt (notGt : p.compareKeyEntry key value.entry ≠ .gt) :
          ∀ y ∈ entries right, p.compareKeyEntry key y = .lt :=
        fun y member => order.lt_of_lt key value.entry y (rightAbove y member) notGt
      rcases comparison : p.compareKeyEntry key value.entry with _ | _ | _
      · -- below the entry: the search goes on in the left subtree, or stops here
        have above := rightLt (by simp [comparison])
        cases left with
        | nil =>
            refine ⟨[], value.entry, entries right, by simp, by simp, above, ?_, ?_⟩ <;>
              simp [lookupFrom, comparison]
        | node leftValue leftLeft leftRight =>
            obtain ⟨lower, c, upper, split, below, aboveLeft, found, foundExact⟩ := leftHypothesis nofun leftSorted
            refine ⟨lower, c, upper ++ value.entry :: entries right, by simp [split], below, ?_, ?_, ?_⟩
            · intro y member
              simp only [List.mem_append, List.mem_cons] at member
              rcases member with inUpper | rfl | inRight
              · exact aboveLeft y inUpper
              · exact comparison
              · exact above y inRight
            · rw [lookupFrom.eq_def p key false (node value (node leftValue leftLeft leftRight) right)]
              simpa only [comparison] using found
            · rw [lookupFrom.eq_def p key true (node value (node leftValue leftLeft leftRight) right)]
              simpa only [comparison] using foundExact
      · -- equal: the search stops here
        refine ⟨entries left, value.entry, entries right, by simp, leftGt (by simp [comparison]),
          rightLt (by simp [comparison]), ?_, ?_⟩ <;> simp [lookupFrom, comparison]
      · -- above the entry: the search goes on in the right subtree, or stops here
        have below := leftGt (by simp [comparison])
        cases right with
        | nil =>
            refine ⟨entries left, value.entry, [], by simp, below, by simp, ?_, ?_⟩ <;>
              simp [lookupFrom, comparison]
        | node rightValue rightLeft rightRight =>
            obtain ⟨lower, c, upper, split, belowRight, aboveRight, found, foundExact⟩ :=
              rightHypothesis nofun rightSorted
            refine ⟨entries left ++ value.entry :: lower, c, upper, by simp [split], ?_, aboveRight, ?_, ?_⟩
            · intro x member
              simp only [List.mem_append, List.mem_cons] at member
              rcases member with inLeft | rfl | inLower
              · exact below x inLeft
              · exact comparison
              · exact belowRight x inLower
            · rw [lookupFrom.eq_def p key false (node value left (node rightValue rightLeft rightRight))]
              simpa only [comparison] using found
            · rw [lookupFrom.eq_def p key true (node value left (node rightValue rightLeft rightRight))]
              simpa only [comparison] using foundExact

/-- `CAvl_LookupExact` finds the entry that compares equal to the key, if there is one. -/
theorem lookupExact_eq (order : KeyOrder p) (key : Key) {o : Tree Entry Assoc}
    (sorted : SortedTree.Sorted p.compareEntries (entries o)) :
    lookupExact p o key = (entries o).find? fun e => p.compareKeyEntry key e == .eq := by
  cases o with
  | nil => rfl
  | node value left right =>
      obtain ⟨lower, c, upper, split, below, above, -, foundExact⟩ :=
        lookupFrom_spec order key (t := node value left right) nofun sorted
      -- the entries before `c` compare `gt`, those after it `lt`
      have skipLower : lower.find? (fun e => p.compareKeyEntry key e == .eq) = none :=
        List.find?_eq_none.mpr fun x member => by simp [below x member]
      have skipUpper : upper.find? (fun e => p.compareKeyEntry key e == .eq) = none :=
        List.find?_eq_none.mpr fun y member => by simp [above y member]
      rw [lookupExact, foundExact, split, List.find?_append, skipLower, Option.none_or]
      by_cases equal : p.compareKeyEntry key c = .eq
      · rw [if_pos equal, List.find?_cons_of_pos (by simp [equal])]
      · rw [if_neg equal, List.find?_cons_of_neg (by simp [equal]), skipUpper]

variable [DecidableEq Entry]

/--
`CAvl_GetFirstGreater` and `CAvl_GetFirstGreaterEqual` answer the first entry
whose comparison with the key `wanted` accepts, for a `wanted` that refuses
`gt` and accepts `lt`.
-/
theorem getNear_true (order : KeyOrder p) {wanted : Ordering → Bool} (refuses : wanted .gt = false)
    (accepts : wanted .lt = true) (key : Key) {o : Tree Entry Assoc}
    (sorted : SortedTree.Sorted p.compareEntries (entries o)) (nodup : (entries o).Nodup) :
    getNear p wanted true o key = some ((entries o).find? fun e => wanted (p.compareKeyEntry key e)) := by
  cases o with
  | nil => rfl
  | node value left right =>
      obtain ⟨lower, c, upper, split, below, above, found, -⟩ :=
        lookupFrom_spec order key (t := node value left right) nofun sorted
      have skipLower : lower.find? (fun e => wanted (p.compareKeyEntry key e)) = none :=
        List.find?_eq_none.mpr fun x member => by simp [below x member, refuses]
      have next := (getStep_spec nodup split).1
      rw [getNext] at next
      rw [getNear, lookup, found]
      dsimp only
      rw [split, List.find?_append, skipLower, Option.none_or]
      by_cases stays : wanted (p.compareKeyEntry key c) = true
      · rw [if_pos stays, List.find?_cons_of_pos (p := fun e => wanted (p.compareKeyEntry key e)) stays]
      · -- one step forward, onto the first entry above the key
        rw [if_neg stays, List.find?_cons_of_neg (p := fun e => wanted (p.compareKeyEntry key e)) stays, next]
        cases upper with
        | nil => rfl
        | cons y rest => simp [above y List.mem_cons_self, accepts]

/--
`CAvl_GetLastLesser` and `CAvl_GetLastLesserEqual` answer the last entry
whose comparison with the key `wanted` accepts, for a `wanted` that accepts
`gt` and refuses `lt`.
-/
theorem getNear_false (order : KeyOrder p) {wanted : Ordering → Bool} (accepts : wanted .gt = true)
    (refuses : wanted .lt = false) (key : Key) {o : Tree Entry Assoc}
    (sorted : SortedTree.Sorted p.compareEntries (entries o)) (nodup : (entries o).Nodup) :
    getNear p wanted false o key = some ((entries o).reverse.find? fun e => wanted (p.compareKeyEntry key e)) := by
  cases o with
  | nil => rfl
  | node value left right =>
      obtain ⟨lower, c, upper, split, below, above, found, -⟩ :=
        lookupFrom_spec order key (t := node value left right) nofun sorted
      have skipUpper : upper.reverse.find? (fun e => wanted (p.compareKeyEntry key e)) = none :=
        List.find?_eq_none.mpr fun y member => by simp [above y (List.mem_reverse.mp member), refuses]
      have previous := (getStep_spec nodup split).2
      rw [getPrev] at previous
      -- the entries before `c` are all accepted: the last one is the answer
      have lastFound : lower.reverse.find? (fun e => wanted (p.compareKeyEntry key e)) = lower.getLast? := by
        rw [← List.head?_reverse]
        cases reversed : lower.reverse with
        | nil => rfl
        | cons x rest =>
            have member : x ∈ lower := List.mem_reverse.mp (by rw [reversed]; exact List.mem_cons_self)
            exact List.find?_cons_of_pos (p := fun e => wanted (p.compareKeyEntry key e))
              (by simp [below x member, accepts])
      rw [getNear, lookup, found]
      dsimp only
      rw [split, List.reverse_append, List.reverse_cons, List.append_assoc, List.find?_append, skipUpper,
        Option.none_or, List.singleton_append]
      by_cases stays : wanted (p.compareKeyEntry key c) = true
      · rw [if_pos stays, List.find?_cons_of_pos (p := fun e => wanted (p.compareKeyEntry key e)) stays]
      · -- one step back, onto the last entry below the key
        rw [if_neg stays, List.find?_cons_of_neg (p := fun e => wanted (p.compareKeyEntry key e)) stays, previous,
          lastFound]
        cases last : lower.getLast? with
        | none => rfl
        | some x => simp [below x (List.mem_of_getLast? last), accepts]

end Lookup

section Counts

/--
The loop of `CAvl_IndexOf` up shaped ancestors adds one and the count of the
left sibling for each ancestor the position is right of: the number of entries
before the position.
-/
theorem indexOfUp_eq {path : Path Entry Assoc} {h c : Nat} (shaped : PathShaped p path h c) (index : Nat)
    (fits : index + (before path).length ≤ p.countMax) :
    indexOfUp p index c path = some (index + (before path).length) := by
  induction path generalizing h c index with
  | nil => rfl
  | cons f rest inductionHypothesis =>
      rcases f with ⟨_ | _, value, sibling⟩ <;> obtain ⟨frame, restShaped⟩ := shaped
      · -- left of the ancestor: nothing is added
        simpa [indexOfUp, Frame.before] using inductionHypothesis restShaped index (by simpa [Frame.before] using fits)
      · -- right of the ancestor: it and its left subtree come before
        have countEq : value.count = 1 + c + countOf sibling := frame.count_eq
        have siblingCount : countOf sibling = (inorder sibling).length := by
          rw [frame.sibling.countOf_eq, entries, List.length_map]
        simp only [before_cons, Frame.before, List.length_append, List.length_singleton] at fits ⊢
        have step : ¬¬(c < value.count ∧ value.count - c ≤ p.countMax - index) := by omega
        rw [indexOfUp]
        dsimp only
        rw [if_pos rfl, if_neg step, inductionHypothesis restShaped _ (by omega)]
        congr 1
        omega

/-- `CAvl_IndexOf` of an entry is its position in order. -/
theorem indexOf_eq [DecidableEq Entry] {o : Tree Entry Assoc} {entry : Entry} (valid : Valid p o)
    (nodup : (entries o).Nodup) (present : entry ∈ entries o) (bounded : countOf o ≤ p.countMax) :
    indexOf p o entry = some ((entries o).idxOf entry) := by
  obtain ⟨lower, upper, split⟩ := List.append_of_mem present
  obtain ⟨path, value, left, right, found, plugged, rfl, rfl, rfl⟩ := position_split nodup split
  subst plugged
  obtain ⟨⟨-, validLeft, -⟩, pathOk⟩ := (valid_plug_iff p path _).mp valid
  have absent : value.entry ∉ (before path).map Node.entry ++ entries left :=
    (List.nodup_middle.mp (split ▸ nodup) |> List.nodup_cons.mp).1 ∘ List.mem_append_left _
  -- the entries before the position, those of its left subtree included, fit in a count
  have fits : countOf left + (before path).length ≤ p.countMax := by
    have total := valid.countOf_eq
    rw [split] at total
    simp only [List.length_append, List.length_map, List.length_cons] at total
    rw [validLeft.countOf_eq]
    omega
  rw [split, List.idxOf_append_of_notMem absent, List.idxOf_cons_self, indexOf, found, Option.bind_some]
  dsimp only
  rw [child_node_false, indexOfUp_eq p (pathOk.shaped p) _ fits, validLeft.countOf_eq, List.length_append,
    List.length_map, Nat.add_zero, Nat.add_comm]

/-- The loop of `CAvl_GetAt` finds the entry at an index of a valid subtree. -/
theorem getAtFrom_eq {t : Tree Entry Assoc} (valid : Valid p t) (index : Nat) :
    getAtFrom index t = (entries t)[index]? := by
  induction t generalizing index with
  | nil => rfl
  | node value left right leftHypothesis rightHypothesis =>
      obtain ⟨ok, validLeft, validRight⟩ := valid
      have countEq := ok.count_eq
      rw [validLeft.countOf_eq, validRight.countOf_eq] at countEq
      unfold getAtFrom
      rw [validLeft.countOf_eq, entries_node]
      by_cases past : ¬index < value.count
      · rw [if_pos past, List.getElem?_eq_none (by simp only [List.length_append, List.length_cons]; omega)]
      · rw [if_neg past]
        -- the index is in the left subtree, at the entry, or in the right subtree
        rcases Nat.lt_trichotomy index (entries left).length with inLeft | atEntry | inRight
        · rw [if_neg (by omega), if_pos inLeft, leftHypothesis validLeft, List.getElem?_append_left inLeft]
        · rw [if_pos atEntry, atEntry, List.getElem?_append_right (le_refl _), Nat.sub_self, List.getElem?_cons_zero]
        · rw [if_neg (by omega), if_neg (by omega), rightHypothesis validRight,
            List.getElem?_append_right (by omega),
            show index - (entries left).length = index - ((entries left).length + 1) + 1 by omega,
            List.getElem?_cons_succ]

/-- `CAvl_GetAt` is the entry at an index, null from the count on. -/
theorem getAt_eq {o : Tree Entry Assoc} (valid : Valid p o) (index : Nat) :
    getAt o index = some (entries o)[index]? := by
  unfold getAt count
  rw [valid.countOf_eq]
  split_ifs with past
  · rw [List.getElem?_eq_none past]
  · rw [getAtFrom_eq p valid, List.getElem?_eq_getElem (by omega), Option.map_some]

end Counts

section Sums

/-- Each entry of a list with its exclusive prefix sum from `offset`: `offset` times the values before it. -/
def exclusivePrefixSums (offset : Assoc) : List Entry → List (Entry × Assoc)
  | [] => []
  | entry :: rest => (entry, offset) :: exclusivePrefixSums (p.assocOper offset (p.assocValue entry)) rest

theorem exclusivePrefixSums_append (offset : Assoc) (first second : List Entry) :
    exclusivePrefixSums p offset (first ++ second) =
      exclusivePrefixSums p offset first ++
        exclusivePrefixSums p ((first.map p.assocValue).foldl p.assocOper offset) second := by
  induction first generalizing offset with
  | nil => rfl
  | cons entry rest inductionHypothesis => simp [exclusivePrefixSums, inductionHypothesis]

variable [Std.Associative p.assocOper]

/--
The loop of `CAvl_ExclusiveAssocPrefixSum` up shaped ancestors puts in front
of the sum the product of the entries before the position.
-/
theorem prefixSumUp_eq {path : Path Entry Assoc} {h c : Nat} (shaped : PathShaped p path h c) (sum : Assoc) :
    some (prefixSumUp p sum path) = Option.merge p.assocOper (foldAssoc p ((before path).map Node.entry)) (some sum) := by
  induction path generalizing h c sum with
  | nil => simp [prefixSumUp]
  | cons f rest inductionHypothesis =>
      rcases f with ⟨_ | _, value, sibling⟩ <;> obtain ⟨frame, restShaped⟩ := shaped
      · simpa [prefixSumUp, Frame.before] using inductionHypothesis restShaped sum
      · -- the ancestor's value and then its left subtree's sum go in front
        have siblingSum : assocOf sibling = foldAssoc p (entries sibling) := frame.sibling.assocOf_eq
        rw [prefixSumUp, if_pos rfl]
        dsimp only
        rw [inductionHypothesis restShaped, before_cons, List.map_append, foldAssoc_append, merge_assoc]
        congr 1
        simp only [Frame.before, List.map_append, List.map_cons, List.map_nil]
        rw [← entries, foldAssoc_append, ← siblingSum]
        cases sibling <;> simp [Std.Associative.assoc]

variable [Std.LawfulIdentity p.assocOper p.assocZero]

/-- `CAvl_ExclusiveAssocPrefixSum` of an entry is the fold of the values before it in order. -/
theorem exclusiveAssocPrefixSum_eq [DecidableEq Entry] {o : Tree Entry Assoc} {entry : Entry} (valid : Valid p o)
    (nodup : (entries o).Nodup) (present : entry ∈ entries o) :
    exclusiveAssocPrefixSum p o entry =
      some ((((entries o).take ((entries o).idxOf entry)).map p.assocValue).foldl p.assocOper p.assocZero) := by
  obtain ⟨lower, upper, split⟩ := List.append_of_mem present
  obtain ⟨path, value, left, right, found, plugged, rfl, rfl, rfl⟩ := position_split nodup split
  subst plugged
  obtain ⟨⟨-, validLeft, -⟩, pathOk⟩ := (valid_plug_iff p path _).mp valid
  have absent : value.entry ∉ (before path).map Node.entry ++ entries left :=
    (List.nodup_middle.mp (split ▸ nodup) |> List.nodup_cons.mp).1 ∘ List.mem_append_left _
  rw [split, List.idxOf_append_of_notMem absent, List.idxOf_cons_self, Nat.add_zero, List.take_left,
    exclusiveAssocPrefixSum, found, Option.map_some]
  dsimp only
  rw [← getD_foldOpt, Option.some_inj.symm, child_node_false, prefixSumUp_eq p (pathOk.shaped p), validLeft.assocOf_eq,
    merge_some_getD, ← foldAssoc_append, foldAssoc]

/-- The prefix sum `CAvl_FindLastExclusiveAssocPrefixSumLesserEqual` computes at an entry over `left`. -/
theorem offset_sum_eq_foldl {left : Tree Entry Assoc} (valid : Valid p left) (offset : Assoc) :
    p.assocOper offset ((assocOf left).getD p.assocZero) = ((entries left).map p.assocValue).foldl p.assocOper offset := by
  have rightIdentity : p.assocOper offset p.assocZero = offset := Std.LawfulRightIdentity.right_id offset
  have shifted : ((entries left).map p.assocValue).foldl p.assocOper (p.assocOper offset p.assocZero) =
      p.assocOper offset (((entries left).map p.assocValue).foldl p.assocOper p.assocZero) :=
    List.foldl_assoc
  rw [valid.assocOf_eq, foldAssoc, getD_foldOpt, ← shifted, rightIdentity]

/--
The loop of `CAvl_FindLastExclusiveAssocPrefixSumLesserEqual` down a valid
subtree, where being above `sum` is upward closed along the entries: the last
entry of the subtree whose prefix sum is not above `sum`, or what was found
before the subtree.
-/
theorem findLastFrom_eq {sum : Assoc} {sumLess : Assoc → Assoc → Bool} {t : Tree Entry Assoc} (valid : Valid p t)
    (offset : Assoc) (result : Option Entry)
    (closed : (exclusivePrefixSums p offset (entries t)).Pairwise fun a b => sumLess sum a.2 → sumLess sum b.2) :
    findLastFrom p sum sumLess offset result t =
      (((exclusivePrefixSums p offset (entries t)).reverse.find? fun a => !sumLess sum a.2).map Prod.fst).or result := by
  induction t generalizing offset result with
  | nil => simp [findLastFrom, exclusivePrefixSums]
  | node value left right leftHypothesis rightHypothesis =>
      obtain ⟨-, validLeft, validRight⟩ := valid
      have prefixEq := offset_sum_eq_foldl p validLeft offset
      rw [entries_node, exclusivePrefixSums_append, exclusivePrefixSums] at closed ⊢
      obtain ⟨leftClosed, entryClosed, -⟩ := List.pairwise_append.mp closed
      obtain ⟨rightAbove, rightClosed⟩ := List.pairwise_cons.mp entryClosed
      rw [List.reverse_append, List.reverse_cons, List.append_assoc, List.find?_append, List.find?_append,
        List.find?_singleton]
      unfold findLastFrom
      dsimp only
      rw [prefixEq]
      by_cases above : sumLess sum (((entries left).map p.assocValue).foldl p.assocOper offset) = true
      · -- the entry's prefix sum is above `sum`, and so is every one after it: only the left subtree is left
        have skipRight : (exclusivePrefixSums p (p.assocOper (((entries left).map p.assocValue).foldl p.assocOper offset)
            (p.assocValue value.entry)) (entries right)).reverse.find? (fun a => !sumLess sum a.2) = none :=
          List.find?_eq_none.mpr fun b member => by simp [rightAbove b (List.mem_reverse.mp member) above]
        rw [if_pos above, if_neg (by simp [above]), leftHypothesis validLeft offset result leftClosed, skipRight]
        simp
      · -- the entry is a candidate, and the last one unless one of the right subtree is
        rw [if_neg above, if_pos (by simpa using above), rightHypothesis validRight _ _ rightClosed]
        cases (exclusivePrefixSums p _ (entries right)).reverse.find? (fun a => !sumLess sum a.2) <;> simp

/--
`CAvl_FindLastExclusiveAssocPrefixSumLesserEqual` answers the last entry in
order whose exclusive prefix sum is not above `sum`, when being above it is
upward closed along the entries.
-/
theorem findLast_eq {sum : Assoc} {sumLess : Assoc → Assoc → Bool} {o : Tree Entry Assoc} (valid : Valid p o)
    (closed : (exclusivePrefixSums p p.assocZero (entries o)).Pairwise fun a b => sumLess sum a.2 → sumLess sum b.2) :
    findLastExclusiveAssocPrefixSumLesserEqual p o sum sumLess =
      ((exclusivePrefixSums p p.assocZero (entries o)).reverse.find? fun a => !sumLess sum a.2).map Prod.fst := by
  rw [findLastExclusiveAssocPrefixSumLesserEqual, findLastFrom_eq p valid _ _ closed, Option.or_none]

end Sums

/--
The logarithmic queries on a valid tree of distinct entries answer what scans
of its entries in order answer: `CAvl_IndexOf` the position, `CAvl_GetAt` the
entry at an index (null from the count on), `CAvl_ExclusiveAssocPrefixSum` the
fold of the values before the entry,
`CAvl_FindLastExclusiveAssocPrefixSumLesserEqual` the last entry whose prefix
sum is not above `sum` (when being above it is upward closed), and in a sorted
tree with a key comparator that agrees with the entries' the four searches by
key the first or last entry the comparison accepts.
-/
theorem queries_agree_with_inorder [DecidableEq Entry] [Std.Associative p.assocOper]
    [Std.LawfulIdentity p.assocOper p.assocZero] {o : Tree Entry Assoc} (valid : Valid p o)
    (nodup : (entries o).Nodup) (bounded : countOf o ≤ p.countMax) :
    (∀ entry ∈ entries o, indexOf p o entry = some ((entries o).idxOf entry)) ∧
    (∀ index, getAt o index = some (entries o)[index]? ∧ (getAt o index = some none ↔ count o ≤ index)) ∧
    (∀ entry ∈ entries o, exclusiveAssocPrefixSum p o entry =
      some ((((entries o).take ((entries o).idxOf entry)).map p.assocValue).foldl p.assocOper p.assocZero)) ∧
    (∀ sum sumLess,
      (exclusivePrefixSums p p.assocZero (entries o)).Pairwise (fun a b => sumLess sum a.2 → sumLess sum b.2) →
      findLastExclusiveAssocPrefixSumLesserEqual p o sum sumLess =
        ((exclusivePrefixSums p p.assocZero (entries o)).reverse.find? fun a => !sumLess sum a.2).map Prod.fst) ∧
    (KeyOrder p → SortedTree.Sorted p.compareEntries (entries o) → ∀ key,
      getFirstGreater p o key = some ((entries o).find? fun e => p.compareKeyEntry key e == .lt) ∧
      getLastLesser p o key = some ((entries o).reverse.find? fun e => p.compareKeyEntry key e == .gt) ∧
      getFirstGreaterEqual p o key = some ((entries o).find? fun e => p.compareKeyEntry key e != .gt) ∧
      getLastLesserEqual p o key = some ((entries o).reverse.find? fun e => p.compareKeyEntry key e != .lt)) := by
  refine ⟨fun entry present => indexOf_eq p valid nodup present bounded, fun index => ⟨getAt_eq p valid index, ?_⟩,
    fun entry present => exclusiveAssocPrefixSum_eq p valid nodup present,
    fun sum sumLess closed => findLast_eq p valid closed, fun order sorted key => ?_⟩
  · -- null exactly past the last index
    rw [getAt_eq p valid index, Option.some_inj, List.getElem?_eq_none_iff, count, valid.countOf_eq]
  · exact ⟨getNear_true order rfl rfl key sorted nodup, getNear_false order rfl rfl key sorted nodup,
      getNear_true order rfl rfl key sorted nodup, getNear_false order rfl rfl key sorted nodup⟩

/-- The entries `1`, `2`, `3` under `testParams`. -/
abbrev queryTestTree : Tree Nat Nat :=
  mk testParams ⟨2, 0, 0, 0⟩ 0 (leaf testParams 1) (leaf testParams 3)

theorem queries_agree_with_inorder_test :
    Valid testParams queryTestTree ∧ (entries queryTestTree).Nodup ∧ countOf queryTestTree ≤ testParams.countMax ∧
    (∀ entry ∈ entries queryTestTree, indexOf testParams queryTestTree entry =
      some ((entries queryTestTree).idxOf entry)) ∧
    (∀ index, getAt queryTestTree index = some (entries queryTestTree)[index]? ∧
      (getAt queryTestTree index = some none ↔ count queryTestTree ≤ index)) ∧
    (∀ entry ∈ entries queryTestTree, exclusiveAssocPrefixSum testParams queryTestTree entry =
      some ((((entries queryTestTree).take ((entries queryTestTree).idxOf entry)).map testParams.assocValue).foldl
        testParams.assocOper testParams.assocZero)) ∧
    (∀ sum sumLess,
      (exclusivePrefixSums testParams testParams.assocZero (entries queryTestTree)).Pairwise
        (fun a b => sumLess sum a.2 → sumLess sum b.2) →
      findLastExclusiveAssocPrefixSumLesserEqual testParams queryTestTree sum sumLess =
        ((exclusivePrefixSums testParams testParams.assocZero (entries queryTestTree)).reverse.find?
          fun a => !sumLess sum a.2).map Prod.fst) ∧
    (KeyOrder testParams → SortedTree.Sorted testParams.compareEntries (entries queryTestTree) → ∀ key,
      getFirstGreater testParams queryTestTree key =
        some ((entries queryTestTree).find? fun e => testParams.compareKeyEntry key e == .lt) ∧
      getLastLesser testParams queryTestTree key =
        some ((entries queryTestTree).reverse.find? fun e => testParams.compareKeyEntry key e == .gt) ∧
      getFirstGreaterEqual testParams queryTestTree key =
        some ((entries queryTestTree).find? fun e => testParams.compareKeyEntry key e != .gt) ∧
      getLastLesserEqual testParams queryTestTree key =
        some ((entries queryTestTree).reverse.find? fun e => testParams.compareKeyEntry key e != .lt)) :=
  have valid : Valid testParams queryTestTree :=
    valid_mk testParams (valid_leaf testParams 1) (valid_leaf testParams 3) rfl (by decide) (by decide)
  ⟨valid, by decide, by decide, queries_agree_with_inorder testParams valid (by decide) (by decide)⟩

end CAvl

end Tun2SocksWinRT
