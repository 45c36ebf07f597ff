import Tun2SocksWinRT.CAvl
import Tun2SocksWinRT.SortedTree

namespace Tun2SocksWinRT

namespace CAvl

/-!
# The invariant of `CAvl`

`CAvl_verify_recurser` checks at each entry that the balance is the height of
the right subtree less that of the left and lies in `-1..1`, that the count is
the size of the subtree, that the sum is the product of the subtree's values,
and, in a tree keyed by its comparator, that each child compares on its side of
the entry.  `Valid` is the first three at every entry; the last is that the
in-order list of entries (`entries`) is sorted.

The proofs follow the loops of the source.  The ancestors of a position are
`PathOk` for the subtree in their hole, that is for its height, count and sum
(as the paths of a red-black tree are balanced for a hole of a given colour
and black height); the count loops repair counts and sums up the path
(`fixUp_spec`), and `CAvl_rebalance` is an induction on the path whose step,
`rebalanceAt_spec`, has one case per transformation.
-/

open BinaryTree TreeZipper

variable {Entry Key Assoc : Type} (p : Params Entry Key Assoc)

section Valid

/-- The entries of a tree in order. -/
def entries (t : Tree Entry Assoc) : List Entry :=
  (inorder t).map Node.entry

@[simp] theorem entries_nil : entries (nil : Tree Entry Assoc) = [] :=
  rfl

@[simp] theorem entries_node (value : Node Entry Assoc) (left right : Tree Entry Assoc) :
    entries (node value left right) = entries left ++ value.entry :: entries right := by
  simp [entries]

/-- What `CAvl_verify_recurser` checks at an entry over `left` and `right`, the order apart. -/
structure NodeOk (value : Node Entry Assoc) (left right : Tree Entry Assoc) : Prop where
  balance_eq : value.balance = (right.height : Int) - left.height
  balance_ge : -1 ≤ value.balance
  balance_le : value.balance ≤ 1
  count_eq : value.count = 1 + countOf left + countOf right
  assoc_eq : value.assoc = computeNodeAssoc p value.entry left right

/-- `NodeOk` at every entry of the tree. -/
def Valid : Tree Entry Assoc → Prop
  | nil => True
  | node value left right => NodeOk p value left right ∧ Valid left ∧ Valid right

@[simp] theorem valid_nil : Valid p (nil : Tree Entry Assoc) :=
  trivial

@[simp] theorem valid_node (value : Node Entry Assoc) (left right : Tree Entry Assoc) :
    Valid p (node value left right) ↔ NodeOk p value left right ∧ Valid p left ∧ Valid p right :=
  Iff.rfl

/-- An entry over `left` and `right` with the given balance, its count and sum computed from them. -/
def mk (value : Node Entry Assoc) (balance : Int) (left right : Tree Entry Assoc) : Tree Entry Assoc :=
  node { value with
    balance
    count := 1 + countOf left + countOf right
    assoc := computeNodeAssoc p value.entry left right } left right

@[simp] theorem entries_mk (value : Node Entry Assoc) (balance : Int) (left right : Tree Entry Assoc) :
    entries (mk p value balance left right) = entries left ++ value.entry :: entries right := by
  simp [mk]

@[simp] theorem height_mk (value : Node Entry Assoc) (balance : Int) (left right : Tree Entry Assoc) :
    (mk p value balance left right).height = max left.height right.height + 1 :=
  rfl

theorem valid_mk {value : Node Entry Assoc} {balance : Int} {left right : Tree Entry Assoc}
    (validLeft : Valid p left) (validRight : Valid p right)
    (balanceEq : balance = (right.height : Int) - left.height) (ge : -1 ≤ balance) (le : balance ≤ 1) :
    Valid p (mk p value balance left right) :=
  ⟨⟨balanceEq, ge, le, rfl, rfl⟩, validLeft, validRight⟩

theorem Valid.countOf_eq {t : Tree Entry Assoc} (valid : Valid p t) : countOf t = (entries t).length := by
  induction t with
  | nil => rfl
  | node value left right leftCount rightCount =>
      obtain ⟨ok, validLeft, validRight⟩ := valid
      rw [countOf_node, ok.count_eq, leftCount validLeft, rightCount validRight, entries_node,
        List.length_append, List.length_cons]
      omega

/-- The product of the values of a list of entries under `ASSOC_OPER`, nothing for no entries. -/
def foldAssoc (l : List Entry) : Option Assoc :=
  foldOpt p.assocOper (l.map p.assocValue)

@[simp] theorem foldAssoc_nil : foldAssoc p ([] : List Entry) = none :=
  rfl

@[simp] theorem foldAssoc_cons (entry : Entry) (rest : List Entry) :
    foldAssoc p (entry :: rest) = Option.merge p.assocOper (some (p.assocValue entry)) (foldAssoc p rest) :=
  rfl

theorem foldAssoc_append [Std.Associative p.assocOper] (first second : List Entry) :
    foldAssoc p (first ++ second) = Option.merge p.assocOper (foldAssoc p first) (foldAssoc p second) := by
  simp only [foldAssoc, List.map_append, foldOpt_append]

/-- `CAvl_compute_node_assoc` as a product in which a null child stands for nothing. -/
theorem some_computeNodeAssoc (entry : Entry) (left right : Tree Entry Assoc) :
    some (computeNodeAssoc p entry left right) =
      Option.merge p.assocOper (Option.merge p.assocOper (assocOf left) (some (p.assocValue entry)))
        (assocOf right) := by
  cases left <;> cases right <;> rfl

/-- An entry whose sum is computed from children holding their products holds its subtree's product. -/
theorem some_assoc_eq_foldAssoc [Std.Associative p.assocOper] {value : Node Entry Assoc}
    {left right : Tree Entry Assoc} (assocEq : value.assoc = computeNodeAssoc p value.entry left right)
    (leftSum : assocOf left = foldAssoc p (entries left))
    (rightSum : assocOf right = foldAssoc p (entries right)) :
    some value.assoc = foldAssoc p (entries (node value left right)) := by
  rw [assocEq, some_computeNodeAssoc, leftSum, rightSum, entries_node, foldAssoc_append, foldAssoc_cons,
    merge_assoc]

theorem Valid.assocOf_eq [Std.Associative p.assocOper] {t : Tree Entry Assoc} (valid : Valid p t) :
    assocOf t = foldAssoc p (entries t) := by
  induction t with
  | nil => rfl
  | node value left right leftSum rightSum =>
      obtain ⟨ok, validLeft, validRight⟩ := valid
      exact some_assoc_eq_foldAssoc p ok.assoc_eq (leftSum validLeft) (rightSum validRight)

end Valid

section Paths

@[simp] theorem countOf_frame_plug (f : Frame (Node Entry Assoc)) (t : Tree Entry Assoc) :
    countOf (f.plug t) = f.value.count := by
  rcases f with ⟨_ | _, value, sibling⟩ <;> rfl

@[simp] theorem assocOf_frame_plug (f : Frame (Node Entry Assoc)) (t : Tree Entry Assoc) :
    assocOf (f.plug t) = some f.value.assoc := by
  rcases f with ⟨_ | _, value, sibling⟩ <;> rfl

/-- The height of a frame's subtree with a subtree of height `h` in its hole. -/
def heightAbove (f : Frame (Node Entry Assoc)) (h : Nat) : Nat :=
  max h f.sibling.height + 1

theorem height_frame_plug (f : Frame (Node Entry Assoc)) (t : Tree Entry Assoc) :
    (f.plug t).height = heightAbove f t.height := by
  rcases f with ⟨_ | _, value, sibling⟩ <;> simp [heightAbove, max_comm]

/-- A frame's entry is right for a subtree of height `h` and count `c` in its hole, its sum apart. -/
structure FrameShaped (f : Frame (Node Entry Assoc)) (h c : Nat) : Prop where
  sibling : Valid p f.sibling
  balance_eq :
    f.value.balance = if f.side then (h : Int) - f.sibling.height else (f.sibling.height : Int) - h
  balance_ge : -1 ≤ f.value.balance
  balance_le : f.value.balance ≤ 1
  count_eq : f.value.count = 1 + c + countOf f.sibling

/-- A frame's sum is right for a subtree of sum `a` in its hole. -/
def FrameSummed (f : Frame (Node Entry Assoc)) (a : Option Assoc) : Prop :=
  some f.value.assoc =
    if f.side then
      Option.merge p.assocOper (Option.merge p.assocOper (assocOf f.sibling) (some (p.assocValue f.value.entry))) a
    else
      Option.merge p.assocOper (Option.merge p.assocOper a (some (p.assocValue f.value.entry))) (assocOf f.sibling)

/-- The ancestors of a subtree of height `h` and count `c`, each `FrameShaped` for what is below it. -/
def PathShaped : Path Entry Assoc → Nat → Nat → Prop
  | [], _, _ => True
  | f :: rest, h, c => FrameShaped p f h c ∧ PathShaped rest (heightAbove f h) f.value.count

/-- The ancestors of a subtree of height `h`, count `c` and sum `a`, each right for what is below it. -/
def PathOk : Path Entry Assoc → Nat → Nat → Option Assoc → Prop
  | [], _, _, _ => True
  | f :: rest, h, c, a =>
      FrameShaped p f h c ∧ FrameSummed p f a ∧
        PathOk rest (heightAbove f h) f.value.count (some f.value.assoc)

theorem PathOk.shaped {path : Path Entry Assoc} {h c : Nat} {a : Option Assoc} (ok : PathOk p path h c a) :
    PathShaped p path h c := by
  induction path generalizing h c a with
  | nil => trivial
  | cons f rest inductionHypothesis => exact ⟨ok.1, inductionHypothesis ok.2.2⟩

/-- A frame's sum is right for a subtree exactly when the entry's sum is computed from its children. -/
theorem frameSummed_iff {f : Frame (Node Entry Assoc)} {t left right : Tree Entry Assoc}
    (plugged : f.plug t = node f.value left right) :
    FrameSummed p f (assocOf t) ↔ f.value.assoc = computeNodeAssoc p f.value.entry left right := by
  rcases f with ⟨_ | _, value, sibling⟩ <;> simp only [Frame.plug_false, Frame.plug_true, node.injEq] at plugged <;>
    obtain ⟨-, rfl, rfl⟩ := plugged <;>
    simp [FrameSummed, ← some_computeNodeAssoc]

theorem valid_frame_plug_iff (f : Frame (Node Entry Assoc)) (t : Tree Entry Assoc) :
    Valid p (f.plug t) ↔ Valid p t ∧ FrameShaped p f t.height (countOf t) ∧ FrameSummed p f (assocOf t) := by
  rcases f with ⟨_ | _, value, sibling⟩
  · -- the subtree is the left child
    constructor
    · rintro ⟨ok, validT, validSibling⟩
      exact ⟨validT, ⟨validSibling, ok.balance_eq, ok.balance_ge, ok.balance_le, ok.count_eq⟩,
        (frameSummed_iff p rfl).mpr ok.assoc_eq⟩
    · rintro ⟨validT, shaped, summed⟩
      exact ⟨⟨shaped.balance_eq, shaped.balance_ge, shaped.balance_le, shaped.count_eq,
        (frameSummed_iff p rfl).mp summed⟩, validT, shaped.sibling⟩
  · -- the subtree is the right child
    constructor
    · rintro ⟨ok, validSibling, validT⟩
      have countEq := ok.count_eq
      exact ⟨validT, ⟨validSibling, ok.balance_eq, ok.balance_ge, ok.balance_le, by simp at countEq ⊢; omega⟩,
        (frameSummed_iff p rfl).mpr ok.assoc_eq⟩
    · rintro ⟨validT, shaped, summed⟩
      have countEq := shaped.count_eq
      exact ⟨⟨shaped.balance_eq, shaped.balance_ge, shaped.balance_le, by simp at countEq ⊢; omega,
        (frameSummed_iff p rfl).mp summed⟩, shaped.sibling, validT⟩

/-- A tree is valid just when a position's subtree is and its ancestors are right for it. -/
theorem valid_plug_iff (path : Path Entry Assoc) (t : Tree Entry Assoc) :
    Valid p (plug path t) ↔ Valid p t ∧ PathOk p path t.height (countOf t) (assocOf t) := by
  induction path generalizing t with
  | nil => simp [PathOk]
  | cons f rest inductionHypothesis =>
      rw [plug_cons, inductionHypothesis, valid_frame_plug_iff, height_frame_plug, countOf_frame_plug,
        assocOf_frame_plug]
      simp only [PathOk, and_assoc]

/-- Each ancestor counts more than the subtree below it. -/
theorem PathShaped.count_lt {path : Path Entry Assoc} {h c : Nat} (shaped : PathShaped p path h c) :
    ∀ f ∈ path, c < f.value.count := by
  induction path generalizing h c with
  | nil => simp
  | cons f rest inductionHypothesis =>
      obtain ⟨frame, above⟩ := shaped
      have below : c < f.value.count := by
        have := frame.count_eq
        omega
      intro g member
      rcases List.mem_cons.mp member with rfl | later
      · exact below
      · exact below.trans (inductionHypothesis above g later)

theorem entries_plug (path : Path Entry Assoc) (t : Tree Entry Assoc) :
    entries (plug path t) = (before path).map Node.entry ++ entries t ++ (after path).map Node.entry := by
  simp [entries, inorder_plug]

/-- Positions whose ancestors agree on sides, siblings and entries list the same entries around them. -/
theorem entries_plug_of_sameKey {path path' : Path Entry Assoc} {t t' : Tree Entry Assoc}
    (same : List.Forall₂ (Frame.SameKey Node.entry) path path') (sameEntries : entries t = entries t') :
    entries (plug path t) = entries (plug path' t') := by
  obtain ⟨sameBefore, sameAfter⟩ := map_before_after_of_sameKey same
  rw [entries_plug, entries_plug, sameBefore, sameAfter, sameEntries]

theorem countOf_plug_congr (path : Path Entry Assoc) {a b : Tree Entry Assoc} (same : countOf a = countOf b) :
    countOf (plug path a) = countOf (plug path b) := by
  induction path generalizing a b with
  | nil => exact same
  | cons f rest inductionHypothesis =>
      exact inductionHypothesis (by rw [countOf_frame_plug, countOf_frame_plug])

/-- A subtree under shaped ancestors counts no more than the whole tree. -/
theorem PathShaped.countOf_le_plug {path : Path Entry Assoc} {t : Tree Entry Assoc} {h : Nat}
    (shaped : PathShaped p path h (countOf t)) : countOf t ≤ countOf (plug path t) := by
  induction path generalizing h t with
  | nil => exact le_refl _
  | cons f rest inductionHypothesis =>
      obtain ⟨frame, restShaped⟩ := shaped
      have below := frame.count_eq
      rw [← countOf_frame_plug f t] at restShaped
      have above := inductionHypothesis restShaped
      rw [countOf_frame_plug] at above
      exact le_trans (by omega) above

/-- So does each of its ancestors. -/
theorem PathShaped.count_le_plug {path : Path Entry Assoc} {t : Tree Entry Assoc} {h : Nat}
    (shaped : PathShaped p path h (countOf t)) : ∀ f ∈ path, f.value.count ≤ countOf (plug path t) := by
  induction path generalizing h t with
  | nil => simp
  | cons f rest inductionHypothesis =>
      obtain ⟨-, restShaped⟩ := shaped
      rw [← countOf_frame_plug f t] at restShaped
      intro g member
      rcases List.mem_cons.mp member with rfl | later
      · have := restShaped.countOf_le_plug p
        rwa [countOf_frame_plug] at this
      · exact inductionHypothesis restShaped g later

/-- Shaped paths compose: the inner one for a subtree, the outer one for what the inner one builds. -/
theorem PathShaped.append {inner outer : Path Entry Assoc} {t : Tree Entry Assoc}
    (innerShaped : PathShaped p inner t.height (countOf t))
    (outerShaped : PathShaped p outer (plug inner t).height (countOf (plug inner t))) :
    PathShaped p (inner ++ outer) t.height (countOf t) := by
  induction inner generalizing t with
  | nil => exact outerShaped
  | cons f rest inductionHypothesis =>
      obtain ⟨frame, restShaped⟩ := innerShaped
      rw [← countOf_frame_plug f t, ← height_frame_plug] at restShaped
      have composed := inductionHypothesis restShaped outerShaped
      rw [countOf_frame_plug, height_frame_plug] at composed
      exact ⟨frame, composed⟩

end Paths

section Rebalance

/-!
The six transformations as the subtrees they build, from the right-heavy and
the left-heavy entry: one rotation when the child leans the same way or is
balanced, and a double rotation when it leans the other way.
-/

theorem transform_right_single {v cv : Node Entry Assoc} {l rl rr : Tree Entry Assoc} (delta : Int)
    (leaning : cv.balance = 1) :
    transform p (node v l (node cv rl rr)) 2 delta = some (mk p cv 0 (mk p v 0 l rl) rr, delta - 1) := by
  simp [transform, rotate, fix, mk, computeNodeAssoc, leaning]

theorem transform_right_even {v cv : Node Entry Assoc} {l rl rr : Tree Entry Assoc} (delta : Int)
    (even : cv.balance = 0) :
    transform p (node v l (node cv rl rr)) 2 delta = some (mk p cv (-1) (mk p v 1 l rl) rr, delta) := by
  simp [transform, rotate, fix, mk, computeNodeAssoc, even]

theorem transform_right_double {v cv gv : Node Entry Assoc} {l gl gr rr : Tree Entry Assoc} (delta : Int)
    (leaning : cv.balance = -1) :
    transform p (node v l (node cv (node gv gl gr) rr)) 2 delta =
      some (mk p gv 0 (mk p v (-max 0 gv.balance) l gl) (mk p cv (max 0 (-gv.balance)) gr rr), delta - 1) := by
  simp [transform, rotate, fix, mk, computeNodeAssoc, leaning]

theorem transform_left_single {v cv : Node Entry Assoc} {ll lr r : Tree Entry Assoc} (delta : Int)
    (leaning : cv.balance = -1) :
    transform p (node v (node cv ll lr) r) (-2) delta = some (mk p cv 0 ll (mk p v 0 lr r), delta - 1) := by
  simp [transform, rotate, fix, mk, computeNodeAssoc, leaning]

theorem transform_left_even {v cv : Node Entry Assoc} {ll lr r : Tree Entry Assoc} (delta : Int)
    (even : cv.balance = 0) :
    transform p (node v (node cv ll lr) r) (-2) delta = some (mk p cv 1 ll (mk p v (-1) lr r), delta) := by
  simp [transform, rotate, fix, mk, computeNodeAssoc, even]

theorem transform_left_double {v cv gv : Node Entry Assoc} {ll gl gr r : Tree Entry Assoc} (delta : Int)
    (leaning : cv.balance = 1) :
    transform p (node v (node cv ll (node gv gl gr)) r) (-2) delta =
      some (mk p gv 0 (mk p cv (-max 0 gv.balance) ll gl) (mk p v (max 0 (-gv.balance)) gr r), delta - 1) := by
  simp [transform, rotate, fix, mk, computeNodeAssoc, leaning]

/-- The transformation at an entry whose right subtree is two higher: valid, same entries, height down by at most one. -/
theorem transform_right_heavy {v : Node Entry Assoc} {l r : Tree Entry Assoc} (delta : Int)
    (validLeft : Valid p l) (validRight : Valid p r) (heavy : (r.height : Int) = l.height + 2) :
    ∃ t delta', transform p (node v l r) 2 delta = some (t, delta') ∧ Valid p t ∧
      entries t = entries (node v l r) ∧
      ((t.height : Int) + 1 = (node v l r).height ∧ delta' = delta - 1 ∨
        t.height = (node v l r).height ∧ delta' = delta) := by
  cases r with
  | nil => simp at heavy; omega
  | node cv rl rr =>
      obtain ⟨childOk, validRl, validRr⟩ := validRight
      have childBalance := childOk.balance_eq
      have childGe := childOk.balance_ge
      have childLe := childOk.balance_le
      simp only [height] at heavy ⊢
      rcases (show cv.balance = 1 ∨ cv.balance = 0 ∨ cv.balance = -1 by omega) with leaning | even | leaning
      · -- the child leans the same way: one rotation, one less height
        refine ⟨_, _, transform_right_single p delta leaning,
          valid_mk p (valid_mk p validLeft validRl ?_ ?_ ?_) validRr ?_ ?_ ?_, by simp, Or.inl ⟨?_, rfl⟩⟩ <;>
          simp -failIfUnchanged only [height_mk] <;> omega
      · -- a balanced child: one rotation, the height stays
        refine ⟨_, _, transform_right_even p delta even,
          valid_mk p (valid_mk p validLeft validRl ?_ ?_ ?_) validRr ?_ ?_ ?_, by simp, Or.inr ⟨?_, rfl⟩⟩ <;>
          simp -failIfUnchanged only [height_mk] <;> omega
      · -- the child leans the other way: a rotation at the child, then at the entry
        cases rl with
        | nil => simp at childBalance; omega
        | node gv gl gr =>
            obtain ⟨grandchildOk, validGl, validGr⟩ := validRl
            have grandchildBalance := grandchildOk.balance_eq
            have grandchildGe := grandchildOk.balance_ge
            have grandchildLe := grandchildOk.balance_le
            simp only [height] at childBalance heavy ⊢
            refine ⟨_, _, transform_right_double p delta leaning,
              valid_mk p (valid_mk p validLeft validGl ?_ ?_ ?_) (valid_mk p validGr validRr ?_ ?_ ?_) ?_ ?_ ?_,
              by simp, Or.inl ⟨?_, rfl⟩⟩ <;>
              simp -failIfUnchanged only [height_mk] <;> omega

/-- The transformation at an entry whose left subtree is two higher. -/
theorem transform_left_heavy {v : Node Entry Assoc} {l r : Tree Entry Assoc} (delta : Int)
    (validLeft : Valid p l) (validRight : Valid p r) (heavy : (l.height : Int) = r.height + 2) :
    ∃ t delta', transform p (node v l r) (-2) delta = some (t, delta') ∧ Valid p t ∧
      entries t = entries (node v l r) ∧
      ((t.height : Int) + 1 = (node v l r).height ∧ delta' = delta - 1 ∨
        t.height = (node v l r).height ∧ delta' = delta) := by
  cases l with
  | nil => simp at heavy; omega
  | node cv ll lr =>
      obtain ⟨childOk, validLl, validLr⟩ := validLeft
      have childBalance := childOk.balance_eq
      have childGe := childOk.balance_ge
      have childLe := childOk.balance_le
      simp only [height] at heavy ⊢
      rcases (show cv.balance = -1 ∨ cv.balance = 0 ∨ cv.balance = 1 by omega) with leaning | even | leaning
      · -- the child leans the same way: one rotation, one less height
        refine ⟨_, _, transform_left_single p delta leaning,
          valid_mk p validLl (valid_mk p validLr validRight ?_ ?_ ?_) ?_ ?_ ?_, by simp, Or.inl ⟨?_, rfl⟩⟩ <;>
          simp -failIfUnchanged only [height_mk] <;> omega
      · -- a balanced child: one rotation, the height stays
        refine ⟨_, _, transform_left_even p delta even,
          valid_mk p validLl (valid_mk p validLr validRight ?_ ?_ ?_) ?_ ?_ ?_, by simp, Or.inr ⟨?_, rfl⟩⟩ <;>
          simp -failIfUnchanged only [height_mk] <;> omega
      · -- the child leans the other way: a rotation at the child, then at the entry
        cases lr with
        | nil => simp at childBalance; omega
        | node gv gl gr =>
            obtain ⟨grandchildOk, validGl, validGr⟩ := validLr
            have grandchildBalance := grandchildOk.balance_eq
            have grandchildGe := grandchildOk.balance_ge
            have grandchildLe := grandchildOk.balance_le
            simp only [height] at childBalance heavy ⊢
            refine ⟨_, _, transform_left_double p delta leaning,
              valid_mk p (valid_mk p validLl validGl ?_ ?_ ?_) (valid_mk p validGr validRight ?_ ?_ ?_) ?_ ?_ ?_,
              by simp, Or.inl ⟨?_, rfl⟩⟩ <;>
              simp -failIfUnchanged only [height_mk] <;> omega

theorem transform_of_balanced (t : Tree Entry Assoc) {balance : Int} (delta : Int)
    (ge : -1 ≤ balance) (le : balance ≤ 1) :
    transform p t balance delta = some (t, delta) := by
  have notRotating : ¬(balance = 2 ∨ balance = -2) := by omega
  simp [transform, notRotating]

/--
The entry `value` over `left` and `right` as `CAvl_rebalance` finds it: its
child on `side` changed height by `deltac` and its balance is not updated yet,
while its children are valid and its count and sum are up to date.  `h` is the
height of its subtree before the change.
-/
structure Pending (value : Node Entry Assoc) (left right : Tree Entry Assoc) (side : Bool) (deltac : Int)
    (h : Nat) : Prop where
  valid_left : Valid p left
  valid_right : Valid p right
  count_eq : value.count = 1 + countOf left + countOf right
  assoc_eq : value.assoc = computeNodeAssoc p value.entry left right
  balance_ge : -1 ≤ value.balance
  balance_le : value.balance ≤ 1
  deltac_ge : -1 ≤ deltac
  deltac_le : deltac ≤ 1
  stale : value.balance - optneg deltac side = (right.height : Int) - left.height
  old_height : (h : Int) =
    max ((child (node value left right) side).height - deltac) (child (node value left right) (!side)).height + 1
  old_nonneg : deltac ≤ (child (node value left right) side).height

/-- One round of `CAvl_rebalance` gives a valid subtree of the same entries, with the height change it reports. -/
theorem rebalanceAt_spec {value : Node Entry Assoc} {left right : Tree Entry Assoc} {side : Bool}
    {deltac : Int} {h : Nat} (pending : Pending p value left right side deltac h) :
    ∃ t delta, rebalanceAt p (node value left right) side deltac = some (t, delta) ∧ Valid p t ∧
      entries t = entries (node value left right) ∧ (t.height : Int) = h + delta ∧ -1 ≤ delta ∧ delta ≤ 1 := by
  obtain ⟨validLeft, validRight, countEq, assocEq, ge, le, deltacGe, deltacLe, stale, oldHeight, oldNonneg⟩ :=
    pending
  -- what the source computes from the balance is the change of height, in -1..1
  have heightChange : ((node value left right).height : Int) =
      h + (max deltac (optneg value.balance side) - max 0 (optneg value.balance side)) := by
    cases side <;> simp [optneg] at stale oldHeight oldNonneg ⊢ <;> omega
  have changeGe : -1 ≤ max deltac (optneg value.balance side) - max 0 (optneg value.balance side) := by
    cases side <;> simp [optneg] <;> omega
  have changeLe : max deltac (optneg value.balance side) - max 0 (optneg value.balance side) ≤ 1 := by
    cases side <;> simp [optneg] <;> omega
  -- a transformation happens only where the height did not drop
  have rotatingGrows : (right.height : Int) - left.height = 2 ∨ (right.height : Int) - left.height = -2 →
      h ≤ (node value left right).height := by
    cases side <;> simp [optneg] at stale oldHeight oldNonneg ⊢ <;> omega
  simp only [rebalanceAt, setBalance_node]
  rw [if_neg (by omega)]
  rw [stale]
  by_cases rotating : (right.height : Int) - left.height = 2 ∨ (right.height : Int) - left.height = -2
  · have grows := rotatingGrows rotating
    rcases rotating with two | minusTwo
    · rw [two]
      obtain ⟨t, delta', transformed, valid, entriesEq, heights⟩ :=
        transform_right_heavy p (max deltac (optneg value.balance side) - max 0 (optneg value.balance side))
          (v := { value with balance := 2 }) validLeft validRight (by omega)
      refine ⟨t, delta', transformed, valid, by simpa using entriesEq, ?_⟩
      simp only [height] at heights heightChange grows
      omega
    · rw [minusTwo]
      obtain ⟨t, delta', transformed, valid, entriesEq, heights⟩ :=
        transform_left_heavy p (max deltac (optneg value.balance side) - max 0 (optneg value.balance side))
          (v := { value with balance := -2 }) validLeft validRight (by omega)
      refine ⟨t, delta', transformed, valid, by simpa using entriesEq, ?_⟩
      simp only [height] at heights heightChange grows
      omega
  · have balancedGe : -1 ≤ (right.height : Int) - left.height := by
      cases side <;> simp [optneg] at stale <;> omega
    have balancedLe : (right.height : Int) - left.height ≤ 1 := by
      cases side <;> simp [optneg] at stale <;> omega
    rw [transform_of_balanced p _ _ balancedGe balancedLe]
    refine ⟨_, _, rfl, ⟨⟨rfl, balancedGe, balancedLe, countEq, assocEq⟩, validLeft, validRight⟩, by simp, ?_⟩
    simp only [height] at heightChange ⊢
    omega

/-- What takes a pending entry's place with the same entries holds its count and, the operation being associative, its sum. -/
theorem Pending.replaced [Std.Associative p.assocOper] {value : Node Entry Assoc} {left right t : Tree Entry Assoc}
    {side : Bool} {deltac : Int} {h : Nat} (pending : Pending p value left right side deltac h) (valid : Valid p t)
    (entriesEq : entries t = entries (node value left right)) :
    countOf t = value.count ∧ assocOf t = some value.assoc := by
  constructor
  · rw [valid.countOf_eq, entriesEq, pending.count_eq, (pending.valid_left).countOf_eq,
      (pending.valid_right).countOf_eq]
    simp only [entries_node, List.length_append, List.length_cons]
    omega
  · rw [valid.assocOf_eq, entriesEq,
      some_assoc_eq_foldAssoc p pending.assoc_eq (pending.valid_left).assocOf_eq (pending.valid_right).assocOf_eq]

/-- The entry of a frame over a valid subtree whose height changed by `delta` is pending on the frame's side. -/
theorem pending_frame_plug {f : Frame (Node Entry Assoc)} {t : Tree Entry Assoc} {h : Nat} {delta : Int}
    (shaped : FrameShaped p f h (countOf t)) (summed : FrameSummed p f (assocOf t)) (valid : Valid p t)
    (heightEq : (t.height : Int) = h + delta) (ge : -1 ≤ delta) (le : delta ≤ 1) :
    ∃ left right, f.plug t = node f.value left right ∧
      Pending p f.value left right f.side delta (heightAbove f h) := by
  obtain ⟨validSibling, balanceEq, balanceGe, balanceLe, countEq⟩ := shaped
  rcases f with ⟨_ | _, value, sibling⟩
  · refine ⟨t, sibling, rfl, valid, validSibling, countEq, (frameSummed_iff p rfl).mp summed, balanceGe, balanceLe,
      ge, le, ?_, ?_, ?_⟩ <;> simp [optneg, heightAbove] at balanceEq ⊢ <;> omega
  · refine ⟨sibling, t, rfl, validSibling, valid, by simp at countEq ⊢; omega, (frameSummed_iff p rfl).mp summed,
      balanceGe, balanceLe, ge, le, ?_, ?_, ?_⟩ <;> simp [optneg, heightAbove] at balanceEq ⊢ <;> omega

/-- `CAvl_rebalance` stops where no height changed: the tree is the position's. -/
theorem rebalance_of_unchanged {path : Path Entry Assoc} {value : Node Entry Assoc} {left right : Tree Entry Assoc}
    {side : Bool} {h : Nat} (pending : Pending p value left right side 0 h)
    (above : PathOk p path h value.count (some value.assoc)) :
    rebalance p path (node value left right) side 0 = some (plug path (node value left right)) ∧
      Valid p (plug path (node value left right)) := by
  obtain ⟨validLeft, validRight, countEq, assocEq, ge, le, -, -, stale, oldHeight, -⟩ := pending
  constructor
  · rw [rebalance]
    simp [ge, le]
  · have balanceEq : value.balance = (right.height : Int) - left.height := by simpa [optneg] using stale
    have heightEq : (node value left right).height = h := by
      cases side <;> simp at oldHeight ⊢ <;> omega
    rw [valid_plug_iff, heightEq]
    exact ⟨⟨⟨balanceEq, ge, le, countEq, assocEq⟩, validLeft, validRight⟩, above⟩

/-- One round of `CAvl_rebalance` where a height changed: the next round is at the parent, if any. -/
theorem rebalance_of_moved {path : Path Entry Assoc} {value : Node Entry Assoc} {left right t : Tree Entry Assoc}
    {side : Bool} {deltac delta : Int} {h : Nat} (pending : Pending p value left right side deltac h)
    (moved : deltac ≠ 0) (round : rebalanceAt p (node value left right) side deltac = some (t, delta))
    (ge : -1 ≤ delta) (le : delta ≤ 1) :
    rebalance p path (node value left right) side deltac =
      match path with
      | [] => some t
      | f :: rest => rebalance p rest (f.plug t) f.side delta := by
  rw [rebalance]
  simp only [pending.deltac_ge, pending.deltac_le, pending.balance_ge, pending.balance_le, moved, round, ge, le]
  cases path <;> simp

/--
`CAvl_rebalance` from a pending entry whose ancestors are right for its subtree
as it was: the whole tree it leaves is valid and has the same entries.
-/
theorem rebalance_spec [Std.Associative p.assocOper] {path : Path Entry Assoc} {value : Node Entry Assoc}
    {left right : Tree Entry Assoc} {side : Bool} {deltac : Int} {h : Nat}
    (pending : Pending p value left right side deltac h) (above : PathOk p path h value.count (some value.assoc)) :
    ∃ t, rebalance p path (node value left right) side deltac = some t ∧ Valid p t ∧
      entries t = entries (plug path (node value left right)) := by
  by_cases unchanged : deltac = 0
  · subst unchanged
    obtain ⟨stops, valid⟩ := rebalance_of_unchanged p pending above
    exact ⟨_, stops, valid, rfl⟩
  obtain ⟨t, delta, round, valid, entriesEq, heightEq, ge, le⟩ := rebalanceAt_spec p pending
  rw [rebalance_of_moved p pending unchanged round ge le]
  induction path generalizing value left right side deltac h t delta with
  | nil => exact ⟨t, rfl, valid, entriesEq⟩
  | cons f rest inductionHypothesis =>
      dsimp only
      -- the parent is pending for the side the subtree hangs on
      obtain ⟨shaped, summed, restOk⟩ := above
      obtain ⟨countEq, assocEq⟩ := pending.replaced p valid entriesEq
      obtain ⟨parentLeft, parentRight, plugged, parentPending⟩ :=
        pending_frame_plug p (countEq ▸ shaped) (assocEq ▸ summed) valid heightEq ge le
      have sameEntries : entries (plug (f :: rest) t) = entries (plug (f :: rest) (node value left right)) := by
        rw [entries_plug, entries_plug, entriesEq]
      by_cases parentUnchanged : delta = 0
      · subst parentUnchanged
        obtain ⟨stops, parentValid⟩ := rebalance_of_unchanged p parentPending restOk
        rw [← plugged] at stops parentValid
        exact ⟨_, stops, parentValid, sameEntries⟩
      obtain ⟨t', delta', parentRound, parentValid, parentEntries, parentHeight, parentGe, parentLe⟩ :=
        rebalanceAt_spec p parentPending
      obtain ⟨result, rebalanced, resultValid, resultEntries⟩ := inductionHypothesis parentPending restOk
        parentUnchanged t' delta' parentRound parentValid parentEntries parentHeight parentGe parentLe
      refine ⟨result, ?_, resultValid, ?_⟩
      · rw [plugged, rebalance_of_moved p parentPending parentUnchanged parentRound parentGe parentLe]
        exact rebalanced
      · rw [resultEntries, ← plugged, ← sameEntries, plug_cons]

end Rebalance

section FixUp

/-- One round of the count loops at an ancestor: it keeps its entry and balance, takes the new count and sums its children. -/
theorem touch_frame_plug {adjust : Nat → Option Nat} {f : Frame (Node Entry Assoc)} {count : Nat}
    (t : Tree Entry Assoc) (adjusted : adjust f.value.count = some count) :
    ∃ value : Node Entry Assoc, touch p adjust (f.plug t) = some (Frame.plug { f with value } t) ∧
      value.entry = f.value.entry ∧ value.balance = f.value.balance ∧ value.count = count ∧
      FrameSummed p { f with value } (assocOf t) := by
  rcases f with ⟨_ | _, value, sibling⟩
  · exact ⟨{ value with count, assoc := computeNodeAssoc p value.entry t sibling },
      by simp [touch, adjusted], rfl, rfl, rfl, by simp [FrameSummed, ← some_computeNodeAssoc]⟩
  · exact ⟨{ value with count, assoc := computeNodeAssoc p value.entry sibling t },
      by simp [touch, adjusted], rfl, rfl, rfl, by simp [FrameSummed, ← some_computeNodeAssoc]⟩

theorem fixUp_cons {adjust : Nat → Option Nat} {f : Frame (Node Entry Assoc)} {count : Nat}
    (below : Tree Entry Assoc) (rest : Path Entry Assoc) (adjusted : adjust f.value.count = some count) :
    ∃ value : Node Entry Assoc,
      fixUp p adjust below (f :: rest) =
        (fixUp p adjust (Frame.plug { f with value } below) rest).map ({ f with value } :: ·) ∧
      value.entry = f.value.entry ∧ value.balance = f.value.balance ∧ value.count = count ∧
      FrameSummed p { f with value } (assocOf below) := by
  obtain ⟨value, touched, sameEntry, sameBalance, newCount, summed⟩ := touch_frame_plug p below adjusted
  refine ⟨value, ?_, sameEntry, sameBalance, newCount, summed⟩
  rcases f with ⟨_ | _, fValue, sibling⟩ <;> simp only [Frame.plug_false, Frame.plug_true] at touched ⊢ <;>
    simp only [fixUp, Frame.plug_false, Frame.plug_true, touched]

/-- A round of the count loops reads the count of the entry only. -/
theorem touch_congr {adjust adjust' : Nat → Option Nat} {t : Tree Entry Assoc}
    (agree : adjust (countOf t) = adjust' (countOf t)) : touch p adjust t = touch p adjust' t := by
  cases t with
  | nil => rfl
  | node value left right =>
      simp only [countOf_node] at agree
      simp only [touch, agree]

/-- The count loops read the counts of the ancestors only. -/
theorem fixUp_congr {adjust adjust' : Nat → Option Nat} (below : Tree Entry Assoc) {path : Path Entry Assoc}
    (agree : ∀ f ∈ path, adjust f.value.count = adjust' f.value.count) :
    fixUp p adjust below path = fixUp p adjust' below path := by
  induction path generalizing below with
  | nil => rfl
  | cons f rest inductionHypothesis =>
      have touchEq : touch p adjust (f.plug below) = touch p adjust' (f.plug below) :=
        touch_congr p (by rw [countOf_frame_plug]; exact agree f List.mem_cons_self)
      have restAgree := fun g member => agree g (List.mem_cons_of_mem f member)
      simp only [fixUp, touchEq]
      cases touch p adjust' (f.plug below) with
      | none => rfl
      | some touched =>
          cases touched with
          | nil => rfl
          | node value left right => simp only [inductionHypothesis _ restAgree]

/--
The count loops up from a subtree that replaced one of count `c`: each
ancestor's count moves by as much as the subtree's, and its sum is recomputed,
so the ancestors come out right for the new subtree (their balances still for
the old height `h`).
-/
theorem fixUp_spec {adjust : Nat → Option Nat} {below : Tree Entry Assoc} {path : Path Entry Assoc} {h c : Nat}
    (shaped : PathShaped p path h c)
    (adjusts : ∀ f ∈ path, adjust f.value.count = some (f.value.count - c + countOf below)) :
    ∃ path', fixUp p adjust below path = some path' ∧ PathOk p path' h (countOf below) (assocOf below) ∧
      List.Forall₂ (Frame.SameKey Node.entry) path path' := by
  induction path generalizing below h c with
  | nil => exact ⟨[], rfl, trivial, .nil⟩
  | cons f rest inductionHypothesis =>
      have above := shaped.count_lt p
      obtain ⟨frame, restShaped⟩ := shaped
      obtain ⟨value, round, sameEntry, sameBalance, newCount, summed⟩ :=
        fixUp_cons p below rest (adjusts f List.mem_cons_self)
      have frameCount := frame.count_eq
      -- the ancestors above move by as much as this one did
      have restAdjusts : ∀ g ∈ rest, adjust g.value.count =
          some (g.value.count - f.value.count + countOf (Frame.plug { f with value } below)) := by
        intro g member
        have lower := above f List.mem_cons_self
        have higher := restShaped.count_lt p g member
        rw [adjusts g (List.mem_cons_of_mem f member), countOf_frame_plug]
        simp only [newCount]
        congr 1
        omega
      obtain ⟨rest', fixed, restOk, sameRest⟩ := inductionHypothesis restShaped restAdjusts
      refine ⟨{ f with value } :: rest', by rw [round, fixed]; rfl, ⟨?_, summed, ?_⟩,
        .cons ⟨rfl, rfl, sameEntry.symm⟩ sameRest⟩
      · exact ⟨frame.sibling, sameBalance ▸ frame.balance_eq, sameBalance ▸ frame.balance_ge,
          sameBalance ▸ frame.balance_le, by simp only [newCount]; omega⟩
      · simpa [heightAbove] using restOk

end FixUp

section Insert

theorem valid_leaf (entry : Entry) : Valid p (leaf p entry) :=
  ⟨⟨by simp, by simp, by simp, rfl, rfl⟩, trivial, trivial⟩

@[simp] theorem height_leaf (entry : Entry) : (leaf p entry).height = 1 :=
  rfl

@[simp] theorem countOf_leaf (entry : Entry) : countOf (leaf p entry) = 1 :=
  rfl

@[simp] theorem entries_leaf (entry : Entry) : entries (leaf p entry) = [entry] :=
  rfl

/--
The tail of `CAvl_Insert` and `CAvl_InsertAt`: a new entry hung where the
entry rooting `c` has no child on `side`, the counts fixed up from `c`, then
the rebalancing from `c`: the tree comes out valid with the entry in that place.
-/
theorem hang_spec [Std.Associative p.assocOper] (entry : Entry) {path : Path Entry Assoc} {c : Tree Entry Assoc}
    {side : Bool} (valid : Valid p (plug path c)) (nonempty : c ≠ nil) (free : child c side = nil) :
    ∃ c' path' o', touch p countUp (setChild c side (leaf p entry)) = some c' ∧
      fixUp p countUp c' path = some path' ∧ rebalance p path' c' side 1 = some o' ∧ Valid p o' ∧
      entries o' = entries (plug path (setChild c side (leaf p entry))) := by
  cases c with
  | nil => exact absurd rfl nonempty
  | node value left right =>
      -- the entry hangs in the frame of `value` and its other child, in place of a null link
      obtain ⟨validC, pathOk⟩ := (valid_plug_iff p path _).mp valid
      rw [← Frame.plug_child value left right side, free] at validC
      rw [← Frame.plug_eq_setChild]
      obtain ⟨-, shaped, -⟩ := (valid_frame_plug_iff p _ nil).mp validC
      obtain ⟨newValue, touched, sameEntry, sameBalance, newCount, summed⟩ :=
        touch_frame_plug p (leaf p entry) (f := ⟨side, value, child (node value left right) (!side)⟩)
          (rfl : countUp value.count = some (value.count + 1))
      have countEq := shaped.count_eq
      have touchedShaped : FrameShaped p { side, value := newValue, sibling := child (node value left right) (!side) }
          0 (countOf (leaf p entry)) :=
        ⟨shaped.sibling, sameBalance ▸ shaped.balance_eq, sameBalance ▸ shaped.balance_ge,
          sameBalance ▸ shaped.balance_le, by simp only [newCount, countOf_leaf, countOf_nil] at countEq ⊢; omega⟩
      obtain ⟨newLeft, newRight, plugged, pending⟩ :=
        pending_frame_plug p touchedShaped summed (valid_leaf p entry)
          (show ((leaf p entry).height : Int) = ((0 : Nat) : Int) + 1 by simp) (by decide) (by decide)
      simp only at touched sameEntry
      -- the ancestors: one more below each, sums recomputed
      have adjusts : ∀ g ∈ path, countUp g.value.count = some (g.value.count - countOf (node value left right) +
          countOf (Frame.plug ⟨side, newValue, child (node value left right) (!side)⟩ (leaf p entry))) := by
        intro g member
        have lower := pathOk.shaped.count_lt p g member
        simp only [countOf_node, countOf_frame_plug, newCount, countUp] at lower ⊢
        congr 1
        omega
      obtain ⟨path', fixed, above, same⟩ := fixUp_spec p pathOk.shaped adjusts
      have heightEq : (node value left right).height =
          heightAbove ⟨side, newValue, child (node value left right) (!side)⟩ 0 := by
        cases side <;> simp at free <;> simp [free, heightAbove]
      rw [countOf_frame_plug, assocOf_frame_plug, heightEq] at above
      obtain ⟨o', rebalanced, validO, entriesO⟩ := rebalance_spec p pending above
      refine ⟨_, path', o', touched, fixed, plugged ▸ rebalanced, validO, ?_⟩
      have sameFrame : List.Forall₂ (Frame.SameKey Node.entry)
          [⟨side, value, child (node value left right) (!side)⟩]
          [⟨side, newValue, child (node value left right) (!side)⟩] :=
        .cons ⟨rfl, rfl, sameEntry.symm⟩ .nil
      rw [entriesO, ← plugged]
      exact (entries_plug_of_sameKey same (entries_plug_of_sameKey sameFrame (t := leaf p entry) rfl)).symm

section Keyed

/-- A sorted subtree: its children are sorted and lie on their sides of its entry. -/
theorem sorted_node {value : Node Entry Assoc} {left right : Tree Entry Assoc}
    (sorted : SortedTree.Sorted p.compareEntries (entries (node value left right))) :
    SortedTree.Sorted p.compareEntries (entries left) ∧ SortedTree.Sorted p.compareEntries (entries right) ∧
      (∀ x ∈ entries left, p.compareEntries x value.entry = .lt) ∧
      (∀ y ∈ entries right, p.compareEntries value.entry y = .lt) := by
  unfold SortedTree.Sorted at sorted ⊢
  rw [entries_node, List.pairwise_append, List.pairwise_cons] at sorted
  obtain ⟨leftSorted, ⟨rightAbove, rightSorted⟩, across⟩ := sorted
  exact ⟨leftSorted, rightSorted, fun x member => across x member _ List.mem_cons_self, rightAbove⟩

variable [Std.TransCmp p.compareEntries]

/--
The search loop of `CAvl_Insert` in a sorted subtree: it stops at an entry
that compares equal, or at a null link where the new entry goes between the
entries below it and those above it.
-/
theorem insertSearch_spec (entry : Entry) (path : Path Entry Assoc) {t : Tree Entry Assoc} (nonempty : t ≠ nil)
    (sorted : SortedTree.Sorted p.compareEntries (entries t)) :
    (∃ x ∈ entries t, p.compareEntries entry x = .eq ∧ insertSearch p entry path t = some (.equal x)) ∨
    ∃ inner c side, insertSearch p entry path t = some (.free (inner ++ path) c side) ∧ plug inner c = t ∧
      c ≠ nil ∧ child c side = nil ∧
      ∃ lower upper, entries t = lower ++ upper ∧ (∀ x ∈ lower, p.compareEntries x entry = .lt) ∧
        (∀ y ∈ upper, p.compareEntries entry y = .lt) ∧
        entries (plug inner (setChild c side (leaf p entry))) = lower ++ entry :: upper := by
  induction t generalizing path with
  | nil => exact absurd rfl nonempty
  | node value left right leftHypothesis rightHypothesis =>
      obtain ⟨leftSorted, rightSorted, leftBelow, rightAbove⟩ := sorted_node p sorted
      rcases order : p.compareEntries entry value.entry with _ | _ | _
      · -- below the entry: every entry of the right subtree is above the new one
        have aboveRight : ∀ y ∈ value.entry :: entries right, p.compareEntries entry y = .lt := by
          intro y member
          rcases List.mem_cons.mp member with rfl | inRight
          · exact order
          · exact Std.TransCmp.lt_trans order (rightAbove y inRight)
        cases left with
        | nil =>
            exact Or.inr ⟨[], _, false, by simp [insertSearch, order], rfl, nofun, rfl, [],
              value.entry :: entries right, by simp, by simp, aboveRight, by simp⟩
        | node leftValue leftLeft leftRight =>
            have searchLeft : insertSearch p entry path (node value (node leftValue leftLeft leftRight) right) =
                insertSearch p entry (⟨false, value, right⟩ :: path) (node leftValue leftLeft leftRight) := by
              simp [insertSearch, order]
            rw [searchLeft]
            rcases leftHypothesis _ nofun leftSorted with
              ⟨x, member, same, found⟩ | ⟨inner, c, side, found, plugged, cNonempty, free, lower, upper, split,
                below, above, hung⟩
            · exact Or.inl ⟨x, by rw [entries_node]; exact List.mem_append_left _ member, same, found⟩
            · refine Or.inr ⟨inner ++ [⟨false, value, right⟩], c, side, by simpa using found,
                by simp [plug_append, plugged], cNonempty, free, lower, upper ++ value.entry :: entries right,
                by simp [split], below, ?_, by simp [plug_append, hung]⟩
              intro y member
              rcases List.mem_append.mp member with inUpper | beyond
              · exact above y inUpper
              · exact aboveRight y beyond
      · exact Or.inl ⟨value.entry, by simp, order, by simp [insertSearch, order]⟩
      · -- above the entry: every entry of the left subtree is below the new one
        have belowLeft : ∀ x ∈ entries left ++ [value.entry], p.compareEntries x entry = .lt := by
          have above : p.compareEntries value.entry entry = .lt := Std.OrientedCmp.gt_iff_lt.mp order
          intro x member
          rcases List.mem_append.mp member with inLeft | itself
          · exact Std.TransCmp.lt_trans (leftBelow x inLeft) above
          · rw [List.mem_singleton.mp itself]
            exact above
        cases right with
        | nil =>
            exact Or.inr ⟨[], _, true, by simp [insertSearch, order], rfl, nofun, rfl,
              entries left ++ [value.entry], [], by simp, belowLeft, by simp, by simp⟩
        | node rightValue rightLeft rightRight =>
            have searchRight : insertSearch p entry path (node value left (node rightValue rightLeft rightRight)) =
                insertSearch p entry (⟨true, value, left⟩ :: path) (node rightValue rightLeft rightRight) := by
              simp [insertSearch, order]
            rw [searchRight]
            rcases rightHypothesis _ nofun rightSorted with
              ⟨x, member, same, found⟩ | ⟨inner, c, side, found, plugged, cNonempty, free, lower, upper, split,
                below, above, hung⟩
            · exact Or.inl ⟨x, by rw [entries_node]; exact List.mem_append_right _ (List.mem_cons_of_mem _ member),
                same, found⟩
            · refine Or.inr ⟨inner ++ [⟨true, value, left⟩], c, side, by simpa using found,
                by simp [plug_append, plugged], cNonempty, free, (entries left ++ [value.entry]) ++ lower, upper,
                by simp [split], ?_, above, by simp [plug_append, hung]⟩
              intro x member
              rcases List.mem_append.mp member with beneath | inLower
              · exact belowLeft x beneath
              · exact below x inLower

/--
`CAvl_Insert` into a valid sorted tree with room for one more entry: the tree
stays valid and sorted, and its entries change as insertion into the sorted
list of entries does, refused next to an equal entry, in which case the tree
is left as it was.
-/
theorem insert_spec [Std.Associative p.assocOper] {o : Tree Entry Assoc} (entry : Entry) (valid : Valid p o)
    (sorted : SortedTree.Sorted p.compareEntries (entries o)) (room : countOf o < p.countMax) :
    ∃ inserted o' found, insert p o entry = some (inserted, o', found) ∧ Valid p o' ∧
      SortedTree.Sorted p.compareEntries (entries o') ∧
      SortedTree.insert p.compareEntries entry (entries o) = (if inserted then some (entries o') else none) ∧
      (inserted = false → o' = o) := by
  unfold insert
  rw [if_neg (not_not.mpr room)]
  cases o with
  | nil =>
      exact ⟨true, leaf p entry, none, rfl, valid_leaf p entry, List.pairwise_singleton _ _, rfl, nofun⟩
  | node value left right =>
      rcases insertSearch_spec p entry [] (t := node value left right) nofun sorted with
        ⟨x, member, same, found⟩ | ⟨inner, c, side, found, plugged, cNonempty, free, lower, upper, split,
          below, above, hung⟩
      · -- an equal entry: nothing changes
        refine ⟨false, _, some x, by simp [found], valid, sorted, ?_, fun _ => rfl⟩
        rw [if_neg Bool.false_ne_true]
        exact (SortedTree.insert_eq_none_iff sorted).mpr ⟨x, member, same⟩
      · -- a free position: the entry hangs there and the tree is rebalanced
        rw [List.append_nil] at found
        obtain ⟨c', path', o', touched, fixed, rebalanced, validO, entriesO⟩ :=
          hang_spec p entry (plugged ▸ valid) cNonempty free
        have placed : entries o' = lower ++ entry :: upper := by
          rw [entriesO, hung]
        refine ⟨true, o', entryOf c, by simp [found, touched, fixed, rebalanced], validO, ?_, ?_, nofun⟩
        · rw [placed]
          exact SortedTree.Sorted.insert_split (split ▸ sorted) below above
        · rw [split, SortedTree.insert_split below above, placed]
          rfl

end Keyed

section Indexed

theorem insertIdx_length_append {α : Type} (lower upper : List α) (x : α) :
    (lower ++ upper).insertIdx lower.length x = lower ++ x :: upper := by
  induction lower with
  | nil => simp [List.insertIdx_zero]
  | cons a rest inductionHypothesis => simp [List.insertIdx_succ_cons, inductionHypothesis]

/--
The search loop of `CAvl_InsertAt` in a valid subtree whose first entry has
index `lo`, for an index within the subtree's range: it stops at a null link
where the new entry goes after exactly `index - lo` of the subtree's entries.
-/
theorem insertAtSearch_spec (entry : Entry) (index : Nat) (path : Path Entry Assoc) {t : Tree Entry Assoc}
    (valid : Valid p t) (nonempty : t ≠ nil) (lo : Nat) (above : lo ≤ index) (within : index ≤ lo + countOf t) :
    ∃ inner c side, insertAtSearch index path t (lo + countOf (child t false)) = some (inner ++ path, c, side) ∧
      plug inner c = t ∧ c ≠ nil ∧ child c side = nil ∧
      ∃ lower upper, entries t = lower ++ upper ∧ lower.length = index - lo ∧
        entries (plug inner (setChild c side (leaf p entry))) = lower ++ entry :: upper := by
  induction t generalizing path lo with
  | nil => exact absurd rfl nonempty
  | node value left right leftHypothesis rightHypothesis =>
      obtain ⟨ok, validLeft, validRight⟩ := valid
      have countEq := ok.count_eq
      have leftCount := validLeft.countOf_eq
      have rightCount := validRight.countOf_eq
      simp only [countOf_node, child_node_false] at within ⊢
      by_cases goRight : index > lo + countOf left
      · -- past the entry: into the right subtree, whose first index is one past the entry's
        cases right with
        | nil =>
            refine ⟨[], _, true, by simp only [insertAtSearch, if_pos goRight, List.nil_append], rfl, nofun, rfl, entries left ++ [value.entry], [],
              by simp, ?_, by simp⟩
            simp only [countOf_nil] at countEq
            simp only [List.length_append, List.length_singleton]
            omega
        | node rightValue rightLeft rightRight =>
            have searchRight : insertAtSearch index path (node value left (node rightValue rightLeft rightRight))
                  (lo + countOf left) =
                insertAtSearch index (⟨true, value, left⟩ :: path) (node rightValue rightLeft rightRight)
                  (lo + countOf left + (1 + countOf (child (node rightValue rightLeft rightRight) false))) := by
              simp only [insertAtSearch, if_pos goRight]
            obtain ⟨inner, c, side, found, plugged, cNonempty, free, lower, upper, split, lowerLength, hung⟩ :=
              rightHypothesis _ validRight nofun (lo + countOf left + 1) (by omega)
                (by simp only [countOf_node] at countEq ⊢; omega)
            refine ⟨inner ++ [⟨true, value, left⟩], c, side, by rw [searchRight, ← Nat.add_assoc, found]; simp,
              by simp [plug_append, plugged], cNonempty, free, entries left ++ value.entry :: lower, upper,
              by simp [split], ?_, by simp [plug_append, hung]⟩
            simp only [List.length_append, List.length_cons]
            omega
      · -- at or before the entry: into the left subtree, which starts at the same index
        cases left with
        | nil =>
            refine ⟨[], _, false, by simp only [insertAtSearch, if_neg goRight, List.nil_append], rfl, nofun, rfl, [], entries (node value nil right),
              by simp, ?_, by simp⟩
            simp only [countOf_nil] at goRight
            simp only [List.length_nil]
            omega
        | node leftValue leftLeft leftRight =>
            have leftCountEq := validLeft.1.count_eq
            have searchLeft : insertAtSearch index path (node value (node leftValue leftLeft leftRight) right)
                  (lo + countOf (node leftValue leftLeft leftRight)) =
                insertAtSearch index (⟨false, value, right⟩ :: path) (node leftValue leftLeft leftRight)
                  (lo + countOf (node leftValue leftLeft leftRight) -
                    (1 + countOf (child (node leftValue leftLeft leftRight) true))) := by
              simp only [insertAtSearch, if_neg goRight]
            -- the left subtree's entry has its own left subtree before it
            have leftIndex : lo + countOf (node leftValue leftLeft leftRight) -
                (1 + countOf (child (node leftValue leftLeft leftRight) true)) =
                lo + countOf (child (node leftValue leftLeft leftRight) false) := by
              simp only [countOf_node, child_node_true, child_node_false, leftCountEq]
              omega
            obtain ⟨inner, c, side, found, plugged, cNonempty, free, lower, upper, split, lowerLength, hung⟩ :=
              leftHypothesis _ validLeft nofun lo above (by omega)
            refine ⟨inner ++ [⟨false, value, right⟩], c, side, by rw [searchLeft, leftIndex, found]; simp,
              by simp [plug_append, plugged], cNonempty, free, lower, upper ++ value.entry :: entries right,
              by simp [split], lowerLength, by simp [plug_append, hung]⟩

/--
`CAvl_InsertAt` into a valid tree with room, at an index from 0 to the count:
the tree stays valid and the entry goes in at that index.
-/
theorem insertAt_spec [Std.Associative p.assocOper] {o : Tree Entry Assoc} (entry : Entry) {index : Nat}
    (valid : Valid p o) (inRange : index ≤ countOf o) (room : countOf o < p.countMax) :
    ∃ o', insertAt p o entry index = some o' ∧ Valid p o' ∧ entries o' = (entries o).insertIdx index entry := by
  unfold insertAt
  rw [if_neg (not_not.mpr ⟨inRange, room⟩)]
  cases o with
  | nil =>
      have atStart : index = 0 := by simpa using inRange
      exact ⟨leaf p entry, rfl, valid_leaf p entry, by simp [atStart]⟩
  | node value left right =>
      obtain ⟨inner, c, side, found, plugged, cNonempty, free, lower, upper, split, lowerLength, hung⟩ :=
        insertAtSearch_spec p entry index [] valid nofun 0 (Nat.zero_le index) (by simpa using inRange)
      simp only [Nat.zero_add, child_node_false, List.append_nil] at found
      obtain ⟨c', path', o', touched, fixed, rebalanced, validO, entriesO⟩ :=
        hang_spec p entry (plugged ▸ valid) cNonempty free
      refine ⟨o', by simp [found, touched, fixed, rebalanced], validO, ?_⟩
      rw [entriesO, hung, split, ← insertIdx_length_append, lowerLength, Nat.sub_zero]

end Indexed

end Insert

section Remove

/-- The child `CAvl_Remove` moves into the place of an entry with at most one child. -/
def remainingChild (t : Tree Entry Assoc) : Tree Entry Assoc :=
  if hasChild t false then child t false else child t true

@[simp] theorem remainingChild_of_no_right (value : Node Entry Assoc) (left : Tree Entry Assoc) :
    remainingChild (node value left nil) = left := by
  cases left <;> rfl

/--
A position where `CAvl_Remove` can unlink the entry rooting `t`: the entry has
at most one child, valid and one lower; the ancestors are shaped for it and
count at most `bound`; and without the entry the tree lists `remaining`.
-/
structure Unlinkable (path : Path Entry Assoc) (t : Tree Entry Assoc) (bound : Nat) (remaining : List Entry) :
    Prop where
  single : ¬(hasChild t false = true ∧ hasChild t true = true)
  valid_child : Valid p (remainingChild t)
  height_child : (remainingChild t).height + 1 = t.height
  count_child : countOf (remainingChild t) < countOf t
  shaped : PathShaped p path t.height (countOf t)
  bounded : ∀ f ∈ path, f.value.count ≤ bound
  entries_eq : entries (plug path (remainingChild t)) = remaining

/-- The counts of `CAvl_replace_subtree_fix_assoc` at an ancestor within the largest count. -/
theorem replaceCount_eq {dest n : Tree Entry Assoc} {count : Nat} (below : countOf dest ≤ count)
    (smaller : countOf n ≤ countOf dest) (withinMax : count ≤ p.countMax) :
    replaceCount p dest n count = some (count - countOf dest + countOf n) := by
  unfold replaceCount
  rw [if_pos below]
  cases n with
  | nil => simp
  | node value left right =>
      rw [if_pos (by simp only [countOf_node] at smaller ⊢; omega)]

/--
The end of `CAvl_Remove` below a parent: the child moves up into the entry's
place, the counts and sums are fixed up to the root, and the tree is
rebalanced from the parent, whose child lost one height.
-/
theorem unlink_spec [Std.Associative p.assocOper] {f : Frame (Node Entry Assoc)} {rest : Path Entry Assoc}
    {t : Tree Entry Assoc} {bound : Nat} {remaining : List Entry} (unlinkable : Unlinkable p (f :: rest) t bound remaining)
    (withinMax : bound ≤ p.countMax) :
    ∃ f' rest' o', replaceSubtreeFixAssoc p t (remainingChild t) (f :: rest) = some (f' :: rest') ∧
      rebalance p rest' (f'.plug (remainingChild t)) f'.side (-1) = some o' ∧ Valid p o' ∧ entries o' = remaining := by
  obtain ⟨-, validChild, heightChild, countChild, shaped, bounded, entriesEq⟩ := unlinkable
  have adjusts : ∀ g ∈ f :: rest, replaceCount p t (remainingChild t) g.value.count =
      some (g.value.count - countOf t + countOf (remainingChild t)) := fun g member =>
    replaceCount_eq p (shaped.count_lt p g member).le countChild.le ((bounded g member).trans withinMax)
  obtain ⟨path', fixed, pathOk, same⟩ := fixUp_spec p shaped adjusts
  cases same with
  | cons sameHead sameRest =>
      rename_i f' rest'
      obtain ⟨frameShaped, frameSummed, restOk⟩ := pathOk
      obtain ⟨left', right', plugged, pending⟩ := pending_frame_plug p frameShaped frameSummed validChild
        (show ((remainingChild t).height : Int) = (t.height : Int) + -1 by omega) (by decide) (by decide)
      obtain ⟨o', rebalanced, validO, entriesO⟩ := rebalance_spec p pending restOk
      refine ⟨f', rest', o', fixed, plugged ▸ rebalanced, validO, ?_⟩
      rw [entriesO, ← plugged, ← entriesEq]
      exact (entries_plug_of_sameKey (.cons sameHead sameRest) rfl).symm

variable [DecidableEq Entry]

theorem position_spec {o : Tree Entry Assoc} {entry : Entry} {path : Path Entry Assoc} {t : Tree Entry Assoc}
    (found : position o entry = some (path, t)) :
    plug path t = o ∧ ∃ value left right, t = node value left right ∧ value.entry = entry := by
  obtain ⟨plugged, value, left, right, rfl, accepted⟩ := locate_eq_some found
  exact ⟨plugged, value, left, right, rfl, of_decide_eq_true accepted⟩

theorem position_isSome {o : Tree Entry Assoc} {entry : Entry} (present : entry ∈ entries o) :
    (position o entry).isSome := by
  obtain ⟨x, member, rfl⟩ := List.mem_map.mp present
  exact locate_isSome ⟨x, member, decide_eq_true rfl⟩

/-- Erasing the entry at a position of a tree whose entries are distinct. -/
theorem erase_entries_plug {path : Path Entry Assoc} {value : Node Entry Assoc} {left right : Tree Entry Assoc}
    (nodup : (entries (plug path (node value left right))).Nodup) :
    (entries (plug path (node value left right))).erase value.entry =
      (before path).map Node.entry ++ entries left ++ entries right ++ (after path).map Node.entry := by
  have arranged : entries (plug path (node value left right)) =
      ((before path).map Node.entry ++ entries left) ++ value.entry :: (entries right ++ (after path).map Node.entry) := by
    simp [entries_plug]
  rw [arranged] at nodup ⊢
  have absent : value.entry ∉ (before path).map Node.entry ++ entries left :=
    fun member => (List.nodup_append.mp nodup).2.2 _ member _ List.mem_cons_self rfl
  rw [List.erase_append_right _ absent, List.erase_cons_head]
  simp

/-- An entry found with at most one child is unlinked where it is. -/
theorem unlinkable_single {o : Tree Entry Assoc} {entry : Entry} {path : Path Entry Assoc} {t : Tree Entry Assoc}
    (valid : Valid p o) (nodup : (entries o).Nodup) (found : position o entry = some (path, t))
    (single : ¬(hasChild t false = true ∧ hasChild t true = true)) :
    Unlinkable p path t (countOf o) ((entries o).erase entry) := by
  obtain ⟨plugged, value, left, right, rfl, rfl⟩ := position_spec found
  subst plugged
  obtain ⟨⟨ok, validLeft, validRight⟩, pathOk⟩ := (valid_plug_iff p path _).mp valid
  have countEq := ok.count_eq
  rw [erase_entries_plug nodup]
  -- at most one child: the left one is missing, or else the right one
  cases left with
  | nil =>
      have moved : remainingChild (node value nil right) = right := by simp [remainingChild, hasChild]
      refine ⟨single, moved ▸ validRight, by simp [moved], by simp [moved, countEq], pathOk.shaped,
        pathOk.shaped.count_le_plug p, by simp [moved, entries_plug]⟩
  | node leftValue leftLeft leftRight =>
      cases right with
      | nil =>
          refine ⟨single, by simpa using validLeft, by simp, by simp [countEq], pathOk.shaped,
            pathOk.shaped.count_le_plug p, by simp [entries_plug]⟩
      | node => simp [hasChild] at single

/--
An entry found with two children changes places with the greatest entry of
its left subtree (`CAvl_swap_for_remove`) and is unlinked there.
-/
theorem unlinkable_swap {o : Tree Entry Assoc} {entry : Entry} {path : Path Entry Assoc} {t : Tree Entry Assoc}
    (valid : Valid p o) (nodup : (entries o).Nodup) (found : position o entry = some (path, t))
    (both : hasChild t false = true ∧ hasChild t true = true) :
    ∃ path' t', swapForRemove path t = some (path', t') ∧
      Unlinkable p path' t' (countOf o) ((entries o).erase entry) := by
  obtain ⟨plugged, value, left, right, rfl, rfl⟩ := position_spec found
  subst plugged
  obtain ⟨⟨ok, validLeft, validRight⟩, pathOk⟩ := (valid_plug_iff p path _).mp valid
  have leftNonempty : left ≠ nil := by
    rintro rfl
    simp [hasChild] at both
  -- the greatest entry of the left subtree has no right child
  obtain ⟨descended, enode, enodeLeft, enodeRight, greatest, noRight⟩ := descend_spec true [] leftNonempty
  simp only [child_node_true] at noRight
  subst noRight
  have descent : descend true [] left = ((descend true [] left).1, node enode enodeLeft nil) := by
    rw [← greatest]
  set inner := (descend true [] left).1 with innerEq
  rw [greatest, plug_nil] at descended
  have nothingAfter : after inner = [] := after_eq_nil fun f member =>
    (descend_sides true [] left f member).resolve_left List.not_mem_nil
  obtain ⟨validMax, innerOk⟩ := (valid_plug_iff p inner _).mp (descended ▸ validLeft)
  obtain ⟨maxOk, validEnodeLeft, -⟩ := validMax
  have maxCount := maxOk.count_eq
  -- the swapped entry's position: the left subtree's descent, then the old position
  have shaped : PathShaped p (inner ++ ⟨false, { value with entry := enode.entry, assoc := enode.assoc }, right⟩ :: path)
      (node enode enodeLeft nil).height (countOf (node enode enodeLeft nil)) := by
    refine PathShaped.append p innerOk.shaped ?_
    rw [descended]
    exact ⟨⟨validRight, ok.balance_eq, ok.balance_ge, ok.balance_le, ok.count_eq⟩, pathOk.shaped⟩
  -- the root keeps its count through the swap
  have sameRoot : countOf (plug (inner ++ ⟨false, { value with entry := enode.entry, assoc := enode.assoc }, right⟩ ::
      path) (node enode enodeLeft nil)) = countOf (plug path (node value left right)) := by
    rw [plug_append, plug_cons]
    exact countOf_plug_congr path rfl
  refine ⟨inner ++ ⟨false, { value with entry := enode.entry, assoc := enode.assoc }, right⟩ :: path,
    node { enode with entry := value.entry, assoc := value.assoc } enodeLeft nil,
    by simp only [swapForRemove]; rw [descent], ⟨by simp [hasChild], by simpa using validEnodeLeft, by simp,
      by simp [maxCount], shaped, fun f member => sameRoot ▸ shaped.count_le_plug p f member, ?_⟩⟩
  rw [erase_entries_plug nodup, plug_append, plug_cons, entries_plug, ← descended, entries_plug]
  simp [entries_plug, nothingAfter]

/--
`CAvl_Remove` of an entry of a valid tree whose entries are distinct and whose
count is within the largest count: the tree stays valid and loses just that entry.
-/
theorem remove_spec [Std.Associative p.assocOper] {o : Tree Entry Assoc} {entry : Entry} (valid : Valid p o)
    (nodup : (entries o).Nodup) (present : entry ∈ entries o) (withinMax : countOf o ≤ p.countMax) :
    ∃ o', remove p o entry = some o' ∧ Valid p o' ∧ entries o' = (entries o).erase entry := by
  obtain ⟨⟨path, t⟩, found⟩ := Option.isSome_iff_exists.mp (position_isSome present)
  -- with two children the entry is first swapped down; either way it then has at most one
  have prepared : ∃ path' t', (if hasChild t false = true ∧ hasChild t true = true then swapForRemove path t
      else some (path, t)) = some (path', t') ∧ Unlinkable p path' t' (countOf o) ((entries o).erase entry) := by
    by_cases both : hasChild t false = true ∧ hasChild t true = true
    · rw [if_pos both]
      exact unlinkable_swap p valid nodup found both
    · rw [if_neg both]
      exact ⟨path, t, rfl, unlinkable_single p valid nodup found both⟩
  obtain ⟨path', t', swapped, unlinkable⟩ := prepared
  unfold remove
  simp only [found, Option.bind_some, swapped, if_neg unlinkable.single]
  cases path' with
  | nil => exact ⟨_, rfl, unlinkable.valid_child, unlinkable.entries_eq⟩
  | cons f rest =>
      obtain ⟨f', rest', o', replaced, rebalanced, validO, entriesO⟩ := unlink_spec p unlinkable withinMax
      exact ⟨o', by simp only [remainingChild] at replaced rebalanced; simp [replaced, rebalanced], validO, entriesO⟩

end Remove

section Verify

variable [DecidableEq Assoc]

/-- `CAvl_verify_recurser` on a valid tree, sorted where it is keyed, returns the tree's height. -/
theorem verifyRecurser_of_valid [Std.OrientedCmp p.compareEntries] (keyed : Bool) {t : Tree Entry Assoc}
    (valid : Valid p t) (sorted : keyed = true → SortedTree.Sorted p.compareEntries (entries t)) :
    verifyRecurser p keyed t = some t.height := by
  induction t with
  | nil => rfl
  | node n left right leftHypothesis rightHypothesis =>
      obtain ⟨ok, validLeft, validRight⟩ := valid
      have sides := fun keyedTree => sorted_node p (sorted keyedTree)
      have leftHeight := leftHypothesis validLeft fun keyedTree => (sides keyedTree).1
      have rightHeight := rightHypothesis validRight fun keyedTree => (sides keyedTree).2.1
      -- a child present compares on its side of the entry
      have leftBelow : ∀ value l r, left = node value l r →
          ¬(keyed = true ∧ p.compareEntries value.entry n.entry ≠ .lt) := by
        rintro value l r rfl ⟨keyedTree, wrong⟩
        exact wrong ((sides keyedTree).2.2.1 _ (by simp))
      have rightAbove : ∀ value l r, right = node value l r →
          ¬(keyed = true ∧ p.compareEntries value.entry n.entry ≠ .gt) := by
        rintro value l r rfl ⟨keyedTree, wrong⟩
        exact wrong (Std.OrientedCmp.gt_iff_lt.mpr ((sides keyedTree).2.2.2 _ (by simp)))
      have balanced := ok.balance_eq
      unfold verifyRecurser
      rw [if_neg (not_not.mpr ⟨ok.balance_ge, ok.balance_le⟩)]
      -- one case per child present or null
      cases left with
      | nil =>
          cases right with
          | nil => simp [ok.count_eq, ok.assoc_eq, balanced]
          | node rightValue rightLeft rightRight =>
              simp [rightHeight, ok.count_eq, ok.assoc_eq, balanced, rightAbove rightValue rightLeft rightRight rfl]
      | node leftValue leftLeft leftRight =>
          cases right with
          | nil => simp [leftHeight, ok.count_eq, ok.assoc_eq, balanced, leftBelow leftValue leftLeft leftRight rfl]
          | node rightValue rightLeft rightRight =>
              simp [leftHeight, rightHeight, ok.count_eq, ok.assoc_eq, balanced,
                leftBelow leftValue leftLeft leftRight rfl, rightAbove rightValue rightLeft rightRight rfl]

end Verify

section Run

/-- An operation of a run on a `CAvl` tree. -/
inductive Op (Entry : Type)
  /-- `CAvl_Insert` -/
  | insert (entry : Entry)
  /-- `CAvl_InsertAt` -/
  | insertAt (entry : Entry) (index : Nat)
  /-- `CAvl_Remove` -/
  | remove (entry : Entry)
  deriving DecidableEq, Repr

variable [DecidableEq Entry]

/-- The tree after an operation, `none` where an `ASSERT` fails. -/
def Op.apply : Op Entry → Tree Entry Assoc → Option (Tree Entry Assoc)
  | .insert entry, o => (CAvl.insert p o entry).map fun result => result.2.1
  | .insertAt entry index, o => CAvl.insertAt p o entry index
  | .remove entry, o => CAvl.remove p o entry

/-- The tree after a run of operations from `o`, starting from `CAvl_Init` for `o` = `nil`. -/
def run : List (Op Entry) → Tree Entry Assoc → Option (Tree Entry Assoc)
  | [], o => some o
  | op :: rest, o => (op.apply p o).bind (run rest)

/-- What an operation does to the in-order list of entries. -/
def Op.applyList : Op Entry → List Entry → List Entry
  | .insert entry, l => (SortedTree.insert p.compareEntries entry l).getD l
  | .insertAt entry index, l => l.insertIdx index entry
  | .remove entry, l => l.erase entry

/-- What a run does to the in-order list of entries. -/
def runList : List (Op Entry) → List Entry → List Entry
  | [], l => l
  | op :: rest, l => runList rest (op.applyList p l)

/--
What the caller of an operation guarantees, on a tree keyed by its comparator
(`keyed`) or by the indices of its entries: room for one more entry before an
insertion, an index from 0 to the count and a new entry for `CAvl_InsertAt`,
and an entry of the tree for `CAvl_Remove`.
-/
def Op.Allowed (keyed : Bool) : Op Entry → List Entry → Prop
  | .insert _, l => keyed = true ∧ l.length < p.countMax
  | .insertAt entry index, l => keyed = false ∧ index ≤ l.length ∧ l.length < p.countMax ∧ entry ∉ l
  | .remove entry, l => entry ∈ l

instance Op.decidableAllowed (keyed : Bool) :
    (op : Op Entry) → (l : List Entry) → Decidable (op.Allowed p keyed l)
  | .insert _, _ => inferInstanceAs (Decidable (_ ∧ _))
  | .insertAt .., _ => inferInstanceAs (Decidable (_ ∧ _ ∧ _ ∧ _))
  | .remove .., _ => inferInstanceAs (Decidable (_ ∈ _))

/-- A run whose every operation is allowed where it comes. -/
def Admissible (keyed : Bool) : List (Op Entry) → List Entry → Prop
  | [], _ => True
  | op :: rest, l => op.Allowed p keyed l ∧ Admissible keyed rest (op.applyList p l)

instance decidableAdmissible (keyed : Bool) :
    (ops : List (Op Entry)) → (l : List Entry) → Decidable (Admissible p keyed ops l)
  | [], _ => isTrue trivial
  | op :: rest, l =>
      have : Decidable (Admissible p keyed rest (op.applyList p l)) := decidableAdmissible keyed rest _
      inferInstanceAs (Decidable (_ ∧ _))

/-- What holds of a tree after every admissible run. -/
structure Reachable (keyed : Bool) (o : Tree Entry Assoc) : Prop where
  valid : Valid p o
  sorted : keyed = true → SortedTree.Sorted p.compareEntries (entries o)
  nodup : (entries o).Nodup
  bounded : countOf o ≤ p.countMax

variable [Std.TransCmp p.compareEntries] [Std.Associative p.assocOper]

/-- An allowed operation goes through, keeps the tree reachable, and changes its entries as on the list. -/
theorem Reachable.apply {keyed : Bool} {o : Tree Entry Assoc} {op : Op Entry} (reachable : Reachable p keyed o)
    (allowed : op.Allowed p keyed (entries o)) :
    ∃ o', op.apply p o = some o' ∧ Reachable p keyed o' ∧ entries o' = op.applyList p (entries o) := by
  obtain ⟨valid, sorted, nodup, bounded⟩ := reachable
  have countEq := valid.countOf_eq
  cases op with
  | insert entry =>
      obtain ⟨keyedTree, room⟩ := allowed
      obtain ⟨inserted, o', found, inserted', validO, sortedO, insertion, unchanged⟩ :=
        insert_spec p entry valid (sorted keyedTree) (countEq ▸ room)
      have entriesEq : entries o' = (SortedTree.insert p.compareEntries entry (entries o)).getD (entries o) := by
        cases inserted
        · rw [unchanged rfl, insertion]
          rfl
        · rw [insertion]
          rfl
      have grown : (entries o').length ≤ (entries o).length + 1 := by
        cases inserted
        · rw [unchanged rfl]
          omega
        · rw [SortedTree.length_insert insertion]
      refine ⟨o', by simp [Op.apply, inserted'], ⟨validO, fun _ => sortedO, sortedO.nodup, ?_⟩, entriesEq⟩
      rw [validO.countOf_eq]
      omega
  | insertAt entry index =>
      obtain ⟨notKeyed, inRange, room, fresh⟩ := allowed
      obtain ⟨o', inserted, validO, entriesO⟩ := insertAt_spec p entry valid (countEq ▸ inRange) (countEq ▸ room)
      have permuted : (entries o').Perm (entry :: entries o) := entriesO ▸ List.perm_insertIdx entry _ inRange
      refine ⟨o', inserted, ⟨validO, fun keyedTree => ?_, ?_, ?_⟩, entriesO⟩
      · simp [keyedTree] at notKeyed
      · exact permuted.nodup_iff.mpr (List.nodup_cons.mpr ⟨fresh, nodup⟩)
      · rw [validO.countOf_eq, permuted.length_eq, List.length_cons]
        omega
  | remove entry =>
      obtain ⟨o', removed, validO, entriesO⟩ := remove_spec p valid nodup allowed bounded
      refine ⟨o', removed, ⟨validO, fun keyedTree => entriesO ▸ (sorted keyedTree).erase entry,
        entriesO ▸ nodup.erase entry, ?_⟩, entriesO⟩
      rw [validO.countOf_eq, entriesO, List.length_erase_of_mem allowed, ← countEq]
      omega

/-- An admissible run goes through and keeps the tree reachable, with the entries its list run gives. -/
theorem Reachable.run {keyed : Bool} {o : Tree Entry Assoc} (reachable : Reachable p keyed o) :
    ∀ {ops : List (Op Entry)}, Admissible p keyed ops (entries o) →
      ∃ o', CAvl.run p ops o = some o' ∧ Reachable p keyed o' ∧ entries o' = runList p ops (entries o)
  | [], _ => ⟨o, rfl, reachable, rfl⟩
  | _ :: _, ⟨allowed, admissible⟩ => by
      obtain ⟨o', applied, reachable', entriesEq⟩ := reachable.apply p allowed
      obtain ⟨o'', ran, reachable'', entries''⟩ := reachable'.run (entriesEq ▸ admissible)
      exact ⟨o'', by simp [CAvl.run, applied, ran], reachable'', by rw [entries'', entriesEq]; rfl⟩

/--
Every admissible run of insertions (by key or by index) and removals from the
empty tree (`CAvl_Init`) goes through; after it the tree passes `CAvl_Verify`
and lists the entries the run makes of the list of entries; and on a keyed
tree, `CAvl_Insert` of an entry, with room for it, reports 0 and leaves the
tree as it is exactly when an entry comparing equal is in the tree.
-/
theorem run_preserves_invariant [DecidableEq Assoc] (keyed : Bool) {ops : List (Op Entry)}
    (admissible : Admissible p keyed ops []) :
    ∃ o, run p ops nil = some o ∧ verify p keyed o = true ∧ entries o = runList p ops [] ∧
      (keyed = true → ∀ entry, countOf o < p.countMax →
        ∃ inserted o' found, insert p o entry = some (inserted, o', found) ∧
          (inserted = false ↔ ∃ x ∈ entries o, p.compareEntries entry x = .eq) ∧ (inserted = false → o' = o)) := by
  have initial : Reachable p keyed (nil : Tree Entry Assoc) :=
    ⟨trivial, fun _ => List.Pairwise.nil, List.nodup_nil, Nat.zero_le _⟩
  obtain ⟨o, ran, reachable, entriesEq⟩ := initial.run p admissible
  refine ⟨o, ran, ?_, entriesEq, ?_⟩
  · simp [verify, verifyRecurser_of_valid p keyed reachable.valid reachable.sorted]
  · intro keyedTree entry room
    obtain ⟨inserted, o', found, insertion, -, -, listInsertion, unchanged⟩ :=
      insert_spec p entry reachable.valid (reachable.sorted keyedTree) room
    refine ⟨inserted, o', found, insertion, ?_, unchanged⟩
    rw [← SortedTree.insert_eq_none_iff (reachable.sorted keyedTree), listInsertion]
    cases inserted <;> simp

end Run

/-- The tree of `cavl_test`: entries stand for their keys, whose values are summed. -/
abbrev testParams : Params Nat Nat Nat :=
  ⟨compare, compare, id, (· + ·), 0, 2 ^ 64 - 1⟩

theorem run_preserves_invariant_test :
    Admissible testParams true [.insert 3, .insert 1, .insert 2, .insert 1, .remove 3] [] ∧
    ∃ o, run testParams [.insert 3, .insert 1, .insert 2, .insert 1, .remove 3] nil = some o ∧
      verify testParams true o = true ∧
      entries o = runList testParams [.insert 3, .insert 1, .insert 2, .insert 1, .remove 3] [] ∧
      (true = true → ∀ entry, countOf o < testParams.countMax →
        ∃ inserted o' found, insert testParams o entry = some (inserted, o', found) ∧
          (inserted = false ↔ ∃ x ∈ entries o, testParams.compareEntries entry x = .eq) ∧
          (inserted = false → o' = o)) :=
  ⟨by decide, run_preserves_invariant testParams true (by decide)⟩

example : runList testParams [.insert 3, .insert 1, .insert 2, .insert 1, .remove 3] [] = [1, 2] := by
  decide

end CAvl

end Tun2SocksWinRT
