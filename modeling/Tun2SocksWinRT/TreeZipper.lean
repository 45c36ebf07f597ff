import Mathlib.Data.Tree.Basic
import Mathlib.Data.List.Forall2
import Mathlib.Tactic.SplitIfs

namespace TreeZipper

/-!
# Binary trees with a cursor

A node of a linked binary tree that knows its parent stands at a position in
the tree: the subtree rooted at it, and the chain of its ancestors, each with
the side the chain comes up from and the other child (a zipper over Mathlib's
`BinaryTree`).  `plug` rebuilds the tree from a position, `inorder` lists the
values in order, and `inorder_plug` says where a position's subtree sits in
that list.  `locate` finds the position of a value, and `descend` follows the
children on one side down to the last one (the least or greatest value).

An augmented tree keeps in each node the product of its subtree's values under
an associative operation; `foldOpt` is that product over a list, with nothing
for no values, and `foldOpt_append` splits it.
-/

open BinaryTree

variable {α : Type}

section Inorder

/-- The values of a tree in order. -/
def inorder : BinaryTree α → List α
  | nil => []
  | node value left right => inorder left ++ value :: inorder right

@[simp] theorem inorder_nil : inorder (nil : BinaryTree α) = [] :=
  rfl

@[simp] theorem inorder_node (value : α) (left right : BinaryTree α) :
    inorder (node value left right) = inorder left ++ value :: inorder right :=
  rfl

theorem length_inorder (t : BinaryTree α) : (inorder t).length = t.numNodes := by
  induction t with
  | nil => rfl
  | node value left right leftLength rightLength =>
      simp only [inorder_node, List.length_append, List.length_cons, leftLength, rightLength,
        numNodes]
      omega

/-- The child on a side: `false` is `link[0]`, the left one, `true` is `link[1]`. -/
def child : BinaryTree α → Bool → BinaryTree α
  | nil, _ => nil
  | node _ left _, false => left
  | node _ _ right, true => right

/-- The tree with its child on a side replaced. -/
def setChild : BinaryTree α → Bool → BinaryTree α → BinaryTree α
  | nil, _, _ => nil
  | node value _ right, false, replacement => node value replacement right
  | node value left _, true, replacement => node value left replacement

@[simp] theorem child_node_false (value : α) (left right : BinaryTree α) :
    child (node value left right) false = left :=
  rfl

@[simp] theorem child_node_true (value : α) (left right : BinaryTree α) :
    child (node value left right) true = right :=
  rfl

@[simp] theorem setChild_node_false (value : α) (left right replacement : BinaryTree α) :
    setChild (node value left right) false replacement = node value replacement right :=
  rfl

@[simp] theorem setChild_node_true (value : α) (left right replacement : BinaryTree α) :
    setChild (node value left right) true replacement = node value left replacement :=
  rfl

end Inorder

section Frames

/--
One step from a node up to its parent: the side of the parent the node hangs
on (`true` for `link[1]`), the parent's value and the parent's other child.
-/
structure Frame (α : Type) where
  side : Bool
  value : α
  sibling : BinaryTree α

/-- The parent's subtree, with `t` hung on the frame's side. -/
def Frame.plug (f : Frame α) (t : BinaryTree α) : BinaryTree α :=
  match f.side with
  | false => node f.value t f.sibling
  | true => node f.value f.sibling t

/-- The whole tree, from a subtree and the chain of its ancestors (nearest first). -/
def plug : List (Frame α) → BinaryTree α → BinaryTree α
  | [], t => t
  | f :: rest, t => plug rest (f.plug t)

@[simp] theorem plug_nil (t : BinaryTree α) : plug [] t = t :=
  rfl

@[simp] theorem plug_cons (f : Frame α) (rest : List (Frame α)) (t : BinaryTree α) :
    plug (f :: rest) t = plug rest (f.plug t) :=
  rfl

theorem plug_append (inner outer : List (Frame α)) (t : BinaryTree α) :
    plug (inner ++ outer) t = plug outer (plug inner t) := by
  induction inner generalizing t with
  | nil => rfl
  | cons f rest inductionHypothesis => exact inductionHypothesis (f.plug t)

@[simp] theorem Frame.plug_false (value : α) (sibling t : BinaryTree α) :
    Frame.plug ⟨false, value, sibling⟩ t = node value t sibling :=
  rfl

@[simp] theorem Frame.plug_true (value : α) (sibling t : BinaryTree α) :
    Frame.plug ⟨true, value, sibling⟩ t = node value sibling t :=
  rfl

/-- The values a frame puts before the subtree it holds. -/
def Frame.before (f : Frame α) : List α :=
  match f.side with
  | false => []
  | true => inorder f.sibling ++ [f.value]

/-- The values a frame puts after the subtree it holds. -/
def Frame.after (f : Frame α) : List α :=
  match f.side with
  | false => f.value :: inorder f.sibling
  | true => []

/-- The values before a position, in order. -/
def before : List (Frame α) → List α
  | [] => []
  | f :: rest => before rest ++ f.before

/-- The values after a position, in order. -/
def after : List (Frame α) → List α
  | [] => []
  | f :: rest => f.after ++ after rest

@[simp] theorem before_nil : before ([] : List (Frame α)) = [] :=
  rfl

@[simp] theorem before_cons (f : Frame α) (rest : List (Frame α)) :
    before (f :: rest) = before rest ++ f.before :=
  rfl

@[simp] theorem after_nil : after ([] : List (Frame α)) = [] :=
  rfl

@[simp] theorem after_cons (f : Frame α) (rest : List (Frame α)) :
    after (f :: rest) = f.after ++ after rest :=
  rfl

theorem inorder_frame_plug (f : Frame α) (t : BinaryTree α) :
    inorder (f.plug t) = f.before ++ inorder t ++ f.after := by
  rcases f with ⟨_ | _, value, sibling⟩ <;> simp [Frame.plug, Frame.before, Frame.after]

/-- A subtree's values sit between the values before and after its position. -/
theorem inorder_plug (path : List (Frame α)) (t : BinaryTree α) :
    inorder (plug path t) = before path ++ inorder t ++ after path := by
  induction path generalizing t with
  | nil => simp
  | cons f rest inductionHypothesis =>
      rw [plug_cons, inductionHypothesis, inorder_frame_plug, before_cons, after_cons]
      simp only [List.append_assoc]

/-- A node is its child on a side hung in the frame of its value and its other child. -/
theorem Frame.plug_child (value : α) (left right : BinaryTree α) (side : Bool) :
    Frame.plug ⟨side, value, child (node value left right) (!side)⟩ (child (node value left right) side) =
      node value left right := by
  cases side <;> rfl

/-- Replacing a child on a side is hanging the replacement in that frame. -/
theorem Frame.plug_eq_setChild (value : α) (left right t : BinaryTree α) (side : Bool) :
    Frame.plug ⟨side, value, child (node value left right) (!side)⟩ t = setChild (node value left right) side t := by
  cases side <;> rfl

/-- Frames that agree on side, sibling and the key of their value. -/
def Frame.SameKey {β : Type} (key : α → β) (f g : Frame α) : Prop :=
  f.side = g.side ∧ f.sibling = g.sibling ∧ key f.value = key g.value

/-- Paths whose frames agree on sides, siblings and keys list the same keys around a position. -/
theorem map_before_after_of_sameKey {β : Type} {key : α → β} {path other : List (Frame α)}
    (same : List.Forall₂ (Frame.SameKey key) path other) :
    (before path).map key = (before other).map key ∧ (after path).map key = (after other).map key := by
  induction path generalizing other with
  | nil =>
      cases same
      exact ⟨rfl, rfl⟩
  | cons f rest inductionHypothesis =>
      cases same with
      | cons head tail =>
          rename_i g others
          obtain ⟨beforeEq, afterEq⟩ := inductionHypothesis tail
          obtain ⟨sameSide, sameSibling, sameKey⟩ := head
          rcases f with ⟨side, fValue, sibling⟩
          rcases g with ⟨_, gValue, _⟩
          dsimp only at sameSide sameSibling sameKey
          subst sameSide sameSibling
          cases side <;> simp [Frame.before, Frame.after, beforeEq, afterEq, sameKey]

end Frames

section Locate

variable (found : α → Bool)

/--
The position of the first value in pre-order that `found` accepts, from the
position `path` of `t`: the chain of the node's ancestors and its subtree.
-/
def locate : List (Frame α) → BinaryTree α → Option (List (Frame α) × BinaryTree α)
  | _, nil => none
  | path, node value left right =>
      if found value then
        some (path, node value left right)
      else
        (locate (⟨false, value, right⟩ :: path) left).or
          (locate (⟨true, value, left⟩ :: path) right)

variable {found}

/-- A located position is a position of the same tree, at a node that `found` accepts. -/
theorem locate_eq_some {path path' : List (Frame α)} {t t' : BinaryTree α}
    (located : locate found path t = some (path', t')) :
    plug path' t' = plug path t ∧ ∃ value left right, t' = node value left right ∧ found value := by
  induction t generalizing path with
  | nil => simp [locate] at located
  | node value left right leftHypothesis rightHypothesis =>
      unfold locate at located
      split_ifs at located with accepted
      · cases located
        exact ⟨rfl, value, left, right, rfl, accepted⟩
      · cases inLeft : locate found (⟨false, value, right⟩ :: path) left with
        | some position =>
            rw [inLeft, Option.some_or] at located
            cases located
            obtain ⟨plugged, rest⟩ := leftHypothesis inLeft
            exact ⟨plugged, rest⟩
        | none =>
            rw [inLeft, Option.none_or] at located
            obtain ⟨plugged, rest⟩ := rightHypothesis located
            exact ⟨plugged, rest⟩

/-- A value that `found` accepts is located. -/
theorem locate_isSome {path : List (Frame α)} {t : BinaryTree α}
    (present : ∃ x ∈ inorder t, found x) :
    (locate found path t).isSome := by
  induction t generalizing path with
  | nil => simp at present
  | node value left right leftHypothesis rightHypothesis =>
      unfold locate
      split_ifs with accepted
      · rfl
      · obtain ⟨x, member, accepts⟩ := present
        simp only [inorder_node, List.mem_append, List.mem_cons] at member
        rcases member with inLeft | rfl | inRight
        · simp [leftHypothesis ⟨x, inLeft, accepts⟩]
        · exact absurd accepts accepted
        · cases locate found (⟨false, value, right⟩ :: path) left <;>
            simp [rightHypothesis ⟨x, inRight, accepts⟩]

end Locate

section Descend

/--
Follow the children on `side` down to the node that has none there
(`CAvl_subtree_min`, `CAvl_subtree_max`), keeping the chain of ancestors.
-/
def descend (side : Bool) : List (Frame α) → BinaryTree α → List (Frame α) × BinaryTree α
  | path, nil => (path, nil)
  | path, node value left right =>
      match side, left, right with
      | false, node .., _ => descend side (⟨false, value, right⟩ :: path) left
      | true, _, node .. => descend side (⟨true, value, left⟩ :: path) right
      | _, _, _ => (path, node value left right)

/-- Descending stays at a position of the same tree, at a node with no child on `side`. -/
theorem descend_spec (side : Bool) (path : List (Frame α)) {t : BinaryTree α} (nonempty : t ≠ nil) :
    plug (descend side path t).1 (descend side path t).2 = plug path t ∧
      ∃ value left right, (descend side path t).2 = node value left right ∧
        child (node value left right) side = nil := by
  induction t generalizing path with
  | nil => exact absurd rfl nonempty
  | node value left right leftHypothesis rightHypothesis =>
      cases side with
      | false =>
          cases left with
          | nil => exact ⟨rfl, value, nil, right, rfl, rfl⟩
          | node leftValue leftLeft leftRight =>
              exact leftHypothesis (⟨false, value, right⟩ :: path) nofun
      | true =>
          cases right with
          | nil => exact ⟨rfl, value, left, nil, rfl, rfl⟩
          | node rightValue rightLeft rightRight =>
              exact rightHypothesis (⟨true, value, left⟩ :: path) nofun

/-- The frames a descent adds are on its side. -/
theorem descend_sides (side : Bool) (path : List (Frame α)) (t : BinaryTree α) :
    ∀ f ∈ (descend side path t).1, f ∈ path ∨ f.side = side := by
  induction t generalizing path with
  | nil => exact fun f member => Or.inl member
  | node value left right leftHypothesis rightHypothesis =>
      -- a frame added on the way down is on `side`, or came from `path`
      have added : ∀ (sibling : BinaryTree α), ∀ f ∈ (⟨side, value, sibling⟩ :: path : List (Frame α)),
          f ∈ path ∨ f.side = side := by
        intro sibling f member
        rcases List.mem_cons.mp member with rfl | earlier
        · exact Or.inr rfl
        · exact Or.inl earlier
      cases side with
      | false =>
          cases left with
          | nil => exact fun f member => Or.inl member
          | node leftValue leftLeft leftRight =>
              intro f member
              rcases leftHypothesis _ f member with inPath | onSide
              · exact added right f inPath
              · exact Or.inr onSide
      | true =>
          cases right with
          | nil => exact fun f member => Or.inl member
          | node rightValue rightLeft rightRight =>
              intro f member
              rcases rightHypothesis _ f member with inPath | onSide
              · exact added left f inPath
              · exact Or.inr onSide

/-- Nothing comes after a position whose ancestors all hold it on their right. -/
theorem after_eq_nil {path : List (Frame α)} (sides : ∀ f ∈ path, f.side = true) : after path = [] := by
  induction path with
  | nil => rfl
  | cons f rest inductionHypothesis =>
      have onRight : f.side = true := sides f List.mem_cons_self
      rw [after_cons, inductionHypothesis (fun g member => sides g (List.mem_cons_of_mem f member))]
      simp [Frame.after, onRight]

end Descend

section Fold

variable (op : α → α → α)

/-- The product of a list under `op`, nothing for the empty list. -/
def foldOpt : List α → Option α
  | [] => none
  | a :: rest => Option.merge op (some a) (foldOpt rest)

variable {op}

@[simp] theorem foldOpt_nil : foldOpt op [] = none :=
  rfl

@[simp] theorem foldOpt_cons (a : α) (rest : List α) :
    foldOpt op (a :: rest) = Option.merge op (some a) (foldOpt op rest) :=
  rfl

@[simp] theorem merge_none_left (b : Option α) : Option.merge op none b = b := by
  cases b <;> rfl

@[simp] theorem merge_none_right (a : Option α) : Option.merge op a none = a := by
  cases a <;> rfl

@[simp] theorem merge_some_some (a b : α) : Option.merge op (some a) (some b) = some (op a b) :=
  rfl

theorem merge_assoc [Std.Associative op] (a b c : Option α) :
    Option.merge op (Option.merge op a b) c = Option.merge op a (Option.merge op b c) := by
  cases a <;> cases b <;> cases c <;> simp [Std.Associative.assoc]

theorem foldOpt_append [Std.Associative op] (first second : List α) :
    foldOpt op (first ++ second) = Option.merge op (foldOpt op first) (foldOpt op second) := by
  induction first with
  | nil => simp
  | cons a rest inductionHypothesis =>
      rw [List.cons_append, foldOpt_cons, foldOpt_cons, inductionHypothesis, merge_assoc]

/-- With an identity, the product is the left fold from it. -/
theorem getD_foldOpt [Std.Associative op] {zero : α} [Std.LawfulIdentity op zero] (l : List α) :
    (foldOpt op l).getD zero = l.foldl op zero := by
  induction l with
  | nil => rfl
  | cons a rest inductionHypothesis =>
      have leftIdentity : op zero a = a := Std.LawfulLeftIdentity.left_id a
      have rightIdentity : op a zero = a := Std.LawfulRightIdentity.right_id a
      have shifted : (a :: rest).foldl op zero = op a (rest.foldl op zero) := by
        have moved : rest.foldl op (op a zero) = op a (rest.foldl op zero) := List.foldl_assoc
        rw [List.foldl_cons, leftIdentity, ← moved, rightIdentity]
      rw [shifted, ← inductionHypothesis, foldOpt_cons]
      cases foldOpt op rest <;> simp [rightIdentity]

/-- A product in which a missing right factor stands for the identity. -/
theorem merge_some_getD {zero : α} [Std.LawfulRightIdentity op zero] (a b : Option α) :
    Option.merge op a (some (b.getD zero)) = some ((Option.merge op a b).getD zero) := by
  cases a <;> cases b <;> simp [Std.LawfulRightIdentity.right_id]

end Fold

end TreeZipper
