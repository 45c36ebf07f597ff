import Mathlib.Data.List.Sort

namespace SortedTree

/-!
# Search trees as sorted lists

A binary search tree with distinct keys (an AVL tree, say) is modelled by its
in-order list, sorted strictly by the tree's comparator.  Insertion is refused
next to an equal key, as such trees' insertion reports failure there.

The comparator is any function `α → α → Ordering` that is transitive and says
`.eq` only of equal keys (the core classes `Std.TransCmp` and
`Std.LawfulEqCmp`); the order may depend on data the keys point to, so the
lemmas about changing that data (`Sorted.congr`) ask only that the comparisons
between the keys in the tree stay as they were.
-/

open Std

variable {α : Type} (cmp : α → α → Ordering)

/-- The in-order list of a search tree: every key is below every later one. -/
def Sorted (l : List α) : Prop :=
  l.Pairwise fun a b => cmp a b = .lt

/-- Insertion at the key's place in the order; `none` next to an equal key. -/
def insert (x : α) : List α → Option (List α)
  | [] => some [x]
  | y :: rest =>
      match cmp x y with
      | .lt => some (x :: y :: rest)
      | .eq => none
      | .gt => (insert x rest).map (y :: ·)

variable {cmp}

theorem sorted_nil : Sorted cmp [] :=
  List.Pairwise.nil

theorem Sorted.sublist {l l' : List α} (sorted : Sorted cmp l) (sub : l'.Sublist l) : Sorted cmp l' :=
  List.Pairwise.sublist sub sorted

theorem Sorted.erase [DecidableEq α] {l : List α} (sorted : Sorted cmp l) (x : α) : Sorted cmp (l.erase x) :=
  sorted.sublist List.erase_sublist

/-- The first key is below every other key of the tree. -/
theorem Sorted.head_lt {first y : α} {rest : List α} (sorted : Sorted cmp (first :: rest)) (member : y ∈ rest) :
    cmp first y = .lt :=
  List.rel_of_pairwise_cons sorted member

theorem Sorted.tail {first : α} {rest : List α} (sorted : Sorted cmp (first :: rest)) : Sorted cmp rest :=
  (List.pairwise_cons.mp sorted).2

/-- A tree keeps its order under a change that keeps each comparison between its keys. -/
theorem Sorted.congr {other : α → α → Ordering} {l : List α} (sorted : Sorted cmp l)
    (same : ∀ a ∈ l, ∀ b ∈ l, other a b = cmp a b) : Sorted other l :=
  sorted.imp_of_mem fun first second lt => (same _ first _ second).trans lt

theorem Sorted.nodup [ReflCmp cmp] {l : List α} (sorted : Sorted cmp l) : l.Nodup :=
  sorted.imp fun lt same => by
    subst same
    simp [ReflCmp.compare_self] at lt

/-- Insertion of a new key into a tree succeeds, keeps it sorted, and adds just that key. -/
theorem insert_spec [TransCmp cmp] [LawfulEqCmp cmp] {x : α} {l : List α} (sorted : Sorted cmp l)
    (absent : x ∉ l) :
    ∃ inserted, insert cmp x l = some inserted ∧ Sorted cmp inserted ∧ inserted.Perm (x :: l) := by
  induction l with
  | nil =>
      exact ⟨[x], rfl, List.pairwise_singleton _ _, List.Perm.refl _⟩
  | cons y rest inductionHypothesis =>
      have different : x ≠ y := fun same => absent (same ▸ List.mem_cons_self)
      rcases order : cmp x y with _ | _ | _
      · -- the key goes first: it is below y, and so below all of rest
        refine ⟨x :: y :: rest, by simp [insert, order], ?_, List.Perm.refl _⟩
        refine List.Pairwise.cons (fun u member => ?_) sorted
        rcases List.mem_cons.mp member with rfl | later
        · exact order
        · exact TransCmp.lt_trans order (sorted.head_lt later)
      · exact absurd (LawfulEqCmp.eq_of_compare order) different
      · have above : cmp y x = .lt := OrientedCmp.gt_iff_lt.mp order
        obtain ⟨inserted, insertion, insertedSorted, permuted⟩ :=
          inductionHypothesis sorted.tail (fun member => absent (List.mem_cons_of_mem y member))
        refine ⟨y :: inserted, by simp [insert, order, insertion], ?_, ?_⟩
        · refine List.Pairwise.cons (fun u member => ?_) insertedSorted
          rcases List.mem_cons.mp (permuted.subset member) with rfl | later
          · exact above
          · exact sorted.head_lt later
        · exact (permuted.cons y).trans (List.Perm.swap x y rest)

/-- An insertion that goes through adds one key. -/
theorem length_insert {x : α} {l inserted : List α} (insertion : insert cmp x l = some inserted) :
    inserted.length = l.length + 1 := by
  induction l generalizing inserted with
  | nil =>
      cases insertion
      rfl
  | cons y rest inductionHypothesis =>
      rcases order : cmp x y with _ | _ | _ <;> simp only [insert, order, reduceCtorEq] at insertion
      · cases insertion
        rfl
      · obtain ⟨insertedRest, restInsertion, rfl⟩ := Option.map_eq_some_iff.mp insertion
        simp [inductionHypothesis restInsertion]

/-- An insertion that goes through adds the key and keeps the others. -/
theorem perm_of_insert {x : α} {l inserted : List α} (insertion : insert cmp x l = some inserted) :
    inserted.Perm (x :: l) := by
  induction l generalizing inserted with
  | nil =>
      cases insertion
      exact List.Perm.refl _
  | cons y rest inductionHypothesis =>
      rcases order : cmp x y with _ | _ | _ <;> simp only [insert, order, reduceCtorEq] at insertion
      · cases insertion
        exact List.Perm.refl _
      · obtain ⟨insertedRest, restInsertion, rfl⟩ := Option.map_eq_some_iff.mp insertion
        exact ((inductionHypothesis restInsertion).cons y).trans (List.Perm.swap x y rest)

/-- A key below every key of one part and above every key of the other goes between them. -/
theorem insert_split [OrientedCmp cmp] {x : α} {lower upper : List α} (below : ∀ a ∈ lower, cmp a x = .lt)
    (above : ∀ b ∈ upper, cmp x b = .lt) :
    insert cmp x (lower ++ upper) = some (lower ++ x :: upper) := by
  induction lower with
  | nil =>
      cases upper with
      | nil => rfl
      | cons first rest => simp [insert, above first List.mem_cons_self]
  | cons first rest inductionHypothesis =>
      have order : cmp x first = .gt := OrientedCmp.gt_iff_lt.mpr (below first List.mem_cons_self)
      simp [insert, order, inductionHypothesis (fun a member => below a (List.mem_cons_of_mem first member))]

/-- So placed, the key keeps the list sorted. -/
theorem Sorted.insert_split [TransCmp cmp] {x : α} {lower upper : List α} (sorted : Sorted cmp (lower ++ upper))
    (below : ∀ a ∈ lower, cmp a x = .lt) (above : ∀ b ∈ upper, cmp x b = .lt) :
    Sorted cmp (lower ++ x :: upper) := by
  unfold Sorted at sorted ⊢
  rw [List.pairwise_append] at sorted ⊢
  obtain ⟨lowerSorted, upperSorted, across⟩ := sorted
  refine ⟨lowerSorted, List.Pairwise.cons above upperSorted, fun a inLower b member => ?_⟩
  rcases List.mem_cons.mp member with rfl | inUpper
  · exact below a inLower
  · exact across a inLower b inUpper

/-- Insertion into a sorted list is refused exactly next to an equal key. -/
theorem insert_eq_none_iff [TransCmp cmp] {x : α} {l : List α} (sorted : Sorted cmp l) :
    insert cmp x l = none ↔ ∃ y ∈ l, cmp x y = .eq := by
  induction l with
  | nil => simp [insert]
  | cons first rest inductionHypothesis =>
      rcases order : cmp x first with _ | _ | _
      · -- every later key is above `first`, so above `x`
        simp only [insert, order, reduceCtorEq, false_iff, not_exists, not_and]
        intro y member same
        rcases List.mem_cons.mp member with rfl | later
        · rw [order] at same
          cases same
        · have above := TransCmp.lt_trans order (sorted.head_lt later)
          rw [above] at same
          cases same
      · simp only [insert, order, true_iff]
        exact ⟨first, List.mem_cons_self, order⟩
      · simp only [insert, order, Option.map_eq_none_iff, inductionHypothesis sorted.tail, List.mem_cons]
        constructor
        · rintro ⟨y, member, same⟩
          exact ⟨y, Or.inr member, same⟩
        · rintro ⟨y, rfl | member, same⟩
          · rw [order] at same
            cases same
          · exact ⟨y, member, same⟩

end SortedTree
