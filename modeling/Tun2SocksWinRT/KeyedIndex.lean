import Mathlib.Data.List.Find
import Mathlib.Data.List.Perm.Basic
import Mathlib.Data.List.Pairwise
import Mathlib.Data.List.Nodup

namespace KeyedIndex

/-!
# Search trees as sets of nodes with distinct keys

An intrusive search tree (an AVL tree whose nodes sit inside the objects it
indexes) is observed through three operations: an exact lookup of a key, an
insertion that fails when a node with an equal key is present, and the removal
of a given node.  Its shape is irrelevant to what they return once the keys are
distinct, so a tree is modelled by the list of its nodes: `lookupExact` finds a
node whose key compares equal, `insert` adds a node unless one with an equal
key is there, and removal is `List.erase`.

The key of a node is read through a function (`key`), because the objects the
nodes sit in change while the tree holds them: a lookup only reads the keys of
the nodes in the tree (`lookupExact_congr`).  For a comparator that compares
equal only equal keys (`Std.LawfulEqCmp`), lookups are described by membership
(`lookupExact_eq_none_iff`, `lookupExact_eq_some_iff`) and `insert` keeps the
keys distinct (`DistinctKeys`).  For any transitive comparator, a lookup among
distinct keys does not depend on the order of the nodes (`lookupExact_perm`),
which is what lets a list stand for a tree that keeps its nodes in another order.
-/

variable {Node Key : Type}

section Operations

variable (cmp : Key → Key → Ordering) (key : Node → Key)

/-- The node whose key compares equal to `target`, if there is one. -/
def lookupExact (tree : List Node) (target : Key) : Option Node :=
  tree.find? fun node => cmp (key node) target == .eq

/-- Insert `node`, unless a node with an equal key is in the tree already. -/
def insert (tree : List Node) (node : Node) : Option (List Node) :=
  match lookupExact cmp key tree (key node) with
  | some _ => none
  | none => some (node :: tree)

/-- No two nodes of the tree have keys that compare equal. -/
def DistinctKeys (tree : List Node) : Prop :=
  tree.Pairwise fun first second => cmp (key first) (key second) ≠ .eq

end Operations

variable {cmp : Key → Key → Ordering} {key : Node → Key} {tree : List Node}

/-- A lookup reads only the keys of the nodes in the tree. -/
theorem lookupExact_congr
    {other : Node → Key}
    (agree : ∀ node ∈ tree, other node = key node)
    (target : Key) :
    lookupExact cmp other tree target = lookupExact cmp key tree target := by
  induction tree with
  | nil =>
      rfl
  | cons first rest inductionHypothesis =>
      have restAgree : ∀ node ∈ rest, other node = key node :=
        fun node member => agree node (List.mem_cons_of_mem first member)
      simp only [lookupExact, List.find?_cons, agree first List.mem_cons_self] at inductionHypothesis ⊢
      rw [inductionHypothesis restAgree]

/-- An insertion that succeeds puts the node in front. -/
theorem insert_eq_some_iff {node : Node} {result : List Node} :
    insert cmp key tree node = some result ↔
      lookupExact cmp key tree (key node) = none ∧ result = node :: tree := by
  unfold insert
  split <;> simp_all [eq_comm]

/-- Distinct keys stay distinct on fewer nodes. -/
theorem DistinctKeys.sublist
    {other : List Node}
    (distinct : DistinctKeys cmp key tree)
    (sublist : other.Sublist tree) :
    DistinctKeys cmp key other :=
  List.Pairwise.sublist sublist distinct

/-- Distinct keys stay distinct under keys that agree on the tree's nodes. -/
theorem DistinctKeys.congr
    {other : Node → Key}
    (distinct : DistinctKeys cmp key tree)
    (agree : ∀ node ∈ tree, other node = key node) :
    DistinctKeys cmp other tree := by
  apply List.Pairwise.imp_of_mem _ distinct
  intro first second firstMember secondMember different
  rw [agree first firstMember, agree second secondMember]
  exact different

section Oriented

variable [Std.OrientedCmp cmp]

/-- Two different nodes of a tree with distinct keys compare unequal, whichever comes first. -/
theorem DistinctKeys.ne_of_mem
    (distinct : DistinctKeys cmp key tree)
    {first second : Node}
    (firstMember : first ∈ tree)
    (secondMember : second ∈ tree)
    (different : first ≠ second) :
    cmp (key first) (key second) ≠ .eq := by
  have : Std.Symm fun first second : Node => cmp (key first) (key second) ≠ .eq :=
    ⟨fun _ _ unequal equal => unequal (Std.OrientedCmp.eq_comm.mp equal)⟩
  exact distinct.forall firstMember secondMember different

/-- An insertion is refused exactly next to a node of equal key. -/
theorem insert_eq_none_iff {node : Node} :
    insert cmp key tree node = none ↔ ∃ other ∈ tree, cmp (key node) (key other) = .eq := by
  unfold insert lookupExact
  split
  · next existing found =>
      have matching := List.find?_some found
      rw [beq_iff_eq] at matching
      exact iff_of_true rfl ⟨existing, List.mem_of_find?_eq_some found, Std.OrientedCmp.eq_comm.mp matching⟩
  · next absent =>
      refine iff_of_false nofun fun ⟨other, member, equal⟩ => ?_
      have unmatched := List.find?_eq_none.mp absent other member
      rw [beq_iff_eq] at unmatched
      exact unmatched (Std.OrientedCmp.eq_comm.mp equal)

/-- A node whose key no other node of the tree has goes in front. -/
theorem insert_of_distinctKeys {node : Node} (distinct : DistinctKeys cmp key (node :: tree)) :
    insert cmp key tree node = some (node :: tree) := by
  rw [DistinctKeys, List.pairwise_cons] at distinct
  refine insert_eq_some_iff.mpr ⟨List.find?_eq_none.mpr fun other member equal => ?_, rfl⟩
  exact distinct.1 other member (Std.OrientedCmp.eq_comm.mp (beq_iff_eq.mp equal))

end Oriented

/--
With distinct keys under a transitive comparator, at most one node compares
equal to a key, so the order of the nodes does not change what a lookup finds.
-/
theorem lookupExact_perm
    [Std.TransCmp cmp]
    {other : List Node}
    (distinct : DistinctKeys cmp key tree)
    (perm : tree.Perm other)
    (target : Key) :
    lookupExact cmp key tree target = lookupExact cmp key other target := by
  refine List.find?_eq_find?_of_perm perm fun first firstFound second secondFound => ?_
  by_contra different
  apply distinct.ne_of_mem firstFound.1 secondFound.1 different
  exact Std.TransCmp.eq_trans (beq_iff_eq.mp firstFound.2)
    (Std.OrientedCmp.eq_comm.mp (beq_iff_eq.mp secondFound.2))

section Lawful

variable [Std.LawfulEqCmp cmp]

/-- No node is found exactly when no node has the key. -/
theorem lookupExact_eq_none_iff {target : Key} :
    lookupExact cmp key tree target = none ↔ ∀ node ∈ tree, key node ≠ target := by
  simp [lookupExact, List.find?_eq_none, Std.LawfulEqCmp.compare_eq_iff_eq]

/-- A node that is found is in the tree and has the key. -/
theorem lookupExact_mem {target : Key} {node : Node}
    (found : lookupExact cmp key tree target = some node) :
    node ∈ tree ∧ key node = target := by
  have matching := List.find?_some found
  simp only [beq_iff_eq, Std.LawfulEqCmp.compare_eq_iff_eq] at matching
  exact ⟨List.mem_of_find?_eq_some found, matching⟩

/-- With distinct keys, the node found is the one node with the key. -/
theorem lookupExact_eq_some_iff
    (distinct : DistinctKeys cmp key tree)
    {target : Key}
    {node : Node} :
    lookupExact cmp key tree target = some node ↔ node ∈ tree ∧ key node = target := by
  constructor
  · exact lookupExact_mem
  · rintro ⟨member, hasKey⟩
    induction tree with
    | nil =>
        simp at member
    | cons first rest inductionHypothesis =>
        rw [DistinctKeys, List.pairwise_cons] at distinct
        rcases List.mem_cons.mp member with isFirst | inRest
        · subst isFirst
          simp [lookupExact, hasKey, Std.ReflCmp.compare_self]
        · have firstKey : key first ≠ target := by
            intro same
            apply distinct.1 node inRest
            rw [same, hasKey]
            exact Std.ReflCmp.compare_self
          have notFirst : (cmp (key first) target == .eq) = false := by
            simpa [Std.LawfulEqCmp.compare_eq_iff_eq] using firstKey
          simp only [lookupExact, List.find?_cons, notFirst]
          exact inductionHypothesis distinct.2 inRest

/-- Distinct keys, as a property of the nodes' keys alone. -/
theorem distinctKeys_iff : DistinctKeys cmp key tree ↔ (tree.map key).Nodup := by
  simp only [DistinctKeys, List.Nodup, List.pairwise_map, ne_eq,
    Std.LawfulEqCmp.compare_eq_iff_eq]

/-- A node whose key no node of the tree has keeps the keys distinct. -/
theorem DistinctKeys.cons
    {node : Node}
    (distinct : DistinctKeys cmp key tree)
    (fresh : ∀ other ∈ tree, key other ≠ key node) :
    DistinctKeys cmp key (node :: tree) := by
  rw [DistinctKeys, List.pairwise_cons]
  refine ⟨fun other member equal => ?_, distinct⟩
  exact fresh other member (Std.LawfulEqCmp.compare_eq_iff_eq.mp equal).symm

/-- A successful insertion keeps the keys distinct. -/
theorem DistinctKeys.insert
    (distinct : DistinctKeys cmp key tree)
    {node : Node}
    {result : List Node}
    (inserted : KeyedIndex.insert cmp key tree node = some result) :
    DistinctKeys cmp key result := by
  obtain ⟨absent, rfl⟩ := insert_eq_some_iff.mp inserted
  exact distinct.cons (lookupExact_eq_none_iff.mp absent)

/-- Distinct keys do not depend on the order of the nodes. -/
theorem DistinctKeys.perm
    {other : List Node}
    (distinct : DistinctKeys cmp key tree)
    (perm : other.Perm tree) :
    DistinctKeys cmp key other := by
  rw [distinctKeys_iff] at distinct ⊢
  exact (perm.map key).nodup_iff.mpr distinct

/-- For a tree without repeated nodes, distinct keys say that the key tells the nodes apart. -/
theorem distinctKeys_iff_injective
    (nodup : tree.Nodup) :
    DistinctKeys cmp key tree ↔ ∀ first ∈ tree, ∀ second ∈ tree, key first = key second →
      first = second := by
  rw [distinctKeys_iff]
  exact ⟨fun distinct => List.inj_on_of_nodup_map distinct,
    fun injective => List.Nodup.map_on injective nodup⟩

end Lawful

end KeyedIndex
