import Tun2SocksWinRT.PointerChain

namespace Tun2SocksWinRT

/-!
# `SLinkedList`: the intrusive list under `BPending`

`structure/SLinkedList_impl.h` keeps a pointer to the first entry in the list
object and a `prev`/`next` pair in the node member of every entry.  An entry
that is not in the list is marked by a `next` pointer to itself
(`SLinkedListMarkRemoved`), and the `prev` of the first entry is never read,
so it goes stale.  `BPending` instantiates the list without the `last`
feature, which is the variant modelled here.

The model keeps the `first` pointer together with the link fields of all
entries.  `Linked` is the representation invariant: the links form a
`PointerChain.Chain` whose list is the abstract content.  Every operation has
one lemma saying which abstract list it produces, and one saying which `next`
fields it leaves alone.
-/

open PointerChain

/-- An `SLinkedList` together with the `prev`/`next` node of every entry. -/
structure SLinkedList (Entry : Type) where
  first : Option Entry
  prev : Entry → Option Entry
  next : Entry → Option Entry

namespace SLinkedList

variable {Entry : Type}

/-- `SLinkedList_Init`: clear `first`; the entries' nodes are left as they are. -/
def init (o : SLinkedList Entry) : SLinkedList Entry :=
  { o with first := none }

/-- `SLinkedList_IsEmpty`. -/
def isEmpty (o : SLinkedList Entry) : Bool :=
  o.first.isNone

/-- `SLinkedList_RemoveFirst`. -/
def removeFirst (o : SLinkedList Entry) : SLinkedList Entry :=
  match o.first with
  | some first =>
      { o with first := o.next first }
  | none =>
      o

/-- The links of `o` hold exactly `items`, first to last. -/
structure Linked (o : SLinkedList Entry) (items : List Entry) : Prop where
  chain : Chain o.next o.first items
  back : BackLinked o.prev items

namespace Linked

variable {o : SLinkedList Entry} {items : List Entry}

/-- A linked list never holds an entry twice. -/
theorem nodup (linked : o.Linked items) : items.Nodup :=
  linked.chain.nodup

/-- `first` points at the head of the abstract list. -/
theorem first_eq (linked : o.Linked items) : o.first = items.head? :=
  linked.chain.first_eq_head?

end Linked

@[simp] theorem removeFirst_next (o : SLinkedList Entry) :
    o.removeFirst.next = o.next := by
  unfold removeFirst
  split <;> rfl

/-- `SLinkedList_Init` yields the empty list, whatever the nodes hold. -/
theorem linked_init (o : SLinkedList Entry) : o.init.Linked [] :=
  ⟨.nil, .nil⟩

/-- Dropping the head moves `first` to the second entry. -/
theorem linked_removeFirst
    {o : SLinkedList Entry}
    {head : Entry}
    {rest : List Entry}
    (linked : o.Linked (head :: rest)) :
    o.removeFirst.Linked rest := by
  have firstHead : o.first = some head := linked.first_eq
  simp only [removeFirst, firstHead]
  exact ⟨linked.chain.cons_inv.2, linked.back.tail⟩

variable [DecidableEq Entry]

/-- `SLinkedListMarkRemoved`: point `next` of the entry at itself. -/
def markRemoved (o : SLinkedList Entry) (entry : Entry) : SLinkedList Entry :=
  { o with next := Function.update o.next entry (some entry) }

/-- `SLinkedListIsRemoved`: whether `next` of the entry points at itself. -/
def isRemoved (o : SLinkedList Entry) (entry : Entry) : Bool :=
  decide (o.next entry = some entry)

/-- `SLinkedList_Prepend`. -/
def prepend (o : SLinkedList Entry) (entry : Entry) : SLinkedList Entry :=
  let o := { o with next := Function.update o.next entry o.first }
  match o.first with
  | some first =>
      { o with
        prev := Function.update o.prev first (some entry)
        first := some entry }
  | none =>
      { o with first := some entry }

/--
`SLinkedList_Remove`.  The source reads `prev` of an entry other than the
first without a check; a null `prev` there is never reached from a linked
entry, and the model leaves the list unchanged in that case.
-/
def remove (o : SLinkedList Entry) (entry : Entry) : SLinkedList Entry :=
  if o.first ≠ some entry then
    match o.prev entry with
    | none =>
        o
    | some before =>
        let o := { o with next := Function.update o.next before (o.next entry) }
        match o.next entry with
        | some after =>
            { o with prev := Function.update o.prev after (o.prev entry) }
        | none =>
            o
  else
    { o with first := o.next entry }

/-- A linked entry is never marked removed. -/
theorem Linked.isRemoved_eq_false
    {o : SLinkedList Entry}
    {items : List Entry}
    (linked : o.Linked items)
    {entry : Entry}
    (member : entry ∈ items) :
    o.isRemoved entry = false := by
  simpa [isRemoved] using linked.chain.next_ne_self member

@[simp] theorem markRemoved_next_self (o : SLinkedList Entry) (entry : Entry) :
    (o.markRemoved entry).next entry = some entry := by
  simp [markRemoved]

theorem markRemoved_next_of_ne
    (o : SLinkedList Entry)
    {entry other : Entry}
    (different : other ≠ entry) :
    (o.markRemoved entry).next other = o.next other := by
  simp [markRemoved, different]

@[simp] theorem isRemoved_markRemoved (o : SLinkedList Entry) (entry : Entry) :
    (o.markRemoved entry).isRemoved entry = true := by
  simp [isRemoved]

theorem prepend_next_of_ne
    (o : SLinkedList Entry)
    {entry other : Entry}
    (different : other ≠ entry) :
    (o.prepend entry).next other = o.next other := by
  cases firstShape : o.first <;> simp [prepend, firstShape, different]

/-- Marking an entry outside the list removed keeps the list. -/
theorem linked_markRemoved
    {o : SLinkedList Entry}
    {items : List Entry}
    {entry : Entry}
    (linked : o.Linked items)
    (fresh : entry ∉ items) :
    (o.markRemoved entry).Linked items :=
  ⟨linked.chain.frame fun _ member =>
      markRemoved_next_of_ne o (ne_of_mem_of_not_mem member fresh),
    linked.back⟩

/-- Prepending a fresh entry makes it the head. -/
theorem linked_prepend
    {o : SLinkedList Entry}
    {items : List Entry}
    {entry : Entry}
    (linked : o.Linked items)
    (fresh : entry ∉ items) :
    (o.prepend entry).Linked (entry :: items) := by
  have pushed := linked.chain.push fresh
  cases items with
  | nil =>
      have firstNone : o.first = none := linked.first_eq
      rw [firstNone] at pushed
      simp only [prepend, firstNone]
      exact ⟨pushed, .singleton entry⟩
  | cons head rest =>
      have firstHead : o.first = some head := linked.first_eq
      have headFresh : head ∉ rest := (List.nodup_cons.mp linked.nodup).1
      rw [firstHead] at pushed
      simp only [prepend, firstHead]
      exact ⟨pushed, linked.back.push headFresh⟩

/-- Removing a linked entry erases it from the abstract list. -/
theorem linked_remove
    {o : SLinkedList Entry}
    {items : List Entry}
    {entry : Entry}
    (linked : o.Linked items)
    (member : entry ∈ items) :
    (o.remove entry).Linked (items.erase entry) := by
  by_cases isFirst : o.first = some entry
  · -- the head is unlinked by moving `first`
    cases items with
    | nil =>
        simp at member
    | cons head rest =>
        have headIsEntry : head = entry := by
          have firstHead : o.first = some head := linked.first_eq
          rw [isFirst] at firstHead
          exact (Option.some.inj firstHead).symm
        subst headIsEntry
        simp only [remove, isFirst, ne_eq, not_true_eq_false, if_false,
          List.erase_cons_head]
        exact ⟨linked.chain.cons_inv.2, linked.back.tail⟩
  · -- an inner entry is unlinked through its predecessor
    obtain ⟨front, before, back, rfl⟩ :=
      PointerChain.exists_predecessor member (by rwa [← linked.first_eq])
    have noDuplicates := linked.nodup
    have entryFresh : entry ∉ front ∧ entry ≠ before := by
      simp only [List.nodup_append, List.nodup_cons, List.mem_cons] at noDuplicates
      grind
    have prevEntry : o.prev entry = some before := linked.back.prev_eq
    have nextEntry : o.next entry = back.head? := by
      have reshaped := linked.chain
      rw [show front ++ before :: entry :: back = (front ++ [before]) ++ entry :: back by simp]
        at reshaped
      exact reshaped.next_eq_head?
    have erased : (front ++ before :: entry :: back).erase entry = front ++ before :: back := by
      rw [List.erase_append_right _ entryFresh.1, List.erase_cons_tail (by simpa using entryFresh.2.symm),
        List.erase_cons_head]
    have unlinked := linked.chain.unlink
    rw [erased]
    cases back with
    | nil =>
        simp only [List.head?_nil] at nextEntry
        simp only [remove, isFirst, prevEntry, ne_eq, not_false_eq_true, if_true,
          Function.update_of_ne entryFresh.2, nextEntry]
        rw [nextEntry] at unlinked
        exact ⟨unlinked, linked.back.unlink_last⟩
    | cons after rest =>
        simp only [List.head?_cons] at nextEntry
        simp only [remove, isFirst, prevEntry, ne_eq, not_false_eq_true, if_true,
          Function.update_of_ne entryFresh.2, nextEntry]
        rw [nextEntry] at unlinked
        have relinked := linked.back.unlink noDuplicates
        rw [prevEntry] at relinked
        exact ⟨unlinked, relinked⟩

/-- Removing a linked entry rewrites `next` of list members only. -/
theorem remove_next_of_not_mem
    {o : SLinkedList Entry}
    {items : List Entry}
    {entry other : Entry}
    (linked : o.Linked items)
    (member : entry ∈ items)
    (outside : other ∉ items) :
    (o.remove entry).next other = o.next other := by
  by_cases isFirst : o.first = some entry
  · simp [remove, isFirst]
  · obtain ⟨front, before, back, rfl⟩ :=
      PointerChain.exists_predecessor member (by rwa [← linked.first_eq])
    have prevEntry : o.prev entry = some before := linked.back.prev_eq
    have otherNe : other ≠ before := by
      rintro rfl
      exact outside (by simp)
    simp only [remove, isFirst, prevEntry, ne_eq, not_false_eq_true, if_true]
    split <;> simp [otherNe]

end SLinkedList

end Tun2SocksWinRT
