import Mathlib.Data.List.Chain
import Mathlib.Data.List.Nodup
import Mathlib.Logic.Function.Basic

namespace PointerChain

/-!
# Pointer chains over a functional heap

An intrusive list keeps its links inside the entries.  Here the link fields of
all entries are total maps `next prev : α → Option α`, with `none` for a null
pointer.  `Chain next first items` says that following `next` from `first`
visits exactly `items` and then reaches `none`; `BackLinked prev items` says
that every entry after the first points back at its predecessor.

The lemmas cover the three pointer rewrites an intrusive list performs:
pushing a new head, dropping the head, and unlinking an inner entry.  Nothing
here depends on what the entries are.
-/

variable {α : Type}

/-- Following `next` from `first` visits exactly `items`, then reaches `none`. -/
inductive Chain (next : α → Option α) : Option α → List α → Prop
  | nil : Chain next none []
  | cons {head : α} {rest : List α} :
      Chain next (next head) rest →
      Chain next (some head) (head :: rest)

/-- Every entry after the first has `prev` pointing at its predecessor. -/
def BackLinked (prev : α → Option α) (items : List α) : Prop :=
  items.IsChain (fun before after => prev after = some before)

/-- An entry that is not the head of a list has a predecessor in it. -/
theorem exists_predecessor
    {items : List α}
    {entry : α}
    (member : entry ∈ items)
    (notHead : items.head? ≠ some entry) :
    ∃ front before back, items = front ++ before :: entry :: back := by
  obtain ⟨earlier, later, itemsShape⟩ := List.mem_iff_append.mp member
  rcases List.eq_nil_or_concat earlier with earlierNil | ⟨front, before, earlierShape⟩
  · subst earlierNil
    simp [itemsShape] at notHead
  · exact ⟨front, before, later, by simp [itemsShape, earlierShape]⟩

namespace Chain

variable {next : α → Option α}

/-- The first pointer of a chain is the head of its list. -/
theorem first_eq_head?
    {first : Option α}
    {items : List α}
    (chain : Chain next first items) :
    first = items.head? := by
  cases chain with
  | nil =>
      rfl
  | cons _ =>
      rfl

/-- A chain through `head :: rest` starts at `head` and continues at `next head`. -/
theorem cons_inv
    {first : Option α}
    {head : α}
    {rest : List α}
    (chain : Chain next first (head :: rest)) :
    first = some head ∧ Chain next (next head) rest := by
  cases chain with
  | cons restChain =>
      exact ⟨rfl, restChain⟩

/-- A chain is determined by its first pointer. -/
theorem unique
    {first : Option α}
    {items other : List α}
    (chain : Chain next first items)
    (otherChain : Chain next first other) :
    items = other := by
  induction chain generalizing other with
  | nil =>
      cases otherChain
      rfl
  | cons _ inductionHypothesis =>
      cases otherChain with
      | cons otherRest =>
          rw [inductionHypothesis otherRest]

/-- Every member of a chain starts a chain through a suffix of the list. -/
theorem suffix_of_mem
    {first : Option α}
    {items : List α}
    (chain : Chain next first items)
    {entry : α}
    (member : entry ∈ items) :
    ∃ rest, Chain next (some entry) (entry :: rest) ∧ entry :: rest <:+ items := by
  induction chain with
  | nil =>
      simp at member
  | @cons head rest restChain inductionHypothesis =>
      rcases List.mem_cons.mp member with rfl | inRest
      · exact ⟨rest, .cons restChain, List.suffix_refl _⟩
      · obtain ⟨tail, tailChain, tailSuffix⟩ := inductionHypothesis inRest
        exact ⟨tail, tailChain, tailSuffix.trans (List.suffix_cons head rest)⟩

/-- Reaching `none` after finitely many steps rules out visiting an entry twice. -/
theorem nodup
    {first : Option α}
    {items : List α}
    (chain : Chain next first items) :
    items.Nodup := by
  induction chain with
  | nil =>
      exact List.nodup_nil
  | @cons head rest restChain inductionHypothesis =>
      refine List.nodup_cons.mpr ⟨?_, inductionHypothesis⟩
      intro headInRest
      -- a second visit of `head` would start the same chain on a shorter list
      obtain ⟨tail, tailChain, tailSuffix⟩ := suffix_of_mem restChain headInRest
      have sameRest : rest = tail :=
        (List.cons.inj (unique (.cons restChain) tailChain)).2
      have longer := tailSuffix.length_le
      simp only [List.length_cons, sameRest] at longer
      omega

/-- The `next` link of a member never points back at the member itself. -/
theorem next_ne_self
    {first : Option α}
    {items : List α}
    (chain : Chain next first items)
    {entry : α}
    (member : entry ∈ items) :
    next entry ≠ some entry := by
  intro selfLoop
  obtain ⟨rest, entryChain, entrySuffix⟩ := chain.suffix_of_mem member
  have noDuplicates : (entry :: rest).Nodup := chain.nodup.sublist entrySuffix.sublist
  have restChain := entryChain.cons_inv.2
  rw [selfLoop] at restChain
  have entryInRest : entry ∈ rest :=
    List.mem_of_mem_head? restChain.first_eq_head?.symm
  exact (List.nodup_cons.mp noDuplicates).1 entryInRest

/-- A chain only reads the `next` links of its own members. -/
theorem frame
    {next' : α → Option α}
    {first : Option α}
    {items : List α}
    (chain : Chain next first items)
    (agree : ∀ entry ∈ items, next' entry = next entry) :
    Chain next' first items := by
  induction chain with
  | nil =>
      exact .nil
  | @cons head rest _ inductionHypothesis =>
      refine .cons ?_
      rw [agree head List.mem_cons_self]
      exact inductionHypothesis fun entry member =>
        agree entry (List.mem_cons_of_mem head member)

/-- The `next` link of a member points at the member after it. -/
theorem next_eq_head?
    {first : Option α}
    {front back : List α}
    {entry : α}
    (chain : Chain next first (front ++ entry :: back)) :
    next entry = back.head? := by
  induction front generalizing first with
  | nil =>
      exact chain.cons_inv.2.first_eq_head?
  | cons _ _ inductionHypothesis =>
      exact inductionHypothesis chain.cons_inv.2

variable [DecidableEq α]

/-- Pointing a fresh entry at the current first entry makes it the new head. -/
theorem push
    {first : Option α}
    {items : List α}
    {entry : α}
    (chain : Chain next first items)
    (fresh : entry ∉ items) :
    Chain (Function.update next entry first) (some entry) (entry :: items) := by
  refine .cons ?_
  rw [Function.update_self]
  exact chain.frame fun other member =>
    Function.update_of_ne (ne_of_mem_of_not_mem member fresh) _ _

/-- Redirecting the predecessor of `entry` past it unlinks `entry`. -/
theorem unlink
    {first : Option α}
    {front back : List α}
    {before entry : α}
    (chain : Chain next first (front ++ before :: entry :: back)) :
    Chain (Function.update next before (next entry)) first
      (front ++ before :: back) := by
  induction front generalizing first with
  | nil =>
      have noDuplicates := chain.nodup
      obtain ⟨rfl, afterBefore⟩ := chain.cons_inv
      have afterEntry := afterBefore.cons_inv.2
      have beforeFresh : before ∉ back := fun inBack =>
        (List.nodup_cons.mp noDuplicates).1 (List.mem_cons_of_mem entry inBack)
      refine .cons ?_
      rw [Function.update_self]
      exact afterEntry.frame fun other member =>
        Function.update_of_ne (ne_of_mem_of_not_mem member beforeFresh) _ _
  | cons head front inductionHypothesis =>
      have noDuplicates := chain.nodup
      obtain ⟨rfl, restChain⟩ := chain.cons_inv
      have headNe : head ≠ before := by
        rintro rfl
        exact (List.nodup_cons.mp noDuplicates).1 (by simp)
      refine .cons ?_
      rw [Function.update_of_ne headNe]
      exact inductionHypothesis restChain

end Chain

namespace BackLinked

variable {prev : α → Option α}

/-- Back links only read the `prev` links of entries after the first. -/
theorem frame
    {prev' : α → Option α}
    {items : List α}
    (links : BackLinked prev items)
    (agree : ∀ entry ∈ items.tail, prev' entry = prev entry) :
    BackLinked prev' items :=
  List.IsChain.imp_of_mem_tail_imp
    (fun _ after _ member linked => (agree after member).trans linked) links

/-- The `prev` link of an entry after the first points at its predecessor. -/
theorem prev_eq
    {front back : List α}
    {before entry : α}
    (links : BackLinked prev (front ++ before :: entry :: back)) :
    prev entry = some before := by
  unfold BackLinked at links
  rw [List.isChain_append_cons_cons] at links
  exact links.2.1

/-- Dropping the head keeps the back links; the new head's `prev` goes stale. -/
theorem tail
    {head : α}
    {rest : List α}
    (links : BackLinked prev (head :: rest)) :
    BackLinked prev rest :=
  List.IsChain.tail links

/-- Unlinking the last entry leaves the back links of the front untouched. -/
theorem unlink_last
    {front : List α}
    {before entry : α}
    (links : BackLinked prev (front ++ [before, entry])) :
    BackLinked prev (front ++ [before]) := by
  unfold BackLinked at links ⊢
  rw [List.isChain_append_cons_cons] at links
  exact links.1

variable [DecidableEq α]

/-- Pointing the old head back at a fresh entry links the pushed list. -/
theorem push
    {entry head : α}
    {rest : List α}
    (links : BackLinked prev (head :: rest))
    (headFresh : head ∉ rest) :
    BackLinked (Function.update prev head (some entry)) (entry :: head :: rest) := by
  refine List.IsChain.cons_cons (by simp) ?_
  exact links.frame fun other member =>
    Function.update_of_ne (ne_of_mem_of_not_mem member headFresh) _ _

/-- Unlinking an inner entry points its successor back at its predecessor. -/
theorem unlink
    {front back : List α}
    {before entry after : α}
    (links : BackLinked prev (front ++ before :: entry :: after :: back))
    (noDuplicates : (front ++ before :: entry :: after :: back).Nodup) :
    BackLinked (Function.update prev after (prev entry))
      (front ++ before :: after :: back) := by
  unfold BackLinked at links ⊢
  rw [List.isChain_append_cons_cons] at links ⊢
  obtain ⟨frontLinks, entryLinked, entryRest⟩ := links
  rw [List.isChain_cons_cons] at entryRest
  have afterFreshFront : after ∉ front ++ [before] := by
    intro member
    simp only [List.nodup_append, List.nodup_cons, List.mem_cons] at noDuplicates
    grind
  have afterFreshBack : after ∉ back := by
    simp only [List.nodup_append, List.nodup_cons] at noDuplicates
    exact noDuplicates.2.1.2.2.1
  refine ⟨?_, by simpa using entryLinked, ?_⟩
  · exact BackLinked.frame frontLinks fun other member =>
      Function.update_of_ne
        (ne_of_mem_of_not_mem (List.mem_of_mem_tail member) afterFreshFront) _ _
  · exact BackLinked.frame entryRest.2 fun other member =>
      Function.update_of_ne (ne_of_mem_of_not_mem member afterFreshBack) _ _

end BackLinked

end PointerChain
