/-
  Tables: lists of keys with values, each key at most once.

  * `Table.assign` gives a key a value, in place of an earlier one;
  * `Table.ofPairs` collects pairs, of which the last for a key counts.
-/

namespace DviMarkup.Table

variable {κ β : Type} [BEq κ]

/-- The table in which the key has the value. -/
def assign (key : κ) (value : β) : List (κ × β) → List (κ × β)
  | [] => [(key, value)]
  | (k, v) :: rest => if key == k then (k, value) :: rest else (k, v) :: assign key value rest

/-- The table of pairs of which the last for a key counts. -/
def ofPairs (pairs : List (κ × β)) : List (κ × β) :=
  pairs.foldl (fun t p => assign p.1 p.2 t) []

end DviMarkup.Table
