/-!
Keys with values, as lists.

Two orders are kept: `insertSorted` keeps the keys increasing, and `put` keeps them in the order of their
first use. Either replaces the value under a key that is there already. Values are found by
`List.lookup`.
-/

namespace RouteStubs.Entries

variable {κ α : Type}

/-- Sets the value under a key among increasing keys. -/
def insertSorted [DecidableEq κ] [LT κ] [DecidableLT κ] (key : κ) (value : α) :
    List (κ × α) → List (κ × α)
  | [] => [(key, value)]
  | (k, v) :: rest =>
    if key = k then (key, value) :: rest
    else if key < k then (key, value) :: (k, v) :: rest
    else (k, v) :: insertSorted key value rest

/-- Sets the value under a key: in its place if the key is there, at the end if it is new. -/
def put [DecidableEq κ] (key : κ) (value : α) : List (κ × α) → List (κ × α)
  | [] => [(key, value)]
  | (k, v) :: rest => if key = k then (k, value) :: rest else (k, v) :: put key value rest

/-- Leaves a key out. -/
def erase [DecidableEq κ] (key : κ) (entries : List (κ × α)) : List (κ × α) :=
  entries.filter fun entry => entry.1 ≠ key

/-- Equality of entries without regard to order, for lists that have no key twice. -/
def sameUnordered [BEq κ] [BEq α] (a b : List (κ × α)) : Bool :=
  a.length == b.length && a.all fun (k, v) => b.lookup k == some v

end RouteStubs.Entries
