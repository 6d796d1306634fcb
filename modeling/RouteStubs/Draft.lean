import RouteStubs.Api
/-!
An API under construction.

Resources are built from the outside in: each open resource stands in the one before it, and only the
innermost is worked on. Closing it puts it into the next one, or at the top of the API.
-/

namespace RouteStubs

/-- An API under construction, and its open resources, the innermost first. -/
structure Draft where
  api : Api
  opened : List Resource := []

namespace Draft

/-- The innermost open resource. -/
def current? (d : Draft) : Option Resource := d.opened.head?

/-- Opens a resource within the current one. -/
def enter (d : Draft) (r : Resource) : Draft := { d with opened := r :: d.opened }

/-- Changes the current resource, if there is one. -/
def edit? (d : Draft) (change : Resource → Resource) : Option Draft :=
  match d.opened with
  | [] => none
  | r :: rest => some { d with opened := change r :: rest }

/-- Closes the current resource, if there is one. -/
def close? (d : Draft) : Option Draft :=
  match d.opened with
  | [] => none
  | [r] => some { api := d.api.addResource r }
  | r :: outer :: rest => some { d with opened := outer.addChild r :: rest }

/-- Takes the resource under a key out of the top of the API and opens it, if there is one. -/
def reopen? (d : Draft) (key : String) : Option Draft :=
  (d.api.resources.lookup key).map fun r =>
    { api := { d.api with resources := Entries.erase key d.api.resources }, opened := r :: d.opened }

end Draft

end RouteStubs
