import RouteStubs.Text.Case
/-!
The HTTP methods that a resource can declare.

The order of the constructors is the order in which methods are visited and listed everywhere.
-/

namespace RouteStubs

/-- An HTTP method. -/
inductive Verb where
  | get
  | post
  | put
  | patch
  | head
  | delete
  deriving DecidableEq, Repr, Inhabited

namespace Verb

/-- Every verb, in order. -/
def all : List Verb := [.get, .post, .put, .patch, .head, .delete]

/-- The place of a verb in the order. -/
def rank : Verb → Nat
  | .get => 0
  | .post => 1
  | .put => 2
  | .patch => 3
  | .head => 4
  | .delete => 5

instance : LT Verb := ⟨fun a b => a.rank < b.rank⟩

instance : DecidableLT Verb := fun a b => inferInstanceAs (Decidable (a.rank < b.rank))

/-- The name of the method, in capitals. -/
def name : Verb → String
  | .get => "GET"
  | .post => "POST"
  | .put => "PUT"
  | .patch => "PATCH"
  | .head => "HEAD"
  | .delete => "DELETE"

/-- The key that declares the method in an API description. -/
def key : Verb → String
  | .get => "get"
  | .post => "post"
  | .put => "put"
  | .patch => "patch"
  | .head => "head"
  | .delete => "delete"

/-- The verb with this key. -/
def ofKey? (key : String) : Option Verb := all.find? (·.key == key)

/-- The verb with this name. -/
def ofName? (name : String) : Option Verb := all.find? (·.name == name)

/-- The verb with this key in any letter case. -/
def ofText? (s : String) : Option Verb := ofKey? (String.ofList (Text.lowercase s.toList))

/-- What is said of a text that names no verb. -/
def unknownMessage (s : String) : String :=
  "unknown HTTP method '" ++ s ++ "', expected one of " ++ ", ".intercalate (all.map name)

/-- What is said of a text that is not exactly the name of a verb. -/
def unknownNameMessage (s : String) : String :=
  "unknown variant \x60" ++ s ++ "\x60, expected one of " ++
    ", ".intercalate (all.map fun verb => "\x60" ++ verb.name ++ "\x60")

/-- Puts a verb into its place among verbs in order, after equal ones. -/
def insertInOrder (verb : Verb) : List Verb → List Verb
  | [] => [verb]
  | v :: rest => if verb < v then verb :: v :: rest else v :: insertInOrder verb rest

/-- The verbs in order. -/
def sort (verbs : List Verb) : List Verb := verbs.foldl (fun sorted v => insertInOrder v sorted) []

end Verb

end RouteStubs
