import RouteStubs.Entries
import RouteStubs.Verb
/-!
What an API description declares: a tree of resources with their methods and parameters.

Resources are stored under keys in increasing order, methods under verbs in the order of verbs, and
parameters under names in the order of declaration. The functions that add a resource or a method store
it under its own segment or verb.
-/

namespace RouteStubs

/-! ## §1 Declarations -/

/-- The declaration of a URI or query parameter. -/
structure ParameterDecl where
  displayName : Option String := none
  description : Option String := none
  /-- The name of the declared type, which is not interpreted. -/
  type : String := "string"
  /-- A regular expression, which is not interpreted. -/
  pattern : Option String := none
  required : Bool := false
  deriving DecidableEq, Repr, Inhabited

/-- The declarations of parameters by name. -/
abbrev ParameterDecls := List (String × ParameterDecl)

/-- A method of a resource. -/
structure Method where
  verb : Verb
  displayName : String := ""
  description : String := ""
  queryParameters : ParameterDecls := []
  deriving DecidableEq, Repr, Inhabited

/-- A resource with its methods, and the resources below it. -/
structure Resource where
  /-- What the resource adds to the path. -/
  segment : String
  displayName : Option String := none
  description : Option String := none
  methods : List (Verb × Method) := []
  uriParameters : ParameterDecls := []
  children : List (String × Resource) := []
  deriving Repr

instance : Inhabited Resource := ⟨⟨"", none, none, [], [], []⟩⟩

/-- The resources under their keys, as they stand side by side. -/
abbrev Resources := List (String × Resource)

/-- An API description. -/
structure Api where
  title : String
  version : Option String := none
  baseUri : Option String := none
  resources : Resources := []
  deriving Repr, Inhabited

/-! ## §2 Building -/

/-- Declares a query parameter, in place of one of that name. -/
def Method.addQueryParameter (m : Method) (name : String) (decl : ParameterDecl) : Method :=
  { m with queryParameters := Entries.put name decl m.queryParameters }

namespace Resource

/-- A resource that declares nothing. -/
def empty (segment : String) : Resource := { segment }

/-- Declares a method, in place of one with that verb. -/
def addMethod (r : Resource) (m : Method) : Resource :=
  { r with methods := Entries.insertSorted m.verb m r.methods }

/-- Declares a URI parameter, in place of one of that name. -/
def addUriParameter (r : Resource) (name : String) (decl : ParameterDecl) : Resource :=
  { r with uriParameters := Entries.put name decl r.uriParameters }

/-- Puts a resource below this one under a key, in place of one that is there. -/
def addChildAt (r : Resource) (key : String) (child : Resource) : Resource :=
  { r with children := Entries.insertSorted key child r.children }

/-- Puts a resource below this one under its segment. -/
def addChild (r : Resource) (child : Resource) : Resource := r.addChildAt child.segment child

/-- The method declared for a verb. -/
def method? (r : Resource) (verb : Verb) : Option Method := r.methods.lookup verb

/-- There are resources below this one. -/
def hasChildren (r : Resource) : Bool := !r.children.isEmpty

mutual

/-- The number of methods of a resource and all below it. -/
def methodCount : Resource → Nat
  | ⟨_, _, _, methods, _, children⟩ => methods.length + methodCountAll children
termination_by structural r => r

/-- The number of methods of resources and all below them. -/
def methodCountAll : List (String × Resource) → Nat
  | [] => 0
  | (_, r) :: rest => methodCount r + methodCountAll rest
termination_by structural rs => rs

end

mutual

/-- Equality of resources; the order of parameters does not count. -/
def same : Resource → Resource → Bool
  | ⟨segment, displayName, description, methods, uriParameters, children⟩, other =>
    segment == other.segment && displayName == other.displayName &&
      description == other.description &&
      methods.length == other.methods.length &&
      (methods.zip other.methods).all (fun ((v, m), (w, n)) =>
        v == w && m.verb == n.verb && m.displayName == n.displayName &&
          m.description == n.description &&
          Entries.sameUnordered m.queryParameters n.queryParameters) &&
      Entries.sameUnordered uriParameters other.uriParameters && sameAll children other.children
termination_by structural r => r

/-- Equality of resources under their keys, one by one. -/
def sameAll : List (String × Resource) → List (String × Resource) → Bool
  | [], [] => true
  | (k, r) :: rest, (k', r') :: rest' => k == k' && same r r' && sameAll rest rest'
  | _, _ => false
termination_by structural rs => rs

end

end Resource

namespace Api

/-- A description that declares nothing. -/
def empty (title : String) : Api := { title }

/-- Puts a resource at the top under a key, in place of one that is there. -/
def addResourceAt (api : Api) (key : String) (r : Resource) : Api :=
  { api with resources := Entries.insertSorted key r api.resources }

/-- Puts a resource at the top under its segment. -/
def addResource (api : Api) (r : Resource) : Api := api.addResourceAt r.segment r

/-- The number of methods declared anywhere. -/
def methodCount (api : Api) : Nat := Resource.methodCountAll api.resources

/-- The resource that a chain of keys leads to. -/
def find? (resources : Resources) : List String → Option Resource
  | [] => none
  | [key] => resources.lookup key
  | key :: keys => (resources.lookup key).bind fun r => find? r.children keys

/-- Equality of descriptions; the order of parameters does not count. -/
def same (a b : Api) : Bool :=
  a.title == b.title && a.version == b.version && a.baseUri == b.baseUri &&
    Resource.sameAll a.resources b.resources

end Api

end RouteStubs
