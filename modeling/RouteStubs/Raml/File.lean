import RouteStubs.Raml.Document
/-!
API descriptions in files.
-/

namespace RouteStubs.Raml

open Files (Disk FileError)

/-- A file with an API description, and the API. -/
structure File where
  path : String
  content : String
  api : Api

/-- The file at a path, from what reading it gives. -/
def File.ofContent (path : String) (content : Except FileError String) : Except Error File := do
  match content with
  | .error e => throw (.unreadable path e)
  | .ok content => return ⟨path, content, ← parse content⟩

/-- Reads the file at a path. -/
def File.open (d : Disk) (path : String) : Except Error File := File.ofContent path (d.readText path)

end RouteStubs.Raml
