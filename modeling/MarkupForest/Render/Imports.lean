import MarkupForest.Render.Element

/-!
# Collected imports

The components that a rendering uses, grouped by module.  Modules and the names
within a module are kept in strictly ascending order of their code points, so
the order in which they were met does not show.
-/

namespace MarkupForest

/-- Insert into a strictly ascending list of names, unless it is there. -/
def insertName (name : String) : List String → List String
  | [] => [name]
  | other :: rest =>
      if name < other then name :: other :: rest
      else if other < name then other :: insertName name rest
      else other :: rest

/-- Component names by module, both in strictly ascending order. -/
abbrev Imports := List (String × List String)

namespace Imports

def addName (module name : String) : Imports → Imports
  | [] => [(module, [name])]
  | (other, names) :: rest =>
      if module < other then (module, [name]) :: (other, names) :: rest
      else if other < module then (other, names) :: addName module name rest
      else (other, insertName name names) :: rest

/-- Group imports, in whatever order they were met. -/
def collect (imports : List Import) : Imports :=
  imports.foldl (fun grouped i => grouped.addName i.module i.name) []

end Imports

end MarkupForest
