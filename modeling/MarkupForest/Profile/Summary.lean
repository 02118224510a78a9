import MarkupForest.Profile.Basic
import MarkupForest.Text.Quoted

/-!
# Summaries of profiles

One line for diagnostics that shows what a profile covers.
-/

namespace MarkupForest

namespace Profile

def dialectName : Dialect → String
  | .html => "Html"
  | .jsx => "Jsx"

/-- Identifier, dialect and covered types, the types in order of their names. -/
def summary (p : Profile) : String :=
  let names := (p.supported.map NodeType.name).mergeSort
  "RenderProfile \x7b id: " ++ Text.quoted p.id ++ ", syntax: " ++
    dialectName p.dialect ++ ", emitters: [" ++
    String.intercalate ", " (names.map Text.quoted) ++ "] \x7d"

end Profile

end MarkupForest
