import MarkupForest.Json.Number
import MarkupForest.Text.Literal

/-!
# Compact JSON text

A JSON value without any space between its tokens.  Members keep their order.
-/

namespace MarkupForest

namespace Json

/-- The literal of a string; one that denotes no text is written empty. -/
def stringText (content : Option String) : String :=
  Text.literal (content.getD "")

mutual

def compact : Json → String
  | null => "null"
  | bool value => if value then "true" else "false"
  | number value => value.jsonText
  | string content => stringText content
  | array [] => "[]"
  | array (item :: rest) => "[" ++ (compact item ++ compactItems rest) ++ "]"
  | object [] => "\x7b\x7d"
  | object ((name, value) :: rest) =>
      "\x7b" ++ (stringText name ++ ":" ++ compact value ++
        compactMembers rest) ++ "\x7d"

/-- Items that follow another one. -/
def compactItems : List Json → String
  | [] => ""
  | item :: rest => "," ++ compact item ++ compactItems rest

/-- Members that follow another one. -/
def compactMembers : List (Option String × Json) → String
  | [] => ""
  | (name, value) :: rest =>
      "," ++ stringText name ++ ":" ++ compact value ++ compactMembers rest

end

end Json

end MarkupForest
