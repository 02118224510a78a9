import MarkupForest.Number.PlainText

/-!
# JSON values

A JSON document as a tree that keeps everything a reader may ask for: the order
of members, repeated member names, and numbers as the decimals that were
written.

A string literal may denote no text, namely when an escape is one half of a
surrogate pair without the other.  Such a literal is well formed, and a reader
that has no use for it can pass over it, so it is kept as `none`.
-/

namespace MarkupForest

inductive Json where
  | null
  | bool (value : Bool)
  | number (value : Decimal)
  | string (content : Option String)
  | array (items : List Json)
  | object (members : List (Option String × Json))

namespace Json

instance : Inhabited Json := ⟨null⟩

def ofText (s : String) : Json := string (some s)

def ofNat (n : Nat) : Json := number (Decimal.ofNat n)

def ofMembers (members : List (String × Json)) : Json :=
  object (members.map fun member => (some member.1, member.2))

/-- The text of a string literal that denotes one. -/
def text? : Json → Option String
  | string content => content
  | _ => none

end Json

end MarkupForest
