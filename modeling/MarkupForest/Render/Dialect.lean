import MarkupForest.Text.Literal

/-!
# Markup dialects

A profile writes plain HTML or JSX.  The dialects differ in how text is escaped
and in the names of some attributes.
-/

namespace MarkupForest

inductive Dialect where
  | html
  | jsx
  deriving DecidableEq, Inhabited

namespace Dialect

/--
Text as it is written between tags.  JSX takes line breaks in text for
spacing, so a text that has one becomes a string expression there; in any other
text JSX needs its braces escaped.
-/
def escapeText : Dialect → String → String
  | html, s => Text.encodeText s
  | jsx, s =>
      if '\n' ∈ s.toList then
        "\x7b" ++ Text.markupFreeLiteral s ++ "\x7d"
      else
        Text.encodeBraces (Text.encodeText s)

def attributeName : Dialect → String → String
  | html, name => name
  | jsx, name =>
      if name = "class" then "className"
      else if name = "for" then "htmlFor"
      else if name = "readonly" then "readOnly"
      else if name = "tabindex" then "tabIndex"
      else if name = "maxlength" then "maxLength"
      else name

theorem attributeName_cases (dialect : Dialect) (name : String) :
    dialect.attributeName name = name ∨ dialect.attributeName name ∈
      ["className", "htmlFor", "readOnly", "tabIndex", "maxLength"] := by
  cases dialect with
  | html => exact Or.inl rfl
  | jsx =>
      unfold attributeName
      simp only
      split
      · exact Or.inr (by decide)
      · split
        · exact Or.inr (by decide)
        · split
          · exact Or.inr (by decide)
          · split
            · exact Or.inr (by decide)
            · split
              · exact Or.inr (by decide)
              · exact Or.inl rfl

end Dialect

end MarkupForest
