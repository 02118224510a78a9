/-!
# Node types

The closed set of node types an interface is built from.  Each type has a
stable name in lower case, used in node identifiers, registries and stored
documents.  The order of the constructors is the order of the types.
-/

namespace MarkupForest

inductive NodeType where
  -- Containers
  | container
  | pageSection
  | card
  | row
  | column
  | grid
  | form
  | navbar
  | footer
  | modal
  | tabs
  | accordion
  -- Text
  | heading
  | text
  | label
  | link
  | code
  | blockquote
  -- Controls
  | button
  | input
  | textarea
  | select
  | checkbox
  | radio
  | switch
  | slider
  -- Media
  | image
  | video
  | avatar
  | icon
  -- Feedback and data
  | badge
  | alert
  | divider
  | progress
  | list
  | table
  deriving DecidableEq, Inhabited

namespace NodeType

def all : List NodeType :=
  [ container, pageSection, card, row, column, grid, form, navbar, footer,
    modal, tabs, accordion,
    heading, text, label, link, code, blockquote,
    button, input, textarea, select, checkbox, radio, switch, slider,
    image, video, avatar, icon,
    badge, alert, divider, progress, list, table ]

def name : NodeType → String
  | container => "container"
  | pageSection => "section"
  | card => "card"
  | row => "row"
  | column => "column"
  | grid => "grid"
  | form => "form"
  | navbar => "navbar"
  | footer => "footer"
  | modal => "modal"
  | tabs => "tabs"
  | accordion => "accordion"
  | heading => "heading"
  | text => "text"
  | label => "label"
  | link => "link"
  | code => "code"
  | blockquote => "blockquote"
  | button => "button"
  | input => "input"
  | textarea => "textarea"
  | select => "select"
  | checkbox => "checkbox"
  | radio => "radio"
  | switch => "switch"
  | slider => "slider"
  | image => "image"
  | video => "video"
  | avatar => "avatar"
  | icon => "icon"
  | badge => "badge"
  | alert => "alert"
  | divider => "divider"
  | progress => "progress"
  | list => "list"
  | table => "table"

def ofName? (s : String) : Option NodeType :=
  all.find? fun type => type.name == s

def index (type : NodeType) : Nat := all.idxOf type

/-- The name with its first letter in upper case; names are ASCII. -/
def title (type : NodeType) : String :=
  type.name.capitalize

theorem mem_all (type : NodeType) : type ∈ all := by
  cases type <;> decide

theorem ofName?_name (type : NodeType) : ofName? type.name = some type := by
  cases type <;> rfl

theorem name_injective {s t : NodeType} (h : s.name = t.name) : s = t := by
  have hs := ofName?_name s
  rw [h, ofName?_name t] at hs
  exact (Option.some.inj hs).symm

end NodeType

end MarkupForest
