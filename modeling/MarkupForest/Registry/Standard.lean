import MarkupForest.Registry

/-!
# The standard registry

Descriptors for every node type, grouped by purpose.  A type without a strategy
for some profile is rendered generically under it.
-/

namespace MarkupForest

namespace Registry

def libraryModule (name : String) : String :=
  "@/components/ui/" ++ name

/-- Types that own children. -/
def containers : List Descriptor :=
  [ Descriptor.basic .container "div"
      |>.asContainer
      |>.withStyle
        [ ("display", "flex"),
          ("flex-direction", "column"),
          ("gap", "16px"),
          ("padding", "16px") ]
      |>.withClasses "flex flex-col gap-4 p-4"
      |>.withElement "div"
      |>.withSemantics,
    Descriptor.basic .pageSection "section"
      |>.asContainer
      |>.withStyle [("padding", "48px 24px")]
      |>.withClasses "py-12 px-6"
      |>.withElement "section"
      |>.withSemantics,
    Descriptor.basic .card "div"
      |>.asContainer
      |>.withStyle
        [ ("border", "1px solid #e5e7eb"),
          ("border-radius", "8px"),
          ("padding", "24px"),
          ("box-shadow", "0 1px 2px rgba(0, 0, 0, 0.05)") ]
      |>.withClasses "rounded-lg border bg-white p-6 shadow-sm"
      |>.withComponent "Card" (libraryModule "card")
      |>.withSemantics,
    Descriptor.basic .row "div"
      |>.asContainer
      |>.withStyle
        [ ("display", "flex"),
          ("flex-direction", "row"),
          ("gap", "16px"),
          ("align-items", "center") ]
      |>.withClasses "flex flex-row items-center gap-4"
      |>.withElement "div"
      |>.withSemantics,
    Descriptor.basic .column "div"
      |>.asContainer
      |>.withStyle [("display", "flex"), ("flex-direction", "column"), ("gap", "8px")]
      |>.withClasses "flex flex-col gap-2"
      |>.withElement "div"
      |>.withSemantics,
    Descriptor.basic .grid "div"
      |>.asContainer
      |>.withDefault "columns" (.number (.ofNat 2))
      |>.withStyle [("display", "grid"), ("gap", "16px")]
      |>.withClasses "grid gap-4"
      |>.withElement "div"
      |>.withSemantics,
    Descriptor.basic .form "form"
      |>.asContainer
      |>.withStyle [("display", "flex"), ("flex-direction", "column"), ("gap", "12px")]
      |>.withClasses "flex flex-col gap-3"
      |>.withElement "form"
      |>.withSemantics,
    Descriptor.basic .navbar "nav"
      |>.asContainer
      |>.withLabel "Navigation bar"
      |>.withStyle
        [ ("display", "flex"),
          ("justify-content", "space-between"),
          ("align-items", "center"),
          ("padding", "16px 24px"),
          ("border-bottom", "1px solid #e5e7eb") ]
      |>.withClasses "flex items-center justify-between border-b px-6 py-4"
      |>.withElement "nav"
      |>.withSemantics,
    Descriptor.basic .footer "footer"
      |>.asContainer
      |>.withStyle
        [ ("padding", "24px"),
          ("border-top", "1px solid #e5e7eb"),
          ("color", "#6b7280") ]
      |>.withClasses "border-t p-6 text-gray-500"
      |>.withElement "footer"
      |>.withSemantics,
    Descriptor.basic .modal "dialog"
      |>.asContainer
      |>.withDefault "open" (.flag true)
      |>.withStyle
        [ ("border", "none"),
          ("border-radius", "12px"),
          ("padding", "24px"),
          ("max-width", "480px") ]
      |>.withClasses "rounded-xl p-6 max-w-md shadow-lg"
      |>.withComponent "Dialog" (libraryModule "dialog")
      |>.withSemantics,
    Descriptor.basic .tabs "div"
      |>.asContainer
      |>.withStyle [("display", "flex"), ("flex-direction", "column"), ("gap", "8px")]
      |>.withClasses "flex flex-col gap-2"
      |>.withComponent "Tabs" (libraryModule "tabs")
      |>.withSemantics,
    Descriptor.basic .accordion "div"
      |>.asContainer
      |>.withStyle [("border", "1px solid #e5e7eb"), ("border-radius", "8px")]
      |>.withClasses "divide-y rounded-lg border"
      |>.withComponent "Accordion" (libraryModule "accordion")
      |>.withSemantics ]

/-- Types that show a text. -/
def texts : List Descriptor :=
  [ Descriptor.basic .heading "h2"
      |>.withDefault "text" (.text "Heading")
      |>.withDefault "level" (.number (.ofNat 2))
      |>.withStyle [("font-size", "2rem"), ("font-weight", "700"), ("margin", "0")]
      |>.withClasses "font-bold tracking-tight"
      |>.withElement "h2"
      |>.withSemantics,
    Descriptor.basic .text "p"
      |>.withDefault "text" (.text "Lorem ipsum dolor sit amet.")
      |>.withStyle [("font-size", "1rem"), ("line-height", "1.5"), ("margin", "0")]
      |>.withClasses "text-base leading-relaxed"
      |>.withElement "p"
      |>.withSemantics,
    Descriptor.basic .label "label"
      |>.withDefault "text" (.text "Label")
      |>.withStyle [("font-size", "0.875rem"), ("font-weight", "500")]
      |>.withClasses "text-sm font-medium"
      |>.withComponent "Label" (libraryModule "label")
      |>.withSemantics,
    Descriptor.basic .link "a"
      |>.withDefault "text" (.text "Link")
      |>.withDefault "href" (.text "#")
      |>.withStyle [("color", "#2563eb"), ("text-decoration", "underline")]
      |>.withClasses "text-blue-600 underline hover:text-blue-800"
      |>.withElement "a"
      |>.withSemantics,
    Descriptor.basic .code "pre"
      |>.withDefault "text" (.text "console.log('hello');")
      |>.withStyle
        [ ("font-family", "monospace"),
          ("background", "#f3f4f6"),
          ("padding", "12px"),
          ("border-radius", "6px") ]
      |>.withClasses "rounded-md bg-gray-100 p-3 font-mono text-sm"
      |>.withSemantics,
    Descriptor.basic .blockquote "blockquote"
      |>.withDefault "text" (.text "A well-chosen quote.")
      |>.withStyle
        [ ("border-left", "4px solid #d1d5db"),
          ("padding-left", "16px"),
          ("font-style", "italic") ]
      |>.withClasses "border-l-4 pl-4 italic"
      |>.withSemantics ]

/-- Types that take input. -/
def controls : List Descriptor :=
  [ Descriptor.basic .button "button"
      |>.withDefault "text" (.text "Button")
      |>.withDefault "variant" (.text "primary")
      |>.withDefault "size" (.text "md")
      |>.withDefault "disabled" (.flag false)
      |>.withStyle
        [ ("padding", "8px 16px"),
          ("border-radius", "6px"),
          ("border", "none"),
          ("cursor", "pointer") ]
      |>.withClasses "inline-flex items-center justify-center rounded-md font-medium"
      |>.withComponent "Button" (libraryModule "button")
      |>.withSemantics,
    Descriptor.basic .input "input"
      |>.withShape .selfClosing
      |>.withDefault "type" (.text "text")
      |>.withDefault "placeholder" (.text "Enter text")
      |>.withDefault "disabled" (.flag false)
      |>.withStyle
        [ ("padding", "8px 12px"),
          ("border", "1px solid #d1d5db"),
          ("border-radius", "6px") ]
      |>.withClasses "rounded-md border border-gray-300 px-3 py-2"
      |>.withComponent "Input" (libraryModule "input")
      |>.withSemantics,
    Descriptor.basic .textarea "textarea"
      |>.withLabel "Text area"
      |>.withDefault "placeholder" (.text "Type your message")
      |>.withDefault "rows" (.number (.ofNat 4))
      |>.withStyle
        [ ("padding", "8px 12px"),
          ("border", "1px solid #d1d5db"),
          ("border-radius", "6px") ]
      |>.withClasses "rounded-md border border-gray-300 px-3 py-2"
      |>.withComponent "Textarea" (libraryModule "textarea")
      |>.withSemantics,
    Descriptor.basic .select "select"
      |>.withShape (.items "options" "option")
      |>.withDefault "options" (.list ["Option 1", "Option 2", "Option 3"])
      |>.withStyle
        [ ("padding", "8px 12px"),
          ("border", "1px solid #d1d5db"),
          ("border-radius", "6px") ]
      |>.withClasses "rounded-md border border-gray-300 px-3 py-2"
      |>.withSemantics,
    Descriptor.basic .checkbox "input"
      |>.withShape .selfClosing
      |>.withDefault "text" (.text "Checkbox")
      |>.withDefault "checked" (.flag false)
      |>.withStyle [("width", "16px"), ("height", "16px")]
      |>.withClasses "h-4 w-4 rounded border-gray-300"
      |>.withComponent "Checkbox" (libraryModule "checkbox")
      |>.withSemantics,
    Descriptor.basic .radio "input"
      |>.withLabel "Radio button"
      |>.withShape .selfClosing
      |>.withDefault "text" (.text "Option")
      |>.withDefault "name" (.text "choice")
      |>.withDefault "checked" (.flag false)
      |>.withStyle [("width", "16px"), ("height", "16px")]
      |>.withClasses "h-4 w-4 border-gray-300"
      |>.withComponent "RadioGroupItem" (libraryModule "radio-group")
      |>.withSemantics,
    Descriptor.basic .switch "input"
      |>.withShape .selfClosing
      |>.withDefault "text" (.text "Toggle")
      |>.withDefault "checked" (.flag false)
      |>.withStyle [("width", "36px"), ("height", "20px")]
      |>.withClasses "h-5 w-9 rounded-full"
      |>.withComponent "Switch" (libraryModule "switch")
      |>.withSemantics,
    Descriptor.basic .slider "input"
      |>.withShape .selfClosing
      |>.withDefault "min" (.number (.ofNat 0))
      |>.withDefault "max" (.number (.ofNat 100))
      |>.withDefault "step" (.number (.ofNat 1))
      |>.withDefault "value" (.number (.ofNat 50))
      |>.withStyle [("width", "100%")]
      |>.withClasses "w-full accent-blue-600"
      |>.withSemantics ]

/-- Types that show pictures, films and symbols. -/
def media : List Descriptor :=
  [ Descriptor.basic .image "img"
      |>.withShape .selfClosing
      |>.withDefault "src" (.text "https://placehold.co/600x400")
      |>.withDefault "alt" (.text "Placeholder image")
      |>.withStyle [("max-width", "100%"), ("height", "auto"), ("border-radius", "8px")]
      |>.withClasses "h-auto max-w-full rounded-lg"
      |>.withElement "img"
      |>.withSemantics,
    Descriptor.basic .video "video"
      |>.withShape .selfClosing
      |>.withDefault "src" (.text "")
      |>.withDefault "controls" (.flag true)
      |>.withStyle [("max-width", "100%"), ("border-radius", "8px")]
      |>.withSemantics,
    Descriptor.basic .avatar "img"
      |>.withShape .selfClosing
      |>.withDefault "src" (.text "https://placehold.co/64x64")
      |>.withDefault "alt" (.text "Avatar")
      |>.withStyle
        [ ("width", "40px"),
          ("height", "40px"),
          ("border-radius", "9999px"),
          ("object-fit", "cover") ]
      |>.withClasses "h-10 w-10 rounded-full object-cover"
      |>.withComponent "Avatar" (libraryModule "avatar")
      |>.withSemantics,
    Descriptor.basic .icon "span"
      |>.withDefault "name" (.text "star")
      |>.withDefault "text" (.text "\u2605")
      |>.withClasses "inline-block h-5 w-5"
      |>.withSemantics ]

/-- Types that report a state or present data. -/
def displays : List Descriptor :=
  [ Descriptor.basic .badge "span"
      |>.withDefault "text" (.text "Badge")
      |>.withDefault "variant" (.text "default")
      |>.withStyle
        [ ("display", "inline-block"),
          ("padding", "2px 10px"),
          ("border-radius", "9999px"),
          ("font-size", "0.75rem"),
          ("font-weight", "600") ]
      |>.withClasses "inline-flex items-center rounded-full px-2.5 py-0.5 text-xs font-semibold"
      |>.withComponent "Badge" (libraryModule "badge")
      |>.withSemantics,
    Descriptor.basic .alert "div"
      |>.withDefault "text" (.text "Heads up! Something needs your attention.")
      |>.withDefault "variant" (.text "info")
      |>.withStyle
        [ ("padding", "16px"),
          ("border-radius", "8px"),
          ("border", "1px solid #bfdbfe"),
          ("background", "#eff6ff") ]
      |>.withClasses "rounded-lg border p-4"
      |>.withComponent "Alert" (libraryModule "alert")
      |>.withSemantics,
    Descriptor.basic .divider "hr"
      |>.withShape .selfClosing
      |>.withStyle
        [ ("border", "none"),
          ("border-top", "1px solid #e5e7eb"),
          ("margin", "16px 0") ]
      |>.withClasses "my-4 border-gray-200"
      |>.withComponent "Separator" (libraryModule "separator")
      |>.withSemantics,
    Descriptor.basic .progress "progress"
      |>.withLabel "Progress bar"
      |>.withShape .selfClosing
      |>.withDefault "value" (.number (.ofNat 60))
      |>.withDefault "max" (.number (.ofNat 100))
      |>.withStyle [("width", "100%"), ("height", "8px")]
      |>.withClasses "h-2 w-full"
      |>.withComponent "Progress" (libraryModule "progress")
      |>.withSemantics,
    Descriptor.basic .list "ul"
      |>.withShape (.items "items" "li")
      |>.withDefault "items" (.list ["First item", "Second item", "Third item"])
      |>.withDefault "ordered" (.flag false)
      |>.withStyle [("padding-left", "24px"), ("margin", "0")]
      |>.withClasses "list-inside space-y-1"
      |>.withSemantics,
    Descriptor.basic .table "table"
      |>.withShape (.table "data")
      |>.withDefault "data" (.table
        { headers := ["Name", "Email", "Role"]
          rows :=
            [["Ada Lovelace", "ada@example.com", "Admin"],
              ["Alan Turing", "alan@example.com", "Editor"]] })
      |>.withStyle [("width", "100%"), ("border-collapse", "collapse")]
      |>.withClasses "w-full border-collapse text-left text-sm"
      |>.withSemantics ]

def standard : Registry :=
  Registry.empty.registerAll (containers ++ texts ++ controls ++ media ++ displays)

theorem contains_standard (type : NodeType) : standard.contains type = true := by
  cases type <;> rfl

end Registry

end MarkupForest
