import ComponentCatalog.Document
import ComponentCatalog.Json.Value

/-!
# Documents as JSON

The fields of a document are written in a fixed order. A text that is missing is
left out, and so is an empty one where nothing is meant by it: the origin of a
property, the base class, the description. The default value of a property is
written even if it is empty, because an empty default is a default.

An alias is written like its source, under its own name and with its own
description, which is always there.
-/

namespace ComponentCatalog

/-- A field that is written only if its text is neither missing nor empty. -/
def Json.unlessEmpty (key : String) (text? : Option String) : List (String × Json) :=
  match text? with
  | some s => if s.isEmpty then [] else [(key, .text s)]
  | none => []

/-- A property as JSON. -/
def Property.toJson (p : Property) : Json :=
  .ofFields ([("name", .text p.name), ("type", .text p.type), ("optional", .bool p.optional)] ++
    (match p.default? with
      | some d => [("defaultValue", Json.text d)]
      | none => []) ++
    [("inherited", .bool p.inherited)] ++ Json.unlessEmpty "inheritedFrom" p.origin?)

/-- A parameter as JSON. -/
def Parameter.toJson (p : Parameter) : Json :=
  .ofFields [("name", .text p.name), ("type", .text p.type), ("optional", .bool p.optional)]

/-- A method as JSON. -/
def Method.toJson (m : Method) : Json :=
  .ofFields [("name", .text m.name), ("parameters", .array (m.parameters.map Parameter.toJson)),
    ("returnType", .text m.returnType)]

/-- An event as JSON. -/
def Event.toJson (e : Event) : Json :=
  .ofFields [("name", .text e.name), ("type", .text e.type), ("parameters", .text e.parameters)]

/-- A style class as JSON. -/
def Style.toJson (s : Style) : Json :=
  .ofFields ([("className", .text s.className)] ++ Json.unlessEmpty "description" s.description?)

namespace Component

mutual

/-- A component's document as JSON. -/
def toJson : Component → Json
  | ⟨name, path, category, props, methods, events, styles, base?, children, description?⟩ =>
    .ofFields (
      [("componentName", .text name), ("componentPath", .text path), ("category", .text category),
        ("props", .array (props.map Property.toJson)),
        ("methods", .array (methods.map Method.toJson)),
        ("events", .array (events.map Event.toJson)),
        ("styles", .array (styles.map Style.toJson))] ++
      Json.unlessEmpty "baseClass" base? ++
      (if children.isEmpty then [] else [("children", Json.array (allToJson children))]) ++
      Json.unlessEmpty "description" description?)

/-- Several components' documents as JSON. -/
def allToJson : List Component → List Json
  | [] => []
  | c :: cs => toJson c :: allToJson cs

end

end Component

/-- A JSON object with one field replaced, or added at the end. -/
def Json.withField (j : Json) (key : String) (v : Json) : Json :=
  match j with
  | .object fields => .object (Json.putField (.ofString key) v fields)
  | j => j

/-- A document as JSON. -/
def Document.toJson : Document → Json
  | .component c => c.toJson
  | .renamed name source description =>
    (source.toJson.withField "componentName" (.text name)).withField "description"
      (.text description)

end ComponentCatalog
