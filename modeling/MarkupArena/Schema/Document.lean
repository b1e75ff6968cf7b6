import MarkupArena.Json.Printer
import MarkupArena.Json.Reader
import MarkupArena.Schema.Entry
/-!
Reading a schema from a JSON document. The first fault met in reading order decides: entries one
after the other, then repeated tags, then listed children, then the global lists.
-/
namespace MarkupArena

/-- What is wrong with a schema document. -/
inductive Flaw where
  | notJson
  | notObject
  | elementsNotArray
  | entryNotObject
  | emptyText (key : String)
  | notBoolean (key : String)
  | notStringList (key : String)
  | attributesNotArray
  | attributeNotObject
  | unsupportedType (type : Option Json)
  | duplicateTag
  | unknownChild (structName : String)
  deriving Repr

/-- A fault and the tag whose entry has it, once that is known. -/
structure LoadFault where
  flaw : Flaw
  tag : Option String
  deriving Repr

namespace LoadFault

def code (fault : LoadFault) : String :=
  match fault.flaw with
  | .unknownChild _ => "UNKNOWN_CHILD_REFERENCE"
  | _ => "INVALID_SCHEMA_RECORD"

def detail (fault : LoadFault) : String :=
  match fault.flaw with
  | .notJson => "schema document is not valid JSON"
  | .notObject => "schema document must be an object"
  | .elementsNotArray => "\"elements\" must be an array"
  | .entryNotObject => "element entries must be objects"
  | .emptyText key => "\"" ++ key ++ "\" must be a non-empty string"
  | .notBoolean key => "\"" ++ key ++ "\" must be a boolean"
  | .notStringList key => "\"" ++ key ++ "\" must be an array of strings"
  | .attributesNotArray => "\"attributes\" must be an array"
  | .attributeNotObject => "attribute entries must be objects"
  | .unsupportedType (some type) => "unsupported attribute type " ++ Json.print type
  | .unsupportedType none => "unsupported attribute type undefined"
  | .duplicateTag => "duplicate element entry"
  | .unknownChild name => "no element is named " ++ name

def message (fault : LoadFault) : String :=
  let place := match fault.tag with
    | some tag => " tag=" ++ tag
    | none => ""
  "Schema load failed: " ++ fault.code ++ place ++ ": " ++ fault.detail

end LoadFault

namespace Document

def fail {α : Type} (flaw : Flaw) (tag : Option String) : Except LoadFault α := .error ⟨flaw, tag⟩

def readText (value : Json) (key : String) (tag : Option String) : Except LoadFault String :=
  match value.member? key with
  | some (.string text) => if text = "" then fail (.emptyText key) tag else .ok text
  | _ => fail (.emptyText key) tag

def readBool (value : Json) (key : String) (tag : Option String) : Except LoadFault Bool :=
  match value.member? key with
  | some (.bool b) => .ok b
  | _ => fail (.notBoolean key) tag

/-- The strings of a list, or `none` when some item is no string. -/
def strings? : List Json → Option (List String)
  | [] => some []
  | .string s :: rest => (strings? rest).map (s :: ·)
  | _ :: _ => none

/-- A list of strings, empty when the member is absent. -/
def readStrings (value : Json) (key : String) (tag : Option String) :
    Except LoadFault (List String) :=
  match value.member? key with
  | none => .ok []
  | some (.array items) =>
    match strings? items with
    | some list => .ok list
    | none => fail (.notStringList key) tag
  | some _ => fail (.notStringList key) tag

/-- An attribute type: one of four names, an identifier, or a list of values. -/
def readType (type : Option Json) (tag : Option String) : Except LoadFault AttributeType :=
  match type with
  | some (.string "bool") => .ok .bool
  | some (.string "string") => .ok .string
  | some (.string "integer") => .ok .integer
  | some (.string "float") => .ok .float
  | some (.object members) =>
    match Json.member? (.object members) "identifier", Json.member? (.object members) "enumerable"
      with
    | some (.string name), _ => .ok (.identifier name)
    | _, some _ =>
      (readStrings (.object members) "enumerable" tag).map AttributeType.enumerable
    | _, none => fail (.unsupportedType type) tag
  | _ => fail (.unsupportedType type) tag

def readDescription (value : Json) : String :=
  match value.member? "description" with
  | some (.string text) => text
  | _ => ""

def readAttribute (tag : Option String) : Json → Except LoadFault AttributeInfo
  | .object members => do
    let value := Json.object members
    let name ← readText value "name" tag
    let type ← readType (value.member? "type") tag
    return ⟨name, readDescription value, type⟩
  | _ => fail .attributeNotObject tag

def readAttributes (value : Json) (tag : Option String) : Except LoadFault (List AttributeInfo) :=
  match value.member? "attributes" with
  | none => .ok []
  | some (.array items) => items.mapM (readAttribute tag)
  | some _ => fail .attributesNotArray tag

def readEntry : Json → Except LoadFault Entry
  | .object members => do
    let value := Json.object members
    let tagName ← readText value "tagName" none
    let tag := some tagName
    let structName ← readText value "structName" tag
    let hasGlobalAttributes ← readBool value "hasGlobalAttributes" tag
    let hasClosingTag ← readBool value "hasClosingTag" tag
    let attributes ← readAttributes value tag
    let contentCategories ← readStrings value "contentCategories" tag
    let permittedContent ← readStrings value "permittedContent" tag
    let excludedContent ← readStrings value "excludedContent" tag
    let permittedChildElements ← readStrings value "permittedChildElements" tag
    return { tagName, structName, hasGlobalAttributes, hasClosingTag, attributes,
             contentCategories, permittedContent, excludedContent, permittedChildElements }
  | _ => fail .entryNotObject none

/-- Refuses the first entry whose tag an earlier one has. -/
def checkDistinct : List String → List Entry → Except LoadFault Unit
  | _, [] => .ok ()
  | seen, entry :: rest =>
    if seen.contains entry.tagName then fail .duplicateTag (some entry.tagName)
    else checkDistinct (entry.tagName :: seen) rest

def resolveEntry (entries : List Entry) (entry : Entry) : Except LoadFault TagInfo :=
  match Entry.resolve entries entry with
  | .ok info => .ok info
  | .error name => fail (.unknownChild name) (some entry.tagName)

def readVersion (document : Json) : Number :=
  match document.member? "version" with
  | some (.number n) => n
  | _ => .finite false 0 0

/-- The schema that a document describes. -/
def readSchema (document : Json) : Except LoadFault Schema := do
  let .object _ := document | fail .notObject none
  let some (.array items) := document.member? "elements" | fail .elementsNotArray none
  let entries ← items.mapM readEntry
  checkDistinct [] entries
  let tags ← entries.mapM (resolveEntry entries)
  let globals ← readStrings document "globalAttributes" none
  let handlers ← readStrings document "eventHandlerAttributes" none
  let leads ← readStrings document "globalAttributePrefixes" none
  return ⟨readVersion document, tags, globals ++ handlers, leads⟩

/-- The schema that a text describes as JSON. -/
def readSchemaText (text : String) : Except LoadFault Schema :=
  match Json.read? text with
  | some document => readSchema document
  | none => fail .notJson none

end Document

end MarkupArena
