import MarkupArena.Schema.Basic
import MarkupArena.Text.Blank
/-!
Checks of attributes, children and text against a schema, and the reasons for which they refuse.
-/
namespace MarkupArena

/-- Why markup is refused. The lists name what would have been accepted. -/
inductive Rejection where
  | unknownTag (tag : String)
  | disallowedAttribute (tag name : String) (allowed : List String)
  | disallowedChild (tag child : String) (allowed : List String)
  | duplicateAttribute (tag name : String)
  | invalidAttributeName (tag name : String)
  deriving DecidableEq, Repr

namespace Rejection

def code : Rejection → String
  | unknownTag .. => "UNKNOWN_TAG"
  | disallowedAttribute .. => "DISALLOWED_ATTRIBUTE"
  | disallowedChild .. => "DISALLOWED_CHILD"
  | duplicateAttribute .. => "DUPLICATE_ATTRIBUTE"
  | invalidAttributeName .. => "INVALID_ATTRIBUTE_NAME"

def tag : Rejection → String
  | unknownTag tag => tag
  | disallowedAttribute tag .. => tag
  | disallowedChild tag .. => tag
  | duplicateAttribute tag _ => tag
  | invalidAttributeName tag _ => tag

def attribute? : Rejection → Option String
  | disallowedAttribute _ name _ => some name
  | duplicateAttribute _ name => some name
  | invalidAttributeName _ name => some name
  | _ => none

def child? : Rejection → Option String
  | disallowedChild _ child _ => some child
  | _ => none

def allowed? : Rejection → Option (List String)
  | disallowedAttribute _ _ allowed => some allowed
  | disallowedChild _ _ allowed => some allowed
  | _ => none

end Rejection

namespace Schema

def lookup (schema : Schema) (tag : String) : Except Rejection TagInfo :=
  match schema.find? tag with
  | some info => .ok info
  | none => .error (.unknownTag tag)

/-- Refuses unless a condition holds of the tag's rules. The refusal is worked out only then. -/
def require (schema : Schema) (tag : String) (accepts : TagInfo → Bool)
    (refusal : Unit → Rejection) : Except Rejection Unit := do
  let info ← schema.lookup tag
  if accepts info then .ok () else .error (refusal ())

def checkAttribute (schema : Schema) (tag name : String) : Except Rejection Unit :=
  schema.require tag
    (fun info => info.hasAttribute name ||
      (info.hasGlobalAttributes && schema.isGlobalAttribute name))
    fun _ => .disallowedAttribute tag name (schema.allowedAttributes tag)

def refuseChild (schema : Schema) (tag child : String) : Rejection :=
  .disallowedChild tag child (schema.allowedChildren tag)

def checkChild (schema : Schema) (tag child : String) : Except Rejection Unit :=
  schema.require tag (fun info => info.permitsChild child)
    fun _ => schema.refuseChild tag child

/-- The categories that a tag permits and does not exclude. -/
def openCategories (info : TagInfo) : List String :=
  info.permittedContent.filter fun category => !info.excludedContent.contains category

/-- Checks a category for an element whose tag is not known yet. -/
def checkCategory (schema : Schema) (tag category : String) : Except Rejection Unit := do
  let info ← schema.lookup tag
  if (openCategories info).contains category then .ok ()
  else .error (.disallowedChild tag category (Text.sorted (openCategories info)))

/-- White space may stand in every tag, other text only where text is permitted. -/
def checkText (schema : Schema) (tag text : String) : Except Rejection Unit :=
  schema.require tag (fun info => info.allowsText || Text.onlyMarkupSpace text)
    fun _ => schema.refuseChild tag textChild

end Schema

end MarkupArena
