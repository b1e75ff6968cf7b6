import MarkupArena.Text.Blank
/-!
Which names an attribute may have. A name is refused when it is empty or holds a character that
would end it in markup: a blank, a quote, `>`, `/`, `=` or a control.
-/
namespace MarkupArena.Text

def isControl (c : Char) : Bool := c.toNat ≤ 0x1F || (0x7F ≤ c.toNat && c.toNat ≤ 0x9F)

def isNameChar (c : Char) : Bool :=
  !(isBlank c || isControl c || c == '"' || c == '\'' || c == '>' || c == '/' || c == '=')

def isAttributeName (name : String) : Bool :=
  !name.toList.isEmpty && name.toList.all isNameChar

/-- Characters that may follow a global attribute prefix. -/
def isSuffixChar (c : Char) : Bool :=
  ('a' ≤ c && c ≤ 'z') || ('0' ≤ c && c ≤ '9') || c == '_' || c == '.' || c == ':' || c == '-'

/-- Whether a name is `lead` followed by at least one suffix character. -/
def extendsLead (lead name : String) : Bool :=
  lead.toList.isPrefixOf name.toList &&
    let suffix := name.toList.drop lead.toList.length
    !suffix.isEmpty && suffix.all isSuffixChar

end MarkupArena.Text
