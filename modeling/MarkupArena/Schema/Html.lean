import MarkupArena.Schema.Html.Document
import MarkupArena.Schema.Html.Sections
import MarkupArena.Schema.Html.Grouping
import MarkupArena.Schema.Html.Phrasing
import MarkupArena.Schema.Html.Embedded
import MarkupArena.Schema.Html.Tables
import MarkupArena.Schema.Html.Forms
/-!
The bundled schema: the tags of HTML with their attributes and content rules.
-/
namespace MarkupArena

namespace Html

/-- Attributes that every tag takes. -/
def globalAttributes : List String := [
  "accesskey", "autocapitalize", "autofocus", "class", "contenteditable", "dir", "draggable",
  "enterkeyhint", "exportparts", "hidden", "id", "inert", "inputmode", "is", "itemid", "itemprop",
  "itemref", "itemscope", "itemtype", "lang", "nonce", "part", "popover", "role", "slot",
  "spellcheck", "style", "tabindex", "title", "translate", "virtualkeyboardpolicy"]

/-- Attributes that hold event handlers, also taken by every tag. -/
def eventAttributes : List String := [
  "onabort", "onautocomplete", "onautocompleteerror", "onblur", "oncancel", "oncanplay",
  "oncanplaythrough", "onchange", "onclick", "onclose", "oncontextmenu", "oncuechange",
  "ondblclick", "ondrag", "ondragend", "ondragenter", "ondragleave", "ondragover", "ondragstart",
  "ondrop", "ondurationchange", "onemptied", "onended", "onerror", "onfocus", "oninput",
  "oninvalid", "onkeydown", "onkeypress", "onkeyup", "onload", "onloadeddata", "onloadedmetadata",
  "onloadstart", "onmousedown", "onmouseenter", "onmouseleave", "onmousemove", "onmouseout",
  "onmouseover", "onmouseup", "onmousewheel", "onpause", "onplay", "onplaying", "onprogress",
  "onratechange", "onreset", "onresize", "onscroll", "onseeked", "onseeking", "onselect", "onshow",
  "onsort", "onstalled", "onsubmit", "onsuspend", "ontimeupdate", "ontoggle", "onvolumechange",
  "onwaiting"]

def globalPrefixes : List String := ["aria-", "data-"]

def entries : List Entry :=
  documentEntries ++ sectionEntries ++ groupingEntries ++ phrasingEntries ++
    embeddedEntries ++ tableEntries ++ formEntries

/-- The rules for every tag. Each listed child is the structure name of an entry,
so no rule is left out. -/
def tags : List TagInfo := entries.filterMap fun entry => (Entry.resolve entries entry).toOption

end Html

/-- The schema of an arena that names no other. -/
def Schema.html : Schema :=
  ⟨Number.ofNat 1, Html.tags, Html.globalAttributes ++ Html.eventAttributes, Html.globalPrefixes⟩

end MarkupArena
