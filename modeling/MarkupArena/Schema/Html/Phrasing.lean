import MarkupArena.Schema.Html.Values
/-!
Markup of words within a line of text, and edits.
-/
namespace MarkupArena.Html

def phrasingEntries : List Entry := [
  { tagName := "a"
    structName := "Anchor"
    attributes := [
      ⟨"href", "URL the hyperlink points to", .string⟩,
      ⟨"target", "Browsing context for navigation", .enumerable browsingTargets⟩,
      ⟨"download", "Download the resource instead of navigating", .string⟩,
      ⟨"ping", "URLs to ping on follow", .string⟩,
      ⟨"rel", "Relationship of the linked resource", .string⟩,
      ⟨"hreflang", "Language of the linked resource", .string⟩,
      ⟨"type", "Type hint for the resource", .string⟩,
      ⟨"referrerpolicy", "Referrer policy for fetches", .enumerable referrerPolicies⟩]
    contentCategories := ["flow", "phrasing", "interactive", "palpable"]
    permittedContent := ["flow"]
    excludedContent := ["interactive"]
    permittedChildElements := ["Text"] },
  { tagName := "em"
    structName := "Emphasis"
    contentCategories := ["flow", "phrasing", "palpable"]
    permittedContent := ["phrasing"]
    permittedChildElements := ["Text"] },
  { tagName := "strong"
    structName := "Strong"
    contentCategories := ["flow", "phrasing", "palpable"]
    permittedContent := ["phrasing"]
    permittedChildElements := ["Text"] },
  { tagName := "small"
    structName := "SideComment"
    contentCategories := ["flow", "phrasing", "palpable"]
    permittedContent := ["phrasing"]
    permittedChildElements := ["Text"] },
  { tagName := "s"
    structName := "StrikeThrough"
    contentCategories := ["flow", "phrasing", "palpable"]
    permittedContent := ["phrasing"]
    permittedChildElements := ["Text"] },
  { tagName := "cite"
    structName := "Cite"
    contentCategories := ["flow", "phrasing", "palpable"]
    permittedContent := ["phrasing"]
    permittedChildElements := ["Text"] },
  { tagName := "dfn"
    structName := "Definition"
    contentCategories := ["flow", "phrasing", "palpable"]
    permittedContent := ["phrasing"]
    permittedChildElements := ["Text"] },
  { tagName := "code"
    structName := "Code"
    contentCategories := ["flow", "phrasing", "palpable"]
    permittedContent := ["phrasing"]
    permittedChildElements := ["Text"] },
  { tagName := "var"
    structName := "Variable"
    contentCategories := ["flow", "phrasing", "palpable"]
    permittedContent := ["phrasing"]
    permittedChildElements := ["Text"] },
  { tagName := "samp"
    structName := "SampleOutput"
    contentCategories := ["flow", "phrasing", "palpable"]
    permittedContent := ["phrasing"]
    permittedChildElements := ["Text"] },
  { tagName := "kbd"
    structName := "KeyboardInput"
    contentCategories := ["flow", "phrasing", "palpable"]
    permittedContent := ["phrasing"]
    permittedChildElements := ["Text"] },
  { tagName := "sub"
    structName := "SubScript"
    contentCategories := ["flow", "phrasing", "palpable"]
    permittedContent := ["phrasing"]
    permittedChildElements := ["Text"] },
  { tagName := "sup"
    structName := "SuperScript"
    contentCategories := ["flow", "phrasing", "palpable"]
    permittedContent := ["phrasing"]
    permittedChildElements := ["Text"] },
  { tagName := "i"
    structName := "Italic"
    contentCategories := ["flow", "phrasing", "palpable"]
    permittedContent := ["phrasing"]
    permittedChildElements := ["Text"] },
  { tagName := "b"
    structName := "Bold"
    contentCategories := ["flow", "phrasing", "palpable"]
    permittedContent := ["phrasing"]
    permittedChildElements := ["Text"] },
  { tagName := "u"
    structName := "Underline"
    contentCategories := ["flow", "phrasing", "palpable"]
    permittedContent := ["phrasing"]
    permittedChildElements := ["Text"] },
  { tagName := "mark"
    structName := "MarkText"
    contentCategories := ["flow", "phrasing", "palpable"]
    permittedContent := ["phrasing"]
    permittedChildElements := ["Text"] },
  { tagName := "span"
    structName := "Span"
    contentCategories := ["flow", "phrasing", "palpable"]
    permittedContent := ["phrasing"]
    permittedChildElements := ["Text"] },
  { tagName := "bdi"
    structName := "BidirectionalIsolate"
    contentCategories := ["flow", "phrasing", "palpable"]
    permittedContent := ["phrasing"]
    permittedChildElements := ["Text"] },
  { tagName := "q"
    structName := "Quotation"
    attributes := [
      ⟨"cite", "Link to the source of the quotation or edit", .string⟩]
    contentCategories := ["flow", "phrasing", "palpable"]
    permittedContent := ["phrasing"]
    permittedChildElements := ["Text"] },
  { tagName := "abbr"
    structName := "Abbreviation"
    contentCategories := ["flow", "phrasing", "palpable"]
    permittedContent := ["phrasing"]
    permittedChildElements := ["Text"] },
  { tagName := "br"
    structName := "LineBreak"
    hasClosingTag := false
    contentCategories := ["flow", "phrasing"] },
  { tagName := "wbr"
    structName := "LineBreakOpportunity"
    hasClosingTag := false
    contentCategories := ["flow", "phrasing"] },
  { tagName := "time"
    structName := "Time"
    attributes := [
      ⟨"datetime", "Machine-readable date/time", .string⟩]
    contentCategories := ["flow", "phrasing", "palpable"]
    permittedContent := ["phrasing"]
    permittedChildElements := ["Text"] },
  { tagName := "data"
    structName := "Data"
    attributes := [
      ⟨"value", "Value of the element", .string⟩]
    contentCategories := ["flow", "phrasing", "palpable"]
    permittedContent := ["phrasing"]
    permittedChildElements := ["Text"] },
  { tagName := "ins"
    structName := "Insertion"
    attributes := [
      ⟨"cite", "Link to the source of the quotation or edit", .string⟩,
      ⟨"datetime", "Machine-readable date/time", .string⟩]
    contentCategories := ["flow", "phrasing", "palpable"]
    permittedContent := ["flow"]
    permittedChildElements := ["Text"] },
  { tagName := "del"
    structName := "Deletion"
    attributes := [
      ⟨"cite", "Link to the source of the quotation or edit", .string⟩,
      ⟨"datetime", "Machine-readable date/time", .string⟩]
    contentCategories := ["flow", "phrasing"]
    permittedContent := ["flow"]
    permittedChildElements := ["Text"] }]

end MarkupArena.Html
