import MarkupArena.Schema.Html.Values
/-!
Paragraphs, lists and other groups of flow content.
-/
namespace MarkupArena.Html

def groupingEntries : List Entry := [
  { tagName := "p"
    structName := "Paragraph"
    contentCategories := ["flow", "palpable"]
    permittedContent := ["phrasing"]
    permittedChildElements := ["Text"] },
  { tagName := "hr"
    structName := "ThematicBreak"
    hasClosingTag := false
    contentCategories := ["flow"] },
  { tagName := "pre"
    structName := "PreformattedText"
    contentCategories := ["flow", "palpable"]
    permittedContent := ["phrasing"]
    permittedChildElements := ["Text"] },
  { tagName := "blockquote"
    structName := "BlockQuote"
    attributes := [
      ⟨"cite", "Link to the source of the quotation or edit", .string⟩]
    contentCategories := ["flow", "palpable"]
    permittedContent := ["flow"]
    permittedChildElements := ["Text"] },
  { tagName := "ol"
    structName := "OrderedList"
    attributes := [
      ⟨"reversed", "Number the list backwards", .bool⟩,
      ⟨"start", "Starting value", .integer⟩,
      ⟨"type", "Kind of list marker", .enumerable ["1", "a", "A", "i", "I"]⟩]
    contentCategories := ["flow", "palpable"]
    permittedChildElements := ["ListItem", "Script", "Template"] },
  { tagName := "ul"
    structName := "UnorderedList"
    contentCategories := ["flow", "palpable"]
    permittedChildElements := ["ListItem", "Script", "Template"] },
  { tagName := "li"
    structName := "ListItem"
    attributes := [
      ⟨"value", "Ordinal value of the item", .integer⟩]
    permittedContent := ["flow"]
    permittedChildElements := ["Text"] },
  { tagName := "dl"
    structName := "DescriptionList"
    contentCategories := ["flow", "palpable"]
    permittedChildElements := ["Term", "Description", "Division", "Script", "Template"] },
  { tagName := "dt"
    structName := "Term"
    permittedContent := ["flow"]
    permittedChildElements := ["Text"] },
  { tagName := "dd"
    structName := "Description"
    permittedContent := ["flow"]
    permittedChildElements := ["Text"] },
  { tagName := "figure"
    structName := "Figure"
    contentCategories := ["flow", "palpable"]
    permittedContent := ["flow"]
    permittedChildElements := ["Text", "FigureCaption"] },
  { tagName := "figcaption"
    structName := "FigureCaption"
    permittedContent := ["flow"]
    permittedChildElements := ["Text"] },
  { tagName := "div"
    structName := "Division"
    contentCategories := ["flow", "palpable"]
    permittedContent := ["flow"]
    permittedChildElements := ["Text", "Term", "Description"] }]

end MarkupArena.Html
