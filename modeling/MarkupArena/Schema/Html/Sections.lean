import MarkupArena.Schema.Html.Values
/-!
Sections, headings and what surrounds them.
-/
namespace MarkupArena.Html

def sectionEntries : List Entry := [
  { tagName := "article"
    structName := "Article"
    contentCategories := ["flow", "sectioning", "palpable"]
    permittedContent := ["flow"]
    permittedChildElements := ["Text"] },
  { tagName := "section"
    structName := "Section"
    contentCategories := ["flow", "sectioning", "palpable"]
    permittedContent := ["flow"]
    permittedChildElements := ["Text"] },
  { tagName := "nav"
    structName := "Navigation"
    contentCategories := ["flow", "sectioning", "palpable"]
    permittedContent := ["flow"]
    permittedChildElements := ["Text"] },
  { tagName := "aside"
    structName := "Aside"
    contentCategories := ["flow", "sectioning", "palpable"]
    permittedContent := ["flow"]
    permittedChildElements := ["Text"] },
  { tagName := "header"
    structName := "Header"
    contentCategories := ["flow", "palpable"]
    permittedContent := ["flow"]
    permittedChildElements := ["Text"] },
  { tagName := "footer"
    structName := "Footer"
    contentCategories := ["flow", "palpable"]
    permittedContent := ["flow"]
    permittedChildElements := ["Text"] },
  { tagName := "main"
    structName := "Main"
    contentCategories := ["flow", "palpable"]
    permittedContent := ["flow"]
    permittedChildElements := ["Text"] },
  { tagName := "address"
    structName := "Address"
    contentCategories := ["flow", "palpable"]
    permittedContent := ["flow"]
    permittedChildElements := ["Text"] },
  { tagName := "h1"
    structName := "Heading1"
    contentCategories := ["flow", "heading", "palpable"]
    permittedContent := ["phrasing"]
    permittedChildElements := ["Text"] },
  { tagName := "h2"
    structName := "Heading2"
    contentCategories := ["flow", "heading", "palpable"]
    permittedContent := ["phrasing"]
    permittedChildElements := ["Text"] },
  { tagName := "h3"
    structName := "Heading3"
    contentCategories := ["flow", "heading", "palpable"]
    permittedContent := ["phrasing"]
    permittedChildElements := ["Text"] },
  { tagName := "h4"
    structName := "Heading4"
    contentCategories := ["flow", "heading", "palpable"]
    permittedContent := ["phrasing"]
    permittedChildElements := ["Text"] },
  { tagName := "h5"
    structName := "Heading5"
    contentCategories := ["flow", "heading", "palpable"]
    permittedContent := ["phrasing"]
    permittedChildElements := ["Text"] },
  { tagName := "h6"
    structName := "Heading6"
    contentCategories := ["flow", "heading", "palpable"]
    permittedContent := ["phrasing"]
    permittedChildElements := ["Text"] },
  { tagName := "hgroup"
    structName := "HeadingGroup"
    contentCategories := ["flow", "heading", "palpable"]
    permittedContent := ["heading"]
    permittedChildElements := ["Paragraph"] }]

end MarkupArena.Html
