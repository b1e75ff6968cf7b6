import MarkupArena.Schema.Html.Values
/-!
Tables and their parts.
-/
namespace MarkupArena.Html

def tableEntries : List Entry := [
  { tagName := "table"
    structName := "Table"
    contentCategories := ["flow", "palpable"]
    permittedChildElements := [
      "Caption", "TableColumnGroup", "TableHead", "TableBody", "TableFoot", "TableRow", "Script",
      "Template"] },
  { tagName := "caption"
    structName := "Caption"
    permittedContent := ["flow"]
    permittedChildElements := ["Text"] },
  { tagName := "colgroup"
    structName := "TableColumnGroup"
    attributes := [
      ⟨"span", "Number of columns spanned", .integer⟩]
    permittedChildElements := ["TableColumn", "Template"] },
  { tagName := "col"
    structName := "TableColumn"
    hasClosingTag := false
    attributes := [
      ⟨"span", "Number of columns spanned", .integer⟩] },
  { tagName := "thead"
    structName := "TableHead"
    permittedChildElements := ["TableRow", "Script", "Template"] },
  { tagName := "tbody"
    structName := "TableBody"
    permittedChildElements := ["TableRow", "Script", "Template"] },
  { tagName := "tfoot"
    structName := "TableFoot"
    permittedChildElements := ["TableRow", "Script", "Template"] },
  { tagName := "tr"
    structName := "TableRow"
    permittedChildElements := ["TableCell", "TableHeader", "Script", "Template"] },
  { tagName := "td"
    structName := "TableCell"
    attributes := [
      ⟨"colspan", "Number of columns the cell spans", .integer⟩,
      ⟨"rowspan", "Number of rows the cell spans", .integer⟩,
      ⟨"headers", "Header cells for this cell", .string⟩]
    permittedContent := ["flow"]
    permittedChildElements := ["Text"] },
  { tagName := "th"
    structName := "TableHeader"
    attributes := [
      ⟨"colspan", "Number of columns the cell spans", .integer⟩,
      ⟨"rowspan", "Number of rows the cell spans", .integer⟩,
      ⟨"headers", "Header cells for this cell", .string⟩,
      ⟨"scope", "Cells the header applies to", .enumerable ["row", "col", "rowgroup", "colgroup"]⟩,
      ⟨"abbr", "Alternative label", .string⟩]
    permittedContent := ["flow"]
    permittedChildElements := ["Text"] }]

end MarkupArena.Html
