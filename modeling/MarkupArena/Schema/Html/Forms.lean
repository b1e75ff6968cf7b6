import MarkupArena.Schema.Html.Values
/-!
Forms, their controls, and interactive elements.
-/
namespace MarkupArena.Html

def formEntries : List Entry := [
  { tagName := "form"
    structName := "Form"
    attributes := [
      ⟨"name", "Name of the element", .string⟩,
      ⟨"autocomplete", "Autofill hint", .string⟩,
      ⟨"target", "Browsing context for navigation", .enumerable browsingTargets⟩,
      ⟨"rel", "Relationship of the linked resource", .string⟩,
      ⟨"accept-charset", "Character encodings for submission", .string⟩,
      ⟨"action", "Submission URL", .string⟩,
      ⟨"enctype", "Form data encoding",
        .enumerable ["application/x-www-form-urlencoded", "multipart/form-data", "text/plain"]⟩,
      ⟨"method", "HTTP method", .enumerable ["get", "post", "dialog"]⟩,
      ⟨"novalidate", "Skip validation", .bool⟩]
    contentCategories := ["flow", "palpable"]
    permittedContent := ["flow"]
    permittedChildElements := ["Text"] },
  { tagName := "label"
    structName := "Label"
    attributes := [
      ⟨"for", "Associated control id", .string⟩]
    contentCategories := ["flow", "phrasing", "interactive", "palpable"]
    permittedContent := ["phrasing"]
    permittedChildElements := ["Text"] },
  { tagName := "input"
    structName := "Input"
    hasClosingTag := false
    attributes := [
      ⟨"name", "Name of the element", .string⟩,
      ⟨"value", "Value of the element", .string⟩,
      ⟨"disabled", "Whether the control is disabled", .bool⟩,
      ⟨"form", "Associates the element with a form", .string⟩,
      ⟨"autocomplete", "Autofill hint", .string⟩,
      ⟨"required", "Whether the control is required", .bool⟩,
      ⟨"readonly", "Whether the value is editable", .bool⟩,
      ⟨"placeholder", "User-visible hint", .string⟩,
      ⟨"maxlength", "Maximum length of value", .integer⟩,
      ⟨"minlength", "Minimum length of value", .integer⟩,
      ⟨"alt", "Replacement text", .string⟩,
      ⟨"src", "Address of the resource", .string⟩,
      ⟨"width", "Horizontal dimension", .integer⟩,
      ⟨"height", "Vertical dimension", .integer⟩,
      ⟨"type", "Kind of control", .string⟩,
      ⟨"checked", "Whether checked", .bool⟩,
      ⟨"min", "Minimum value", .string⟩,
      ⟨"max", "Maximum value", .string⟩,
      ⟨"step", "Granularity of values", .string⟩,
      ⟨"pattern", "Pattern the value must match", .string⟩,
      ⟨"size", "Size of the control", .integer⟩,
      ⟨"multiple", "Allow multiple values", .bool⟩,
      ⟨"list", "Datalist of suggestions", .string⟩,
      ⟨"accept", "Accepted file types", .string⟩]
    contentCategories := ["flow", "phrasing", "interactive", "palpable"] },
  { tagName := "button"
    structName := "Button"
    attributes := [
      ⟨"name", "Name of the element", .string⟩,
      ⟨"value", "Value of the element", .string⟩,
      ⟨"disabled", "Whether the control is disabled", .bool⟩,
      ⟨"form", "Associates the element with a form", .string⟩,
      ⟨"type", "Button behaviour", .enumerable ["submit", "reset", "button"]⟩,
      ⟨"formaction", "Submission URL override", .string⟩]
    contentCategories := ["flow", "phrasing", "interactive", "palpable"]
    permittedContent := ["phrasing"]
    excludedContent := ["interactive"]
    permittedChildElements := ["Text"] },
  { tagName := "select"
    structName := "Select"
    attributes := [
      ⟨"name", "Name of the element", .string⟩,
      ⟨"disabled", "Whether the control is disabled", .bool⟩,
      ⟨"form", "Associates the element with a form", .string⟩,
      ⟨"autocomplete", "Autofill hint", .string⟩,
      ⟨"required", "Whether the control is required", .bool⟩,
      ⟨"multiple", "Allow multiple selections", .bool⟩,
      ⟨"size", "Number of visible options", .integer⟩]
    contentCategories := ["flow", "phrasing", "interactive", "palpable"]
    permittedChildElements := ["Option", "OptionGroup", "Script", "Template"] },
  { tagName := "option"
    structName := "Option"
    attributes := [
      ⟨"disabled", "Whether the control is disabled", .bool⟩,
      ⟨"label", "User-visible label", .string⟩,
      ⟨"value", "Value of the element", .string⟩,
      ⟨"selected", "Whether selected", .bool⟩]
    permittedChildElements := ["Text"] },
  { tagName := "optgroup"
    structName := "OptionGroup"
    attributes := [
      ⟨"disabled", "Whether the control is disabled", .bool⟩,
      ⟨"label", "User-visible label", .string⟩]
    permittedChildElements := ["Option", "Script", "Template"] },
  { tagName := "textarea"
    structName := "TextArea"
    attributes := [
      ⟨"name", "Name of the element", .string⟩,
      ⟨"disabled", "Whether the control is disabled", .bool⟩,
      ⟨"form", "Associates the element with a form", .string⟩,
      ⟨"autocomplete", "Autofill hint", .string⟩,
      ⟨"required", "Whether the control is required", .bool⟩,
      ⟨"readonly", "Whether the value is editable", .bool⟩,
      ⟨"placeholder", "User-visible hint", .string⟩,
      ⟨"maxlength", "Maximum length of value", .integer⟩,
      ⟨"minlength", "Minimum length of value", .integer⟩,
      ⟨"rows", "Number of lines", .integer⟩,
      ⟨"cols", "Maximum characters per line", .integer⟩,
      ⟨"wrap", "Wrapping behaviour", .enumerable ["soft", "hard"]⟩]
    contentCategories := ["flow", "phrasing", "interactive", "palpable"]
    permittedChildElements := ["Text"] },
  { tagName := "fieldset"
    structName := "Fieldset"
    attributes := [
      ⟨"name", "Name of the element", .string⟩,
      ⟨"disabled", "Whether the control is disabled", .bool⟩,
      ⟨"form", "Associates the element with a form", .string⟩]
    contentCategories := ["flow", "palpable"]
    permittedContent := ["flow"]
    permittedChildElements := ["Text", "Legend"] },
  { tagName := "legend"
    structName := "Legend"
    permittedContent := ["phrasing", "heading"]
    permittedChildElements := ["Text"] },
  { tagName := "details"
    structName := "Details"
    attributes := [
      ⟨"open", "Whether the element is open", .bool⟩]
    contentCategories := ["flow", "interactive", "palpable"]
    permittedContent := ["flow"]
    permittedChildElements := ["Text", "Summary"] },
  { tagName := "summary"
    structName := "Summary"
    permittedContent := ["phrasing", "heading"]
    permittedChildElements := ["Text"] },
  { tagName := "dialog"
    structName := "Dialog"
    attributes := [
      ⟨"open", "Whether the element is open", .bool⟩]
    contentCategories := ["flow"]
    permittedContent := ["flow"]
    permittedChildElements := ["Text"] },
  { tagName := "output"
    structName := "Output"
    attributes := [
      ⟨"name", "Name of the element", .string⟩,
      ⟨"form", "Associates the element with a form", .string⟩,
      ⟨"for", "Controls that contributed to the output", .string⟩]
    contentCategories := ["flow", "phrasing", "palpable"]
    permittedContent := ["phrasing"]
    permittedChildElements := ["Text"] },
  { tagName := "progress"
    structName := "Progress"
    attributes := [
      ⟨"value", "Value of the element", .string⟩,
      ⟨"max", "Upper bound", .float⟩]
    contentCategories := ["flow", "phrasing", "palpable"]
    permittedContent := ["phrasing"]
    permittedChildElements := ["Text"] },
  { tagName := "meter"
    structName := "Meter"
    attributes := [
      ⟨"value", "Value of the element", .string⟩,
      ⟨"min", "Lower bound", .float⟩,
      ⟨"max", "Upper bound", .float⟩,
      ⟨"low", "Low boundary", .float⟩,
      ⟨"high", "High boundary", .float⟩,
      ⟨"optimum", "Optimum value", .float⟩]
    contentCategories := ["flow", "phrasing", "palpable"]
    permittedContent := ["phrasing"]
    permittedChildElements := ["Text"] }]

end MarkupArena.Html
