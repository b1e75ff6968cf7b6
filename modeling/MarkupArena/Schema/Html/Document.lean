import MarkupArena.Schema.Html.Values
/-!
The document element, its head and body, and what describes a document.
-/
namespace MarkupArena.Html

def documentEntries : List Entry := [
  { tagName := "html"
    structName := "Html"
    attributes := [
      ⟨"xmlns", "XML namespace", .string⟩]
    permittedChildElements := ["Head", "Body"] },
  { tagName := "head"
    structName := "Head"
    permittedContent := ["metadata"] },
  { tagName := "title"
    structName := "Title"
    contentCategories := ["metadata"]
    permittedChildElements := ["Text"] },
  { tagName := "base"
    structName := "Base"
    hasClosingTag := false
    attributes := [
      ⟨"href", "URL the hyperlink points to", .string⟩,
      ⟨"target", "Browsing context for navigation", .enumerable browsingTargets⟩]
    contentCategories := ["metadata"] },
  { tagName := "link"
    structName := "Link"
    hasClosingTag := false
    attributes := [
      ⟨"href", "URL the hyperlink points to", .string⟩,
      ⟨"crossorigin", "CORS settings", .enumerable crossOriginModes⟩,
      ⟨"rel", "Relationship of the linked resource", .string⟩,
      ⟨"media", "Applicable media", .string⟩,
      ⟨"integrity", "Subresource integrity metadata", .string⟩,
      ⟨"hreflang", "Language of the linked resource", .string⟩,
      ⟨"type", "Type hint for the resource", .string⟩,
      ⟨"referrerpolicy", "Referrer policy for fetches", .enumerable referrerPolicies⟩,
      ⟨"sizes", "Image sizes for different layouts", .string⟩,
      ⟨"as", "Destination of a preload", .string⟩,
      ⟨"imagesrcset", "Images for preloading", .string⟩,
      ⟨"imagesizes", "Image sizes for preloading", .string⟩]
    contentCategories := ["metadata"] },
  { tagName := "meta"
    structName := "Meta"
    hasClosingTag := false
    attributes := [
      ⟨"name", "Name of the element", .string⟩,
      ⟨"content", "Value of the metadata", .string⟩,
      ⟨"charset", "Character encoding declaration", .string⟩,
      ⟨"http-equiv", "Pragma directive",
        .enumerable ["content-type", "default-style", "refresh", "x-ua-compatible",
        "content-security-policy"]⟩]
    contentCategories := ["metadata"] },
  { tagName := "style"
    structName := "Style"
    attributes := [
      ⟨"media", "Applicable media", .string⟩]
    contentCategories := ["metadata"]
    permittedChildElements := ["Text"] },
  { tagName := "script"
    structName := "Script"
    attributes := [
      ⟨"src", "Address of the resource", .string⟩,
      ⟨"type", "Type hint for the resource", .string⟩,
      ⟨"crossorigin", "CORS settings", .enumerable crossOriginModes⟩,
      ⟨"integrity", "Subresource integrity metadata", .string⟩,
      ⟨"referrerpolicy", "Referrer policy for fetches", .enumerable referrerPolicies⟩,
      ⟨"async", "Execute asynchronously", .bool⟩,
      ⟨"defer", "Defer execution", .bool⟩,
      ⟨"nomodule", "Skip in module-supporting browsers", .bool⟩]
    contentCategories := ["metadata", "flow", "phrasing", "script-supporting"]
    permittedChildElements := ["Text"] },
  { tagName := "noscript"
    structName := "Noscript"
    contentCategories := ["metadata", "flow", "phrasing"]
    permittedContent := ["flow", "metadata"]
    permittedChildElements := ["Text"] },
  { tagName := "template"
    structName := "Template"
    contentCategories := ["metadata", "flow", "phrasing", "script-supporting"]
    permittedContent := ["flow", "metadata"]
    permittedChildElements := ["Text"] },
  { tagName := "body"
    structName := "Body"
    permittedContent := ["flow"]
    permittedChildElements := ["Text"] }]

end MarkupArena.Html
