import MarkupArena.Schema.Html.Values
/-!
Images, media and other embedded content.
-/
namespace MarkupArena.Html

def embeddedEntries : List Entry := [
  { tagName := "img"
    structName := "Image"
    hasClosingTag := false
    attributes := [
      ⟨"alt", "Replacement text", .string⟩,
      ⟨"src", "Address of the resource", .string⟩,
      ⟨"srcset", "Images to use in different situations", .string⟩,
      ⟨"sizes", "Image sizes for different layouts", .string⟩,
      ⟨"crossorigin", "CORS settings", .enumerable crossOriginModes⟩,
      ⟨"width", "Horizontal dimension", .integer⟩,
      ⟨"height", "Vertical dimension", .integer⟩,
      ⟨"referrerpolicy", "Referrer policy for fetches", .enumerable referrerPolicies⟩,
      ⟨"loading", "Lazy loading hint", .enumerable loadingModes⟩,
      ⟨"usemap", "Image map to use", .string⟩,
      ⟨"ismap", "Server-side image map", .bool⟩,
      ⟨"decoding", "Decoding hint", .enumerable ["sync", "async", "auto"]⟩]
    contentCategories := ["flow", "phrasing", "embedded", "palpable"] },
  { tagName := "iframe"
    structName := "Iframe"
    attributes := [
      ⟨"src", "Address of the resource", .string⟩,
      ⟨"name", "Name of the element", .string⟩,
      ⟨"width", "Horizontal dimension", .integer⟩,
      ⟨"height", "Vertical dimension", .integer⟩,
      ⟨"referrerpolicy", "Referrer policy for fetches", .enumerable referrerPolicies⟩,
      ⟨"loading", "Lazy loading hint", .enumerable loadingModes⟩,
      ⟨"srcdoc", "Document to render", .string⟩,
      ⟨"sandbox", "Security rules", .string⟩,
      ⟨"allow", "Permissions policy", .string⟩,
      ⟨"allowfullscreen", "Whether fullscreen is allowed", .bool⟩]
    contentCategories := ["flow", "phrasing", "embedded", "interactive", "palpable"] },
  { tagName := "picture"
    structName := "Picture"
    contentCategories := ["flow", "phrasing", "embedded"]
    permittedChildElements := ["MediaSource", "Image", "Script", "Template"] },
  { tagName := "source"
    structName := "MediaSource"
    hasClosingTag := false
    attributes := [
      ⟨"src", "Address of the resource", .string⟩,
      ⟨"type", "Type hint for the resource", .string⟩,
      ⟨"srcset", "Images to use in different situations", .string⟩,
      ⟨"sizes", "Image sizes for different layouts", .string⟩,
      ⟨"media", "Applicable media", .string⟩,
      ⟨"width", "Horizontal dimension", .integer⟩,
      ⟨"height", "Vertical dimension", .integer⟩] },
  { tagName := "video"
    structName := "Video"
    attributes := [
      ⟨"src", "Address of the resource", .string⟩,
      ⟨"crossorigin", "CORS settings", .enumerable crossOriginModes⟩,
      ⟨"preload", "Resource preload hint", .enumerable preloadModes⟩,
      ⟨"autoplay", "Start playing automatically", .bool⟩,
      ⟨"loop", "Loop playback", .bool⟩,
      ⟨"muted", "Mute by default", .bool⟩,
      ⟨"controls", "Show user controls", .bool⟩,
      ⟨"width", "Horizontal dimension", .integer⟩,
      ⟨"height", "Vertical dimension", .integer⟩,
      ⟨"poster", "Poster frame URL", .string⟩,
      ⟨"playsinline", "Play inline", .bool⟩]
    contentCategories := ["flow", "phrasing", "embedded", "interactive", "palpable"]
    permittedChildElements := ["Text", "MediaSource", "TextTrack"] },
  { tagName := "audio"
    structName := "Audio"
    attributes := [
      ⟨"src", "Address of the resource", .string⟩,
      ⟨"crossorigin", "CORS settings", .enumerable crossOriginModes⟩,
      ⟨"preload", "Resource preload hint", .enumerable preloadModes⟩,
      ⟨"autoplay", "Start playing automatically", .bool⟩,
      ⟨"loop", "Loop playback", .bool⟩,
      ⟨"muted", "Mute by default", .bool⟩,
      ⟨"controls", "Show user controls", .bool⟩]
    contentCategories := ["flow", "phrasing", "embedded", "interactive", "palpable"]
    permittedChildElements := ["Text", "MediaSource", "TextTrack"] },
  { tagName := "track"
    structName := "TextTrack"
    hasClosingTag := false
    attributes := [
      ⟨"src", "Address of the resource", .string⟩,
      ⟨"label", "User-visible label", .string⟩,
      ⟨"kind", "Kind of text track",
        .enumerable ["subtitles", "captions", "descriptions", "chapters", "metadata"]⟩,
      ⟨"srclang", "Language of the track", .string⟩,
      ⟨"default", "Enable by default", .bool⟩] },
  { tagName := "map"
    structName := "ImageMap"
    attributes := [
      ⟨"name", "Name of the element", .string⟩]
    contentCategories := ["flow", "phrasing", "palpable"]
    permittedContent := ["flow"]
    permittedChildElements := ["Text", "Area"] },
  { tagName := "area"
    structName := "Area"
    hasClosingTag := false
    attributes := [
      ⟨"alt", "Replacement text", .string⟩,
      ⟨"href", "URL the hyperlink points to", .string⟩,
      ⟨"target", "Browsing context for navigation", .enumerable browsingTargets⟩,
      ⟨"download", "Download the resource instead of navigating", .string⟩,
      ⟨"ping", "URLs to ping on follow", .string⟩,
      ⟨"rel", "Relationship of the linked resource", .string⟩,
      ⟨"referrerpolicy", "Referrer policy for fetches", .enumerable referrerPolicies⟩,
      ⟨"coords", "Coordinates of the area", .string⟩,
      ⟨"shape", "Kind of shape", .enumerable ["circle", "default", "poly", "rect"]⟩] }]

end MarkupArena.Html
