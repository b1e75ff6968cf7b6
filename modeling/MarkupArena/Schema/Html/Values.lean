import MarkupArena.Schema.Entry
/-!
Value lists that several attributes share.
-/
namespace MarkupArena.Html

def referrerPolicies : List String :=
  [
    "no-referrer", "no-referrer-when-downgrade", "origin", "origin-when-cross-origin",
    "same-origin", "strict-origin", "strict-origin-when-cross-origin", "unsafe-url"]

def crossOriginModes : List String := ["anonymous", "use-credentials"]

def browsingTargets : List String := ["_self", "_blank", "_parent", "_top"]

def loadingModes : List String := ["eager", "lazy"]

def preloadModes : List String := ["none", "metadata", "auto"]

end MarkupArena.Html
