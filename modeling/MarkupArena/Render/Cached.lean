import MarkupArena.World.Basic
/-!
Rendering once per key. The rendering itself is any work, which may use the same cache.
-/
namespace MarkupArena

def openCache (maxEntries : Option Number) : Action CacheId := do
  let w ← get
  set { w with caches := w.caches.push (Cache.empty maxEntries) }
  return ⟨w.caches.size⟩

/-- Changes a cache and answers from it. -/
def updateCache {α : Type} (c : CacheId) (step : Cache → α × Cache) : Action α := do
  let w ← get
  let (answer, cache) := step (w.cache c)
  set (w.setCache c cache)
  return answer

variable {m : Type → Type} [Monad m] [MonadLiftT Action m]

/-- The markup under a key, rendered and stored first if there is none. -/
def getOrRender (c : CacheId) (key : String) (work : m Rendered) : m Rendered := do
  match ← monadLift (updateCache c fun cache => cache.lookup key) with
  | some markup => return markup
  | none =>
    let markup ← work
    monadLift (updateCache c fun cache => ((), cache.set key markup))
    return markup

end MarkupArena
