import Amalgam.Bucket.Outcome
import Amalgam.Cache
import Amalgam.Module.Registry
import Amalgam.Placeholder

/-! # Combining native sources

A pass over items picks the native sources of modules that opted in and are allowed, joins those of
each module with the fragments remembered for it, and turns every bucket into one item. Then come
the placeholders of the listed modules. The other items pass through in front of them.
-/

namespace Amalgam

structure Combiner where
  only : AllowList
  config : ProjectConfig
  registry : Registry
  generator : Generator

/-- What a pass makes of the sources that it picks. -/
structure Made where
  combined : List Item
  placeholders : List Item
  events : List Event
deriving DecidableEq

structure PassResult where
  passed : List Item
  made : Made
deriving DecidableEq

namespace PassResult

def combined (r : PassResult) : List Item := r.made.combined

def placeholders (r : PassResult) : List Item := r.made.placeholders

def events (r : PassResult) : List Event := r.made.events

def items (r : PassResult) : List Item := r.passed ++ r.combined ++ r.placeholders

@[simp] theorem combined_mk (passed : List Item) (made : Made) :
    combined ⟨passed, made⟩ = made.combined := rfl

@[simp] theorem placeholders_mk (passed : List Item) (made : Made) :
    placeholders ⟨passed, made⟩ = made.placeholders := rfl

end PassResult

namespace Combiner

def description : Text := "Combining Native Sources"

def accepts (c : Combiner) (module : ModuleInfo) : Bool :=
  module.singleFile && c.only.allows module.name

def pick (c : Combiner) (item : Item) : Option NativeSource :=
  if c.accepts item.module then item.native? else none

def selection (c : Combiner) (items : List Item) : Selection NativeSource := .ofItems c.pick items

def fragmentsOf (sources : List (Item × NativeSource)) : List Fragment :=
  sources.map fun (item, source) => ⟨item, source⟩

def fragments (c : Combiner) (items : List Item) : List Fragment :=
  fragmentsOf (c.selection items).selected

def combineBuckets (tree : FileTree) (module : ModuleInfo) (fragments : List Fragment) :
    Except ReadError (List Item) :=
  (buckets fragments).mapM fun (key, bucket) => Bucket.outcome tree module key bucket

def moduleEvents (tree : FileTree) (module : ModuleInfo) (incoming carried : List Fragment) :
    List Event :=
  let all := incoming ++ carried
  [.cacheMerged module.name incoming.length carried.length] ++
    ((buckets all).flatMap fun (key, bucket) => Bucket.events tree key bucket) ++
    [.moduleCombined module.name all.length (buckets all).length]

/-- Combines one module; the cache has the fragments of the pass even if the pass ends here. -/
def combineModule (tree : FileTree) (module : ModuleInfo) (incoming : List Fragment) :
    EStateM Fault Cache (List Item × List Event) := fun cache =>
  let carried := cache.carried module.identity incoming
  let merged := cache.merged module.identity incoming
  let cache := cache.merge module.identity incoming
  match combineBuckets tree module merged with
  | .ok items => .ok (items, moduleEvents tree module incoming carried) cache
  | .error e => .error (.read e) cache

def combineModules (tree : FileTree) :
    Table ModuleInfo (List Fragment) → EStateM Fault Cache (List Item × List Event)
  | [] => pure ([], [])
  | (module, incoming) :: rest => do
    let (items, events) ← combineModule tree module incoming
    let (moreItems, moreEvents) ← combineModules tree rest
    return (items ++ moreItems, events ++ moreEvents)

def filenamesOf (selected : Table ModuleInfo (List Fragment)) (module : ModuleInfo) :
    List Text :=
  ((selected.get? module).getD []).map fun f => f.source.filename

def placeholdersFor (c : Combiner) (selected : Table ModuleInfo (List Fragment)) (name : Text) :
    Except Failure (List Item × List Event) :=
  match c.registry.lookup? name with
  | none => .ok ([], [.unknownListedModule name])
  | some module =>
    if module.singleFile then do
      let items ← Placeholder.items c.generator c.config module (filenamesOf selected module)
      return (items, if items.isEmpty then [] else [.placeholdersMade module.name items.length])
    else .ok ([], [])

def placeholders (c : Combiner) (selected : Table ModuleInfo (List Fragment)) :
    List Text → Except Failure (List Item × List Event)
  | [] => .ok ([], [])
  | name :: rest => do
    let (items, events) ← c.placeholdersFor selected name
    let (moreItems, moreEvents) ← c.placeholders selected rest
    return (items ++ moreItems, events ++ moreEvents)

/-- What is made of the native sources that are selected. -/
def combine (c : Combiner) (tree : FileTree) (sources : List (Item × NativeSource)) :
    EStateM Fault Cache Made := do
  let selected := byModule (fragmentsOf sources)
  let (combined, events) ← combineModules tree selected
  match c.placeholders selected c.only.toList with
  | .error f => throw (.failure f)
  | .ok (placeholders, moreEvents) =>
    return { combined, placeholders, events := events ++ moreEvents }

def process (c : Combiner) (tree : FileTree) (items : List Item) :
    EStateM Fault Cache PassResult :=
  (c.selection items).replaceAll PassResult.mk (c.combine tree)

end Combiner

end Amalgam
