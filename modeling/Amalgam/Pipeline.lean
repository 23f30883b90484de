import Amalgam.Combine
import Amalgam.WebScript

/-! # The pipeline

Items run through a list of stages, each of which takes all items and gives all items. What the
combining stages remember is kept from pass to pass, also when a pass ends early.
-/

namespace Amalgam

inductive Stage where
  | combine (c : Combiner)
  | web

namespace Stage

def description : Stage → Text
  | .combine _ => Combiner.description
  | .web => WebScript.description

def run (tree : FileTree) (items : List Item) : Stage → EStateM Fault Cache (List Item × List Event)
  | .combine c => do
    let result ← c.process tree items
    return (result.items, result.events)
  | .web =>
    match WebScript.process tree items with
    | .ok items => pure (items, [])
    | .error fault => throw fault

end Stage

def runStages (tree : FileTree) (items : List Item) :
    List Stage → EStateM Fault Cache (List Item × List Event)
  | [] => pure (items, [])
  | stage :: rest => do
    let (next, events) ← stage.run tree items
    let (last, moreEvents) ← runStages tree next rest
    return (last, .stageStarted stage.description items.length :: events ++ moreEvents)

end Amalgam
