import Amalgam.Json.Reader
import Amalgam.Manifest
import Amalgam.Output
import Amalgam.Pipeline

/-! # A build

A build loads the module registry, the project settings and all manifests before it does anything
else. Every manifest is one pass through the same combiner, so later passes see the fragments of
earlier ones; the items of the last pass are written. What cannot be loaded is reported. A blank
setting whose value is needed, a text that nests too deep and a few other faults abort the build.
-/

namespace Amalgam

structure Settings where
  manifests : List Path
  modules : Setting Path
  projectConfig : Option (Setting Path)
  only : List (Setting Text)
  out : Setting Path
deriving DecidableEq, Repr

/-- Why there is no plan: a file or a name was left blank, or a file is not what it should be. -/
inductive LoadError where
  | blankFile
  | blankName
  | read (e : ReadError)
  | json (e : Json.Error)
  | registry (e : RegistryError)
  | config (e : ConfigError)
  | manifest (e : ManifestError)
deriving Repr

def LoadError.message : LoadError → Text
  | .blankFile => "'list' object has no attribute 'read_text'"
  | .blankName => "unhashable type: 'list'"
  | .read e => e.message
  | .json e => e.message
  | .registry e => e.message
  | .config e => e.message
  | .manifest e => e.message

/-- Whether the error is not reported but aborts the build. -/
def LoadError.isFinal : LoadError → Bool
  | .blankFile | .blankName | .json (.tooDeep _) => true
  | _ => false

namespace Load

def json (tree : FileTree) (path : Path) : Except LoadError Json.Value := do
  let characters ← (tree.readCharacters path).mapError .read
  (Json.parse (Text.universalNewlines characters)).mapError .json

def registry (tree : FileTree) (path : Path) : Except LoadError Registry := do
  (Registry.decode path (← json tree path)).mapError .registry

def projectConfig (tree : FileTree) (path : Path) : Except LoadError ProjectConfig := do
  (ProjectConfig.decode path (← json tree path)).mapError .config

def manifest (tree : FileTree) (registry : Registry) (path : Path) :
    Except LoadError (List Item) := do
  (Manifest.decode path registry (← json tree path)).mapError .manifest

end Load

structure Plan where
  combiner : Combiner
  passes : List (Path × List Item)

namespace Build

def plan (s : Settings) (tree : FileTree) : Except LoadError Plan := do
  let registry ← Load.registry tree (← s.modules.demand .blankFile)
  let config ← match s.projectConfig with
    | none => pure ⟨none⟩
    | some path => Load.projectConfig tree (← path.demand .blankFile)
  let passes ← s.manifests.mapM fun path => do
    return (path, ← Load.manifest tree registry path)
  let only ← s.only.mapM fun name => name.demand .blankName
  return { combiner := ⟨.ofList only, config, registry, EmptyType.objc⟩, passes }

/-- An unknown module is reported for the registry's file, all else for none. -/
def loadDiagnostic (s : Settings) (e : LoadError) : Diagnostic :=
  match e with
  | .manifest (.unknownModule _) =>
    let file := s.modules.value?.map Path.text
    ⟨"unknown module " ++ e.message, none, some "config", "error", file, []⟩
  | _ => ⟨e.message, none, some "config", "error", none, []⟩

def runPasses (combiner : Combiner) (tree : FileTree) (last : List Item) :
    List (Path × List Item) → EStateM Fault Cache (List Item × List Event)
  | [] => pure (last, [])
  | (manifest, items) :: rest => do
    let (result, events) ← runStages tree items [.combine combiner]
    let (last, moreEvents) ← runPasses combiner tree result rest
    return (last, .passStarted manifest items.length :: events ++ moreEvents)

structure Result where
  exitCode : Nat
  diagnostics : List Diagnostic
  events : List Event

inductive Abort where
  | load (e : LoadError)
  | pass (fault : Fault)
  | output (e : OutputError)
deriving Repr

def Abort.message : Abort → Text
  | .load e => e.message
  | .pass fault => fault.message
  | .output e => e.message

/-- A pass that ends early ends the build before anything is written. -/
def run (s : Settings) (process : Nat) : EStateM Abort FileTree Result := fun tree =>
  match plan s tree with
  | .error e =>
    if e.isFinal then .error (.load e) tree else .ok ⟨2, [loadDiagnostic s e], []⟩ tree
  | .ok plan =>
    match runPasses plan.combiner tree [] plan.passes .empty with
    | .error fault _ => .error (.pass fault) tree
    | .ok (items, events) _ =>
      match Output.writeItems process s.out items tree with
      | .error e tree => .error (.output e) tree
      | .ok written tree =>
        let exitCode := if written.diagnostics.isEmpty then 0 else 1
        .ok ⟨exitCode, written.diagnostics, events ++ written.events⟩ tree

end Build

end Amalgam
