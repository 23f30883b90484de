import Amalgam.Event
import Amalgam.OutputPath
import Amalgam.Setting

/-! # Writing outputs

An output is written to a temporary file beside its destination, which is then moved there. The
items of a result are written in order; a failure becomes a diagnostic and the items after it are
still written, unless it is one that ends the run.
-/

namespace Amalgam

inductive OutputError where
  | place (e : OutputPathError)
  | blankDirectory
  | content (e : ReadError)
  | file (e : FileError)
deriving DecidableEq, Repr

def OutputError.message : OutputError → Text
  | .place e => e.message
  | .blankDirectory => "unsupported operand type(s) for /: 'list' and 'str'"
  | .content e => e.message
  | .file e => e.message

def OutputError.isFinal : OutputError → Bool
  | .blankDirectory | .file .tooDeep => true
  | _ => false

namespace Output

def temporaryName (process : Nat) (name : Text) : Text := name ++ ".tmp." ++ toString process

def writeFile (process : Nat) (destination : Path) (content : Text) : FileTree.Step Unit := do
  FileTree.makeDirectories destination.parent
  match destination.withName? (temporaryName process destination.name) with
  | none => throw (.nameless destination)
  | some temporary =>
    FileTree.write temporary content
    FileTree.replace temporary destination

abbrev Step := EStateM OutputError FileTree

def write (process : Nat) (out : Setting Path) (platform : Option Platform)
    (source : NativeSource) : Step Path := fun tree =>
  match OutputPath.place platform source, out with
  | .error e, _ => .error (.place e) tree
  | .ok _, .blank => .error .blankDirectory tree
  | .ok place, .value out =>
    match source.content.read tree with
    | .error e => .error (.content e) tree
    | .ok content =>
      match writeFile process (out / place) content tree with
      | .ok () tree => .ok (out / place) tree
      | .error e tree => .error (.file e) tree

def problemDiagnostic (item : Item) : Problem → Diagnostic
  | .report r => r.toDiagnostic (some item.displayPath) (some "combine")
  | .fault f => ⟨f.message, none, some "combine", "error", some item.displayPath, []⟩

def failureDiagnostic (item : Item) (source : NativeSource) (e : OutputError) : Diagnostic :=
  let message := "failed to write '" ++ source.filename ++ "': " ++ e.message
  ⟨message, none, some "output", "error", some item.displayPath, []⟩

structure Result where
  diagnostics : List Diagnostic
  events : List Event

def Result.append (r s : Result) : Result := ⟨r.diagnostics ++ s.diagnostics, r.events ++ s.events⟩

instance : Append Result := ⟨Result.append⟩

def writeItem (process : Nat) (out : Setting Path) (item : Item) : Step Result := fun tree =>
  match item.kind with
  | .failed problem | .struck problem _ => .ok ⟨[problemDiagnostic item problem], []⟩ tree
  | .payload (.final _) => .ok ⟨[], []⟩ tree
  | .payload (.native source) =>
    match write process out item.platform source tree with
    | .ok destination tree => .ok ⟨[], [.outputWritten destination]⟩ tree
    | .error e tree =>
      if e.isFinal then .error e tree else .ok ⟨[failureDiagnostic item source e], []⟩ tree

def writeItems (process : Nat) (out : Setting Path) : List Item → Step Result
  | [] => pure ⟨[], []⟩
  | item :: rest => do
    let first ← writeItem process out item
    return first ++ (← writeItems process out rest)

end Output

end Amalgam
