import Amalgam.Json.Printer
import Amalgam.Options

/-! # The command

Runs a command line on a file tree and gives all that can be seen of it: how it ends, what it prints
and the tree it leaves. Diagnostics are printed after what is logged, or as one JSON value.
-/

namespace Amalgam.Command

inductive Ending where
  | exit (code : Nat)
  | aborted (cause : Build.Abort)
deriving Repr

structure Answer where
  ending : Ending
  stdout : Text
  stderr : Text
  tree : FileTree

def program : Text := "valdic"

def help : Text :=
  "usage: " ++ program ++ " manifests [manifests ...] --modules MODULES --out OUT\n" ++
    Text.unlines (Options.spellings.map fun spelling => "  " ++ spelling.1)

def report (exitCode : Nat) (diagnostics : List Diagnostic) : Json.Value := .object [
  ("exit_code", .integer exitCode),
  ("diagnostics", .array (diagnostics.map Diagnostic.toJson))]

def log (verbosity : Nat) (events : List Event) : Text :=
  Text.join ((events.filter fun e => e.level.shownAt verbosity).map Event.line)

def build (settings : Settings) (json : Bool) (verbosity process : Nat) (tree : FileTree) :
    Answer :=
  match Build.run settings process tree with
  | .error cause tree => ⟨.aborted cause, "", "", tree⟩
  | .ok result tree =>
    let logged := log verbosity result.events
    let printed := Text.unlines (result.diagnostics.map Diagnostic.human)
    if json then
      let value := report result.exitCode result.diagnostics
      ⟨.exit result.exitCode, value.print ++ "\n", logged, tree⟩
    else ⟨.exit result.exitCode, "", logged ++ printed, tree⟩

def run (arguments : List Text) (process : Nat) (tree : FileTree) : Answer :=
  match Options.parse arguments with
  | .error e => ⟨.exit 2, "", program ++ ": error: " ++ e.message ++ "\n", tree⟩
  | .ok .help => ⟨.exit 0, help, "", tree⟩
  | .ok (.build settings json verbosity) => build settings json verbosity process tree

end Amalgam.Command
