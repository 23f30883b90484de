import Amalgam.Fault
import Amalgam.Json.Value

/-! # Diagnostics and reports

A diagnostic is a message for the user, with the file it is about and notes. A report is a
structured error about one item; it turns into a diagnostic whose notes name both sides of a
conflict and the cause.
-/

namespace Amalgam

structure Diagnostic where
  message : Text
  code : Option Text
  phase : Option Text
  severity : Text
  file : Option Text
  notes : List Text
deriving DecidableEq, Repr

namespace Diagnostic

def human (d : Diagnostic) : Text :=
  let file := d.file.getD "<unknown>"
  file ++ ":?:?: " ++ d.severity ++ ": " ++ d.message ++
    Text.join (d.notes.map fun note => "\n  note: " ++ note)

def optional (s : Option Text) : Json.Value := (s.map Json.Value.text).getD .null

def toJson (d : Diagnostic) : Json.Value := .object [
  ("phase", optional d.phase),
  ("code", optional d.code),
  ("message", .text d.message),
  ("severity", .text d.severity),
  ("file", optional d.file),
  ("line", .null),
  ("column", .null),
  ("notes", .array (d.notes.map .text))]

end Diagnostic

structure Site where
  filename : Option Text
  relativePath : Option Text
  emittedBy : Option Text
deriving DecidableEq, Repr

def Site.unknown : Site := ⟨none, none, none⟩

/-- A conflict has a second site; of other reports that one is unknown. -/
structure Report where
  code : Text
  message : Text
  module : Option Text
  site : Site
  conflicting : Site
  cause : Option Fault
deriving DecidableEq, Repr

def pathLabel (path : Option Text) : Text := path.getD "<null>"

namespace Report

/-- The fields that the one-line text of a report shows when they are given and not empty. -/
def labelled (label : Text) : Option Text → Text
  | none => ""
  | some value => if value = "" then "" else " " ++ label ++ "=" ++ value

def human (r : Report) : Text :=
  "[" ++ r.code ++ "] " ++ r.message ++ labelled "module" r.module ++
    labelled "filename" r.site.filename ++
    labelled "conflicting_filename" r.conflicting.filename

def conflictNotes (r : Report) : List Text :=
  match r.conflicting.filename with
  | none => []
  | some conflicting =>
    let filename := r.site.filename.getD "None"
    ["'" ++ filename ++ "' writes to '" ++ pathLabel r.site.relativePath ++ "'",
      "'" ++ conflicting ++ "' writes to '" ++ pathLabel r.conflicting.relativePath ++ "'"]

def causeNote (cause : Fault) : Text := "caused by: " ++ cause.message

def toDiagnostic (r : Report) (file phase : Option Text) : Diagnostic where
  message := r.message
  code := some r.code
  phase := phase
  severity := "error"
  file := file
  notes := r.conflictNotes ++ r.cause.toList.map causeNote

end Report

inductive Problem where
  | report (r : Report)
  | fault (f : Fault)
deriving DecidableEq, Repr

end Amalgam
