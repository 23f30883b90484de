import Amalgam.Item
import Amalgam.Module.Registry

/-! # Manifests

A manifest lists the native sources of one pass. Every entry names its module and holds its content
or the path of it, relative to the manifest; what is not given has a default. The first bad entry
decides the error, and within an entry the first check that fails.
-/

namespace Amalgam

inductive ManifestError where
  | notObject (path : Path)
  | noFragmentList (path : Path)
  | fragmentNotObject (index : Nat)
  | unknownFields (index : Nat) (fields : List Text)
  | filenameMissing (index : Nat)
  | moduleMissing (filename : Text)
  | unknownModule (name : Text)
  | unknownPlatform (filename : Text) (value : Json.Value)
  | notText (filename field : Text)
  | notOneContent (filename : Text)
  | priorityNotInteger (filename : Text)
  | dependenciesNotNames (filename : Text)
deriving Repr

def ManifestError.message : ManifestError → Text
  | .notObject path => "fragment manifest '" ++ path.text ++ "' must be a JSON object"
  | .noFragmentList path =>
    "fragment manifest '" ++ path.text ++ "' must contain a 'fragments' list"
  | .fragmentNotObject index => s!"fragment #{index} must be an object"
  | .unknownFields index fields =>
    "fragment #" ++ toString index ++ " has unknown fields: " ++ Text.joinWith ", " fields
  | .filenameMissing index => s!"fragment #{index} missing 'filename'"
  | .moduleMissing filename => "fragment '" ++ filename ++ "' missing 'module'"
  | .unknownModule name => Text.quote name
  | .unknownPlatform filename value =>
    "fragment '" ++ filename ++ "' has unknown platform '" ++ value.display ++ "'"
  | .notText filename field => "fragment '" ++ filename ++ "': '" ++ field ++ "' must be a string"
  | .notOneContent filename =>
    "fragment '" ++ filename ++ "' must have exactly one of 'path' or 'content'"
  | .priorityNotInteger filename =>
    "fragment '" ++ filename ++ "': 'grouping_priority' must be an integer"
  | .dependenciesNotNames filename =>
    "fragment '" ++ filename ++ "': 'local_dependencies' must be a list of filenames"

namespace Manifest

def fields : List Text := [
  "module", "platform", "filename", "path", "content", "grouping_key", "grouping_priority",
  "relative_path", "local_dependencies", "source"]

def optionalText (entry : Json.Members) (filename field : Text) :
    Except ManifestError (Option Text) :=
  match entry.get? field with
  | none | some .null => .ok none
  | some (.text s) => .ok (some s)
  | some _ => .error (.notText filename field)

def decodeFilename (entry : Json.Members) (index : Nat) : Except ManifestError Text :=
  match entry.get? "filename" with
  | some (.text filename) => if filename = "" then .error (.filenameMissing index) else .ok filename
  | _ => .error (.filenameMissing index)

def decodeModule (registry : Registry) (entry : Json.Members) (filename : Text) :
    Except ManifestError ModuleInfo :=
  match entry.get? "module" with
  | some (.text name) =>
    match registry.lookup? name with
    | some m => .ok m
    | none => .error (.unknownModule name)
  | _ => .error (.moduleMissing filename)

def decodePlatform (entry : Json.Members) (filename : Text) :
    Except ManifestError (Option Platform) :=
  match entry.get? "platform" with
  | none | some .null => .ok none
  | some (.text s) =>
    match Platform.ofName? s with
    | some platform => .ok (some platform)
    | none => .error (.unknownPlatform filename (.text s))
  | some value => .error (.unknownPlatform filename value)

def decodeContent (root : Path) (entry : Json.Members) (filename : Text) :
    Except ManifestError Content := do
  let path ← optionalText entry filename "path"
  let text ← optionalText entry filename "content"
  match path, text with
  | some path, none => return .stored (root / .ofText path)
  | none, some text => return .text text
  | _, _ => throw (.notOneContent filename)

def decodePriority (entry : Json.Members) (filename : Text) : Except ManifestError Int :=
  match entry.get? "grouping_priority" with
  | none => .ok 0
  | some (.integer i) => .ok i
  | some _ => .error (.priorityNotInteger filename)

def texts? : List Json.Value → Option (List Text)
  | [] => some []
  | .text s :: rest => (texts? rest).map (s :: ·)
  | _ :: _ => none

def decodeDependencies (entry : Json.Members) (filename : Text) : Except ManifestError NameSet :=
  match entry.get? "local_dependencies" with
  | none => .ok ∅
  | some (.array values) =>
    match texts? values with
    | some names => .ok (.ofList names)
    | none => .error (.dependenciesNotNames filename)
  | some _ => .error (.dependenciesNotNames filename)

/-- A key that is absent or empty counts as the filename. -/
def groupingKey (filename : Text) : Option Text → Text
  | none => filename
  | some key => if key = "" then filename else key

def sourcePath (m : ModuleInfo) : Option Text → Path
  | none => m.baseDir
  | some origin => if origin = "" then m.baseDir else m.baseDir / .ofText origin

def decodeFragment (root : Path) (registry : Registry) (index : Nat) :
    Json.Value → Except ManifestError Item
  | .object entry => do
    let unknown := Json.Members.unknown entry fields
    if unknown ≠ [] then throw (.unknownFields index unknown)
    let filename ← decodeFilename entry index
    let module ← decodeModule registry entry filename
    let platform ← decodePlatform entry filename
    let content ← decodeContent root entry filename
    let priority ← decodePriority entry filename
    let dependencies ← decodeDependencies entry filename
    let key ← optionalText entry filename "grouping_key"
    let relativePath ← optionalText entry filename "relative_path"
    let origin ← optionalText entry filename "source"
    let source : NativeSource := {
      filename, content, groupingKey := groupingKey filename key, priority, relativePath,
      dependencies }
    return {
      sourcePath := some (sourcePath module origin), origin, kind := .payload (.native source),
      module, platform, target := .all }
  | _ => .error (.fragmentNotObject index)

def decodeFragments (root : Path) (registry : Registry) (index : Nat) :
    List Json.Value → Except ManifestError (List Item)
  | [] => .ok []
  | entry :: rest => do
    let item ← decodeFragment root registry index entry
    return item :: (← decodeFragments root registry (index + 1) rest)

def decode (path : Path) (registry : Registry) : Json.Value → Except ManifestError (List Item)
  | .object document =>
    match Table.get? document "fragments" with
    | some (.array entries) => decodeFragments path.parent registry 0 entries
    | _ => .error (.noFragmentList path)
  | _ => .error (.notObject path)

end Manifest

end Amalgam
