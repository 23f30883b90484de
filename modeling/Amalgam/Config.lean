import Amalgam.Json.Value
import Amalgam.Path

/-! # Settings of a run and of a project

An allow-list restricts generation to the modules it names; an empty one allows every module. The
project settings are read from a JSON object and hold the directory that C++ imports begin with.
-/

namespace Amalgam

abbrev AllowList := NameSet

def AllowList.allows (only : AllowList) (name : Text) : Bool :=
  only.isEmpty || decide (name ∈ only)

structure ProjectConfig where
  cppImportRoot : Option Text
deriving DecidableEq, Repr, Inhabited

inductive ConfigError where
  | notObject (path : Path)
  | unknownFields (path : Path) (fields : List Text)
  | cppImportRootNotText
deriving DecidableEq, Repr

def ConfigError.message : ConfigError → Text
  | .notObject path => "project config '" ++ path.text ++ "' must be a JSON object"
  | .unknownFields path fields =>
    "project config '" ++ path.text ++ "' has unknown fields: " ++ Text.joinWith ", " fields
  | .cppImportRootNotText => "project config cpp_import_path_prefix must be a string"

namespace ProjectConfig

/-- Decodes the settings in the file at `path`; an empty directory counts as none. -/
def decode (path : Path) : Json.Value → Except ConfigError ProjectConfig
  | .object document =>
    match Json.Members.unknown document ["cpp_import_path_prefix"] with
    | [] =>
      match Table.get? document "cpp_import_path_prefix" with
      | none | some .null => .ok ⟨none⟩
      | some (.text s) => .ok ⟨if s = "" then none else some s⟩
      | some _ => .error .cppImportRootNotText
    | unknown => .error (.unknownFields path unknown)
  | _ => .error (.notObject path)

def cppDirectory (config : ProjectConfig) (moduleName : Text) : Text :=
  match config.cppImportRoot with
  | none => moduleName
  | some root => root ++ moduleName

end ProjectConfig

end Amalgam
