import Amalgam.Json.Value
import Amalgam.Module.Info

/-! # The module registry

A registry holds modules with pairwise distinct names. It is decoded from a JSON value entry by
entry: the first entry that is malformed or repeats a name decides the error, and within an entry
the first check that fails.
-/

namespace Amalgam

structure Registry where
  modules : List ModuleInfo
  distinct : (modules.map (·.name)).Nodup
deriving DecidableEq, Repr

inductive RegistryError where
  | notObject (path : Path)
  | noModuleList (path : Path)
  | entryNotObject
  | nameMissing
  | unknownFields (name : Text) (fields : List Text)
  | baseDirNotText (name : Text)
  | unknownLanguage (name : Text) (value : Json.Value)
  | iosNameNotText (name : Text)
  | flagNotBool (name field : Text)
  | duplicateName (name : Text)
deriving Repr

def RegistryError.message : RegistryError → Text
  | .notObject path => "module registry '" ++ path.text ++ "' must be a JSON object"
  | .noModuleList path => "module registry '" ++ path.text ++ "' must contain a 'modules' list"
  | .entryNotObject => "registry module entry must be an object"
  | .nameMissing => "registry module entry missing 'name'"
  | .unknownFields name fields =>
    "module '" ++ name ++ "' has unknown fields: " ++ Text.joinWith ", " fields
  | .baseDirNotText name => "module '" ++ name ++ "' field 'base_dir' must be a string"
  | .unknownLanguage name value =>
    "module '" ++ name ++ "' has unknown ios_language '" ++ value.display ++ "'"
  | .iosNameNotText name => "module '" ++ name ++ "' field 'ios_module_name' must be a string"
  | .flagNotBool name field => "module '" ++ name ++ "' field '" ++ field ++ "' must be a boolean"
  | .duplicateName name => "duplicate module name '" ++ name ++ "' in registry"

namespace Registry

def empty : Registry := ⟨[], List.nodup_nil⟩

instance : Inhabited Registry := ⟨empty⟩

def lookup? (r : Registry) (name : Text) : Option ModuleInfo :=
  r.modules.find? fun m => m.name = name

def add (r : Registry) (m : ModuleInfo) : Except RegistryError Registry :=
  if h : m.name ∈ r.modules.map (·.name) then .error (.duplicateName m.name)
  else .ok ⟨r.modules ++ [m], by
    rw [List.map_append, List.nodup_append]
    refine ⟨r.distinct, by simp, ?_⟩
    intro a ha b hb hSame
    have hName : b = m.name := List.mem_singleton.1 hb
    subst hSame hName
    exact h ha⟩

/-! ## Decoding -/

def fields : List Text := [
  "name", "base_dir", "single_file_codegen", "android_codegen", "ios_codegen", "ios_language",
  "ios_module_name", "cpp_codegen"]

def decodeFlag (entry : Json.Members) (name field : Text) : Except RegistryError Bool :=
  match entry.get? field with
  | none => .ok false
  | some (.bool b) => .ok b
  | some _ => .error (.flagNotBool name field)

def decodeName (entry : Json.Members) : Except RegistryError Text :=
  match entry.get? "name" with
  | some (.text name) => if name = "" then .error .nameMissing else .ok name
  | _ => .error .nameMissing

def decodeBaseDir (entry : Json.Members) (name : Text) : Except RegistryError Text :=
  match entry.get? "base_dir" with
  | none => .ok name
  | some (.text dir) => .ok dir
  | some _ => .error (.baseDirNotText name)

def decodeLanguage (entry : Json.Members) (name : Text) : Except RegistryError IosLanguage :=
  match entry.get? "ios_language" with
  | none => .ok .objc
  | some (.text s) =>
    match IosLanguage.ofName? s with
    | some language => .ok language
    | none => .error (.unknownLanguage name (.text s))
  | some value => .error (.unknownLanguage name value)

/-- An empty name counts as none. -/
def decodeIosName (entry : Json.Members) (name : Text) : Except RegistryError (Option Text) :=
  match entry.get? "ios_module_name" with
  | none | some .null => .ok none
  | some (.text s) => .ok (if s = "" then none else some s)
  | some _ => .error (.iosNameNotText name)

def decodeEntry (root : Path) : Json.Value → Except RegistryError ModuleInfo
  | .object entry => do
    let name ← decodeName entry
    let unknown := Json.Members.unknown entry fields
    if unknown ≠ [] then throw (.unknownFields name unknown)
    let baseDir ← decodeBaseDir entry name
    let iosLanguage ← decodeLanguage entry name
    let iosNameOverride ← decodeIosName entry name
    let singleFile ← decodeFlag entry name "single_file_codegen"
    let android ← decodeFlag entry name "android_codegen"
    let ios ← decodeFlag entry name "ios_codegen"
    let cpp ← decodeFlag entry name "cpp_codegen"
    return {
      name, baseDir := root / .ofText baseDir, singleFile, android, ios, iosLanguage, cpp,
      iosNameOverride }
  | _ => .error .entryNotObject

def decodeEntries (root : Path) (r : Registry) : List Json.Value → Except RegistryError Registry
  | [] => .ok r
  | entry :: rest => do
    let m ← decodeEntry root entry
    decodeEntries root (← r.add m) rest

def decode (path : Path) : Json.Value → Except RegistryError Registry
  | .object document =>
    match Table.get? document "modules" with
    | some (.array entries) => decodeEntries path.parent empty entries
    | _ => .error (.noModuleList path)
  | _ => .error (.notObject path)

end Registry

end Amalgam
