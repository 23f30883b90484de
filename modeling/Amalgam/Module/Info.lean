import Amalgam.Path

/-! # Modules

A module is a part of a code base for which native sources are generated. Its identity is its name
and directory; the rest are settings that may change without making it another module.
-/

namespace Amalgam

inductive IosLanguage where
  | objc
  | swift
deriving DecidableEq, Repr

def IosLanguage.name : IosLanguage → Text
  | .objc => "objc"
  | .swift => "swift"

def IosLanguage.ofName? (name : Text) : Option IosLanguage :=
  [objc, swift].find? fun language => language.name = name

structure Identity where
  name : Text
  baseDir : Path
deriving DecidableEq, Repr

structure ModuleInfo where
  name : Text
  baseDir : Path
  singleFile : Bool
  android : Bool
  ios : Bool
  iosLanguage : IosLanguage
  cpp : Bool
  iosNameOverride : Option Text
deriving DecidableEq, Repr

namespace ModuleInfo

def identity (m : ModuleInfo) : Identity := ⟨m.name, m.baseDir⟩

/-- The name that generated iOS sources begin with; an empty override counts as none. -/
def iosName (m : ModuleInfo) : Text :=
  match m.iosNameOverride with
  | none => m.name
  | some name => if name = "" then m.name else name

end ModuleInfo

end Amalgam
