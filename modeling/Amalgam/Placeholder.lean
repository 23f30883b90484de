import Amalgam.Config
import Amalgam.EmptyType

/-! # Placeholders

A build that is restricted to some modules still has to deliver an artifact for every platform that
a listed module is enabled for. What is missing, by the endings of the module's filenames, is made
up as an empty source; for Objective-C a generator writes it.
-/

namespace Amalgam.Placeholder

def typeName : Text := "Empty"

def empty (module : ModuleInfo) (filename : Text) (platform : Platform)
    (relativePath : Option Text) : Item :=
  .generated module (.payload (.native (.single filename (.text "") relativePath))) (some platform)

def failureReport (module : ModuleInfo) (f : Failure) : Report where
  code := "placeholder-generation-failed"
  message :=
    "failed to generate empty Objective-C sources for module '" ++ module.name ++ "': " ++ f.message
  module := some module.name
  site := .unknown
  conflicting := .unknown
  cause := some (.failure f)

/-- A generated source stands for the whole merged file of its group. -/
def wholeFile (source : NativeSource) : NativeSource :=
  { source with filename := source.groupingKey, dependencies := ∅ }

/-- A failure the generator may report becomes an item; any other ends the pass. -/
def objc (generate : Generator) (module : ModuleInfo) : Except Failure (List Item) :=
  match generate typeName module .classType .objc with
  | .ok sources => .ok (sources.map fun source =>
      .generated module (.payload (.native (wholeFile source))) (some .ios))
  | .error f =>
    if f.isExpected then
      .ok [.generated module (.failed (.report (failureReport module f))) (some .ios)]
    else .error f

def items (generate : Generator) (config : ProjectConfig) (module : ModuleInfo)
    (filenames : List Text) : Except Failure (List Item) := do
  let lacks (ending : Text) : Bool := !filenames.any (Text.endsWith · ending)
  let android :=
    if module.android && lacks ".kt" then [empty module (module.name ++ ".kt") .android none]
    else []
  let objc ←
    if module.ios && module.iosLanguage = .objc && lacks ".m" then objc generate module else pure []
  let swift :=
    if module.ios && module.iosLanguage = .swift && lacks ".swift" then
      [empty module (module.iosName ++ ".swift") .ios none]
    else []
  let cpp :=
    if module.cpp && lacks ".cpp" then
      let directory := some (config.cppDirectory module.name)
      [empty module (module.name ++ ".cpp") .cpp directory,
        empty module (module.name ++ ".hpp") .cpp directory]
    else []
  return android ++ objc ++ swift ++ cpp

end Amalgam.Placeholder
