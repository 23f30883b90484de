import Amalgam.Item

/-! # Web scripts

Every finished script for the web gets a head that sets its module path, and its `require` calls go
through a function that resolves paths from there. The scripts that run before the module loader is
there stay as they are.
-/

namespace Amalgam.WebScript

def description : Text := "Modify js files for web"

def bootstrapFiles : List Text := [
  "web_renderer/src/ValdiWebRenderer.js",
  "web_renderer/src/ValdiWebRuntime.js",
  "valdi_core/src/Init.js",
  "valdi_core/src/ModuleLoader.js"]

/-- The loader knows a module by its path without the ending of its source. -/
def modulePath (path : Text) : Text :=
  (Text.withoutEnding? path ".tsx" <|> Text.withoutEnding? path ".ts").getD path

def head (modulePath : Text) : Text :=
  "module.path = \"" ++ modulePath ++ "\";\n" ++
    "var customRequire = globalThis.moduleLoader.resolveRequire(\"" ++ modulePath ++ "\");\n"

def setUp (script modulePath : Text) : Text :=
  head modulePath ++ Text.replaceAll script "require(" "customRequire("

def pick (item : Item) : Option FinalFile :=
  match item.final? with
  | some file =>
    if file.platform = some .web && Text.endsWith file.outputPath ".js" then some file else none
  | none => none

def isBootstrap (file : FinalFile) : Bool :=
  bootstrapFiles.any fun name => Text.contains file.outputPath name

def place (item : Item) (file : FinalFile) : Text :=
  match item.origin with
  | none => file.outputPath
  | some origin => if origin = "" then file.outputPath else origin

def unreadableReport (item : Item) (file : FinalFile) (e : ReadError) : Report where
  code := "web-js-read-failed"
  message := "failed to read web script '" ++ file.outputPath ++ "': " ++ e.message
  module := some item.module.name
  site := { Site.unknown with filename := some file.outputPath }
  conflicting := .unknown
  cause := some (.read e)

/-- What becomes of a web script. Only a path that does not get to the system, or a script that
cannot be encoded, ends the pass instead. -/
def transform (tree : FileTree) (item : Item) (file : FinalFile) : Except Fault Item :=
  if isBootstrap file then .ok item
  else match file.content.read tree with
    | .ok script =>
      match Text.Utf8.encode (setUp script (modulePath (place item file))) with
      | .ok octets =>
        .ok (item.withPayload (.final ⟨file.outputPath, .octets octets, some .web⟩))
      | .error e => .error (.unencodable e)
    | .error e =>
      if e.isExpected then .ok (item.withProblem (.report (unreadableReport item file e)))
      else .error (.read e)

def process (tree : FileTree) (items : List Item) : Except Fault (List Item) :=
  (Selection.ofItems pick items).replaceEach fun (item, file) => transform tree item file

end Amalgam.WebScript
