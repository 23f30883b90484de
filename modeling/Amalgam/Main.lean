import Amalgam.Command

/-! # The program

The program reads from disk what a build may look at: the files its options name, the content its
manifests name, and all that is below the output directory. It runs the command on this tree and
puts on disk what the command changed.
-/

namespace Amalgam.Main

/-- Names on disk that are no UTF-8 are out of reach. -/
def nativeName (name : FileName) : String := (String.fromUTF8? ⟨name.toArray⟩).getD ""

def nativePath (l : Location) : String := "/" ++ "/".intercalate (l.map nativeName)

/-- Adds what is on disk at a location, and all that is below it if `deep` is set. -/
partial def observe (deep : Bool) (tree : FileTree) (l : Location) : IO FileTree := do
  if (tree.node? l).isSome && !deep then return tree
  let place := (← IO.currentDir) / nativePath l
  if ← place.isDir then
    let mut tree := tree.put l .directory
    if deep then
      for entry in ← place.readDir do
        tree ← observe deep tree (l ++ [Text.Utf8.octets entry.fileName])
    return tree
  else if ← place.pathExists then
    let octets ← IO.FS.readBinFile place
    return tree.put l (.file octets.data.toList)
  else return tree

/-- Adds what is on disk on the way to a path and at its end. -/
def observePath (deep : Bool) (tree : FileTree) (p : Path) : IO FileTree := do
  let mut tree := tree
  let mut here := tree.start p
  for name in p.fileNames do
    here := if name = FileTree.upward then here.dropLast else here ++ [name]
    tree ← observe false tree here
  if deep then observe true tree here else return tree

def storedPaths (items : List Item) : List Path :=
  items.filterMap fun item =>
    match item.native? with
    | some source =>
      match source.content with
      | .stored path => some path
      | _ => none
    | none => none

def observeBuild (s : Settings) (tree : FileTree) : IO FileTree := do
  let settings := s.modules :: s.projectConfig.toList
  let inputs := settings.filterMap Setting.value? ++ s.manifests
  let tree ← inputs.foldlM (observePath false) tree
  let tree ← s.out.value?.toList.foldlM (observePath true) tree
  match Build.plan s tree with
  | .error _ => return tree
  | .ok plan =>
    (plan.passes.flatMap fun pass => storedPaths pass.2).foldlM (observePath false) tree

/-- Removes from disk what is gone and puts there the directories and files that are new or
different, the higher ones first. -/
def store (before after : FileTree) : IO Unit := do
  for (l, _) in before.entries do
    if after.node? l = none then IO.FS.removeFile (nativePath l)
  let changed := after.entries.filter fun (l, node) => before.node? l ≠ some node
  let directories := changed.filter fun (_, node) => node = .directory
  for (l, _) in directories.mergeSort fun a b => a.1.length ≤ b.1.length do
    IO.FS.createDirAll (nativePath l)
  for (l, node) in changed do
    match node with
    | .file octets => IO.FS.writeBinFile (nativePath l) ⟨octets.toArray⟩
    | .directory => pure ()

def processNumber : IO Nat := do
  try
    let status ← IO.FS.readFile "/proc/self/stat"
    return (String.ofList (status.toList.takeWhile Char.isDigit)).toNat?.getD 1
  catch _ => return 1

/-- A text as the terminal gets it: half a surrogate pair is spelled out. -/
def shown (text : Text) : String :=
  String.join (text.toList.map fun
    | .char c => c.toString
    | .surrogate half => "\\u" ++ Text.hex 4 (CodePoint.surrogate half).toNat)

def run (arguments : List String) : IO UInt32 := do
  let arguments := arguments.map Text.ofString
  let here := Path.ofText (toString (← IO.currentDir))
  let tree ← observePath false FileTree.empty here
  let tree := { tree with workingDirectory := here.fileNames }
  let tree ← match Options.parse arguments with
    | .ok (.build settings _ _) => observeBuild settings tree
    | _ => pure tree
  let answer := Command.run arguments (← processNumber) tree
  store tree answer.tree
  IO.print (shown answer.stdout)
  IO.eprint (shown answer.stderr)
  match answer.ending with
  | .exit code => return UInt32.ofNat code
  | .aborted cause =>
    IO.eprintln (shown cause.message)
    return 1

end Amalgam.Main

def main (arguments : List String) : IO UInt32 := Amalgam.Main.run arguments
