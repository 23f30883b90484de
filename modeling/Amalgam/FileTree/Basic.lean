import Amalgam.Path
import Amalgam.Table
import Amalgam.Text.Utf8

/-! # File trees

A file tree maps locations, the names from the root down, to files and directories; the root itself
is always a directory. Names are octets, and different texts may stand for one name. Relative paths
start at the working directory. A path is followed name by name: every place on the way has to be a
directory, and `..` leads to the place above.
-/

namespace Amalgam

abbrev FileName := List UInt8

abbrev Location := List FileName

inductive Node where
  | file (octets : List UInt8)
  | directory
deriving DecidableEq, Repr

structure FileTree where
  entries : Table Location Node
  workingDirectory : Location
deriving Repr

inductive Refusal where
  | notFound
  | alreadyExists
  | notDirectory
  | isDirectory
  | nameTooLong
deriving DecidableEq, Repr

def Path.fileNames (p : Path) : List FileName := p.parts.map Text.Utf8.octets

namespace FileTree

def empty : FileTree := ⟨[], []⟩

def node? (t : FileTree) (l : Location) : Option Node :=
  if l = [] then some .directory
  else t.entries.get? l

def erase (t : FileTree) (l : Location) : FileTree :=
  { t with entries := t.entries.erase l }

def put (t : FileTree) (l : Location) (node : Node) : FileTree :=
  { t with entries := t.entries.put l node }

/-- The longest name a directory holds and the longest path that can be given, in octets. -/
def longestName : Nat := 255

def longestPath : Nat := 4095

/-- The name `..`. -/
def upward : FileName := Text.Utf8.octets ".."

def walk (t : FileTree) (here : Location) : List FileName → Except Refusal Location
  | [] => .ok here
  | name :: rest =>
    match t.node? here with
    | none => .error .notFound
    | some (.file _) => .error .notDirectory
    | some .directory =>
      if longestName < name.length then .error .nameTooLong
      else t.walk (if name = upward then here.dropLast else here ++ [name]) rest

def start (t : FileTree) (p : Path) : Location :=
  if p.isAbsolute then [] else t.workingDirectory

def locate (t : FileTree) (p : Path) : Except Refusal Location :=
  if longestPath < (Text.Utf8.octets p.text).length then .error .nameTooLong
  else t.walk (t.start p) p.fileNames

/-! ## What is where after a change -/

theorem node?_erase (t : FileTree) (l m : Location) (h : m ≠ []) :
    (t.erase l).node? m = if m = l then none else t.node? m := by
  simp only [node?, erase, if_neg h, Table.get?_erase]

theorem node?_put (t : FileTree) (l m : Location) (node : Node) (h : m ≠ []) :
    (t.put l node).node? m = if m = l then some node else t.node? m := by
  simp only [node?, put, if_neg h, Table.get?_put]

end FileTree

end Amalgam
