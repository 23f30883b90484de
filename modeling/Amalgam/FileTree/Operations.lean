import Amalgam.FileTree.Basic
import Amalgam.Text.Quoted

/-! # Operations on file trees

Every operation names the path it fails on. One that fails half-way leaves what it did before in the
tree, so the operations are steps that end with a tree on success and on failure alike.
-/

namespace Amalgam

/-- What the system refuses, and what does not get that far: a path with the null character, a path
or a content that cannot be encoded, another name for a path without names. Directories are not made
where too many of them are missing. -/
inductive FileError where
  | refused (cause : Refusal) (path : Path) (target : Option Path)
  | nullByte
  | unencodable (e : Text.Utf8.EncodeError)
  | nameless (path : Path)
  | tooDeep
deriving DecidableEq, Repr

def Refusal.number : Refusal → Nat
  | .notFound => 2
  | .alreadyExists => 17
  | .notDirectory => 20
  | .isDirectory => 21
  | .nameTooLong => 36

def Refusal.message : Refusal → Text
  | .notFound => "No such file or directory"
  | .alreadyExists => "File exists"
  | .notDirectory => "Not a directory"
  | .isDirectory => "Is a directory"
  | .nameTooLong => "File name too long"

def FileError.message : FileError → Text
  | .nullByte => "embedded null byte"
  | .tooDeep => "maximum recursion depth exceeded while calling a Python object"
  | .unencodable e => e.message
  | .nameless path => "PosixPath(" ++ Text.quote path.text ++ ") has an empty name"
  | .refused cause path target =>
    let named :=
      s!"[Errno {cause.number}] " ++ cause.message ++ ": " ++ Text.quote path.text
    match target with
    | none => named
    | some target => named ++ " -> " ++ Text.quote target.text

/-- What keeps a path from the system. -/
def Path.barrier? (p : Path) : Option FileError :=
  match Text.Utf8.encodeName p.text with
  | .error e => some (.unencodable e)
  | .ok octets => if octets.contains 0 then some .nullByte else none

namespace FileTree

abbrev Step := EStateM FileError FileTree

def resolve (t : FileTree) (p : Path) : Except FileError Location :=
  match p.barrier? with
  | some e => .error e
  | none => (t.locate p).mapError fun cause => .refused cause p none

def read (t : FileTree) (p : Path) : Except FileError (List UInt8) := do
  match t.node? (← t.resolve p) with
  | some (.file octets) => return octets
  | some .directory => throw (.refused .isDirectory p none)
  | none => throw (.refused .notFound p none)

def ensureAt (p : Path) (l : Location) : Step Location := fun t =>
  match t.node? l with
  | some .directory => .ok l t
  | some (.file _) => .error (.refused .alreadyExists p none) t
  | none => .ok l (t.put l .directory)

def ensureDirectory (p : Path) : Step Location := fun t =>
  match t.resolve p with
  | .error e => .error e t
  | .ok l => ensureAt p l t

def ensureBelow (p : Path) (above : Location) : Step Location := fun t =>
  match t.walk above [Text.Utf8.octets p.name] with
  | .error cause => .error (.refused cause p none) t
  | .ok l => ensureAt p l t

/-- Makes a directory and, where the way to it is missing, first the directory above it. The first
that can be made has to be among the `room` lowest. -/
def makeDirectoriesWithin : Nat → Path → Step Location
  | 0, _ => fun t => .error .tooDeep t
  | room + 1, p => fun t =>
    match ensureDirectory p t with
    | .ok l t => .ok l t
    | .error e t =>
      if e = .refused .notFound p none ∧ p.parts ≠ [] then
        match makeDirectoriesWithin room p.parent t with
        | .ok above t => ensureBelow p above t
        | .error e t => .error e t
      else .error e t

/-- The most directories that may be missing on the way to another, that one included. -/
def longestMissingWay : Nat := 987

def makeDirectories (p : Path) : Step Unit := do
  let _ ← makeDirectoriesWithin longestMissingWay p

/-- Empties the file, then encodes the content: where that fails, an empty file is left. -/
def write (p : Path) (content : Text) : Step Unit := fun t =>
  match t.resolve p with
  | .error e => .error e t
  | .ok l =>
    match t.node? l with
    | some .directory => .error (.refused .isDirectory p none) t
    | _ =>
      match Text.Utf8.encode content with
      | .ok octets => .ok () (t.put l (.file octets))
      | .error e => .error (.unencodable e) (t.put l (.file []))

/-- Moves a file to another path, where it takes the place of a file but not of a directory. -/
def replace (source target : Path) : Step Unit := fun t =>
  let fail (cause : Refusal) := EStateM.Result.error (.refused cause source (some target)) t
  match source.barrier? <|> target.barrier? with
  | some e => .error e t
  | none =>
    match t.locate source, t.locate target with
    | .error cause, _ | .ok _, .error cause => fail cause
    | .ok s, .ok d =>
      match t.node? s, t.node? d with
      | some (.file octets), some (.file _) | some (.file octets), none =>
        .ok () ((t.erase s).put d (.file octets))
      | some _, _ => fail .isDirectory
      | none, _ => fail .notFound

end FileTree

end Amalgam
