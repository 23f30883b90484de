import Amalgam.Diagnostic
import Amalgam.Module.Info

/-! # Items

An item is what passes through the pipeline: a generated native source, a finished file, or a
failure with what it struck. Stages select items by payload and make new ones; the place an
item comes from is kept, so that a diagnostic can name it.
-/

namespace Amalgam

inductive Platform where
  | android
  | ios
  | cpp
  | web
deriving DecidableEq, Repr

def Platform.name : Platform → Text
  | .android => "android"
  | .ios => "ios"
  | .cpp => "cpp"
  | .web => "web"

def Platform.ofName? (name : Text) : Option Platform :=
  [android, ios, cpp, web].find? fun platform => platform.name = name

inductive OutputTarget where
  | all
  | debug
  | release
deriving DecidableEq, Repr

/-- A generated source of one type. Sources with one grouping key and platform are merged; the
dependencies name sources of the same module that have to come first. -/
structure NativeSource where
  filename : Text
  content : Content
  groupingKey : Text
  priority : Int
  relativePath : Option Text
  dependencies : NameSet
deriving DecidableEq

def NativeSource.single (filename : Text) (content : Content) (relativePath : Option Text) :
    NativeSource where
  filename := filename
  content := content
  groupingKey := filename
  priority := 0
  relativePath := relativePath
  dependencies := ∅

structure FinalFile where
  outputPath : Text
  content : Content
  platform : Option Platform
deriving DecidableEq

inductive Payload where
  | native (source : NativeSource)
  | final (file : FinalFile)
deriving DecidableEq

/-- An item that failed keeps what it was before, if it was anything before it failed. -/
inductive Kind where
  | payload (p : Payload)
  | failed (problem : Problem)
  | struck (problem : Problem) (original : Kind)
deriving DecidableEq

structure Item where
  sourcePath : Option Path
  origin : Option Text
  kind : Kind
  module : ModuleInfo
  platform : Option Platform
  target : OutputTarget
deriving DecidableEq

namespace Item

def generated (module : ModuleInfo) (kind : Kind) (platform : Option Platform) : Item where
  sourcePath := some module.baseDir
  origin := none
  kind := kind
  module := module
  platform := platform
  target := .all

def displayPath (item : Item) : Text :=
  match item.origin, item.sourcePath with
  | some origin, _ => origin
  | none, some path => path.text
  | none, none => "<generated>"

def withPayload (item : Item) (p : Payload) : Item := { item with kind := .payload p }

/-- The same item as a failure that struck what the item was. -/
def withProblem (item : Item) (problem : Problem) : Item :=
  { item with kind := .struck problem item.kind }

def problem? (item : Item) : Option Problem :=
  match item.kind with
  | .failed problem | .struck problem _ => some problem
  | .payload _ => none

def native? (item : Item) : Option NativeSource :=
  match item.kind with
  | .payload (.native source) => some source
  | _ => none

def final? (item : Item) : Option FinalFile :=
  match item.kind with
  | .payload (.final file) => some file
  | _ => none

theorem native?_of_problem? {item : Item} (h : item.problem?.isSome = true) :
    item.native? = none := by
  rw [native?]
  split
  · next source hKind =>
    rw [problem?, hKind] at h
    cases h
  · rfl

theorem final?_of_problem? {item : Item} (h : item.problem?.isSome = true) :
    item.final? = none := by
  rw [final?]
  split
  · next file hKind =>
    rw [problem?, hKind] at h
    cases h
  · rfl

end Item

/-- The items a selection picks, each with what it found there, and the others in order. -/
structure Selection (α : Type) where
  selected : List (Item × α)
  untouched : List Item

namespace Selection

def ofItems {α : Type} (pick : Item → Option α) (items : List Item) : Selection α where
  selected := items.filterMap fun item => (pick item).map fun found => (item, found)
  untouched := items.filter fun item => (pick item).isNone

section

variable {α β γ : Type} {m : Type → Type} [Monad m]

/-- What `f` makes of all that is selected, joined to the other items. -/
def replaceAll (s : Selection α) (join : List Item → β → γ) (f : List (Item × α) → m β) : m γ := do
  return join s.untouched (← f s.selected)

def replaceEach (s : Selection α) (f : Item × α → m Item) : m (List Item) :=
  s.replaceAll (· ++ ·) fun selected => selected.mapM f

end

end Selection

end Amalgam
