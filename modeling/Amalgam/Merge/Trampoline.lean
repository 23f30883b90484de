import Amalgam.Merge.Part
import Amalgam.NameSet
import Amalgam.Text.Substring
import Amalgam.Text.Word

/-! # Trampolines in Objective-C sources

The Objective-C generator emits the same trampoline functions with every type that needs them. A
line that begins with one of two signatures and a marked name opens a trampoline; its block runs to
the first line at whose end as many braces are closed as were opened, or to the end of the text.
Text is cut into such blocks and the lines outside them, and of the blocks with one name only the
first is kept.
-/

namespace Amalgam.Merge

def signatures : List Text := ["static SCValdiFieldValue ", "static id "]

def nameMarkers : List Text := ["SCValdiFunctionInvoke", "SCValdiBlockCreate"]

/-- The name in a trampoline's signature line: all word characters after the signature, provided
that they begin with a marker. -/
def trampolineNameWith (isWord : CodePoint → Bool) (line : List CodePoint) :
    Option (List CodePoint) :=
  signatures.findSome? fun signature =>
    if signature.toList.isPrefixOf line then
      let rest := line.drop signature.toList.length
      let name := rest.takeWhile isWord
      let isMarked := nameMarkers.any fun marker => marker.toList.isPrefixOf rest
      if isMarked && !name.isEmpty then some name else none
    else none

def trampolineName? (line : Text) : Option Text :=
  (trampolineNameWith Text.isWordChar line.toList).map Text.ofList

inductive Segment where
  | line (text : Text)
  | block (name : Text) (lines : List Text)
deriving DecidableEq, Repr

def braceBalance (line : Text) : Int :=
  (line.toList.count (.char '\x7b') : Int) - line.toList.count (.char '\x7d')

/-- The lines up to the first at whose end the depth is zero, and the lines after it. -/
def takeBlock (depth : Int) : List Text → List Text × List Text
  | [] => ([], [])
  | line :: rest =>
    let depth := depth + braceBalance line
    if depth = 0 then ([line], rest)
    else
      let (block, after) := takeBlock depth rest
      (line :: block, after)

theorem takeBlock_append (depth : Int) (lines : List Text) :
    (takeBlock depth lines).1 ++ (takeBlock depth lines).2 = lines := by
  induction lines generalizing depth with
  | nil => rfl
  | cons line rest ih =>
    simp only [takeBlock]
    split
    · rfl
    · simp [ih]

theorem takeBlock_shorter (depth : Int) (line : Text) (rest : List Text) :
    (takeBlock depth (line :: rest)).2.length < (line :: rest).length := by
  have hLength := congrArg List.length (takeBlock_append (depth + braceBalance line) rest)
  simp only [takeBlock]
  split
  · simp
  · simp only [List.length_append, List.length_cons] at hLength ⊢
    omega

def cut : List Text → List Segment
  | [] => []
  | line :: rest =>
    match trampolineName? line with
    | none => .line line :: cut rest
    | some name =>
      .block name (takeBlock 0 (line :: rest)).1 :: cut (takeBlock 0 (line :: rest)).2
termination_by lines => lines.length
decreasing_by
  · simp
  · exact takeBlock_shorter 0 line rest

def Segment.lines : Segment → List Text
  | .line text => [text]
  | .block _ lines => lines

def keepFirst (emitted : NameSet) : List Segment → List Segment × NameSet
  | [] => ([], emitted)
  | .line text :: rest =>
    let (kept, emitted) := keepFirst emitted rest
    (.line text :: kept, emitted)
  | .block name lines :: rest =>
    if name ∈ emitted then keepFirst emitted rest
    else
      let (kept, emitted) := keepFirst (emitted.insert name) rest
      (.block name lines :: kept, emitted)

def deduplicate (content : Text) (emitted : NameSet) : Text × NameSet :=
  let (kept, emitted) := keepFirst emitted (cut (Text.lines content))
  (Text.joinLines (kept.flatMap Segment.lines), emitted)

def deduplicateAll (emitted : NameSet) : List Text → List Text × NameSet
  | [] => ([], emitted)
  | content :: rest =>
    let (text, emitted) := deduplicate content emitted
    let (texts, emitted) := deduplicateAll emitted rest
    (text :: texts, emitted)

def objc (parts : List Part) : Text :=
  let (texts, _) := deduplicateAll ∅ (parts.map (·.content))
  Text.join (List.zipWith (fun part text => underBanner part.filename text) parts texts)

end Amalgam.Merge
