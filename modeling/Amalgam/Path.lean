import Amalgam.Text.Lines
import Amalgam.Text.Substring

/-! # Paths

A path is an anchor and the names after it. Reading one drops empty names and `.`, and keeps `..`;
one or at least three leading slashes anchor it at the root, exactly two at a root of their own.
-/

namespace Amalgam

inductive Anchor where
  | relative
  | root
  | doubleRoot
deriving DecidableEq, Repr, Inhabited

def Anchor.text : Anchor → Text
  | .relative => ""
  | .root => "/"
  | .doubleRoot => "//"

structure Path where
  anchor : Anchor
  parts : List Text
deriving DecidableEq, Repr, Inhabited

namespace Path

def anchorOf : List CodePoint → Anchor
  | '/' :: '/' :: '/' :: _ => .root
  | '/' :: '/' :: _ => .doubleRoot
  | '/' :: _ => .root
  | _ => .relative

def ofText (text : Text) : Path where
  anchor := anchorOf text.toList
  parts := (Text.split '/' text).filter fun name => name ≠ "" ∧ name ≠ "."

def here : Path := ⟨.relative, []⟩

def text (p : Path) : Text :=
  if p = here then "." else p.anchor.text ++ Text.joinWith "/" p.parts

def isAbsolute (p : Path) : Bool := p.anchor ≠ .relative

/-- An anchored path stands for itself, whatever it is joined to. -/
def join (p q : Path) : Path := if q.isAbsolute then q else ⟨p.anchor, p.parts ++ q.parts⟩

instance : Div Path := ⟨join⟩

/-- The path without its last name; a path without names is its own parent. -/
def parent (p : Path) : Path := { p with parts := p.parts.dropLast }

def name (p : Path) : Text := p.parts.getLast?.getD ""

/-- The path with another last name, if it has one. -/
def withName? (p : Path) (name : Text) : Option Path :=
  if p.parts = [] then none else some { p with parts := p.parts.dropLast ++ [name] }

end Path

end Amalgam
