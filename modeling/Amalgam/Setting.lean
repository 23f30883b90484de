/-! # Settings

A setting may be given without a value. That it is blank only matters once its value is needed.
-/

namespace Amalgam

inductive Setting (α : Type) where
  | blank
  | value (a : α)
deriving DecidableEq, Repr

namespace Setting

def map {α β : Type} (f : α → β) : Setting α → Setting β
  | .blank => .blank
  | .value a => .value (f a)

def value? {α : Type} : Setting α → Option α
  | .blank => none
  | .value a => some a

def demand {α ε : Type} (s : Setting α) (missing : ε) : Except ε α :=
  match s with
  | .blank => .error missing
  | .value a => .ok a

end Setting

end Amalgam
