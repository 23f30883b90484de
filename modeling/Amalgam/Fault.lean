import Amalgam.Content

/-! # Faults

What can go wrong while items are processed: reading, encoding, or one of four kinds of failure of a
generator or another source of items, of which only the message is known.
-/

namespace Amalgam

inductive FailureKind where
  | generator
  | system
  | invalid
  | internal
deriving DecidableEq, Repr

structure Failure where
  kind : FailureKind
  message : Text
deriving DecidableEq, Repr

inductive Fault where
  | read (e : ReadError)
  | unencodable (e : Text.Utf8.EncodeError)
  | failure (f : Failure)
deriving DecidableEq, Repr

def Fault.message : Fault → Text
  | .read e => e.message
  | .unencodable e => e.message
  | .failure f => f.message

/-- Reading may fail for the system or the decoding; a path that does not get to the system is a
fault of its own. -/
def ReadError.isExpected : ReadError → Bool
  | .file .nullByte | .file (.unencodable _) => false
  | _ => true

/-- An internal failure is not one a generator may report. -/
def Failure.isExpected (f : Failure) : Bool := f.kind ≠ .internal

end Amalgam
