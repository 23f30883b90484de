import Amalgam.Text.Basic
import Amalgam.Text.Hex

/-! # Strict UTF-8

`decode` reads octets one at a time. Between two characters it waits for a leading octet; after one
it holds a `Pending` sequence: where it began, the bits so far, how many octets are missing and
which octets may come next. The first octet outside that range ends the reading, so over-long forms,
surrogates and values above U+10FFFF never arise.

Half a surrogate pair that stands alone has no octets, and a text that holds one is not encoded.
Only in the names of files the halves from U+DC80 to U+DCFF stand for octets that belong to no
character.
-/

namespace Amalgam.Text.Utf8

inductive Reason where
  | start
  | continuation
  | ending
deriving DecidableEq, Repr

/-- Octets `first` to `last` are the longest beginning of a sequence that no character completes;
`octet` is the one at `first`. -/
structure Error where
  octet : UInt8
  first : Nat
  last : Nat
  reason : Reason
deriving DecidableEq, Repr

structure Pending where
  lead : UInt8
  first : Nat
  bits : Nat
  missing : Nat
  low : UInt8
  high : UInt8

inductive Lead where
  | character (c : Char)
  | opening (bits missing : Nat) (low high : UInt8)
  | invalid

def lead (octet : UInt8) : Lead :=
  let n := octet.toNat
  if octet < 0x80 then .character (Char.ofNat n)
  else if octet < 0xC2 then .invalid
  else if octet < 0xE0 then .opening (n - 0xC0) 1 0x80 0xBF
  else if octet = 0xE0 then .opening (n - 0xE0) 2 0xA0 0xBF
  else if octet = 0xED then .opening (n - 0xE0) 2 0x80 0x9F
  else if octet < 0xF0 then .opening (n - 0xE0) 2 0x80 0xBF
  else if octet = 0xF0 then .opening (n - 0xF0) 3 0x90 0xBF
  else if octet < 0xF4 then .opening (n - 0xF0) 3 0x80 0xBF
  else if octet = 0xF4 then .opening (n - 0xF0) 3 0x80 0x8F
  else .invalid

/-- Decodes octets from `position` on; the characters already read are in `done`, last first. -/
def scan (done : List Char) (position : Nat) :
    Option Pending → List UInt8 → Except Error (List Char)
  | none, [] => .ok done.reverse
  | some p, [] => .error ⟨p.lead, p.first, position - 1, .ending⟩
  | none, octet :: rest =>
    match lead octet with
    | .character c => scan (c :: done) (position + 1) none rest
    | .opening bits missing low high =>
      scan done (position + 1) (some ⟨octet, position, bits, missing, low, high⟩) rest
    | .invalid => .error ⟨octet, position, position, .start⟩
  | some p, octet :: rest =>
    if p.low ≤ octet ∧ octet ≤ p.high then
      let bits := p.bits * 64 + (octet.toNat - 0x80)
      if p.missing = 1 then scan (Char.ofNat bits :: done) (position + 1) none rest
      else scan done (position + 1)
        (some { p with bits := bits, missing := p.missing - 1, low := 0x80, high := 0xBF }) rest
    else .error ⟨p.lead, p.first, position - 1, .continuation⟩

def decode (octets : List UInt8) : Except Error (List Char) := scan [] 0 none octets

def Reason.message : Reason → String
  | .start => "invalid start byte"
  | .continuation => "invalid continuation byte"
  | .ending => "unexpected end of data"

def Error.message (e : Error) : String :=
  let place :=
    if e.first = e.last then s!"byte 0x{hex 2 e.octet.toNat} in position {e.first}"
    else s!"bytes in position {e.first}-{e.last}"
  s!"'utf-8' codec can't decode {place}: {e.reason.message}"

/-! ## Encoding -/

/-- The octet that half a surrogate pair stands for in the name of a file. -/
def escapedOctet? (half : Fin 0x800) : Option UInt8 :=
  if 0x480 ≤ half.val ∧ half.val < 0x500 then some (UInt8.ofNat (half.val - 0x400)) else none

def hasOctets : CodePoint → Bool
  | .char _ => true
  | .surrogate half => (escapedOctet? half).isSome

/-- The octets of a code point. Half a surrogate pair that stands for none is laid out like any
other number of its size, but no text that holds one is encoded. -/
def pointOctets : CodePoint → List UInt8
  | .char c => String.utf8EncodeChar c
  | .surrogate half =>
    match escapedOctet? half with
    | some octet => [octet]
    | none =>
      let n := 0xD800 + half.val
      [.ofNat (0xE0 + n / 0x1000), .ofNat (0x80 + n / 0x40 % 0x40), .ofNat (0x80 + n % 0x40)]

def octets (text : Text) : List UInt8 := text.toList.flatMap pointOctets

/-- The code point at `first` is not encoded, and those up to `last` are halves of surrogate pairs
like it. -/
structure EncodeError where
  point : CodePoint
  first : Nat
  last : Nat
deriving DecidableEq, Repr

def firstRefused? (accepts : CodePoint → Bool) (position : Nat) :
    List CodePoint → Option EncodeError
  | [] => none
  | point :: rest =>
    if accepts point then firstRefused? accepts (position + 1) rest
    else some ⟨point, position, position + (rest.takeWhile CodePoint.isSurrogate).length⟩

def encodeWith (accepts : CodePoint → Bool) (text : Text) : Except EncodeError (List UInt8) :=
  match firstRefused? accepts 0 text.toList with
  | none => .ok (octets text)
  | some e => .error e

def encode (text : Text) : Except EncodeError (List UInt8) :=
  encodeWith (fun c => !c.isSurrogate) text

def encodeName (text : Text) : Except EncodeError (List UInt8) := encodeWith hasOctets text

def EncodeError.message (e : EncodeError) : String :=
  let place :=
    if e.first = e.last then s!"character '\\u{hex 4 e.point.toNat}' in position {e.first}"
    else s!"characters in position {e.first}-{e.last}"
  s!"'utf-8' codec can't encode {place}: surrogates not allowed"

theorem firstRefused?_eq_none_iff {accepts : CodePoint → Bool} {position : Nat}
    {points : List CodePoint} :
    firstRefused? accepts position points = none ↔ ∀ c ∈ points, accepts c = true := by
  induction points generalizing position with
  | nil => simp [firstRefused?]
  | cons c rest ih =>
    rw [firstRefused?, List.forall_mem_cons]
    cases hFirst : accepts c with
    | true => rw [if_pos rfl, ih, and_iff_right rfl]
    | false => simp

theorem encodeWith_eq_ok_iff {accepts : CodePoint → Bool} {text : Text} {bytes : List UInt8} :
    encodeWith accepts text = .ok bytes ↔
      (∀ c ∈ text.toList, accepts c = true) ∧ bytes = octets text := by
  have hRefused := @firstRefused?_eq_none_iff accepts 0 text.toList
  rw [encodeWith, ← hRefused]
  cases firstRefused? accepts 0 text.toList with
  | none => simp [eq_comm]
  | some e => simp

end Amalgam.Text.Utf8
