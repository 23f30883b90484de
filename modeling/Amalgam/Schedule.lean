import Amalgam.Item

/-! # The order within a bucket

Sources are ordered so that one comes after the sources it depends on, ties going to the lesser
priority and then to the lesser filename. An entry waits for as many names as it depends on that
some entry of the bucket bears. Entries that wait for nothing are ready and kept in order; the first
is released, every waiting entry that names it is counted down, and those that reach zero become
ready in front of their equals. What still waits when nothing is ready is stuck behind a cycle and
comes last, in order.
-/

namespace Amalgam

/-- Whether a source goes before another one by priority and filename. -/
def NativeSource.precedes (a b : NativeSource) : Bool :=
  a.priority < b.priority || (a.priority == b.priority && decide (a.filename < b.filename))

structure Schedule (α : Type) where
  released : List α
  stuck : List α
deriving DecidableEq, Repr

namespace Schedule

variable {α : Type} (source : α → NativeSource)

def order (s : Schedule α) : List α := s.released ++ s.stuck

/-- Places an entry in front of the first one that does not precede it. -/
def place (entry : α) : List α → List α
  | [] => [entry]
  | head :: rest =>
    if (source head).precedes (source entry) then head :: place entry rest
    else entry :: head :: rest

def sort (entries : List α) : List α := entries.foldr (place source) []

structure Waiting (α : Type) where
  entry : α
  missing : Nat
deriving DecidableEq, Repr

def missing (entries : List α) (entry : α) : Nat :=
  (source entry).dependencies.toList.countP fun name =>
    (entries.map fun e => (source e).filename).contains name

def countDown (name : Text) (w : Waiting α) : Waiting α :=
  if name ∈ (source w.entry).dependencies then { w with missing := w.missing - 1 } else w

/-- The waiting entries after `released` is out: those that are ready now and the others. -/
def advance (released : α) (waiting : List (Waiting α)) : List α × List (Waiting α) :=
  let counted := waiting.map (countDown source (source released).filename)
  ((counted.filter fun w => w.missing = 0).map (·.entry), counted.filter fun w => w.missing ≠ 0)

theorem length_place (entry : α) (entries : List α) :
    (place source entry entries).length = entries.length + 1 := by
  induction entries with
  | nil => rfl
  | cons head rest ih =>
    rw [place]
    split <;> simp [ih]

theorem length_foldl_place (entries ready : List α) :
    (entries.foldl (fun ready e => place source e ready) ready).length =
      entries.length + ready.length := by
  induction entries generalizing ready with
  | nil => simp
  | cons e rest ih =>
    simp only [List.foldl_cons, ih, length_place, List.length_cons]
    omega

theorem length_split (waiting : List (Waiting α)) :
    (waiting.filter fun w => w.missing = 0).length +
      (waiting.filter fun w => w.missing ≠ 0).length = waiting.length := by
  induction waiting with
  | nil => rfl
  | cons w rest ih => by_cases hReady : w.missing = 0 <;> simp [hReady] at ih ⊢ <;> omega

theorem length_advance (released : α) (waiting : List (Waiting α)) :
    (advance source released waiting).1.length + (advance source released waiting).2.length =
      waiting.length := by
  simp only [advance, List.length_map, length_split]

def drain (ready : List α) (waiting : List (Waiting α)) : List α × List (Waiting α) :=
  match ready with
  | [] => ([], waiting)
  | first :: rest =>
    let freed := (advance source first waiting).1
    let others := (advance source first waiting).2
    let (released, stuck) := drain (freed.foldl (fun ready e => place source e ready) rest) others
    (first :: released, stuck)
termination_by ready.length + waiting.length
decreasing_by
  have := length_advance source first waiting
  rw [length_foldl_place, List.length_cons]
  omega

def ofEntries (entries : List α) : Schedule α :=
  let waiting := entries.map fun e => Waiting.mk e (missing source entries e)
  let ready := (waiting.filter fun w => w.missing = 0).map (·.entry)
  let (released, stuck) := drain source (sort source ready) (waiting.filter fun w => w.missing ≠ 0)
  ⟨released, sort source (stuck.map (·.entry))⟩

def cycle? (s : Schedule α) : Option (List Text) :=
  if s.stuck.isEmpty then none else some (s.stuck.map fun e => (source e).filename)

end Schedule

end Amalgam
