import Amalgam.Text.Basic

/-! # Sets of names

A set of names is kept as the strictly increasing list of its members, by code point. Equal sets
are then equal values, and reading a set in order needs no sorting.
-/

namespace Amalgam

structure NameSet where
  toList : List Text
  increasing : toList.Pairwise (· < ·)
deriving DecidableEq

namespace NameSet

instance : Membership Text NameSet where
  mem s name := name ∈ s.toList

instance (name : Text) (s : NameSet) : Decidable (name ∈ s) :=
  inferInstanceAs (Decidable (name ∈ s.toList))

theorem mem_def {name : Text} {s : NameSet} : name ∈ s ↔ name ∈ s.toList := Iff.rfl

def empty : NameSet := ⟨[], List.Pairwise.nil⟩

instance : EmptyCollection NameSet := ⟨empty⟩

instance : Inhabited NameSet := ⟨empty⟩

def isEmpty (s : NameSet) : Bool := s.toList.isEmpty

def place (name : Text) : List Text → List Text
  | [] => [name]
  | head :: rest =>
    if name < head then name :: head :: rest
    else if name = head then head :: rest
    else head :: place name rest

theorem mem_place {x name : Text} {names : List Text} :
    x ∈ place name names ↔ x = name ∨ x ∈ names := by
  induction names with
  | nil => simp [place]
  | cons head rest ih =>
    rw [place]
    split
    · simp
    · split
      · next h => simp [h]
      · simp only [List.mem_cons, ih]
        exact or_left_comm

theorem place_increasing {name : Text} {names : List Text}
    (h : names.Pairwise (· < ·)) : (place name names).Pairwise (· < ·) := by
  induction names with
  | nil => simp [place]
  | cons head rest ih =>
    obtain ⟨hBelow, hIncreasing⟩ := List.pairwise_cons.1 h
    rw [place]
    split
    · next hBefore =>
      refine List.pairwise_cons.2 ⟨fun x hx => ?_, h⟩
      rcases List.mem_cons.1 hx with rfl | hx
      · exact hBefore
      · exact Text.lt_trans hBefore (hBelow x hx)
    · next hNotBefore =>
      split
      · exact h
      · next hOther =>
        refine List.pairwise_cons.2 ⟨fun x hx => ?_, ih hIncreasing⟩
        rcases mem_place.1 hx with rfl | hx
        · exact Text.gt_of_not_lt_of_ne hNotBefore hOther
        · exact hBelow x hx

def insert (s : NameSet) (name : Text) : NameSet :=
  ⟨place name s.toList, place_increasing s.increasing⟩

def ofList (names : List Text) : NameSet := names.foldl insert empty

@[simp] theorem mem_insert {x name : Text} {s : NameSet} :
    x ∈ s.insert name ↔ x = name ∨ x ∈ s := mem_place

@[simp] theorem not_mem_empty {x : Text} : ¬x ∈ (∅ : NameSet) := List.not_mem_nil

theorem mem_foldl_insert {x : Text} {names : List Text} {s : NameSet} :
    x ∈ names.foldl insert s ↔ x ∈ s ∨ x ∈ names := by
  induction names generalizing s with
  | nil => simp
  | cons name names ih =>
    simp only [List.foldl_cons, ih, mem_insert, List.mem_cons]
    rw [or_comm (a := x = name), or_assoc]

@[simp] theorem mem_ofList {x : Text} {names : List Text} : x ∈ ofList names ↔ x ∈ names := by
  rw [ofList, mem_foldl_insert]
  exact or_iff_right not_mem_empty

end NameSet

end Amalgam
