/-! # Tables

A table is a list of keys with values, read at the first place of a key. `put` keeps the place of a
key that is there already and else adds it at the end.
-/

namespace Amalgam

abbrev Table (κ ν : Type) := List (κ × ν)

namespace Table

variable {κ ν : Type} [DecidableEq κ]

def get? (t : Table κ ν) (key : κ) : Option ν :=
  match t with
  | [] => none
  | (k, value) :: rest => if k = key then some value else get? rest key

def put (t : Table κ ν) (key : κ) (value : ν) : Table κ ν :=
  match t with
  | [] => [(key, value)]
  | (k, old) :: rest => if k = key then (k, value) :: rest else (k, old) :: put rest key value

def erase (t : Table κ ν) (key : κ) : Table κ ν := t.filter fun entry => entry.1 ≠ key

def keys (t : Table κ ν) : List κ := t.map Prod.fst

theorem get?_put (t : Table κ ν) (key other : κ) (value : ν) :
    get? (put t key value) other = if other = key then some value else get? t other := by
  induction t with
  | nil => simp [put, get?, eq_comm]
  | cons entry rest ih =>
    obtain ⟨k, old⟩ := entry
    by_cases hHere : k = key
    · subst hHere
      by_cases hSame : other = k
      · simp [put, get?, hSame]
      · simp [put, get?, hSame, Ne.symm hSame]
    · by_cases hFound : k = other
      · subst hFound
        simp [put, get?, hHere]
      · simp [put, get?, hHere, hFound, ih]

theorem get?_erase (t : Table κ ν) (key other : κ) :
    get? (erase t key) other = if other = key then none else get? t other := by
  induction t with
  | nil => simp [erase, get?]
  | cons entry rest ih =>
    obtain ⟨k, old⟩ := entry
    rw [erase] at ih
    by_cases hHere : k = key
    · subst hHere
      by_cases hSame : other = k
      · simpa [erase, hSame] using ih
      · simpa [erase, get?, hSame, Ne.symm hSame] using ih
    · by_cases hFound : k = other
      · subst hFound
        simp [erase, get?, hHere]
      · simpa [erase, get?, hHere, hFound] using ih

theorem keys_put (t : Table κ ν) (key : κ) (value : ν) :
    keys (put t key value) = if key ∈ keys t then keys t else keys t ++ [key] := by
  induction t with
  | nil => simp [put, keys]
  | cons entry rest ih =>
    obtain ⟨k, old⟩ := entry
    rw [keys, keys] at ih
    by_cases hHere : k = key
    · simp [put, keys, hHere]
    · simp only [put, hHere, if_false, keys, List.map_cons, ih, List.mem_cons, Ne.symm hHere,
        false_or]
      split <;> simp

end Table

end Amalgam
