/-! # Texts

A text is a list of code points. Most of them are characters. Half a surrogate pair may also stand
alone, as an escape in a JSON text or an argument that is no UTF-8 may bring it; such a text is as
good as any other until it has to be encoded. Texts are ordered by the numbers of their code points.
-/

namespace Amalgam

/-- The halves are counted from U+D800 on. -/
inductive CodePoint where
  | char (c : Char)
  | surrogate (half : Fin 0x800)
deriving DecidableEq, Repr, Inhabited

namespace CodePoint

instance : Coe Char CodePoint := ⟨char⟩

def toNat : CodePoint → Nat
  | char c => c.toNat
  | surrogate half => 0xD800 + half

def isSurrogate : CodePoint → Bool
  | char _ => false
  | surrogate _ => true

/-- A character is none of the numbers that the halves have. -/
theorem char_apart (c : Char) : c.toNat < 0xD800 ∨ 0xDFFF < c.toNat :=
  c.valid.imp_right And.left

theorem toNat_inj {a b : CodePoint} : a.toNat = b.toNat ↔ a = b := by
  refine ⟨fun h => ?_, congrArg toNat⟩
  cases a with
  | char c =>
    have hApart := char_apart c
    cases b with
    | char d => exact congrArg char (Char.toNat_inj.mp h)
    | surrogate half =>
      simp only [toNat] at h
      omega
  | surrogate half =>
    cases b with
    | char d =>
      have hApart := char_apart d
      simp only [toNat] at h
      omega
    | surrogate other => exact congrArg surrogate (Fin.ext (Nat.add_left_cancel h))

end CodePoint

structure Text where
  ofList ::
  toList : List CodePoint
deriving DecidableEq, Repr, Inhabited

namespace Text

def ofChars (characters : List Char) : Text := ⟨characters.map .char⟩

def ofString (s : String) : Text := ofChars s.toList

instance : Coe String Text := ⟨ofString⟩

instance : Append Text := ⟨fun a b => ⟨a.toList ++ b.toList⟩⟩

def singleton (c : CodePoint) : Text := ⟨[c]⟩

def join (pieces : List Text) : Text := ⟨pieces.flatMap toList⟩

def codes (text : Text) : List Nat := text.toList.map CodePoint.toNat

instance : LT Text := ⟨fun a b => a.codes < b.codes⟩

instance : DecidableLT Text := fun a b => inferInstanceAs (Decidable (a.codes < b.codes))

theorem toList_inj {a b : Text} : a.toList = b.toList ↔ a = b :=
  ⟨congrArg ofList, congrArg toList⟩

@[simp] theorem toList_ofList (points : List CodePoint) : (ofList points).toList = points := rfl

@[simp] theorem ofList_toList (text : Text) : ofList text.toList = text := rfl

@[simp] theorem toList_append (a b : Text) : (a ++ b).toList = a.toList ++ b.toList := rfl

@[simp] theorem toList_ofString (s : String) : (ofString s).toList = s.toList.map .char := rfl

@[simp] theorem toList_singleton (c : CodePoint) : (singleton c).toList = [c] := rfl

@[simp] theorem ofString_inj {s s' : String} : ofString s = ofString s' ↔ s = s' := by
  rw [← toList_inj, toList_ofString, toList_ofString,
    List.map_inj_right fun _ _ => CodePoint.char.inj, String.toList_inj]

theorem append_right_inj {a b : Text} (first : Text) : first ++ a = first ++ b ↔ a = b := by
  rw [← toList_inj, toList_append, toList_append, List.append_right_inj, toList_inj]

theorem append_assoc (a b c : Text) : a ++ b ++ c = a ++ (b ++ c) :=
  toList_inj.mp (List.append_assoc ..)

@[simp] theorem append_empty (a : Text) : a ++ ofString "" = a := toList_inj.mp (List.append_nil _)

theorem ofList_cons (c : CodePoint) (rest : List CodePoint) :
    ofList (c :: rest) = singleton c ++ ofList rest := rfl

/-! ## The order -/

theorem codes_inj {a b : Text} : a.codes = b.codes ↔ a = b := by
  rw [codes, codes, List.map_inj_right fun _ _ => CodePoint.toNat_inj.mp, toList_inj]

theorem lt_irrefl (a : Text) : ¬a < a := List.lt_irrefl a.codes

theorem lt_trans {a b c : Text} (h : a < b) (h' : b < c) : a < c := List.lt_trans h h'

theorem lt_asymm {a b : Text} (h : a < b) : ¬b < a := List.lt_asymm h

theorem eq_of_not_lt {a b : Text} (h : ¬a < b) (h' : ¬b < a) : a = b :=
  codes_inj.mp (List.le_antisymm h' h)

theorem gt_of_not_lt_of_ne {a b : Text} (h : ¬a < b) (hOther : a ≠ b) : b < a :=
  Decidable.by_contra fun h' => hOther (eq_of_not_lt h h')

theorem ne_of_lt {a b : Text} (h : a < b) : a ≠ b := fun hSame => lt_irrefl b (hSame ▸ h)

end Text

end Amalgam
