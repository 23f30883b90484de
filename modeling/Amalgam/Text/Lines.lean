import Amalgam.Text.Basic

/-! # Pieces of a text

`splitAt` cuts a text at every occurrence of a code point, so a text has one piece more than it has
separators; `Text.lines` is the cut at newlines and `joinLines` undoes it.
-/

namespace Amalgam.Text

def splitAt (separator : CodePoint) : List CodePoint → List (List CodePoint)
  | [] => [[]]
  | c :: rest =>
    if c = separator then [] :: splitAt separator rest
    else match splitAt separator rest with
      | [] => [[c]]
      | piece :: pieces => (c :: piece) :: pieces

theorem splitAt_ne_nil (separator : CodePoint) (text : List CodePoint) :
    splitAt separator text ≠ [] := by
  cases text with
  | nil => simp [splitAt]
  | cons c rest =>
    rw [splitAt]
    split
    · simp
    · split <;> simp

def split (separator : CodePoint) (text : Text) : List Text :=
  (splitAt separator text.toList).map ofList

def lines (text : Text) : List Text := split '\n' text

def joinWith (separator : Text) : List Text → Text
  | [] => ""
  | [piece] => piece
  | piece :: next :: rest => piece ++ separator ++ joinWith separator (next :: rest)

theorem joinWith_cons (separator piece : Text) {pieces : List Text} (h : pieces ≠ []) :
    joinWith separator (piece :: pieces) = piece ++ separator ++ joinWith separator pieces := by
  cases pieces with
  | nil => exact absurd rfl h
  | cons next rest => rfl

theorem joinWith_splitAt (separator : CodePoint) (text : List CodePoint) :
    joinWith (singleton separator) ((splitAt separator text).map ofList) =
      ofList text := by
  induction text with
  | nil => rfl
  | cons c rest ih =>
    rw [splitAt]
    split
    · next hSame =>
      subst hSame
      rw [List.map_cons, joinWith_cons _ _ (by simpa using splitAt_ne_nil c rest), ih]
      rw [← toList_inj]
      simp
    · split at *
      · next hNone => exact absurd hNone (splitAt_ne_nil separator rest)
      · next piece pieces hFound =>
        rw [hFound] at ih
        cases pieces with
        | nil =>
          cases ih
          rfl
        | cons next others =>
          simp only [List.map_cons, joinWith] at ih ⊢
          rw [ofList_cons, ofList_cons, ← ih]
          simp only [append_assoc]

def joinLines (pieces : List Text) : Text := joinWith "\n" pieces

theorem joinLines_lines (text : Text) : joinLines (lines text) = text := by
  rw [joinLines, lines, split]
  exact joinWith_splitAt '\n' text.toList

theorem splitAt_of_not_mem {separator : CodePoint} {piece : List CodePoint}
    (h : separator ∉ piece) :
    splitAt separator piece = [piece] := by
  induction piece with
  | nil => rfl
  | cons c rest ih =>
    obtain ⟨hFirst, hRest⟩ := not_or.mp (mt List.mem_cons.mpr h)
    rw [splitAt, if_neg (Ne.symm hFirst), ih hRest]

theorem splitAt_append (separator : CodePoint) (first rest : List CodePoint) :
    splitAt separator (first ++ separator :: rest) =
      splitAt separator first ++ splitAt separator rest := by
  induction first with
  | nil => rw [List.nil_append, splitAt, splitAt, if_pos rfl, List.singleton_append]
  | cons c others ih =>
    rw [List.cons_append, splitAt, splitAt, ih]
    split
    · rfl
    · obtain ⟨piece, pieces, hPieces⟩ :=
        List.exists_cons_of_ne_nil (splitAt_ne_nil separator others)
      simp only [hPieces, List.cons_append]

theorem not_mem_of_mem_splitAt {separator : CodePoint} {text piece : List CodePoint}
    (h : piece ∈ splitAt separator text) : separator ∉ piece := by
  induction text generalizing piece with
  | nil =>
    rw [List.mem_singleton.mp h]
    exact List.not_mem_nil
  | cons c rest ih =>
    rw [splitAt] at h
    split at h
    · rcases List.mem_cons.mp h with rfl | h
      · exact List.not_mem_nil
      · exact ih h
    · next hOther =>
      split at h
      · next hNone => exact absurd hNone (splitAt_ne_nil separator rest)
      · next first others hRest =>
        rw [hRest] at ih
        rcases List.mem_cons.mp h with rfl | h
        · rw [List.mem_cons, not_or]
          exact ⟨Ne.symm hOther, ih List.mem_cons_self⟩
        · exact ih (List.mem_cons_of_mem _ h)

theorem not_mem_of_mem_lines {text line : Text} (h : line ∈ lines text) :
    .char '\n' ∉ line.toList := by
  obtain ⟨piece, hPiece, rfl⟩ := List.mem_map.mp h
  rw [toList_ofList]
  exact not_mem_of_mem_splitAt hPiece

theorem lines_of_not_mem {line : Text} (h : .char '\n' ∉ line.toList) : lines line = [line] := by
  rw [lines, split, splitAt_of_not_mem h, List.map_singleton, ofList_toList]

theorem lines_append (first rest : Text) :
    lines (first ++ "\n" ++ rest) = lines first ++ lines rest := by
  rw [lines, split, toList_append, toList_append, List.append_assoc]
  change (splitAt '\n' (first.toList ++ .char '\n' :: rest.toList)).map _ = _
  rw [splitAt_append, List.map_append]
  rfl

theorem lines_joinLines {pieces : List Text} (hSome : pieces ≠ [])
    (hLines : ∀ line ∈ pieces, .char '\n' ∉ line.toList) : lines (joinLines pieces) = pieces := by
  induction pieces with
  | nil => exact absurd rfl hSome
  | cons line rest ih =>
    have hLine : .char '\n' ∉ line.toList := hLines line List.mem_cons_self
    by_cases hRest : rest = []
    · subst hRest
      exact lines_of_not_mem hLine
    · have hOthers := ih hRest fun other hOther => hLines other (List.mem_cons_of_mem _ hOther)
      rw [joinLines, joinWith_cons _ _ hRest, ← joinLines, lines_append, lines_of_not_mem hLine,
        hOthers, List.singleton_append]

def unlines : List Text → Text
  | [] => ""
  | line :: rest => line ++ "\n" ++ unlines rest

theorem lines_unlines (pieces : List Text) :
    lines (unlines pieces) = pieces.flatMap lines ++ ([""] : List Text) := by
  induction pieces with
  | nil => rfl
  | cons line rest ih => rw [unlines, lines_append, ih, List.flatMap_cons, List.append_assoc]

theorem flatMap_lines {pieces : List Text} (h : ∀ line ∈ pieces, .char '\n' ∉ line.toList) :
    pieces.flatMap lines = pieces := by
  induction pieces with
  | nil => rfl
  | cons line rest ih =>
    rw [List.flatMap_cons, lines_of_not_mem (h line List.mem_cons_self),
      ih fun other hOther => h other (List.mem_cons_of_mem _ hOther)]
    rfl

/-- Reads a carriage return with the newline after it as that newline. -/
def dropCarriageReturns : List CodePoint → List CodePoint
  | '\r' :: '\n' :: rest => '\n' :: dropCarriageReturns rest
  | c :: rest => c :: dropCarriageReturns rest
  | [] => []

/-- Reads every line ending of a file, also a lone carriage return, as a newline. -/
def universalNewlines : List Char → List Char
  | '\r' :: '\n' :: rest => '\n' :: universalNewlines rest
  | '\r' :: rest => '\n' :: universalNewlines rest
  | c :: rest => c :: universalNewlines rest
  | [] => []

end Amalgam.Text
