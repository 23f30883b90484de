import Amalgam.WebScript
import Mathlib.Data.List.Infix

/-! # Calls of a web script

A replacement cuts a text at the occurrences of a pattern and joins the pieces again. If the pattern
does not overlap what stands in its place, it is nowhere in the result. If no two occurrences of a
pattern overlap, there is one way to cut a text at them. So the calls of a web script are all
rerouted, and a script that has no rerouted call to begin with can be read back.
-/

namespace Amalgam

namespace Text

variable {pattern replacement piece text result rest : List CodePoint}

/-! ## Overlaps -/

/-- The ends of one text that another begins with. -/
def overlaps (first second : List CodePoint) : List (List CodePoint) :=
  first.tails.filter (·.isPrefixOf second)

theorem mem_overlaps_iff {overlap first second : List CodePoint} :
    overlap ∈ overlaps first second ↔ overlap <:+ first ∧ overlap <+: second := by
  rw [overlaps, List.mem_filter, List.mem_tails, List.isPrefixOf_iff_prefix]

/-- An occurrence of the pattern does not touch the replacement. -/
structure Apart (pattern replacement : List CodePoint) : Prop where
  within : ¬pattern <:+: replacement
  around : ¬replacement <:+: pattern
  before : overlaps pattern replacement = [[]]
  after : overlaps replacement pattern = [[]]

/-- Two occurrences of the pattern do not overlap. -/
def Unbordered (pattern : List CodePoint) : Prop := overlaps pattern pattern = [pattern, []]

theorem Apart.eq_nil_of_before (h : Apart pattern replacement) {overlap : List CodePoint}
    (hEnd : overlap <:+ pattern) (hStart : overlap <+: replacement) : overlap = [] := by
  have hMem := mem_overlaps_iff.mpr ⟨hEnd, hStart⟩
  rw [h.before] at hMem
  exact List.mem_singleton.mp hMem

theorem Apart.eq_nil_of_after (h : Apart pattern replacement) {overlap : List CodePoint}
    (hEnd : overlap <:+ replacement) (hStart : overlap <+: pattern) : overlap = [] := by
  have hMem := mem_overlaps_iff.mpr ⟨hEnd, hStart⟩
  rw [h.after] at hMem
  exact List.mem_singleton.mp hMem

theorem Unbordered.ne_nil (h : Unbordered pattern) : pattern ≠ [] := by
  rintro rfl
  cases h

theorem Unbordered.eq_or_eq_nil (h : Unbordered pattern) {border : List CodePoint}
    (hEnd : border <:+ pattern) (hStart : border <+: pattern) :
    border = pattern ∨ border = [] := by
  have hMem := mem_overlaps_iff.mpr ⟨hEnd, hStart⟩
  rw [h] at hMem
  simpa using hMem

/-! ## What a replacement does -/

/-- A text becomes another by a replacement at every occurrence of the pattern, so that the pattern
is in none of the pieces between them. -/
inductive Replaced (pattern replacement : List CodePoint) :
    List CodePoint → List CodePoint → Prop where
  | last {piece : List CodePoint} : ¬pattern <:+: piece → Replaced pattern replacement piece piece
  | next {piece text result : List CodePoint} :
      ¬pattern <:+: piece → Replaced pattern replacement text result →
      Replaced pattern replacement (piece ++ pattern ++ text) (piece ++ replacement ++ result)

theorem Replaced.cons {c : CodePoint} (h : Replaced pattern replacement text result)
    (hHere : ¬pattern <+: c :: text) : Replaced pattern replacement (c :: text) (c :: result) := by
  cases h with
  | last hPiece =>
    refine .last fun hInfix => ?_
    exact (List.infix_cons_iff.mp hInfix).elim hHere hPiece
  | @next piece text result hPiece hRest =>
    refine @Replaced.next _ _ (c :: piece) _ _ (fun hInfix => ?_) hRest
    rcases List.infix_cons_iff.mp hInfix with hStart | hInfix
    · rw [List.append_assoc] at hHere
      exact hHere (hStart.trans (List.prefix_append (c :: piece) _))
    · exact hPiece hInfix

theorem replaceFrom_append (pattern replacement skipped rest : List CodePoint) :
    replaceFrom pattern replacement skipped.length (skipped ++ rest) =
      replaceFrom pattern replacement 0 rest := by
  induction skipped with
  | nil => rfl
  | cons c others ih => exact ih

theorem replaceFrom_pattern_append (h : pattern ≠ []) :
    replaceFrom pattern replacement 0 (pattern ++ rest) =
      replacement ++ replaceFrom pattern replacement 0 rest := by
  obtain ⟨c, others, rfl⟩ := List.exists_cons_of_ne_nil h
  have hHere : (c :: others).isPrefixOf (c :: (others ++ rest)) = true :=
    List.isPrefixOf_iff_prefix.mpr (List.prefix_append (c :: others) rest)
  rw [List.cons_append, replaceFrom, if_pos hHere, List.length_cons, Nat.add_sub_cancel,
    replaceFrom_append]

theorem replaceFrom_cons_of_not_here {c : CodePoint} (h : ¬pattern <+: c :: rest) :
    replaceFrom pattern replacement 0 (c :: rest) =
      c :: replaceFrom pattern replacement 0 rest := by
  rw [replaceFrom, if_neg (mt List.isPrefixOf_iff_prefix.mp h)]

theorem replaced_replaceFrom (h : pattern ≠ []) (replacement text : List CodePoint) :
    Replaced pattern replacement text (replaceFrom pattern replacement 0 text) := by
  -- What follows an occurrence is shorter than the text, but not by one character.
  induction hLength : text.length using Nat.strongRecOn generalizing text with
  | ind n ih =>
    cases text with
    | nil => exact .last fun hInfix => h (List.infix_nil.mp hInfix)
    | cons c others =>
      by_cases hHere : pattern <+: c :: others
      · obtain ⟨rest, hSplit⟩ := hHere
        have hShorter : rest.length < n := by
          rw [← hLength, ← hSplit, List.length_append]
          exact Nat.lt_add_of_pos_left (List.length_pos_iff.mpr h)
        rw [← hSplit, replaceFrom_pattern_append h]
        exact @Replaced.next _ _ [] _ _ (fun hInfix => h (List.infix_nil.mp hInfix))
          (ih rest.length hShorter rest rfl)
      · rw [replaceFrom_cons_of_not_here hHere]
        exact (ih others.length (hLength ▸ Nat.lt_succ_self _) others rfl).cons hHere

/-! ## Nothing is left, nothing is lost -/

theorem Replaced.pattern_absent (h : Replaced pattern replacement text result)
    (hApart : Apart pattern replacement) : ¬pattern <:+: result := by
  induction h with
  | last hPiece => exact hPiece
  | @next piece text result hPiece _ ih =>
    intro hInfix
    rcases List.infix_append_iff.mp hInfix with
      hFirst | hRest | ⟨first, second, hSplit, hEnd, hStart⟩
    · rcases List.infix_append_iff.mp hFirst with
        hFirst | hWithin | ⟨first, second, hSplit, hEnd, hStart⟩
      · exact hPiece hFirst
      · exact hApart.within hWithin
      · -- It would begin in the piece and end in the replacement.
        have hNone := hApart.eq_nil_of_before (hSplit ▸ List.suffix_append first second) hStart
        rw [hNone, List.append_nil] at hSplit
        exact hPiece (hSplit ▸ hEnd.isInfix)
    · exact ih hRest
    · have hPrefix : first <+: pattern := hSplit ▸ List.prefix_append first second
      rcases List.suffix_or_suffix_of_suffix hEnd (List.suffix_append piece replacement) with
        hInside | hAround
      · -- It would begin in the replacement and end behind it.
        have hNone := hApart.eq_nil_of_after hInside hPrefix
        rw [hNone, List.nil_append] at hSplit
        exact ih (hSplit ▸ hStart.isInfix)
      · exact hApart.around (hAround.isInfix.trans hPrefix.isInfix)

theorem Replaced.reverse (h : Replaced pattern replacement text result)
    (hNone : ¬replacement <:+: text) : Replaced replacement pattern result text := by
  induction h with
  | last _ => exact .last hNone
  | @next piece text result _ _ ih =>
    refine .next (fun hPiece => hNone ?_) (ih fun hRest => hNone ?_)
    · exact List.infix_append_of_infix_left (List.infix_append_of_infix_left hPiece)
    · exact hRest.trans (List.suffix_append _ text).isInfix

/-- A pattern without a border is found at its first occurrence. -/
theorem replaceFrom_piece_append (hPattern : Unbordered pattern) (hPiece : ¬pattern <:+: piece) :
    replaceFrom pattern replacement 0 (piece ++ pattern ++ rest) =
      piece ++ replacement ++ replaceFrom pattern replacement 0 rest := by
  induction piece with
  | nil => exact replaceFrom_pattern_append hPattern.ne_nil
  | cons c others ih =>
    have hNotHere : ¬pattern <+: c :: (others ++ pattern ++ rest) := by
      rintro ⟨tail, hSplit⟩
      rw [List.append_assoc, ← List.cons_append] at hSplit
      rcases List.append_eq_append_iff.mp hSplit with ⟨_, hOthers, _⟩ | ⟨border, hBorder, hBehind⟩
      · exact hPiece (hOthers ▸ List.infix_append_left)
      · -- The occurrence would reach into the one that follows.
        have hEnd : border <:+ pattern := hBorder ▸ List.suffix_append _ border
        have hStart : border <+: pattern :=
          List.prefix_of_prefix_length_le ⟨tail, hBehind.symm⟩ (List.prefix_append pattern rest)
            hEnd.length_le
        rcases hPattern.eq_or_eq_nil hEnd hStart with rfl | rfl
        · exact List.cons_ne_nil _ _ (List.self_eq_append_left.mp hBorder)
        · rw [List.append_nil] at hBorder
          exact hPiece (hBorder ▸ List.infix_rfl)
    rw [List.cons_append, List.cons_append, replaceFrom_cons_of_not_here hNotHere,
      ih fun hInfix => hPiece (List.infix_cons hInfix)]
    rfl

theorem replaceFrom_of_absent (h : ¬pattern <:+: text) :
    replaceFrom pattern replacement 0 text = text := by
  induction text with
  | nil => rfl
  | cons c rest ih =>
    rw [replaceFrom_cons_of_not_here fun hHere => h hHere.isInfix,
      ih fun hInfix => h (List.infix_cons hInfix)]

/-- A pattern without a border is replaced in one way. -/
theorem replaced_iff (hPattern : Unbordered pattern) :
    Replaced pattern replacement text result ↔
      result = replaceFrom pattern replacement 0 text := by
  constructor
  · intro h
    induction h with
    | last hPiece => rw [replaceFrom_of_absent hPiece]
    | next hPiece _ ih => rw [replaceFrom_piece_append hPattern hPiece, ih]
  · rintro rfl
    exact replaced_replaceFrom hPattern.ne_nil replacement text

end Text

namespace WebScript

theorem require_apart :
    Text.Apart ("require(" : Text).toList ("customRequire(" : Text).toList where
  within := by decide
  around := by decide
  before := by decide
  after := by decide

theorem require_unbordered : Text.Unbordered ("require(" : Text).toList := by
  rw [Text.Unbordered]
  decide

theorem customRequire_unbordered : Text.Unbordered ("customRequire(" : Text).toList := by
  rw [Text.Unbordered]
  decide

/-- A script that is set up has two lines in front of its text. In the text every `require` call is
rerouted, none is left as it was, and nothing else is changed. If no call was rerouted before, the
text can be read back. -/
theorem require_calls_rerouted (script path : Text) :
    ∃ body,
      setUp script path = "module.path = \"" ++ path ++ "\";\n" ++
        ("var customRequire = globalThis.moduleLoader.resolveRequire(\"" ++ path ++ "\");\n") ++
        body ∧
      Text.Replaced ("require(" : Text).toList ("customRequire(" : Text).toList
        script.toList body.toList ∧
      ¬("require(" : Text).toList <:+: body.toList ∧
      (¬("customRequire(" : Text).toList <:+: script.toList →
        Text.replaceAll body "customRequire(" "require(" = script) := by
  refine ⟨Text.replaceAll script "require(" "customRequire(",
    by simp only [setUp, head, Text.append_assoc], ?_⟩
  have hBody : Text.Replaced ("require(" : Text).toList ("customRequire(" : Text).toList
      script.toList
      (Text.replaceAll script "require(" "customRequire(").toList :=
    (Text.replaced_iff require_unbordered).mpr (Text.toList_ofList _)
  refine ⟨hBody, hBody.pattern_absent require_apart, fun hNone => ?_⟩
  have hScript := (Text.replaced_iff customRequire_unbordered).mp (hBody.reverse hNone)
  rw [Text.replaceAll, ← hScript, Text.ofList_toList]

/-- Calls in calls, and a name that only ends as the call does. -/
theorem require_calls_rerouted_nested :
    let script : Text := "customrequire(require(require('a')))"
    ¬("customRequire(" : Text).toList <:+: script.toList ∧
      ∃ body, setUp script "m" = "module.path = \"m\";\n" ++
          "var customRequire = globalThis.moduleLoader.resolveRequire(\"m\");\n" ++ body ∧
        Text.replaceAll body "customRequire(" "require(" = script := by
  intro script
  have hNone : ¬("customRequire(" : Text).toList <:+: script.toList := by decide +kernel
  obtain ⟨body, hSetUp, _, _, hBack⟩ := require_calls_rerouted script "m"
  exact ⟨hNone, body, hSetUp, hBack hNone⟩

end WebScript

end Amalgam
