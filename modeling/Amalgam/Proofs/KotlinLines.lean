import Amalgam.Merge.Kotlin
import Mathlib.Data.List.Basic
import Mathlib.Data.List.TakeWhile

/-! # The lines of merged Kotlin sources

A merged source is read back line by line. Its header lines are those of the parts, each once and in
the order in which they are first seen. They end where the first banner begins, as a banner begins
with no header line, and what follows are the bodies under their banners with nothing left out.
-/

namespace Amalgam

/-! ## First occurrences -/

theorem pairwise_idxOf_distinct {α : Type} [DecidableEq α] (elements : List α) :
    (distinct elements).Pairwise fun a b => elements.idxOf a < elements.idxOf b := by
  induction elements with
  | nil => exact .nil
  | cons first rest ih =>
    rw [distinct, List.pairwise_cons]
    constructor
    · intro b hb
      have hOther : b ≠ first := of_decide_eq_true (List.mem_filter.mp hb).2
      rw [List.idxOf_cons_self, List.idxOf_cons_ne _ hOther.symm]
      exact Nat.succ_pos _
    · refine (ih.filter _).imp_of_mem fun ha hb hLess => ?_
      have hFirst := of_decide_eq_true (List.mem_filter.mp ha).2
      have hSecond := of_decide_eq_true (List.mem_filter.mp hb).2
      rw [List.idxOf_cons_ne _ (Ne.symm hFirst), List.idxOf_cons_ne _ (Ne.symm hSecond)]
      exact Nat.succ_lt_succ hLess

/-! ## Line endings -/

theorem Text.dropCarriageReturns_eq_replaceFrom (text : List CodePoint) :
    dropCarriageReturns text = replaceFrom [.char '\r', .char '\n'] [.char '\n'] 0 text := by
  induction text using dropCarriageReturns.induct with
  | case1 rest ih =>
    rw [dropCarriageReturns, ih]
    rfl
  | case2 c rest hNot ih =>
    have hPattern : ¬[CodePoint.char '\r', .char '\n'].isPrefixOf (c :: rest) = true := by
      rw [List.isPrefixOf_iff_prefix]
      rintro ⟨behind, hSplit⟩
      obtain ⟨rfl, rfl⟩ := List.cons_eq_cons.mp hSplit
      exact hNot behind rfl rfl
    rw [dropCarriageReturns, replaceFrom, if_neg hPattern, ih]
    exact hNot
  | case3 => rfl

namespace Merge

/-! ## The lines of a part -/

theorem kotlinLines_eq (part : Part) :
    kotlinLines part = Text.lines (Text.replaceAll part.content "\r\n" "\n") := by
  rw [kotlinLines, Text.dropCarriageReturns_eq_replaceFrom]
  rfl

theorem not_mem_of_mem_kotlinLines {part : Part} {line : Text} (h : line ∈ kotlinLines part) :
    .char '\n' ∉ line.toList :=
  Text.not_mem_of_mem_lines h

theorem mem_kotlinHeader {part : Part} {line : Text} (h : line ∈ kotlinHeader part) :
    line ∈ kotlinLines part ∧ isKotlinHeader line = true ∧ line ≠ "" := by
  obtain ⟨hMem, hSome⟩ := List.mem_filter.mp h
  exact ⟨(List.takeWhile_sublist _).subset hMem, List.mem_takeWhile_imp hMem,
    of_decide_eq_true hSome⟩

/-- A filename may break the banner's line, but the banner begins with no header line. -/
theorem exists_lines_banner (filename : Text) :
    ∃ rest, (banner filename).flatMap Text.lines = ("//" : Text) :: rest := ⟨_, rfl⟩

def kotlinBodyLines (part : Part) : List Text := (kotlinBody part).flatMap Text.lines

theorem kotlinBodyLines_eq (part : Part) :
    kotlinBodyLines part =
      if (kotlinLines part).dropWhile isKotlinHeader = [] then []
      else (banner part.filename).flatMap Text.lines ++
        (kotlinLines part).dropWhile isKotlinHeader := by
  rw [kotlinBodyLines, kotlinBody]
  split
  · next hNone => rw [if_pos hNone, List.flatMap_nil]
  · next line rest hSome =>
    have hLines : ∀ l ∈ line :: rest, .char '\n' ∉ l.toList := by
      rw [← hSome]
      exact fun l hl => not_mem_of_mem_kotlinLines ((List.dropWhile_sublist _).subset hl)
    rw [hSome, if_neg (List.cons_ne_nil _ _), List.flatMap_append, Text.flatMap_lines hLines]

theorem kotlinBodyLines_eq_nil_iff {part : Part} :
    kotlinBodyLines part = [] ↔ (kotlinLines part).dropWhile isKotlinHeader = [] := by
  obtain ⟨rest, hBanner⟩ := exists_lines_banner part.filename
  rw [kotlinBodyLines_eq, hBanner]
  split
  · next hNone => exact iff_of_true rfl hNone
  · next hSome => exact iff_of_false (List.cons_ne_nil _ _) hSome

/-! ## The lines of a merged source -/

theorem bodies_cases (parts : List Part) :
    parts.flatMap kotlinBodyLines = [] ∨
      ∃ rest, parts.flatMap kotlinBodyLines = ("//" : Text) :: rest := by
  induction parts with
  | nil => exact .inl rfl
  | cons part others ih =>
    obtain ⟨rest, hBanner⟩ := exists_lines_banner part.filename
    rw [List.flatMap_cons, kotlinBodyLines_eq, hBanner]
    split
    · exact ih
    · exact .inr ⟨_, rfl⟩

theorem lines_kotlin (parts : List Part) :
    Text.lines (kotlin parts) =
      distinct (parts.flatMap kotlinHeader) ++
        ("" : Text) :: (parts.flatMap kotlinBodyLines ++ ([""] : List Text)) := by
  have hHeaders : ∀ line ∈ distinct (parts.flatMap kotlinHeader), .char '\n' ∉ line.toList := by
    intro line hLine
    obtain ⟨part, _, hMem⟩ := List.mem_flatMap.mp (mem_distinct.mp hLine)
    exact not_mem_of_mem_kotlinLines (mem_kotlinHeader hMem).1
  have hEmpty : Text.lines "" = ([""] : List Text) := rfl
  rw [kotlin, Text.lines_unlines, List.flatMap_append, Text.flatMap_lines hHeaders,
    List.flatMap_cons, hEmpty, List.flatMap_assoc]
  simp only [List.append_assoc, List.cons_append]
  rfl

/-- Where header lines are followed by an empty line and bodies, the boundary is found again. -/
theorem takeWhile_dropWhile_headers {headers bodies : List Text}
    (hHeaders : ∀ line ∈ headers, isKotlinHeader line = true ∧ line ≠ "")
    (hBodies : bodies = [] ∨ ∃ rest, bodies = ("//" : Text) :: rest) :
    let all := headers ++ ("" : Text) :: (bodies ++ ([""] : List Text))
    (all.takeWhile isKotlinHeader).filter (· ≠ ("" : Text)) = headers ∧
      all.dropWhile isKotlinHeader =
        bodies ++ if bodies = [] then [] else ([""] : List Text) := by
  intro all
  have hSome : headers.filter (· ≠ ("" : Text)) = headers :=
    List.filter_eq_self.mpr fun line hLine => decide_eq_true (hHeaders line hLine).2
  have hTake : all.takeWhile isKotlinHeader =
      headers ++ (("" : Text) :: (bodies ++ ([""] : List Text))).takeWhile isKotlinHeader :=
    List.takeWhile_append_of_pos fun line hLine => (hHeaders line hLine).1
  have hDrop : all.dropWhile isKotlinHeader =
      (("" : Text) :: (bodies ++ ([""] : List Text))).dropWhile isKotlinHeader :=
    List.dropWhile_append_of_pos fun line hLine => (hHeaders line hLine).1
  rw [hTake, hDrop, List.filter_append, hSome]
  rcases hBodies with rfl | ⟨rest, rfl⟩ <;> exact ⟨List.append_nil _, rfl⟩

theorem headers_bodies_kotlin (parts : List Part) :
    ((Text.lines (kotlin parts)).takeWhile isKotlinHeader).filter (· ≠ ("" : Text)) =
        distinct (parts.flatMap kotlinHeader) ∧
      (Text.lines (kotlin parts)).dropWhile isKotlinHeader =
        parts.flatMap kotlinBodyLines ++
          if ∀ part ∈ parts, (kotlinLines part).dropWhile isKotlinHeader = [] then []
          else ([""] : List Text) := by
  simp only [lines_kotlin, ← kotlinBodyLines_eq_nil_iff, ← List.flatMap_eq_nil_iff]
  refine takeWhile_dropWhile_headers (fun line hLine => ?_) (bodies_cases parts)
  obtain ⟨part, _, hMem⟩ := List.mem_flatMap.mp (mem_distinct.mp hLine)
  exact (mem_kotlinHeader hMem).2

/-- Read back, a merged source begins with the header lines of the parts, each once and in the order
in which they are first seen. What follows them are the bodies of the parts that have one, line for
line and each under its banner, and the end of the last line. -/
theorem kotlin_headers_bodies (parts : List Part) :
    let read := fun part : Part => Text.lines (Text.replaceAll part.content "\r\n" "\n")
    let seen := parts.flatMap fun part =>
      ((read part).takeWhile isKotlinHeader).filter (· ≠ ("" : Text))
    let body := fun part => (read part).dropWhile isKotlinHeader
    let merged := Text.lines (kotlin parts)
    let hoisted := (merged.takeWhile isKotlinHeader).filter (· ≠ ("" : Text))
    hoisted.Nodup ∧ (∀ line, line ∈ hoisted ↔ line ∈ seen) ∧
      (hoisted.Pairwise fun first second => seen.idxOf first < seen.idxOf second) ∧
      merged.dropWhile isKotlinHeader =
        (parts.flatMap fun part => if body part = [] then [] else
          (banner part.filename).flatMap Text.lines ++ body part) ++
        if ∀ part ∈ parts, body part = [] then [] else ([""] : List Text) := by
  intro read seen body merged hoisted
  have hRead : read = kotlinLines := funext fun part => (kotlinLines_eq part).symm
  obtain ⟨hHeaders, hBodies⟩ := headers_bodies_kotlin parts
  have hHoisted : hoisted = distinct seen := by
    simp only [seen, hRead]
    exact hHeaders
  refine ⟨?_, fun line => ?_, ?_, ?_⟩
  · rw [hHoisted]
    exact distinct_nodup seen
  · rw [hHoisted, mem_distinct]
  · rw [hHoisted]
    exact pairwise_idxOf_distinct seen
  · rw [funext kotlinBodyLines_eq] at hBodies
    simp only [body, hRead]
    exact hBodies

example :
    kotlin [⟨"A.kt", "package demo\r\n\r\nclass A\r\nimport Late\r\n"⟩, ⟨"B.kt", "import B\n"⟩] =
      "package demo\nimport B\n\n//\n// A.kt\n//\n\nclass A\nimport Late\n\n" := by
  decide +kernel

end Merge

end Amalgam
