import Amalgam.Merge.CppHeader
import Mathlib.Data.List.Basic

/-! # The lines of a merged C++ header

A merged header is read back line by line. Its guard stands on the first line only: it is taken out
of every part, and a banner whose filename is on one line holds no other.
-/

namespace Amalgam

namespace Merge

/-! ## The lines of a part -/

theorem flatMap_lines_cppHeaderLines (part : Part) :
    (cppHeaderLines part).flatMap Text.lines =
      (banner part.filename).flatMap Text.lines ++
        (Text.lines part.content).filter (· ≠ pragmaOnce) ++ ([""] : List Text) := by
  have hLines : ∀ line ∈ (Text.lines part.content).filter (· ≠ pragmaOnce),
      .char '\n' ∉ line.toList := by
    intro line hLine
    exact Text.not_mem_of_mem_lines (List.mem_of_mem_filter hLine)
  rw [cppHeaderLines, List.flatMap_append, List.flatMap_append, Text.flatMap_lines hLines]
  rfl

theorem flatMap_lines_banner {filename : Text} (h : .char '\n' ∉ filename.toList) :
    (banner filename).flatMap Text.lines = banner filename := by
  have hMark : .char '\n' ∉ ("// " : Text).toList := by decide
  refine Text.flatMap_lines fun line hLine => ?_
  simp only [banner, List.mem_cons, List.not_mem_nil, or_false] at hLine
  rcases hLine with rfl | rfl | rfl | rfl
  · decide
  · rw [Text.toList_append, List.mem_append, not_or]
    exact ⟨hMark, h⟩
  · decide
  · decide

theorem pragmaOnce_not_mem_banner (filename : Text) : pragmaOnce ∉ banner filename := by
  have hName : pragmaOnce ≠ "// " ++ filename := by
    intro hSame
    -- The guard begins with another character than a comment.
    have hHead := congrArg (fun line : Text => line.toList.head?) hSame
    rw [Text.toList_append] at hHead
    cases hHead
  have hMark : pragmaOnce ≠ "//" := by decide
  have hEmpty : pragmaOnce ≠ "" := by decide
  simp [banner, hName, hMark, hEmpty]

/-! ## The lines of a merged header -/

theorem lines_cppHeader (parts : List Part) :
    Text.lines (cppHeader parts) =
      pragmaOnce :: (parts.flatMap fun part => (banner part.filename).flatMap Text.lines ++
        (Text.lines part.content).filter (· ≠ pragmaOnce) ++ ([""] : List Text)) ++
        ([""] : List Text) := by
  have hPragma : Text.lines pragmaOnce = [pragmaOnce] := by decide
  rw [cppHeader, Text.lines_unlines, List.flatMap_cons, hPragma, List.flatMap_assoc]
  simp only [flatMap_lines_cppHeaderLines]
  rfl

/-- Read back, a merged header holds the guard once, on its first line. The other lines are those of
the parts in order, each under its banner and before an empty line, less the guards among them. -/
theorem cppHeader_guarded_once (parts : List Part)
    (hNames : ∀ part ∈ parts, .char '\n' ∉ part.filename.toList) :
    let merged := Text.lines (cppHeader parts)
    let guard : Text := "#pragma once"
    merged.count guard = 1 ∧ merged.head? = some guard ∧
      merged.tail = (parts.flatMap fun part =>
        (["//", "// " ++ part.filename, "//", ""] : List Text) ++
          (Text.lines part.content).filter (· ≠ guard) ++ ([""] : List Text)) ++
        ([""] : List Text) := by
  intro merged guard
  have hMerged : merged = pragmaOnce :: (parts.flatMap fun part => banner part.filename ++
      (Text.lines part.content).filter (· ≠ pragmaOnce) ++ ([""] : List Text)) ++
      ([""] : List Text) := by
    refine (lines_cppHeader parts).trans
      (congrArg (pragmaOnce :: · ++ ([""] : List Text)) ?_)
    refine List.flatMap_congr fun part hPart => ?_
    rw [flatMap_lines_banner (hNames part hPart)]
  refine ⟨?_, by rw [hMerged]; rfl, by rw [hMerged]; rfl⟩
  have hEmpty : pragmaOnce ≠ "" := by decide
  have hRest : pragmaOnce ∉ (parts.flatMap fun part => banner part.filename ++
      (Text.lines part.content).filter (· ≠ pragmaOnce) ++ ([""] : List Text)) ++
      ([""] : List Text) := by
    simp [hEmpty, pragmaOnce_not_mem_banner]
  rw [hMerged, List.cons_append]
  exact List.count_cons_self.trans (congrArg Nat.succ (List.count_eq_zero.mpr hRest))

/-- A guard that is indented stays, and an empty part leaves an empty line of its own. -/
theorem cppHeader_indented_guard :
    let parts : List Part :=
      [⟨"a.hpp", "#pragma once\n  #pragma once\nint a;\n#pragma once"⟩, ⟨"b.hpp", ""⟩]
    (∀ part ∈ parts, .char '\n' ∉ part.filename.toList) ∧
      (Text.lines (cppHeader parts)).count ("#pragma once" : Text) = 1 ∧
      (Text.lines (cppHeader parts)).tail =
        (["//", "// a.hpp", "//", "", "  #pragma once", "int a;", "",
          "//", "// b.hpp", "//", "", "", "", ""] : List Text) := by
  intro parts
  have hNames : ∀ part ∈ parts, .char '\n' ∉ part.filename.toList := by decide
  obtain ⟨hCount, _, hTail⟩ := cppHeader_guarded_once parts hNames
  exact ⟨hNames, hCount, hTail.trans (by decide)⟩

end Merge

end Amalgam
