import Amalgam.Proofs.TrampolineBlocks

/-! # Deduplicating again

Deduplication leaves a text as it is exactly if no two of its blocks share a name and none has a
name of the set. What it writes is such a text, so that a second run from the same set changes
nothing and ends with the same set.
-/

namespace Amalgam

namespace Merge

/-! ## Segments -/

theorem keepFirst_keepFirst (emitted : NameSet) (segments : List Segment) :
    keepFirst emitted (keepFirst emitted segments).1 = keepFirst emitted segments := by
  induction segments generalizing emitted with
  | nil => rfl
  | cons segment rest ih =>
    cases segment with
    | line text => simp only [keepFirst, ih]
    | block name lines =>
      rw [keepFirst]
      by_cases hEmitted : name ∈ emitted
      · rw [if_pos hEmitted, ih]
      · simp only [if_neg hEmitted, keepFirst, ih]

/-- Where nothing is kept, no name is new. -/
theorem keepFirst_of_fst_eq_nil {emitted : NameSet} {segments : List Segment}
    (h : (keepFirst emitted segments).1 = []) : keepFirst emitted segments = ([], emitted) := by
  rw [← keepFirst_keepFirst, h]
  rfl

/-- The blocks have names of their own, none of which is in the set. -/
structure Unrepeated (emitted : NameSet) (found : List Block) : Prop where
  distinct : (found.map Block.name).Nodup
  new : ∀ name ∈ found.map Block.name, name ∉ emitted

theorem unrepeated_cons_iff {emitted : NameSet} {b : Block} {found : List Block} :
    Unrepeated emitted (b :: found) ↔
      b.name ∉ emitted ∧ Unrepeated (emitted.insert b.name) found := by
  constructor
  · rintro ⟨hDistinct, hNew⟩
    rw [List.map_cons, List.nodup_cons] at hDistinct
    rw [List.map_cons, List.forall_mem_cons] at hNew
    refine ⟨hNew.1, hDistinct.2, fun name hName hMem => ?_⟩
    rcases NameSet.mem_insert.mp hMem with rfl | hMem
    · exact hDistinct.1 hName
    · exact hNew.2 name hName hMem
  · rintro ⟨hFirst, hDistinct, hNew⟩
    constructor
    · rw [List.map_cons, List.nodup_cons]
      exact ⟨fun hMem => hNew _ hMem (NameSet.mem_insert.mpr (.inl rfl)), hDistinct⟩
    · rw [List.map_cons, List.forall_mem_cons]
      exact ⟨hFirst, fun name hName hMem => hNew name hName (NameSet.mem_insert.mpr (.inr hMem))⟩

theorem keepFirst_eq_self_iff {emitted : NameSet} {segments : List Segment} :
    (keepFirst emitted segments).1 = segments ↔ Unrepeated emitted (blocksOf segments) := by
  induction segments generalizing emitted with
  | nil => exact iff_of_true rfl ⟨List.nodup_nil, fun _ hName => nomatch hName⟩
  | cons segment rest ih =>
    cases segment with
    | line text => rw [keepFirst, blocksOf_line, ← ih, List.cons_inj_right]
    | block name lines =>
      rw [keepFirst, blocksOf_block, unrepeated_cons_iff, ← ih]
      by_cases hEmitted : name ∈ emitted
      · rw [if_pos hEmitted]
        refine iff_of_false (fun hSame => ?_) fun h => h.1 hEmitted
        have hShorter := (keepFirst_sublist emitted rest).length_le
        rw [hSame] at hShorter
        exact Nat.not_succ_le_self _ hShorter
      · simp only [if_neg hEmitted, List.cons_inj_right]
        exact (and_iff_right hEmitted).symm

/-! ## Texts -/

theorem deduplicate_eq (content : Text) (emitted : NameSet) :
    deduplicate content emitted =
      (Text.joinLines ((keepFirst emitted (cut (Text.lines content))).1.flatMap Segment.lines),
        (keepFirst emitted (cut (Text.lines content))).2) := rfl

theorem deduplicate_fst_eq_iff {content : Text} {emitted : NameSet} :
    (deduplicate content emitted).1 = content ↔
      (keepFirst emitted (cut (Text.lines content))).1 = cut (Text.lines content) := by
  constructor
  · intro hSame
    have hCut := cut_deduplicate content emitted
    rw [hSame] at hCut
    split at hCut
    · rw [hCut]
      rfl
    · exact hCut.symm
  · intro hKept
    rw [deduplicate_eq, hKept, flatMap_lines_cut, Text.joinLines_lines]

/-- A second run from the same set changes neither the text nor the set that the first one ends
with. The texts that a run leaves as they are are those without repeated blocks. -/
theorem deduplicate_deduplicate (content : Text) (emitted : NameSet) :
    deduplicate (deduplicate content emitted).1 emitted = deduplicate content emitted ∧
      ((deduplicate content emitted).1 = content ↔ Unrepeated emitted (blocks content)) := by
  refine ⟨?_, deduplicate_fst_eq_iff.trans keepFirst_eq_self_iff⟩
  rw [deduplicate_eq (deduplicate content emitted).1, cut_deduplicate, deduplicate_eq content]
  split
  · next hNone =>
    -- The second run meets one empty line, which it writes as nothing.
    rw [keepFirst_of_fst_eq_nil hNone]
    rfl
  · rw [keepFirst_keepFirst]

end Merge

end Amalgam
