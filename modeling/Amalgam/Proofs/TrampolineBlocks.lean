import Amalgam.Merge.Trampoline
import Mathlib.Data.List.Nodup

/-! # Blocks of merged Objective-C sources

Taking segments out of a text does not change how the others are cut: a block ends by its own lines,
or runs to the end of the text and then has nothing behind it. So the segments that are kept are
also the cut of the text that is written, and of every name the first block is the one that is left.
-/

namespace Amalgam

namespace Merge

/-! ## Cutting again -/

/-- A block ends where it ends, whatever comes behind it; one that nothing comes behind may also
run to the end. -/
theorem takeBlock_append_other (depth : Int) (lines other : List Text)
    (h : (takeBlock depth lines).2 = [] → other = []) :
    takeBlock depth ((takeBlock depth lines).1 ++ other) = ((takeBlock depth lines).1, other) := by
  induction lines generalizing depth with
  | nil => rw [h rfl]; rfl
  | cons line rest ih =>
    rw [takeBlock] at h ⊢
    by_cases hZero : depth + braceBalance line = 0
    · simp only [if_pos hZero, List.cons_append, List.nil_append, takeBlock]
    · simp only [if_neg hZero, List.cons_append, takeBlock] at h ⊢
      rw [ih _ h]

theorem takeBlock_cons_fst (depth : Int) (line : Text) (rest : List Text) :
    ∃ block, (takeBlock depth (line :: rest)).1 = line :: block := by
  rw [takeBlock]
  by_cases hZero : depth + braceBalance line = 0
  · exact ⟨[], by simp only [if_pos hZero]⟩
  · exact ⟨_, by simp only [if_neg hZero]; rfl⟩

theorem flatMap_lines_cut (lines : List Text) : (cut lines).flatMap Segment.lines = lines := by
  induction lines using cut.induct with
  | case1 => rw [cut, List.flatMap_nil]
  | case2 line rest hName ih =>
    rw [cut, hName]
    exact congrArg (line :: ·) ih
  | case3 line rest name hName ih =>
    rw [cut, hName]
    simp only [List.flatMap_cons, Segment.lines, ih, takeBlock_append]

/-- What is left of a text after some of its segments are taken out is cut as before. -/
theorem cut_flatMap_lines {lines : List Text} {kept : List Segment}
    (h : kept.Sublist (cut lines)) : cut (kept.flatMap Segment.lines) = kept := by
  induction lines using cut.induct generalizing kept with
  | case1 =>
    rw [cut, List.sublist_nil] at h
    rw [h, List.flatMap_nil, cut]
  | case2 line rest hName ih =>
    rw [cut, hName] at h
    rcases List.sublist_cons_iff.mp h with hRest | ⟨others, rfl, hRest⟩
    · exact ih hRest
    · rw [List.flatMap_cons, Segment.lines, List.singleton_append, cut, hName]
      exact congrArg (Segment.line line :: ·) (ih hRest)
  | case3 line rest name hName ih =>
    rw [cut, hName] at h
    rcases List.sublist_cons_iff.mp h with hRest | ⟨others, rfl, hRest⟩
    · exact ih hRest
    · have hBehind : (takeBlock 0 (line :: rest)).2 = [] → others.flatMap Segment.lines = [] := by
        intro hNone
        rw [hNone, cut, List.sublist_nil] at hRest
        rw [hRest, List.flatMap_nil]
      have hAgain := takeBlock_append_other 0 (line :: rest) _ hBehind
      obtain ⟨block, hBlock⟩ := takeBlock_cons_fst 0 line rest
      rw [hBlock, List.cons_append] at hAgain
      simp only [List.flatMap_cons, Segment.lines, hBlock, List.cons_append]
      rw [cut, hName]
      simp only [hAgain, ih hRest]

/-! ## The blocks that are kept -/

structure Block where
  name : Text
  lines : List Text
deriving DecidableEq, Repr

def Segment.block? : Segment → Option Block
  | .line _ => none
  | .block name lines => some ⟨name, lines⟩

def blocksOf (segments : List Segment) : List Block := segments.filterMap Segment.block?

/-- The trampolines of a text, each as it is opened outside the others. -/
def blocks (text : Text) : List Block := blocksOf (cut (Text.lines text))

@[simp] theorem blocksOf_nil : blocksOf [] = [] := rfl

@[simp] theorem blocksOf_line (text : Text) (rest : List Segment) :
    blocksOf (.line text :: rest) = blocksOf rest := rfl

@[simp] theorem blocksOf_block (name : Text) (lines : List Text) (rest : List Segment) :
    blocksOf (.block name lines :: rest) = ⟨name, lines⟩ :: blocksOf rest := rfl

theorem keepFirst_sublist (emitted : NameSet) (segments : List Segment) :
    (keepFirst emitted segments).1.Sublist segments := by
  induction segments generalizing emitted with
  | nil => exact List.Sublist.refl []
  | cons segment rest ih =>
    cases segment with
    | line text => exact (ih emitted).cons_cons _
    | block name lines =>
      rw [keepFirst]
      split
      · exact (ih emitted).cons _
      · exact (ih (emitted.insert name)).cons_cons _

theorem mem_keepFirst {emitted : NameSet} {segments : List Segment} {name : Text} :
    name ∈ (keepFirst emitted segments).2 ↔
      name ∈ emitted ∨ name ∈ (blocksOf segments).map Block.name := by
  induction segments generalizing emitted with
  | nil => simp [keepFirst]
  | cons segment rest ih =>
    cases segment with
    | line text => exact ih
    | block other lines =>
      rw [blocksOf_block, List.map_cons, List.mem_cons, keepFirst]
      split
      · next hOther =>
        rw [ih]
        constructor
        · rintro (h | h)
          · exact .inl h
          · exact .inr (.inr h)
        · rintro (h | rfl | h)
          · exact .inl h
          · exact .inl hOther
          · exact .inr h
      · rw [ih, NameSet.mem_insert, or_assoc, or_left_comm]

/-- Of a name that was not seen before, the first block is kept. -/
theorem filter_keepFirst (emitted : NameSet) (segments : List Segment) (name : Text) :
    ((blocksOf (keepFirst emitted segments).1).filter fun b => b.name = name) =
      if name ∈ emitted then [] else ((blocksOf segments).find? fun b => b.name = name).toList := by
  induction segments generalizing emitted with
  | nil => simp [keepFirst]
  | cons segment rest ih =>
    cases segment with
    | line text => exact ih emitted
    | block other lines =>
      rw [blocksOf_block, keepFirst]
      by_cases hSame : other = name
      · subst hSame
        by_cases hEmitted : other ∈ emitted
        · rw [if_pos hEmitted, ih, if_pos hEmitted, if_pos hEmitted]
        · have hInserted : other ∈ emitted.insert other := NameSet.mem_insert.mpr (.inl rfl)
          simp only [if_neg hEmitted, blocksOf_block]
          rw [List.filter_cons_of_pos (by simp), ih, if_pos hInserted,
            List.find?_cons_of_pos (by simp), Option.toList_some]
      · rw [List.find?_cons_of_neg (by simpa using hSame)]
        by_cases hEmitted : other ∈ emitted
        · rw [if_pos hEmitted, ih]
        · simp only [if_neg hEmitted, blocksOf_block]
          rw [List.filter_cons_of_neg (by simpa using hSame), ih]
          simp only [NameSet.mem_insert, Ne.symm hSame, false_or]

/-! ## The texts that are written -/

theorem trampolineName?_empty : trampolineName? "" = none := by decide

theorem not_mem_of_mem_segments {content line : Text} {kept : List Segment}
    (h : kept.Sublist (cut (Text.lines content))) (hLine : line ∈ kept.flatMap Segment.lines) :
    .char '\n' ∉ line.toList := by
  obtain ⟨segment, hSegment, hLine⟩ := List.mem_flatMap.mp hLine
  have hMem : line ∈ (cut (Text.lines content)).flatMap Segment.lines :=
    List.mem_flatMap.mpr ⟨segment, h.subset hSegment, hLine⟩
  rw [flatMap_lines_cut] at hMem
  exact Text.not_mem_of_mem_lines hMem

/-- The text that is written is cut into the segments that are kept. Where none is kept, it is one
empty line. -/
theorem cut_deduplicate (content : Text) (emitted : NameSet) :
    cut (Text.lines (deduplicate content emitted).1) =
      if (keepFirst emitted (cut (Text.lines content))).1 = [] then [.line ""]
      else (keepFirst emitted (cut (Text.lines content))).1 := by
  have hSublist := keepFirst_sublist emitted (cut (Text.lines content))
  change cut (Text.lines (Text.joinLines ((keepFirst emitted (cut (Text.lines content))).1.flatMap
    Segment.lines))) = _
  generalize (keepFirst emitted (cut (Text.lines content))).1 = kept at hSublist ⊢
  split
  · next hNone =>
    have hEmpty : Text.lines (Text.joinLines []) = ([""] : List Text) := by decide
    rw [hNone, List.flatMap_nil, hEmpty, cut, trampolineName?_empty, cut]
  · next hSome =>
    have hNonempty : kept.flatMap Segment.lines ≠ [] := by
      intro hNone
      refine hSome ?_
      rw [← cut_flatMap_lines hSublist, hNone, cut]
    have hLines : ∀ line ∈ kept.flatMap Segment.lines, .char '\n' ∉ line.toList := fun _ hLine =>
      not_mem_of_mem_segments hSublist hLine
    rw [Text.lines_joinLines hNonempty hLines, cut_flatMap_lines hSublist]

theorem blocks_deduplicate (content : Text) (emitted : NameSet) :
    blocks (deduplicate content emitted).1 =
      blocksOf (keepFirst emitted (cut (Text.lines content))).1 := by
  rw [blocks, cut_deduplicate]
  split
  · next hNone => rw [hNone]; rfl
  · rfl

theorem mem_deduplicate {content name : Text} {emitted : NameSet} :
    name ∈ (deduplicate content emitted).2 ↔
      name ∈ emitted ∨ name ∈ (blocks content).map Block.name :=
  mem_keepFirst

theorem blocks_deduplicate_sublist (content : Text) (emitted : NameSet) :
    (blocks (deduplicate content emitted).1).Sublist (blocks content) := by
  rw [blocks_deduplicate]
  exact (keepFirst_sublist _ _).filterMap _

theorem mem_deduplicateAll {contents : List Text} {name : Text} {emitted : NameSet} :
    name ∈ (deduplicateAll emitted contents).2 ↔
      name ∈ emitted ∨ name ∈ (contents.flatMap blocks).map Block.name := by
  induction contents generalizing emitted with
  | nil => simp [deduplicateAll]
  | cons content rest ih =>
    rw [List.flatMap_cons, List.map_append, List.mem_append, ← or_assoc, ← mem_deduplicate]
    exact ih

theorem blocks_deduplicateAll_sublist (emitted : NameSet) (contents : List Text) :
    List.Forall₂ (fun text content => (blocks text).Sublist (blocks content))
      (deduplicateAll emitted contents).1 contents := by
  induction contents generalizing emitted with
  | nil => exact .nil
  | cons content rest ih => exact .cons (blocks_deduplicate_sublist content emitted) (ih _)

/-- Of all files together, the first block of a name is kept, unless the name was seen before. -/
theorem filter_deduplicateAll (emitted : NameSet) (contents : List Text) (name : Text) :
    ((deduplicateAll emitted contents).1.flatMap blocks).filter (fun b => b.name = name) =
      if name ∈ emitted then []
      else ((contents.flatMap blocks).find? fun b => b.name = name).toList := by
  induction contents generalizing emitted with
  | nil => simp [deduplicateAll]
  | cons content rest ih =>
    have hFirst : (blocks (deduplicate content emitted).1).filter (fun b => b.name = name) =
        if name ∈ emitted then []
        else ((blocks content).find? fun b => b.name = name).toList := by
      rw [blocks_deduplicate]
      exact filter_keepFirst _ _ name
    rw [deduplicateAll]
    simp only [List.flatMap_cons, List.filter_append, hFirst, ih, mem_deduplicate]
    by_cases hEmitted : name ∈ emitted
    · simp only [hEmitted, true_or, if_true, List.append_nil]
    · simp only [hEmitted, false_or, if_false, List.find?_append]
      cases hFound : (blocks content).find? fun b => b.name = name with
      | none =>
        have hAbsent : name ∉ (blocks content).map Block.name := by
          intro hName
          obtain ⟨b, hb, rfl⟩ := List.mem_map.mp hName
          exact absurd (decide_eq_true rfl) (List.find?_eq_none.mp hFound b hb)
        rw [if_neg hAbsent]
        rfl
      | some b =>
        have hPresent : name ∈ (blocks content).map Block.name :=
          List.mem_map.mpr ⟨b, List.mem_of_find?_eq_some hFound, by
            simpa using List.find?_some hFound⟩
        rw [if_pos hPresent]
        rfl

/-- In the texts that are written, every name has at most one trampoline and none was seen before;
of every other name the first trampoline is left, line for line and in its own file. -/
theorem one_block_per_name (emitted : NameSet) (contents : List Text) :
    let texts := (deduplicateAll emitted contents).1
    let kept := texts.flatMap blocks
    (kept.map Block.name).Nodup ∧ (∀ name ∈ kept.map Block.name, name ∉ emitted) ∧
      (∀ name, name ∈ (deduplicateAll emitted contents).2 ↔
        name ∈ emitted ∨ name ∈ (contents.flatMap blocks).map Block.name) ∧
      (∀ name, name ∉ emitted → kept.filter (fun b => b.name = name) =
        ((contents.flatMap blocks).find? fun b => b.name = name).toList) ∧
      List.Forall₂ (fun text content => (blocks text).Sublist (blocks content)) texts contents := by
  intro texts kept
  have hFilter := filter_deduplicateAll emitted contents
  refine ⟨?_, ?_, fun name => mem_deduplicateAll, ?_, blocks_deduplicateAll_sublist _ _⟩
  · rw [List.nodup_iff_count_le_one]
    intro name
    have hCount : (kept.map Block.name).count name =
        (kept.filter fun b => b.name = name).length := by
      rw [List.count, List.countP_map, List.countP_eq_length_filter]
      rfl
    rw [hCount, hFilter]
    split
    · exact Nat.zero_le 1
    · exact Option.length_toList_le
  · intro name hName hEmitted
    obtain ⟨b, hb, rfl⟩ := List.mem_map.mp hName
    have hNone := hFilter b.name
    rw [if_pos hEmitted, List.filter_eq_nil_iff] at hNone
    exact hNone b hb (decide_eq_true rfl)
  · intro name hEmitted
    rw [hFilter, if_neg hEmitted]

end Merge

end Amalgam
