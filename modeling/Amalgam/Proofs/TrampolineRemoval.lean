import Amalgam.Proofs.TrampolineBlocks

/-! # What deduplication leaves of a text

The lines of a text fall in one way into blocks and lines outside them: a block begins with a line
that opens a trampoline and ends with the first one that brings the braces back to depth zero, or
with the text. Deduplication takes out the blocks of names that were seen before and keeps all
else. Where each of them closes as many braces as it opens, the text that is left is as balanced as
the whole.
-/

namespace Amalgam

namespace Merge

/-! ## The rule of a cut -/

/-- The depth that lines lead to from zero. -/
def depth : List Text → Int
  | [] => 0
  | line :: rest => braceBalance line + depth rest

@[simp] theorem depth_nil : depth [] = 0 := rfl

@[simp] theorem depth_cons (line : Text) (rest : List Text) :
    depth (line :: rest) = braceBalance line + depth rest := rfl

@[simp] theorem depth_append (first second : List Text) :
    depth (first ++ second) = depth first + depth second := by
  induction first with
  | nil => exact (Int.zero_add _).symm
  | cons line rest ih => rw [List.cons_append, depth_cons, ih, depth_cons, Int.add_assoc]

/-- Taking out what leads from zero to zero changes no depth. -/
theorem depth_filter {α : Type} {keeps : α → Bool} {f : α → List Text} {elements : List α}
    (h : ∀ a ∈ elements, keeps a = false → depth (f a) = 0) :
    depth ((elements.filter keeps).flatMap f) = depth (elements.flatMap f) := by
  induction elements with
  | nil => rfl
  | cons a rest ih =>
    have hRest := ih fun b hb => h b (List.mem_cons_of_mem a hb)
    rw [List.flatMap_cons, depth_append, List.filter_cons]
    split
    · rw [List.flatMap_cons, depth_append, hRest]
    · next hOut =>
      rw [h a List.mem_cons_self (Bool.not_eq_true _ ▸ hOut), Int.zero_add, hRest]

/-- Whether lines that begin at some depth end with the first one after which it is zero. Where
nothing comes behind them it need not be zero. -/
structure Ends (start : Int) (lines rest : List Text) : Prop where
  inside : ∀ front back, lines = front ++ back → front ≠ [] → back ≠ [] → start + depth front ≠ 0
  last : start + depth lines = 0 ∨ rest = []

/-- The cuts of lines into blocks and lines outside them. -/
inductive Cuts : List Text → List Segment → Prop where
  | nil : Cuts [] []
  | line {line rest segments} : trampolineName? line = none → Cuts rest segments →
      Cuts (line :: rest) (.line line :: segments)
  | block {name first body rest segments} : trampolineName? first = some name →
      Ends 0 (first :: body) rest → Cuts rest segments →
      Cuts (first :: body ++ rest) (.block name (first :: body) :: segments)

theorem ends_nil_iff {start : Int} {rest : List Text} (h : start ≠ 0) :
    Ends start [] rest ↔ rest = [] := by
  constructor
  · intro hEnds
    refine hEnds.last.resolve_left fun hZero => h ?_
    rwa [depth_nil, Int.add_zero] at hZero
  · intro hRest
    refine ⟨fun front back hSplit hFront _ => ?_, .inr hRest⟩
    exact absurd (List.append_eq_nil_iff.mp hSplit.symm).1 hFront

theorem ends_cons_of_zero {start : Int} {line : Text} {others rest : List Text}
    (h : start + braceBalance line = 0) : Ends start (line :: others) rest ↔ others = [] := by
  constructor
  · intro hEnds
    by_contra hOthers
    refine hEnds.inside [line] others rfl (List.cons_ne_nil _ _) hOthers ?_
    rwa [depth_cons, depth_nil, Int.add_zero]
  · rintro rfl
    refine ⟨fun front back hSplit hFront hBack => ?_, .inl ?_⟩
    · rcases List.append_eq_singleton_iff.mp hSplit.symm with ⟨rfl, _⟩ | ⟨_, rfl⟩
      · exact absurd rfl hFront
      · exact absurd rfl hBack
    · rwa [depth_cons, depth_nil, Int.add_zero]

theorem ends_cons_of_ne_zero {start : Int} {line : Text} {others rest : List Text}
    (h : start + braceBalance line ≠ 0) :
    Ends start (line :: others) rest ↔ Ends (start + braceBalance line) others rest := by
  constructor
  · intro hEnds
    refine ⟨fun front back hSplit hFront hBack => ?_, ?_⟩
    · rw [Int.add_assoc, ← depth_cons]
      exact hEnds.inside (line :: front) back (congrArg _ hSplit) (List.cons_ne_nil _ _) hBack
    · rw [Int.add_assoc, ← depth_cons]
      exact hEnds.last
  · intro hEnds
    refine ⟨fun front back hSplit hFront hBack => ?_, ?_⟩
    · obtain ⟨head, tail, rfl⟩ := List.exists_cons_of_ne_nil hFront
      obtain ⟨rfl, hOthers⟩ := List.cons_eq_cons.mp hSplit
      rw [depth_cons, ← Int.add_assoc]
      by_cases hTail : tail = []
      · rwa [hTail, depth_nil, Int.add_zero]
      · exact hEnds.inside tail back hOthers hTail hBack
    · rw [depth_cons, ← Int.add_assoc]
      exact hEnds.last

/-- What is taken as a block are the lines that end by the rule. -/
theorem takeBlock_eq_iff {start : Int} {lines rest : List Text} (h : start ≠ 0 ∨ lines ≠ []) :
    takeBlock start (lines ++ rest) = (lines, rest) ↔ Ends start lines rest := by
  induction lines generalizing start with
  | nil =>
    rw [ends_nil_iff (h.resolve_right (not_not.mpr rfl)), List.nil_append]
    cases rest with
    | nil => exact iff_of_true rfl rfl
    | cons line rest =>
      obtain ⟨block, hBlock⟩ := takeBlock_cons_fst start line rest
      refine iff_of_false (fun hTake => ?_) (List.cons_ne_nil _ _)
      rw [hTake] at hBlock
      exact absurd hBlock.symm (List.cons_ne_nil _ _)
  | cons line others ih =>
    rw [List.cons_append, takeBlock]
    by_cases hZero : start + braceBalance line = 0
    · rw [ends_cons_of_zero hZero]
      simp only [if_pos hZero, Prod.mk.injEq, List.cons.injEq, true_and]
      constructor
      · rintro ⟨hOthers, _⟩
        exact hOthers.symm
      · rintro rfl
        exact ⟨rfl, List.nil_append rest⟩
    · rw [ends_cons_of_ne_zero hZero, ← ih (.inl hZero)]
      simp only [if_neg hZero, Prod.ext_iff, List.cons.injEq, true_and]

theorem Cuts.eq_cut {lines : List Text} {segments : List Segment} (h : Cuts lines segments) :
    segments = cut lines := by
  induction h with
  | nil => rw [cut]
  | line hName _ ih =>
    rw [cut, hName]
    exact congrArg _ ih
  | block hName hEnds _ ih =>
    have hBlock := (takeBlock_eq_iff (.inr (List.cons_ne_nil _ _))).mpr hEnds
    rw [List.cons_append] at hBlock ⊢
    rw [cut, hName]
    simp only [hBlock, ih]

theorem cuts_cut (lines : List Text) : Cuts lines (cut lines) := by
  induction lines using cut.induct with
  | case1 =>
    rw [cut]
    exact .nil
  | case2 line rest hName ih =>
    rw [cut, hName]
    exact .line hName ih
  | case3 line rest name hName ih =>
    have hWhole := takeBlock_append 0 (line :: rest)
    obtain ⟨body, hBody⟩ := takeBlock_cons_fst 0 line rest
    generalize hBehind : (takeBlock 0 (line :: rest)).2 = behind at ih hWhole
    have hEnds : Ends 0 (line :: body) behind := by
      rw [← takeBlock_eq_iff (.inr (List.cons_ne_nil _ _)), ← hBody, hWhole, hBody]
      exact Prod.ext hBody hBehind
    rw [cut, hName]
    simp only [hBehind, hBody]
    rw [← hWhole, hBody]
    exact .block hName hEnds ih

/-- Lines are cut in one way. -/
theorem cuts_iff {lines : List Text} {segments : List Segment} :
    Cuts lines segments ↔ segments = cut lines := by
  refine ⟨Cuts.eq_cut, ?_⟩
  rintro rfl
  exact cuts_cut lines

/-! ## The segments that are left -/

/-- Whether a segment is a block whose name is in the set or that of a block before it. -/
def Segment.Repeats (emitted : NameSet) (before : List Segment) : Segment → Prop
  | .line _ => False
  | .block name _ => name ∈ emitted ∨ name ∈ (blocksOf before).map Block.name

instance (emitted : NameSet) (before : List Segment) :
    (s : Segment) → Decidable (s.Repeats emitted before)
  | .line _ => inferInstanceAs (Decidable False)
  | .block _ _ => inferInstanceAs (Decidable (_ ∨ _))

theorem not_repeats_line (emitted : NameSet) (before : List Segment) (text : Text) :
    ¬(Segment.line text).Repeats emitted before := id

theorem repeats_block_iff {emitted : NameSet} {before : List Segment} {name : Text}
    {lines : List Text} : (Segment.block name lines).Repeats emitted before ↔
      name ∈ emitted ∨ name ∈ (blocksOf before).map Block.name := .rfl

/-- The segments of `rest` that repeat neither the set nor what comes before them. -/
def fresh (emitted : NameSet) (before rest : List Segment) : List Segment :=
  ((rest.zipIdx before.length).filter fun s =>
    ¬s.1.Repeats emitted ((before ++ rest).take s.2)).map Prod.fst

theorem fresh_cons (emitted : NameSet) (before : List Segment) (s : Segment)
    (rest : List Segment) :
    fresh emitted before (s :: rest) =
      if s.Repeats emitted before then fresh emitted (before ++ [s]) rest
      else s :: fresh emitted (before ++ [s]) rest := by
  have hLength : (before ++ [s]).length = before.length + 1 := List.length_append
  rw [fresh, List.zipIdx_cons, List.filter_cons, List.take_left, List.append_cons, ← hLength]
  split
  · next hFresh => rw [if_neg (of_decide_eq_true hFresh), List.map_cons, ← fresh]
  · next hRepeats => rw [if_pos (by simpa using hRepeats), ← fresh]

theorem blocksOf_append (first second : List Segment) :
    blocksOf (first ++ second) = blocksOf first ++ blocksOf second :=
  List.filterMap_append

theorem keepFirst_eq_fresh {emitted seen : NameSet} (before rest : List Segment)
    (hSeen : ∀ name, name ∈ seen ↔ name ∈ emitted ∨ name ∈ (blocksOf before).map Block.name) :
    (keepFirst seen rest).1 = fresh emitted before rest := by
  induction rest generalizing seen before with
  | nil => rfl
  | cons s rest ih =>
    rw [fresh_cons]
    cases s with
    | line text =>
      rw [if_neg (not_repeats_line emitted before text), keepFirst]
      refine congrArg _ (ih _ fun name => ?_)
      rw [blocksOf_append, blocksOf_line, blocksOf_nil, List.append_nil]
      exact hSeen name
    | block name lines =>
      have hNext : ∀ other, (other ∈ emitted ∨
          other ∈ (blocksOf (before ++ [.block name lines])).map Block.name) ↔
          other = name ∨ other ∈ seen := by
        intro other
        rw [blocksOf_append, List.map_append, List.mem_append, ← or_assoc, ← hSeen, or_comm]
        exact or_congr_left List.mem_singleton
      simp only [repeats_block_iff, ← hSeen, keepFirst]
      split
      · next hName =>
        refine ih _ fun other => .trans ?_ (hNext other).symm
        exact (or_iff_right_of_imp fun hOther => hOther ▸ hName).symm
      · exact congrArg _ (ih _ fun other => NameSet.mem_insert.trans (hNext other).symm)

/-- A segment is left unless it repeats the set or the segments before it. -/
theorem keepFirst_eq_filter (emitted : NameSet) (segments : List Segment) :
    (keepFirst emitted segments).1 =
      (segments.zipIdx.filter fun s =>
        ¬s.1.Repeats emitted (segments.take s.2)).map Prod.fst :=
  keepFirst_eq_fresh [] segments fun _ => (or_iff_left List.not_mem_nil).symm

/-! ## The balance that is left -/

theorem braceBalance_append (first second : Text) :
    braceBalance (first ++ second) = braceBalance first + braceBalance second := by
  simp only [braceBalance, Text.toList_append, List.count_append, Int.natCast_add]
  omega

theorem braceBalance_joinLines (lines : List Text) :
    braceBalance (Text.joinLines lines) = depth lines := by
  induction lines with
  | nil => rfl
  | cons line rest ih =>
    cases rest with
    | nil => rw [depth_cons, depth_nil, Int.add_zero]; rfl
    | cons next others =>
      have hNewline : braceBalance "\n" = 0 := by decide
      rw [Text.joinLines, Text.joinWith_cons _ _ (List.cons_ne_nil _ _), braceBalance_append,
        braceBalance_append, hNewline, Int.add_zero, depth_cons, ← ih, Text.joinLines]

theorem flatMap_zipIdx {α β : Type} (f : α → List β) (elements : List α) :
    (elements.zipIdx.flatMap fun s => f s.1) = elements.flatMap f := by
  rw [← List.flatMap_map, List.zipIdx_map_fst]

/-- Of a text the blocks are taken out that repeat a name of the set or of a block before, and all
else is left: what is outside the blocks, and the first block of every other name. The braces that
are left are as balanced as before if each block taken out is balanced in itself. -/
theorem repeated_blocks_removed (content : Text) (emitted : NameSet) :
    let segments := cut (Text.lines content)
    let repeats := fun s : Segment × Nat => s.1.Repeats emitted (segments.take s.2)
    let left := (segments.zipIdx.filter fun s => ¬repeats s).flatMap fun s => s.1.lines
    let text := (deduplicate content emitted).1
    (∀ other, Cuts (Text.lines content) other ↔ other = segments) ∧
      segments.flatMap Segment.lines = Text.lines content ∧
      (left = [] → text = "") ∧ (left ≠ [] → Text.lines text = left) ∧
      ((∀ s ∈ segments.zipIdx, repeats s → depth s.1.lines = 0) →
        braceBalance text = braceBalance content) := by
  intro segments repeats left text
  have hLeft : (keepFirst emitted segments).1.flatMap Segment.lines = left := by
    rw [keepFirst_eq_filter, List.flatMap_map]
  have hText : text = Text.joinLines left := congrArg Text.joinLines hLeft
  have hLines : ∀ line ∈ left, .char '\n' ∉ line.toList := by
    rw [← hLeft]
    exact fun _ hLine => not_mem_of_mem_segments (keepFirst_sublist emitted segments) hLine
  refine ⟨fun _ => cuts_iff, flatMap_lines_cut _, fun hNone => ?_, fun hSome => ?_,
    fun hZero => ?_⟩
  · rw [hText, hNone]
    rfl
  · rw [hText, Text.lines_joinLines hSome hLines]
  · have hDepth : depth left = depth (segments.zipIdx.flatMap fun s => s.1.lines) :=
      depth_filter fun s hs hOut => hZero s hs (by simpa using hOut)
    rw [flatMap_zipIdx, flatMap_lines_cut] at hDepth
    rw [hText, braceBalance_joinLines, hDepth, ← braceBalance_joinLines, Text.joinLines_lines]

/-- The second definition of a trampoline goes, and with it as many braces of one kind as of the
other. The function behind it stays open. -/
theorem repeated_definition_removed :
    let definition := "static id SCValdiBlockCreateA(void) \x7b\n\x7d\n"
    let content := definition ++ "int a;\n" ++ definition ++ "void f() \x7b"
    let segments := cut (Text.lines content)
    (∀ s ∈ segments.zipIdx, s.1.Repeats ∅ (segments.take s.2) → depth s.1.lines = 0) ∧
      (deduplicate content ∅).1 = definition ++ "int a;\nvoid f() \x7b" ∧
      braceBalance (deduplicate content ∅).1 = braceBalance content := by
  intro definition content segments
  have hZero : ∀ s ∈ segments.zipIdx,
      s.1.Repeats ∅ (segments.take s.2) → depth s.1.lines = 0 := by decide +kernel
  obtain ⟨_, _, _, _, hBalance⟩ := repeated_blocks_removed content ∅
  exact ⟨hZero, by decide +kernel, hBalance hZero⟩

end Merge

end Amalgam
