import Amalgam.Schedule
import Mathlib.Data.List.Sort
import Mathlib.Data.Prod.Lex

/-! # Schedules and the order of the input

Entries are compared by rank: by priority and then by filename. A release is felt through its
filename alone, so two runs over the same entries release the same ranks, whatever the order in
which the entries were given. Where the ranks are distinct the schedule itself is the same.
-/

namespace Amalgam

instance : LinearOrder Text where
  le a b := ¬b < a
  lt a b := a < b
  le_refl := Text.lt_irrefl
  le_trans a b c hab hbc hca := by
    by_cases h : a < b
    · exact hbc (Text.lt_trans hca h)
    · exact hbc (Text.eq_of_not_lt h hab ▸ hca)
  lt_iff_le_not_ge a b := ⟨fun h => ⟨Text.lt_asymm h, not_not.mpr h⟩, fun h => not_not.mp h.2⟩
  le_antisymm a b hab hba := Text.eq_of_not_lt hba hab
  le_total a b := by
    by_cases h : a < b
    · exact .inl (Text.lt_asymm h)
    · exact .inr h
  toDecidableLE := fun a b => inferInstanceAs (Decidable ¬b < a)
  toDecidableLT := fun a b => inferInstanceAs (Decidable (a < b))

/-- What sources are compared by. -/
def NativeSource.rank (s : NativeSource) : Int ×ₗ Text := toLex (s.priority, s.filename)

theorem NativeSource.precedes_iff (a b : NativeSource) :
    a.precedes b = true ↔ a.rank < b.rank := by
  rw [precedes, rank, rank, Prod.Lex.toLex_lt_toLex]
  simp only [Bool.or_eq_true, Bool.and_eq_true, decide_eq_true_eq, beq_iff_eq]

theorem NativeSource.filename_eq_of_rank_eq {a b : NativeSource} (h : a.rank = b.rank) :
    a.filename = b.filename := congrArg (fun r => (ofLex r).2) h

namespace Schedule

variable {α : Type} (source : α → NativeSource)

def ranks (entries : List α) : List (Int ×ₗ Text) := entries.map fun e => (source e).rank

abbrev Sorted (entries : List α) : Prop := (ranks source entries).Pairwise (· ≤ ·)

abbrev DistinctNames (entries : List α) : Prop :=
  (entries.map fun e => (source e).filename).Nodup

/-- Whether an entry may stand before another one. -/
def MayPrecede (a b : α) : Prop := (source a).rank ≤ (source b).rank

instance : DecidableRel (MayPrecede source) := fun a b =>
  inferInstanceAs (Decidable ((source a).rank ≤ (source b).rank))

instance : Std.Total (MayPrecede source) := ⟨fun _ _ => le_total _ _⟩

instance : IsTrans α (MayPrecede source) := ⟨fun _ _ _ => le_trans⟩

theorem not_mayPrecede_iff {a b : α} :
    ¬MayPrecede source a b ↔ (source b).precedes (source a) = true := by
  rw [NativeSource.precedes_iff, MayPrecede, not_le]

theorem place_eq_orderedInsert (entry : α) (entries : List α) :
    place source entry entries = entries.orderedInsert (MayPrecede source) entry := by
  induction entries with
  | nil => rfl
  | cons head rest ih =>
    rw [place, List.orderedInsert_cons, ih]
    simp only [← not_mayPrecede_iff, ite_not]

theorem sort_eq_insertionSort (entries : List α) :
    sort source entries = entries.insertionSort (MayPrecede source) := by
  have hPlace : place source = List.orderedInsert (MayPrecede source) :=
    funext₂ (place_eq_orderedInsert source)
  rw [sort, hPlace]
  rfl

theorem perm_place (entry : α) (entries : List α) :
    (place source entry entries).Perm (entry :: entries) :=
  place_eq_orderedInsert source entry entries ▸ List.perm_orderedInsert _ _ _

theorem perm_sort (entries : List α) : (sort source entries).Perm entries :=
  sort_eq_insertionSort source entries ▸ List.perm_insertionSort _ _

theorem perm_foldl_place (entries ready : List α) :
    (entries.foldl (fun ready e => place source e ready) ready).Perm (entries ++ ready) := by
  induction entries generalizing ready with
  | nil => exact .refl _
  | cons entry rest ih =>
    refine (ih _).trans (((perm_place source entry ready).append_left rest).trans ?_)
    exact List.perm_middle

variable {source}

theorem sorted_iff_pairwise {entries : List α} :
    Sorted source entries ↔ entries.Pairwise (MayPrecede source) := List.pairwise_map

theorem DistinctNames.nodup_ranks {entries : List α} (h : DistinctNames source entries) :
    (ranks source entries).Nodup := by
  apply List.Nodup.of_map fun r => (ofLex r).2
  rw [ranks, List.map_map]
  exact h

theorem Sorted.place {entries : List α} (h : Sorted source entries) (entry : α) :
    Sorted source (place source entry entries) := by
  rw [place_eq_orderedInsert, sorted_iff_pairwise]
  exact (sorted_iff_pairwise.mp h).orderedInsert entry entries

theorem sorted_sort (entries : List α) : Sorted source (sort source entries) := by
  rw [sort_eq_insertionSort, sorted_iff_pairwise]
  exact List.pairwise_insertionSort _ entries

theorem Sorted.foldl_place {ready : List α} (h : Sorted source ready) (entries : List α) :
    Sorted source (entries.foldl (fun ready e => Schedule.place source e ready) ready) := by
  induction entries generalizing ready with
  | nil => exact h
  | cons entry rest ih => exact ih (h.place entry)

theorem Sorted.ranks_eq {first second : List α} (hFirst : Sorted source first)
    (hSecond : Sorted source second) (h : (ranks source first).Perm (ranks source second)) :
    ranks source first = ranks source second :=
  h.eq_of_pairwise' hFirst hSecond

theorem ranks_foldl_place_congr {ready others freed released : List α}
    (hSorted : Sorted source ready) (hReady : ranks source ready = ranks source others)
    (hFreed : freed.Perm released) :
    ranks source (freed.foldl (fun ready e => place source e ready) ready) =
      ranks source (released.foldl (fun ready e => place source e ready) others) := by
  have hOthers : Sorted source others := by
    rw [Sorted, ← hReady]
    exact hSorted
  have hPlaced := (perm_foldl_place source freed ready).map fun e => (source e).rank
  have hPlaced' := (perm_foldl_place source released others).map fun e => (source e).rank
  apply (hSorted.foldl_place freed).ranks_eq (hOthers.foldl_place released)
  refine hPlaced.trans (.trans ?_ hPlaced'.symm)
  rw [List.map_append, List.map_append]
  exact (hFreed.map _).append (.of_eq hReady)

theorem ranks_sort_eq (source : α → NativeSource) {first second : List α}
    (h : first.Perm second) :
    ranks source (sort source first) = ranks source (sort source second) := by
  apply (sorted_sort first).ranks_eq (sorted_sort second)
  exact ((perm_sort source first).trans (h.trans (perm_sort source second).symm)).map _

theorem advance_perm {first second : α} {waiting others : List (Waiting α)}
    (hName : (source first).filename = (source second).filename) (h : waiting.Perm others) :
    (advance source first waiting).1.Perm (advance source second others).1 ∧
      (advance source first waiting).2.Perm (advance source second others).2 := by
  simp only [advance, hName]
  exact ⟨((h.map _).filter _).map _, (h.map _).filter _⟩

theorem perm_split (waiting : List (Waiting α)) :
    ((waiting.filter fun w => w.missing = 0).map (·.entry) ++
      (waiting.filter fun w => w.missing ≠ 0).map (·.entry)).Perm (waiting.map (·.entry)) := by
  rw [← List.map_append]
  simp only [ne_eq, decide_not]
  exact (List.filter_append_perm (fun w : Waiting α => decide (w.missing = 0)) waiting).map _

theorem countDown_entry (source : α → NativeSource) (name : Text) (w : Waiting α) :
    (countDown source name w).entry = w.entry := by
  rw [countDown]
  split <;> rfl

theorem perm_advance (released : α) (waiting : List (Waiting α)) :
    ((advance source released waiting).1 ++ (advance source released waiting).2.map (·.entry)).Perm
      (waiting.map (·.entry)) := by
  refine (perm_split _).trans (.of_eq ?_)
  rw [List.map_map]
  exact List.map_congr_left fun w _ => countDown_entry source _ w

/-- A release only moves entries from those that wait to those that are ready. -/
theorem perm_ready_advance (first : α) (rest : List α) (waiting : List (Waiting α)) :
    ((advance source first waiting).1.foldl (fun ready e => place source e ready) rest ++
      (advance source first waiting).2.map (·.entry)).Perm (rest ++ waiting.map (·.entry)) := by
  refine ((perm_foldl_place source _ rest).append_right _).trans ?_
  refine (List.perm_append_comm.append_right _).trans ?_
  rw [List.append_assoc]
  exact (perm_advance first waiting).append_left rest

theorem perm_drain (ready : List α) (waiting : List (Waiting α)) :
    ((drain source ready waiting).1 ++ (drain source ready waiting).2.map (·.entry)).Perm
      (ready ++ waiting.map (·.entry)) := by
  induction ready, waiting using drain.induct source with
  | case1 waiting => rw [drain]
  | case2 waiting first rest freed others _ _ _ ih =>
    rw [drain]
    exact (ih.trans (perm_ready_advance first rest waiting)).cons first

/-- Two runs from the same ranks release the same ranks and leave the same entries behind. -/
theorem drain_congr {ready others : List α} {waiting pending : List (Waiting α)}
    (hSorted : Sorted source ready) (hReady : ranks source ready = ranks source others)
    (hWaiting : waiting.Perm pending) :
    ranks source (drain source ready waiting).1 = ranks source (drain source others pending).1 ∧
      (drain source ready waiting).2.Perm (drain source others pending).2 := by
  induction ready, waiting using drain.induct source generalizing others pending with
  | case1 waiting =>
    have hNil : others = [] := List.map_eq_nil_iff.mp hReady.symm
    rw [hNil, drain, drain]
    exact ⟨rfl, hWaiting⟩
  | case2 waiting first rest freed left =>
    -- The case has its side conditions in front of the induction hypothesis.
    rename_i ih
    cases others with
    | nil => cases hReady
    | cons head tail =>
      obtain ⟨hRank, hRest⟩ := List.cons_eq_cons.mp hReady
      have hTail : Sorted source rest := hSorted.tail
      obtain ⟨hFreed, hLeft⟩ :=
        advance_perm (NativeSource.filename_eq_of_rank_eq hRank) hWaiting
      have hNext := ranks_foldl_place_congr hTail hRest hFreed
      obtain ⟨hReleased, hStuck⟩ := ih (hTail.foldl_place freed) hNext hLeft
      rw [drain, drain]
      exact ⟨List.cons_eq_cons.mpr ⟨hRank, hReleased⟩, hStuck⟩

theorem missing_congr {first second : List α} (h : first.Perm second) (entry : α) :
    missing source first entry = missing source second entry := by
  apply List.countP_congr
  intro name _
  rw [List.contains_iff_mem, List.contains_iff_mem]
  exact (h.map _).mem_iff

/-- The entries that are ready at first and those that wait are all entries. -/
theorem perm_ready_waiting (source : α → NativeSource) (entries : List α) :
    let waiting := entries.map fun e => Waiting.mk e (missing source entries e)
    (sort source ((waiting.filter fun w => w.missing = 0).map (·.entry)) ++
      (waiting.filter fun w => w.missing ≠ 0).map (·.entry)).Perm entries := by
  refine ((perm_sort source _).append_right _).trans ((perm_split _).trans (.of_eq ?_))
  rw [List.map_map]
  exact List.map_id entries

theorem perm_order_ofEntries (source : α → NativeSource) (entries : List α) :
    (ofEntries source entries).order.Perm entries := by
  rw [ofEntries, order]
  refine ((perm_sort source _).append_left _).trans ((perm_drain _ _).trans ?_)
  exact perm_ready_waiting source entries

/-- The ranks that are released and the entries that are stuck do not depend on the order in which
the entries are given. -/
theorem released_stuck_congr (source : α → NativeSource) {first second : List α}
    (h : first.Perm second) :
    ranks source (ofEntries source first).released =
        ranks source (ofEntries source second).released ∧
      (ofEntries source first).stuck.Perm (ofEntries source second).stuck := by
  have hWaiting : (first.map fun e => Waiting.mk e (missing source first e)).Perm
      (second.map fun e => Waiting.mk e (missing source second e)) := by
    simp only [missing_congr h]
    exact h.map _
  have hReady := ranks_sort_eq source ((hWaiting.filter fun w => w.missing = 0).map (·.entry))
  obtain ⟨hReleased, hStuck⟩ := drain_congr (sorted_sort _) hReady
    (hWaiting.filter fun w => w.missing ≠ 0)
  exact ⟨hReleased, (perm_sort source _).trans ((hStuck.map _).trans (perm_sort source _).symm)⟩

theorem sorted_stuck (source : α → NativeSource) (entries : List α) :
    Sorted source (ofEntries source entries).stuck := sorted_sort _

/-- The ranks of a schedule do not depend on the order in which its entries are given. -/
theorem ranks_ofEntries_congr (source : α → NativeSource) {first second : List α}
    (h : first.Perm second) :
    ranks source (ofEntries source first).released =
        ranks source (ofEntries source second).released ∧
      ranks source (ofEntries source first).stuck =
        ranks source (ofEntries source second).stuck := by
  obtain ⟨hReleased, hStuck⟩ := released_stuck_congr source h
  exact ⟨hReleased,
    (sorted_stuck source first).ranks_eq (sorted_stuck source second) (hStuck.map _)⟩

theorem eq_of_ranks_eq {entries first second : List α} (hNodup : (ranks source entries).Nodup)
    (hFirst : first ⊆ entries) (hSecond : second ⊆ entries)
    (h : ranks source first = ranks source second) : first = second := by
  have hLength : first.length = second.length := by
    rw [← List.length_map, ← ranks, h, ranks, List.length_map]
  apply List.ext_getElem hLength
  intro i hi hi'
  refine List.inj_on_of_nodup_map hNodup (hFirst (List.getElem_mem hi))
    (hSecond (List.getElem_mem hi')) ?_
  have hAt : (ranks source first)[i]? = (ranks source second)[i]? := by rw [h]
  simpa [ranks, hi, hi'] using hAt

/-- Where the ranks are distinct, so is the place of every entry. -/
theorem ofEntries_congr {first second : List α} (h : first.Perm second)
    (hNodup : (ranks source first).Nodup) : ofEntries source first = ofEntries source second := by
  obtain ⟨hReleased, hStuck⟩ := ranks_ofEntries_congr source h
  have hFirst := (perm_order_ofEntries source first).subset
  have hSecond := ((perm_order_ofEntries source second).trans h.symm).subset
  rw [order, List.append_subset] at hFirst hSecond
  calc
    ofEntries source first =
        ⟨(ofEntries source first).released, (ofEntries source first).stuck⟩ := rfl
    _ = ⟨(ofEntries source second).released, (ofEntries source second).stuck⟩ := by
      rw [eq_of_ranks_eq hNodup hFirst.1 hSecond.1 hReleased,
        eq_of_ranks_eq hNodup hFirst.2 hSecond.2 hStuck]
    _ = ofEntries source second := rfl

end Schedule

end Amalgam
