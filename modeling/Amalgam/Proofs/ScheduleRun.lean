import Amalgam.Proofs.ScheduleRanks
import Mathlib.Data.List.Perm.Subperm

/-! # The course of a schedule

Entries are released one after the other. At every moment a waiting entry has counted down once for
each released entry that it depends on, and a ready entry has seen at least as many of them as it
had names to wait for. A name is waited for once but counted down by every entry that bears it, so
the count proves a name out only where the other names it counts are not repeated.
-/

namespace Amalgam

namespace Schedule

variable {α : Type} (source : α → NativeSource)

/-- Whether the filename of `f` is among the dependencies of `e`. -/
def DependsOn (e f : α) : Prop := (source f).filename ∈ (source e).dependencies

instance (e f : α) : Decidable (DependsOn source e f) :=
  inferInstanceAs (Decidable (_ ∈ _))

/-- How many of the released entries an entry depends on. -/
def seen (released : List α) (e : α) : Nat := released.countP fun f => DependsOn source e f

/-- What holds between two releases. -/
structure Moment (entries released ready : List α) (waiting : List (Waiting α)) : Prop where
  covers : (released ++ (ready ++ waiting.map (·.entry))).Perm entries
  sorted : Sorted source ready
  of_ready : ∀ e ∈ ready, missing source entries e ≤ seen source released e
  of_waiting : ∀ w ∈ waiting, w.missing ≠ 0 ∧
    w.missing + seen source released w.entry = missing source entries w.entry

variable {source}
variable {entries released ready : List α} {waiting : List (Waiting α)}

/-! ## One release -/

theorem seen_append_singleton (released : List α) (e f : α) :
    seen source (released ++ [f]) e =
      seen source released e + if DependsOn source e f then 1 else 0 := by
  rw [seen, List.countP_append, ← seen, List.countP_singleton]
  simp only [decide_eq_true_eq]

theorem countDown_missing (source : α → NativeSource) (f : α) {w : Waiting α}
    (h : w.missing ≠ 0) :
    (countDown source (source f).filename w).missing +
      (if DependsOn source w.entry f then 1 else 0) = w.missing := by
  rw [countDown]
  split
  · next hNamed =>
    have hDepends : DependsOn source w.entry f := hNamed
    rw [if_pos hDepends]
    exact Nat.sub_add_cancel (Nat.one_le_iff_ne_zero.mpr h)
  · next hNamed =>
    have hDepends : ¬DependsOn source w.entry f := hNamed
    rw [if_neg hDepends, Nat.add_zero]

/-- An entry that waits counts down with what it has seen. -/
theorem countDown_seen {w : Waiting α} {f : α} {total : Nat} (h : w.missing ≠ 0)
    (hSeen : w.missing + seen source released w.entry = total) :
    (countDown source (source f).filename w).missing +
      seen source (released ++ [f]) w.entry = total := by
  have hCount := countDown_missing source f h
  rw [seen_append_singleton]
  omega

theorem mem_advance_fst {f e : α} (h : e ∈ (advance source f waiting).1) :
    ∃ w ∈ waiting, w.entry = e ∧ (countDown source (source f).filename w).missing = 0 := by
  obtain ⟨w', hw', rfl⟩ := List.mem_map.mp h
  obtain ⟨hMem, hZero⟩ := List.mem_filter.mp hw'
  obtain ⟨w, hw, rfl⟩ := List.mem_map.mp hMem
  exact ⟨w, hw, (countDown_entry source _ w).symm, of_decide_eq_true hZero⟩

theorem mem_advance_snd {f : α} {w' : Waiting α} (h : w' ∈ (advance source f waiting).2) :
    w'.missing ≠ 0 ∧ ∃ w ∈ waiting, countDown source (source f).filename w = w' := by
  obtain ⟨hMem, hWaits⟩ := List.mem_filter.mp h
  exact ⟨of_decide_eq_true hWaits, List.mem_map.mp hMem⟩

theorem Moment.next {f : α} {rest : List α}
    (h : Moment source entries released (f :: rest) waiting) :
    Moment source entries (released ++ [f])
      ((advance source f waiting).1.foldl (fun ready e => place source e ready) rest)
      (advance source f waiting).2 where
  covers := by
    refine .trans ?_ h.covers
    rw [List.append_assoc]
    exact .append_left released (.cons f (perm_ready_advance f rest waiting))
  sorted := Sorted.foldl_place h.sorted.tail _
  of_ready e he := by
    rcases List.mem_append.mp ((perm_foldl_place source _ rest).mem_iff.mp he) with hFreed | hRest
    · obtain ⟨w, hw, rfl, hZero⟩ := mem_advance_fst hFreed
      obtain ⟨hWaits, hSeen⟩ := h.of_waiting w hw
      have hNow := countDown_seen (f := f) hWaits hSeen
      rw [hZero, Nat.zero_add] at hNow
      exact hNow.ge
    · rw [seen_append_singleton]
      exact (h.of_ready e (List.mem_cons_of_mem f hRest)).trans (Nat.le_add_right _ _)
  of_waiting w' hw' := by
    obtain ⟨hLeft, w, hw, rfl⟩ := mem_advance_snd hw'
    obtain ⟨hWaits, hSeen⟩ := h.of_waiting w hw
    refine ⟨hLeft, ?_⟩
    rw [countDown_entry]
    exact countDown_seen hWaits hSeen

/-! ## All releases -/

theorem Moment.last (h : Moment source entries released ready waiting) :
    Moment source entries (released ++ (drain source ready waiting).1) []
      (drain source ready waiting).2 := by
  induction ready, waiting using drain.induct source generalizing released with
  | case1 waiting =>
    rw [drain, List.append_nil]
    exact h
  | case2 waiting first rest freed others =>
    rename_i ih
    rw [drain]
    have hLast := ih h.next
    rwa [List.append_assoc] at hLast

/-- Whatever is released was the first of the ready entries at that moment. -/
theorem Moment.of_drain {before after : List α} {e : α}
    (h : Moment source entries released ready waiting)
    (hDrain : (drain source ready waiting).1 = before ++ e :: after) :
    ∃ rest left, Moment source entries (released ++ before) (e :: rest) left := by
  induction ready, waiting using drain.induct source generalizing released before with
  | case1 waiting =>
    rw [drain] at hDrain
    exact absurd hDrain.symm (List.append_ne_nil_of_right_ne_nil _ (List.cons_ne_nil _ _))
  | case2 waiting first rest freed others =>
    rename_i ih
    rw [drain] at hDrain
    cases before with
    | nil =>
      obtain ⟨rfl, _⟩ := List.cons_eq_cons.mp hDrain
      exact ⟨rest, waiting, by rwa [List.append_nil]⟩
    | cons b before =>
      obtain ⟨rfl, hRest⟩ := List.cons_eq_cons.mp hDrain
      have hLater := ih h.next hRest
      rwa [List.append_assoc] at hLater

theorem moment_first (source : α → NativeSource) (entries : List α) :
    let waiting := entries.map fun e => Waiting.mk e (missing source entries e)
    Moment source entries []
      (sort source ((waiting.filter fun w => w.missing = 0).map (·.entry)))
      (waiting.filter fun w => w.missing ≠ 0) where
  covers := perm_ready_waiting source entries
  sorted := sorted_sort _
  of_ready e he := by
    obtain ⟨w, hw, rfl⟩ := List.mem_map.mp ((perm_sort source _).mem_iff.mp he)
    obtain ⟨hMem, hZero⟩ := List.mem_filter.mp hw
    obtain ⟨e, _, rfl⟩ := List.mem_map.mp hMem
    exact (of_decide_eq_true hZero).le.trans (Nat.zero_le _)
  of_waiting w hw := by
    obtain ⟨hMem, hWaits⟩ := List.mem_filter.mp hw
    obtain ⟨e, _, rfl⟩ := List.mem_map.mp hMem
    exact ⟨of_decide_eq_true hWaits, rfl⟩

theorem moment_of_released {before after : List α} {e : α}
    (h : (ofEntries source entries).released = before ++ e :: after) :
    ∃ rest left, Moment source entries before (e :: rest) left :=
  (moment_first source entries).of_drain h

theorem moment_of_stuck (source : α → NativeSource) (entries : List α) :
    ∃ left, Moment source entries (ofEntries source entries).released [] left ∧
      (ofEntries source entries).stuck = sort source (left.map (·.entry)) :=
  ⟨_, (moment_first source entries).last, rfl⟩

/-! ## What the count tells -/

def neededNames (source : α → NativeSource) (entries : List α) (e : α) : List Text :=
  (source e).dependencies.toList.filter fun name =>
    (entries.map fun f => (source f).filename).contains name

theorem length_neededNames (source : α → NativeSource) (entries : List α) (e : α) :
    (neededNames source entries e).length = missing source entries e :=
  List.countP_eq_length_filter.symm

theorem mem_neededNames {e : α} {name : Text} :
    name ∈ neededNames source entries e ↔
      name ∈ (source e).dependencies ∧ ∃ f ∈ entries, (source f).filename = name := by
  rw [neededNames, List.mem_filter, List.contains_iff_mem, List.mem_map, NameSet.mem_def]

theorem nodup_neededNames (source : α → NativeSource) (entries : List α) (e : α) :
    (neededNames source entries e).Nodup :=
  ((source e).dependencies.increasing.imp fun h => Text.ne_of_lt h).filter _

/-- The names that have counted down an entry, as often as they did. -/
def seenNames (source : α → NativeSource) (released : List α) (e : α) : List Text :=
  (released.filter fun f => DependsOn source e f).map fun f => (source f).filename

theorem length_seenNames (source : α → NativeSource) (released : List α) (e : α) :
    (seenNames source released e).length = seen source released e := by
  rw [seenNames, List.length_map, seen, List.countP_eq_length_filter]

theorem mem_seenNames {e : α} {name : Text} :
    name ∈ seenNames source released e ↔
      name ∈ (source e).dependencies ∧ ∃ f ∈ released, (source f).filename = name := by
  simp only [seenNames, List.mem_map, List.mem_filter, decide_eq_true_eq]
  constructor
  · rintro ⟨f, ⟨hf, hName⟩, rfl⟩
    exact ⟨hName, f, hf, rfl⟩
  · rintro ⟨hName, f, hf, rfl⟩
    exact ⟨f, ⟨hf, hName⟩, rfl⟩

/-- Once every name that is waited for is out, the wait is over. -/
theorem missing_le_seen {e : α}
    (h : ∀ f ∈ entries, DependsOn source e f →
      ∃ g ∈ released, (source g).filename = (source f).filename) :
    missing source entries e ≤ seen source released e := by
  rw [← length_neededNames, ← length_seenNames]
  refine (List.subperm_of_subset (nodup_neededNames source entries e) fun name hName => ?_).length_le
  obtain ⟨hDependency, f, hf, rfl⟩ := mem_neededNames.mp hName
  exact mem_seenNames.mpr ⟨hDependency, h f hf hDependency⟩

theorem nodup_seenNames {e : α}
    (h : ∀ name ∈ seenNames source released e,
      (released.countP fun f => (source f).filename = name) ≤ 1) :
    (seenNames source released e).Nodup := by
  rw [List.nodup_iff_count_le_one]
  intro name
  by_cases hName : name ∈ seenNames source released e
  · refine le_trans ?_ (h name hName)
    rw [seenNames, List.count_eq_countP, List.countP_map]
    exact List.filter_sublist.countP_le
  · rw [List.count_eq_zero_of_not_mem hName]
    exact Nat.zero_le 1

/-- The end of the wait shows that a name is out if none of the others was counted twice. -/
theorem exists_released_of_missing_le {e f : α} (hReleased : released ⊆ entries)
    (hSeen : missing source entries e ≤ seen source released e) (hf : f ∈ entries)
    (hDepends : DependsOn source e f)
    (hOnce : ∀ name ∈ (source e).dependencies, name ≠ (source f).filename →
      (released.countP fun g => (source g).filename = name) ≤ 1) :
    ∃ g ∈ released, (source g).filename = (source f).filename := by
  by_contra hNone
  have hOther : ∀ name ∈ seenNames source released e, name ≠ (source f).filename := by
    rintro name hName rfl
    exact hNone (mem_seenNames.mp hName).2
  have hNodup : (seenNames source released e).Nodup :=
    nodup_seenNames fun name hName => hOnce name (mem_seenNames.mp hName).1 (hOther name hName)
  have hNeeded : (source f).filename ∈ neededNames source entries e :=
    mem_neededNames.mpr ⟨hDepends, f, hf, rfl⟩
  have hSubset : seenNames source released e ⊆
      (neededNames source entries e).erase (source f).filename := by
    intro name hName
    obtain ⟨hDependency, g, hg, rfl⟩ := mem_seenNames.mp hName
    rw [(nodup_neededNames source entries e).mem_erase_iff]
    exact ⟨hOther _ hName, mem_neededNames.mpr ⟨hDependency, g, hReleased hg, rfl⟩⟩
  have hLength := (List.subperm_of_subset hNodup hSubset).length_le
  rw [List.length_erase_of_mem hNeeded, length_neededNames, length_seenNames] at hLength
  have hPositive : 0 < missing source entries e := by
    rw [← length_neededNames]
    exact List.length_pos_of_mem hNeeded
  omega

theorem Moment.released_subset (h : Moment source entries released ready waiting) :
    released ⊆ entries :=
  fun _ he => h.covers.subset (List.mem_append_left _ he)

/-! ## Dependencies of a released entry -/

/-- An entry is released after as many entries that it depends on as it has names to wait for. So
a dependency comes before it unless another one is borne by two entries that do. -/
theorem dependency_released_before {before after : List α} {e : α}
    (h : (ofEntries source entries).released = before ++ e :: after) :
    missing source entries e ≤ seen source before e ∧
      ∀ f ∈ entries, DependsOn source e f →
        (∀ name ∈ (source e).dependencies, name ≠ (source f).filename →
          (before.countP fun g => (source g).filename = name) ≤ 1) →
        ∃ g ∈ before, (source g).filename = (source f).filename := by
  obtain ⟨rest, left, hMoment⟩ := moment_of_released h
  have hSeen := hMoment.of_ready e List.mem_cons_self
  refine ⟨hSeen, fun f hf hDepends hOnce => ?_⟩
  exact exists_released_of_missing_le hMoment.released_subset hSeen hf hDepends hOnce

end Schedule

/-! ## Sources for concrete schedules -/

namespace Sample

def native (filename : Text) (dependencies : List Text) : NativeSource :=
  { NativeSource.single filename (.text "") none with dependencies := .ofList dependencies }

def base : NativeSource := native "A.h" []

def earlierBase : NativeSource := { native "A.h" [] with priority := -1 }

def dependent : NativeSource := native "B.h" ["A.h", "C.h"]

def lateBase : NativeSource := native "C.h" []

end Sample

namespace Schedule

open Sample

theorem dependency_released_before_once :
    (ofEntries id [dependent, base, lateBase]).released = [base, lateBase] ++ dependent :: [] ∧
      DependsOn id dependent lateBase ∧
      ∃ g ∈ [base, lateBase], g.filename = lateBase.filename := by
  have hRun : (ofEntries id [dependent, base, lateBase]).released =
      [base, lateBase] ++ dependent :: [] := by decide +kernel
  have hDepends : DependsOn id dependent lateBase := by decide +kernel
  have hOnce : ∀ name ∈ dependent.dependencies, name ≠ lateBase.filename →
      ([base, lateBase].countP fun g => g.filename = name) ≤ 1 := by decide +kernel
  exact ⟨hRun, hDepends,
    (dependency_released_before hRun).2 lateBase (by simp) hDepends hOnce⟩

/-- Two entries of one name end the wait for another name, which is not out yet. -/
theorem dependency_overtaken :
    ¬∀ before e after,
      (ofEntries id [base, earlierBase, dependent, lateBase]).released = before ++ e :: after →
      ∀ f ∈ [base, earlierBase, dependent, lateBase], DependsOn id e f →
        ∃ g ∈ before, g.filename = f.filename := by
  intro h
  have hRun : (ofEntries id [base, earlierBase, dependent, lateBase]).released =
      [earlierBase, base] ++ dependent :: [lateBase] := by decide +kernel
  have hBefore := h _ _ _ hRun lateBase (by simp) (by decide +kernel)
  exact absurd hBefore (by decide +kernel)

end Schedule

end Amalgam
