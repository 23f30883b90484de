import Amalgam.Proofs.BucketOutcome
import Amalgam.Proofs.Pass
import Amalgam.Proofs.ScheduleRun
import Mathlib.Data.Fintype.Card
import Mathlib.Data.Set.Finite.Basic
import Mathlib.Order.WellFounded

/-! # Entries that are stuck behind a cycle

Where filenames are distinct, an entry is released once all entries of the bucket that it depends on
are out. So no released entry leads to a cycle of dependencies. What is left at the end depends on
something that is left as well, and as there are only so many entries, each of them leads to a cycle.
-/

namespace Amalgam

/-! ## Cycles of a relation -/

/-- Whether a cycle can be reached from `a`, which may lie on it. -/
def ReachesCycle {α : Type} (r : α → α → Prop) (a : α) : Prop :=
  ∃ b, Relation.ReflTransGen r a b ∧ Relation.TransGen r b b

section

variable {α : Type} {r : α → α → Prop}

theorem reachesCycle_iff {a : α} : ReachesCycle r a ↔ ∃ b, r a b ∧ ReachesCycle r b := by
  constructor
  · rintro ⟨b, hPath, hCycle⟩
    rcases Relation.ReflTransGen.cases_head hPath with rfl | ⟨next, hStep, hRest⟩
    · obtain ⟨next, hStep, hBack⟩ := Relation.TransGen.head'_iff.mp hCycle
      exact ⟨next, hStep, a, hBack, hCycle⟩
    · exact ⟨next, hStep, b, hRest, hCycle⟩
  · rintro ⟨next, hStep, b, hRest, hCycle⟩
    exact ⟨b, .head hStep hRest, hCycle⟩

/-- Among finitely many elements that each lead to another one of them, every one leads to a
cycle. -/
theorem reachesCycle_of_forall_exists {elements : List α}
    (h : ∀ a ∈ elements, ∃ b ∈ elements, r a b) {a : α} (ha : a ∈ elements) : ReachesCycle r a := by
  by_contra hNone
  -- Seen from the elements that `a` leads to, being led to is a well-founded order.
  let Later := {b : α // b ∈ elements ∧ Relation.ReflTransGen r a b}
  let leads (c b : Later) : Prop := Relation.TransGen r b.1 c.1
  have hFinite : Finite Later :=
    (elements.finite_toSet.subset fun b hb => hb.1).to_subtype
  have hTrans : IsTrans Later leads := ⟨fun _ _ _ hcb hba => hba.trans hcb⟩
  have hIrrefl : Std.Irrefl leads := ⟨fun b hCycle => hNone ⟨b.1, b.2.2, hCycle⟩⟩
  have hWellFounded : WellFounded leads := Finite.wellFounded_of_trans_of_irrefl leads
  obtain ⟨last, _, hLast⟩ := hWellFounded.has_min Set.univ ⟨⟨a, ha, .refl⟩, trivial⟩
  obtain ⟨next, hNext, hStep⟩ := h last.1 last.2.1
  exact hLast ⟨next, hNext, last.2.2.tail hStep⟩ trivial (.single hStep)

end

namespace Schedule

variable {α : Type} {source : α → NativeSource} {entries : List α}

/-- Whether `f` is an entry that `e` depends on. -/
def Needs (source : α → NativeSource) (entries : List α) (e f : α) : Prop :=
  f ∈ entries ∧ DependsOn source e f

theorem DistinctNames.eq_of_filename_eq (h : DistinctNames source entries) {e f : α}
    (he : e ∈ entries) (hf : f ∈ entries) (hSame : (source e).filename = (source f).filename) :
    e = f :=
  List.inj_on_of_nodup_map h he hf hSame

theorem DistinctNames.countP_le_one (h : DistinctNames source entries) (name : Text) :
    (entries.countP fun e => (source e).filename = name) ≤ 1 := by
  have hCount := List.nodup_iff_count_le_one.mp h name
  rwa [List.count_eq_countP, List.countP_map] at hCount

namespace Moment

variable {released ready : List α} {waiting : List (Waiting α)}

theorem names_released (hNames : DistinctNames source entries)
    (h : Moment source entries released ready waiting) : DistinctNames source released := by
  have hAll := (h.covers.map fun e => (source e).filename).nodup_iff.mpr hNames
  rw [List.map_append] at hAll
  exact hAll.of_append_left

/-- All that a ready entry needs is out. -/
theorem needs_released (hNames : DistinctNames source entries)
    (h : Moment source entries released ready waiting) {e f : α} (he : e ∈ ready)
    (hNeeds : Needs source entries e f) : f ∈ released := by
  obtain ⟨g, hg, hSame⟩ := exists_released_of_missing_le h.released_subset (h.of_ready e he)
    hNeeds.1 hNeeds.2 fun name _ _ => (h.names_released hNames).countP_le_one name
  rwa [← hNames.eq_of_filename_eq (h.released_subset hg) hNeeds.1 hSame]

/-- An entry that waits needs something that is not out. -/
theorem exists_needs_of_waiting (h : Moment source entries released ready waiting)
    {w : Waiting α} (hw : w ∈ waiting) : ∃ f, Needs source entries w.entry f ∧ f ∉ released := by
  obtain ⟨hWaits, hSeen⟩ := h.of_waiting w hw
  by_contra hNone
  have hAll : ∀ f ∈ entries, DependsOn source w.entry f →
      ∃ g ∈ released, (source g).filename = (source f).filename := by
    intro f hf hDepends
    by_cases hOut : f ∈ released
    · exact ⟨f, hOut, rfl⟩
    · exact absurd ⟨f, ⟨hf, hDepends⟩, hOut⟩ hNone
  have hEnough := missing_le_seen hAll
  omega

theorem mem_iff (h : Moment source entries released [] waiting) {e : α} :
    e ∈ entries ↔ e ∈ released ∨ e ∈ waiting.map (·.entry) := by
  rw [← h.covers.mem_iff, List.nil_append, List.mem_append]

end Moment

theorem not_reachesCycle_of_split (hNames : DistinctNames source entries) {before after : List α}
    {e : α} (h : (ofEntries source entries).released = before ++ e :: after) :
    ¬ReachesCycle (Needs source entries) e := by
  -- By strong induction on what comes before: a needed entry has less before it.
  induction hLength : before.length using Nat.strong_induction_on generalizing before e after with
  | _ n ih =>
    rw [reachesCycle_iff]
    rintro ⟨f, hNeeds, hCycle⟩
    obtain ⟨rest, left, hMoment⟩ := moment_of_released h
    have hOut := hMoment.needs_released hNames List.mem_cons_self hNeeds
    obtain ⟨first, second, rfl⟩ := List.append_of_mem hOut
    rw [List.append_assoc, List.cons_append] at h
    refine ih first.length ?_ h rfl hCycle
    rw [← hLength, List.length_append, List.length_cons]
    omega

theorem mem_released_iff (hNames : DistinctNames source entries) {e : α} :
    e ∈ (ofEntries source entries).released ↔
      e ∈ entries ∧ ¬ReachesCycle (Needs source entries) e := by
  obtain ⟨left, hMoment, _⟩ := moment_of_stuck source entries
  constructor
  · intro he
    obtain ⟨before, after, hSplit⟩ := List.append_of_mem he
    exact ⟨hMoment.released_subset he, not_reachesCycle_of_split hNames hSplit⟩
  · rintro ⟨he, hNone⟩
    refine (hMoment.mem_iff.mp he).resolve_right fun hLeft => hNone ?_
    refine reachesCycle_of_forall_exists (fun a ha => ?_) hLeft
    obtain ⟨w, hw, rfl⟩ := List.mem_map.mp ha
    obtain ⟨f, hNeeds, hOut⟩ := hMoment.exists_needs_of_waiting hw
    exact ⟨f, (hMoment.mem_iff.mp hNeeds.1).resolve_left hOut, hNeeds⟩

theorem mem_stuck_iff (hNames : DistinctNames source entries) {e : α} :
    e ∈ (ofEntries source entries).stuck ↔
      e ∈ entries ∧ ReachesCycle (Needs source entries) e := by
  have hAll := perm_order_ofEntries source entries
  have hNodup : (ofEntries source entries).order.Nodup := hAll.nodup_iff.mpr (.of_map _ hNames)
  rw [order, List.nodup_append] at hNodup
  constructor
  · intro he
    have hMem := hAll.subset (List.mem_append_right _ he)
    refine ⟨hMem, ?_⟩
    by_contra hNone
    exact hNodup.2.2 e ((mem_released_iff hNames).mpr ⟨hMem, hNone⟩) e he rfl
  · rintro ⟨he, hCycle⟩
    refine (List.mem_append.mp (hAll.symm.subset he)).resolve_left fun hReleased => ?_
    exact ((mem_released_iff hNames).mp hReleased).2 hCycle

theorem stuck_increasing (hNames : DistinctNames source entries) :
    (ofEntries source entries).stuck.Pairwise fun e f => (source e).rank < (source f).rank := by
  have hSorted := sorted_stuck source entries
  have hDistinct : (ranks source (ofEntries source entries).stuck).Nodup := by
    have hAll := ((perm_order_ofEntries source entries).map fun e => (source e).rank).nodup_iff.mpr
      hNames.nodup_ranks
    rw [order, List.map_append] at hAll
    exact hAll.of_append_right
  exact List.pairwise_map.mp ((hSorted.and hDistinct).imp fun h => lt_of_le_of_ne h.1 h.2)

end Schedule

/-! ## Buckets -/

/-- The names of a warning of a cycle. -/
def Event.cycle? : Event → Option (List Text)
  | .dependencyCycle filenames => some filenames
  | _ => none

namespace Bucket

theorem cycles_of_events (tree : FileTree) (key : BucketKey) (bucket : List Fragment) :
    (events tree key bucket).filterMap Event.cycle? =
      ((schedule bucket).cycle? fun f => f.source).toList := by
  have hCycle : ((((schedule bucket).cycle? fun f => f.source).toList.map
      Event.dependencyCycle).filterMap Event.cycle?) =
      ((schedule bucket).cycle? fun f => f.source).toList := by
    rw [List.filterMap_map]
    exact List.filterMap_some
  rw [events]
  split
  · rw [List.filterMap_append, hCycle]
    exact List.append_nil _
  · exact hCycle

/-- The fragments that come last are those that lead to a cycle, in order, and they are warned of
by their names. -/
theorem stuck_iff_reachesCycle {bucket : List Fragment}
    (hNames : (bucket.map fun f => f.source.filename).Nodup) :
    let s := schedule bucket
    let needs := Schedule.Needs (fun f : Fragment => f.source) bucket
    s.order = s.released ++ s.stuck ∧
      (∀ f, f ∈ s.released ↔ f ∈ bucket ∧ ¬ReachesCycle needs f) ∧
      (∀ f, f ∈ s.stuck ↔ f ∈ bucket ∧ ReachesCycle needs f) ∧
      (s.stuck.Pairwise fun f g => f.source.rank < g.source.rank) ∧
      ∀ tree key, (events tree key bucket).filterMap Event.cycle? =
        if s.stuck = [] then [] else [s.stuck.map fun f => f.source.filename] := by
  refine ⟨rfl, fun f => Schedule.mem_released_iff hNames, fun f => Schedule.mem_stuck_iff hNames,
    Schedule.stuck_increasing hNames, fun tree key => ?_⟩
  rw [cycles_of_events, Schedule.cycle?]
  simp only [List.isEmpty_iff]
  split <;> rfl

theorem stuck_tail :
    let fragment (source : NativeSource) : Fragment :=
      ⟨.generated Sample.core (.payload (.native source)) (some .ios), source⟩
    let bucket := [fragment (Sample.native "A.m" ["B.m"]), fragment (Sample.native "B.m" ["A.m"]),
      fragment (Sample.native "C.m" ["D.m"]), fragment (Sample.native "D.m" ["A.m", "E.m"]),
      fragment (Sample.native "E.m" [])]
    (bucket.map fun f => f.source.filename).Nodup ∧
      (schedule bucket).stuck.map (fun f => f.source.filename) =
        (["A.m", "B.m", "C.m", "D.m"] : List Text) ∧
      (∀ f, f ∈ (schedule bucket).stuck ↔
        f ∈ bucket ∧ ReachesCycle (Schedule.Needs (fun f : Fragment => f.source) bucket) f) ∧
      ∀ tree key, (events tree key bucket).filterMap Event.cycle? =
        ([["A.m", "B.m", "C.m", "D.m"]] : List (List Text)) := by
  intro fragment bucket
  have hNames : (bucket.map fun f => f.source.filename).Nodup := by decide +kernel
  have hStuck : (schedule bucket).stuck.map (fun f => f.source.filename) =
      (["A.m", "B.m", "C.m", "D.m"] : List Text) := by decide +kernel
  have hSome : (schedule bucket).stuck ≠ [] := by decide +kernel
  obtain ⟨_, _, hMem, _, hEvents⟩ := stuck_iff_reachesCycle hNames
  refine ⟨hNames, hStuck, hMem, fun tree key => ?_⟩
  rw [hEvents tree key, if_neg hSome, hStuck]

end Bucket

end Amalgam
