import Amalgam.Proofs.DependencyCycles
import Mathlib.Data.List.Lex

/-! # The order of a schedule is the least one

Of the entries that are ready the first in rank is released, and an entry is ready as soon as all
that it needs is out. So wherever another order that respects the dependencies first differs from
the schedule, the entry it has there was ready as well and is of greater rank.
-/

namespace Amalgam

theorem map_lt_map_of_splits {α β : Type} [LT β] {rank : α → β} {first second : List α}
    (hLength : first.length = second.length) (hNe : first ≠ second)
    (h : ∀ before a after b rest, first = before ++ a :: after → second = before ++ b :: rest →
      a ≠ b → rank a < rank b) : first.map rank < second.map rank := by
  induction first generalizing second with
  | nil => exact absurd (List.length_eq_zero_iff.mp hLength.symm).symm hNe
  | cons a after ih =>
    cases second with
    | nil => cases hLength
    | cons b rest =>
      rw [List.map_cons, List.map_cons, List.cons_lt_cons_iff]
      by_cases hSame : a = b
      · subst hSame
        refine .inr ⟨rfl, ih (Nat.succ.inj hLength) (fun hRest => hNe (hRest ▸ rfl)) ?_⟩
        intro before a' after' b' rest' hFirst hSecond
        exact h (a :: before) a' after' b' rest' (congrArg _ hFirst) (congrArg _ hSecond)
      · exact .inl (h [] a after b rest rfl rfl hSame)

namespace Schedule

variable {α : Type} {source : α → NativeSource} {entries : List α}

/-- An order of the entries that lead to no cycle, each of them behind all that it needs. -/
structure DependencyOrder (source : α → NativeSource) (entries order : List α) : Prop where
  nodup : order.Nodup
  mem_iff : ∀ e, e ∈ order ↔ e ∈ entries ∧ ¬ReachesCycle (Needs source entries) e
  needs_before : ∀ before e after, order = before ++ e :: after →
    ∀ f, Needs source entries e f → f ∈ before

theorem dependencyOrder_released (hNames : DistinctNames source entries) :
    DependencyOrder source entries (ofEntries source entries).released where
  nodup := by
    obtain ⟨_, hMoment, _⟩ := moment_of_stuck source entries
    exact .of_map _ (hMoment.names_released hNames)
  mem_iff _ := mem_released_iff hNames
  needs_before before e after hSplit f hNeeds := by
    obtain ⟨rest, left, hMoment⟩ := moment_of_released hSplit
    exact hMoment.needs_released hNames List.mem_cons_self hNeeds

theorem DependencyOrder.length_eq {first second : List α}
    (hFirst : DependencyOrder source entries first)
    (hSecond : DependencyOrder source entries second) : first.length = second.length := by
  refine ((List.perm_ext_iff_of_nodup hFirst.nodup hSecond.nodup).mpr fun e => ?_).length_eq
  rw [hFirst.mem_iff, hSecond.mem_iff]

theorem rank_le_of_released {before after : List α} {e f : α}
    (h : (ofEntries source entries).released = before ++ e :: after) (hf : f ∈ entries)
    (hOut : f ∉ before) (hNeeds : ∀ g, Needs source entries f g → g ∈ before) :
    (source e).rank ≤ (source f).rank := by
  obtain ⟨rest, left, hMoment⟩ := moment_of_released h
  rcases List.mem_append.mp (hMoment.covers.symm.subset hf) with hBefore | hLater
  · exact absurd hBefore hOut
  rcases List.mem_append.mp hLater with hReady | hWaiting
  · rcases List.mem_cons.mp hReady with rfl | hRest
    · exact le_rfl
    · exact (List.pairwise_cons.mp hMoment.sorted).1 _ (List.mem_map_of_mem hRest)
  · obtain ⟨w, hw, rfl⟩ := List.mem_map.mp hWaiting
    obtain ⟨g, hg, hNot⟩ := hMoment.exists_needs_of_waiting hw
    exact absurd (hNeeds g hg) hNot

/-- A schedule begins with the entries that lead to no cycle, in the least of all orders that have
each of them behind what it needs. -/
theorem released_least (hNames : DistinctNames source entries) :
    let s := ofEntries source entries
    s.order = s.released ++ s.stuck ∧ DependencyOrder source entries s.released ∧
      ∀ other, DependencyOrder source entries other → other ≠ s.released →
        ranks source s.released < ranks source other := by
  have hOwn := dependencyOrder_released hNames
  refine ⟨rfl, hOwn, fun other hOther hNe => ?_⟩
  refine map_lt_map_of_splits (hOwn.length_eq hOther) hNe.symm ?_
  intro before e after f rest hReleased hSplit hDiffer
  have he : e ∈ entries := ((hOwn.mem_iff e).mp (by rw [hReleased]; simp)).1
  have hf : f ∈ entries := ((hOther.mem_iff f).mp (by rw [hSplit]; simp)).1
  have hOut : f ∉ before := by
    have hNodup := hOther.nodup
    rw [hSplit, List.nodup_append] at hNodup
    exact fun hBefore => hNodup.2.2 f hBefore f List.mem_cons_self rfl
  have hLe := rank_le_of_released hReleased hf hOut (hOther.needs_before _ _ _ hSplit)
  refine lt_of_le_of_ne hLe fun hSame => hDiffer ?_
  exact hNames.eq_of_filename_eq he hf (NativeSource.filename_eq_of_rank_eq hSame)

theorem released_least_diamond :
    let root := { Sample.native "Root.m" [] with priority := 5 }
    let left := Sample.native "Left.m" ["Root.m"]
    let right := Sample.native "Right.m" ["Root.m", "Elsewhere.m"]
    let leaf := Sample.native "Leaf.m" ["Left.m", "Right.m"]
    let entries := [leaf, right, left, root]
    DistinctNames id entries ∧ DependencyOrder id entries [root, left, right, leaf] ∧
      ∀ other, DependencyOrder id entries other → other ≠ [root, left, right, leaf] →
        ranks id [root, left, right, leaf] < ranks id other := by
  intro root left right leaf entries
  have hNames : DistinctNames id entries := by decide +kernel
  have hReleased : (ofEntries id entries).released = [root, left, right, leaf] := by
    decide +kernel
  obtain ⟨_, hOwn, hLeast⟩ := released_least hNames
  rw [hReleased] at hOwn hLeast
  exact ⟨hNames, hOwn, hLeast⟩

end Schedule

end Amalgam
