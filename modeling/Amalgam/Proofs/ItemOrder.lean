import Amalgam.Proofs.BucketOutcome
import Amalgam.Proofs.Pass
import Mathlib.Data.List.Perm.Basic

/-! # Passes and the order of their items

Where the fragments of a bucket have distinct filenames, a pass makes the same items of the same
input in whatever order it is given: groups, cache and placeholders may come in another order, but
the schedule of every bucket erases it.
-/

namespace Amalgam

theorem distinct_perm {α : Type} [DecidableEq α] {first second : List α}
    (h : first.Perm second) : (distinct first).Perm (distinct second) := by
  apply (List.perm_ext_iff_of_nodup (distinct_nodup _) (distinct_nodup _)).mpr
  intro a
  rw [mem_distinct, mem_distinct]
  exact h.mem_iff

theorem exists_forall₂_of_imp {α β γ : Type} {R : α → β → Prop} {S : α → γ → Prop}
    {T : β → γ → Prop} {elements : List α} {results : List β}
    (h : List.Forall₂ R elements results)
    (hStep : ∀ a ∈ elements, ∀ b, R a b → ∃ d, S a d ∧ T b d) :
    ∃ others, List.Forall₂ S elements others ∧ List.Forall₂ T results others := by
  induction h with
  | nil => exact ⟨[], .nil, .nil⟩
  | @cons a b _ _ hHead _ ih =>
    obtain ⟨d, hS, hT⟩ := hStep a List.mem_cons_self b hHead
    obtain ⟨others, hRest, hRest'⟩ := ih fun a ha => hStep a (List.mem_cons_of_mem _ ha)
    exact ⟨d :: others, .cons hS hRest, .cons hT hRest'⟩

namespace Cache

variable {cache : Cache} {id : Identity} {first second : List Fragment}

theorem carried_congr (h : first.Perm second) :
    cache.carried id first = cache.carried id second := by
  apply List.filter_congr
  intro f _
  apply decide_eq_decide.mpr
  rw [(h.map Fragment.key).mem_iff]

theorem merged_perm (h : first.Perm second) :
    (cache.merged id first).Perm (cache.merged id second) := by
  rw [merged, merged, carried_congr h]
  exact h.append_right _

theorem merged_eq_layers (cache : Cache) (id : Identity) (incoming : List Fragment) :
    cache.merged id incoming = overlay [cache.fragments id, incoming] := by
  simp [merged, carried, overlay]

theorem filter_merged (cache : Cache) (id : Identity) (k : BucketKey)
    (incoming : List Fragment) :
    ((cache.merged id incoming).filter fun f => f.key = k) =
      if k ∈ incoming.map Fragment.key then incoming.filter fun f => f.key = k
      else (cache.fragments id).filter fun f => f.key = k := by
  rw [merged_eq_layers, filter_overlay]
  simp [latest]

end Cache

theorem Placeholder.items_congr {generate : Generator} {config : ProjectConfig} {m : ModuleInfo}
    {first second : List Text} (h : first.Perm second) :
    items generate config m first = items generate config m second := by
  rw [items, items]
  simp only [h.any_eq]

namespace Combiner

theorem combineBuckets_perm {tree : FileTree} {m : ModuleInfo} {first second : List Fragment}
    {part : List Item} (hPerm : first.Perm second)
    (hBucket : ∀ k, Bucket.outcome tree m k (first.filter fun f => f.key = k) =
      Bucket.outcome tree m k (second.filter fun f => f.key = k))
    (h : combineBuckets tree m first = .ok part) :
    ∃ part', combineBuckets tree m second = .ok part' ∧ part.Perm part' := by
  rw [combineBuckets_eq_ok_iff] at h
  have hKeys := distinct_perm (hPerm.map Fragment.key).symm
  obtain ⟨part', hOutcomes, hSame⟩ := List.perm_comp_forall₂ hKeys h
  refine ⟨part', combineBuckets_eq_ok_iff.mpr (hOutcomes.imp fun k item hItem => ?_), hSame.symm⟩
  rw [← hBucket]
  exact hItem

variable {registry : Registry} {c : Combiner} {m : ModuleInfo} {cache : Cache}
  {tree : FileTree} {first second : List Item}

theorem fragments_perm (c : Combiner) (h : first.Perm second) :
    (c.fragments first).Perm (c.fragments second) := by
  rw [fragments_eq_filterMap, fragments_eq_filterMap]
  exact h.filterMap _

theorem broughtFor_perm (h : first.Perm second) :
    (c.broughtFor m first).Perm (c.broughtFor m second) :=
  (fragments_perm c h).filter _

theorem combineBuckets_merged_perm {part : List Item} (hPerm : first.Perm second)
    (hNames : ∀ k, (((c.broughtFor m first).filter fun f => f.key = k).map
      fun f => f.source.filename).Nodup)
    (h : combineBuckets tree m (cache.merged m.identity (c.broughtFor m first)) =
      .ok part) :
    ∃ part', combineBuckets tree m (cache.merged m.identity (c.broughtFor m second)) =
      .ok part' ∧ part.Perm part' := by
  have hBrought : (c.broughtFor m first).Perm (c.broughtFor m second) :=
    broughtFor_perm hPerm
  refine combineBuckets_perm (Cache.merged_perm hBrought) (fun k => ?_) h
  rw [Cache.filter_merged, Cache.filter_merged]
  have hKeys : k ∈ (c.broughtFor m first).map Fragment.key ↔
      k ∈ (c.broughtFor m second).map Fragment.key := (hBrought.map _).mem_iff
  by_cases hk : k ∈ (c.broughtFor m first).map Fragment.key
  · rw [if_pos hk, if_pos (hKeys.mp hk)]
    exact Bucket.outcome_congr tree m k (hBrought.filter _) (hNames k)
  · rw [if_neg hk, if_neg fun hk' => hk (hKeys.mpr hk')]

theorem parts_perm {parts : List (List Item)} (hPerm : first.Perm second)
    (hNames : ∀ m k, (((c.broughtFor m first).filter fun f => f.key = k).map
      fun f => f.source.filename).Nodup)
    (h : PartsOf tree cache (c.updates first) parts) :
    ∃ parts', PartsOf tree cache (c.updates second) parts' ∧
      parts.flatten.Perm parts'.flatten := by
  rw [PartsOf, updates_eq_map, List.forall₂_map_left_iff] at h
  have hModules := distinct_perm ((fragments_perm c hPerm.symm).map fun f => f.item.module)
  obtain ⟨parts₁, hParts₁, hSame⟩ := List.perm_comp_forall₂ hModules h
  obtain ⟨parts', hParts', hEach⟩ := exists_forall₂_of_imp hParts₁ fun m _ part hPart =>
    combineBuckets_merged_perm hPerm (hNames m) hPart
  refine ⟨parts', ?_, hSame.symm.flatten.trans (List.Perm.flatten_congr hEach)⟩
  rw [PartsOf, updates_eq_map, List.forall₂_map_left_iff]
  exact hParts'

theorem fragments_run_updates {items : List Item}
    (hKnown : ∀ item ∈ items, item.module ∈ registry.modules) (hm : m ∈ registry.modules) :
    (cache.run (c.updates items)).2.fragments m.identity =
      cache.merged m.identity (c.broughtFor m items) := by
  rw [Cache.fragments_run, brought_updates hKnown hm, Cache.merged_eq_layers]
  by_cases hOwn : c.broughtFor m items = []
  · simp [hOwn, Cache.overlay]
  · rw [List.filter_cons_of_pos (by simpa using hOwn), List.filter_nil]

theorem fragments_run_updates_of_unknown {items : List Item} {id : Identity}
    (hKnown : ∀ item ∈ items, item.module ∈ registry.modules)
    (hId : ∀ m ∈ registry.modules, m.identity ≠ id) :
    (cache.run (c.updates items)).2.fragments id = cache.fragments id := by
  have hNone : Cache.brought id (c.updates items) = [] := by
    rw [Cache.brought, List.map_eq_nil_iff, List.filter_eq_nil_iff]
    intro u hu
    rw [decide_eq_true_eq]
    exact hId u.1 ((knows_fragments hKnown).module_mem hu)
  rw [Cache.fragments_run, hNone, Cache.overlay_singleton]

theorem fragments_run_updates_perm (hPerm : first.Perm second)
    (hKnown : ∀ item ∈ first, item.module ∈ registry.modules) (id : Identity) :
    ((cache.run (c.updates first)).2.fragments id).Perm
      ((cache.run (c.updates second)).2.fragments id) := by
  have hKnown' : ∀ item ∈ second, item.module ∈ registry.modules :=
    fun item hItem => hKnown item (hPerm.mem_iff.mpr hItem)
  by_cases hId : ∃ m ∈ registry.modules, m.identity = id
  · obtain ⟨m, hm, rfl⟩ := hId
    rw [fragments_run_updates hKnown hm, fragments_run_updates hKnown' hm]
    exact Cache.merged_perm (broughtFor_perm hPerm)
  · have hUnknown : ∀ m ∈ registry.modules, m.identity ≠ id :=
      fun m hm hSame => hId ⟨m, hm, hSame⟩
    rw [fragments_run_updates_of_unknown hKnown hUnknown,
      fragments_run_updates_of_unknown hKnown' hUnknown]

theorem placeholdersFor_congr {selected others : Table ModuleInfo (List Fragment)}
    (h : ∀ m, (filenamesOf selected m).Perm (filenamesOf others m)) (name : Text) :
    c.placeholdersFor selected name = c.placeholdersFor others name := by
  rw [placeholdersFor, placeholdersFor]
  cases c.registry.lookup? name with
  | none => rfl
  | some m => simp only [Placeholder.items_congr (h m)]

theorem placeholders_congr {selected others : Table ModuleInfo (List Fragment)}
    (h : ∀ m, (filenamesOf selected m).Perm (filenamesOf others m)) (names : List Text) :
    c.placeholders selected names = c.placeholders others names := by
  induction names with
  | nil => rfl
  | cons name rest ih => rw [placeholders, placeholders, placeholdersFor_congr h, ih]

/-- A pass makes the same of its items in every order. -/
theorem process_perm {cache' : Cache} {r : PassResult} (hPerm : first.Perm second)
    (hKnown : ∀ item ∈ first, item.module ∈ registry.modules)
    (hNames : ∀ m k, (((c.fragments first).filter fun f => f.item.module = m ∧ f.key = k).map
      fun f => f.source.filename).Nodup)
    (h : c.process tree first cache = .ok r cache') :
    ∃ r' last, c.process tree second cache = .ok r' last ∧
      r.passed.Perm r'.passed ∧ r.combined.Perm r'.combined ∧ r.placeholders = r'.placeholders ∧
      ∀ id k, ((cache'.fragments id).filter fun f => f.key = k).Perm
        ((last.fragments id).filter fun f => f.key = k) := by
  have hKnown' : ∀ item ∈ second, item.module ∈ registry.modules :=
    fun item hItem => hKnown item (hPerm.mem_iff.mpr hItem)
  have hBucketNames : ∀ m k, (((c.broughtFor m first).filter fun f => f.key = k).map
      fun f => f.source.filename).Nodup := by
    intro m k
    rw [broughtFor, List.filter_filter]
    simpa only [Bool.and_comm, Bool.decide_and] using hNames m k
  obtain ⟨combined, events, made, moreEvents, hCombined, hMade, rfl⟩ := process_eq_ok_iff.mp h
  obtain ⟨⟨parts, hParts, rfl⟩, rfl⟩ := (combineModules_eq_ok_iff
    (knows_fragments hKnown).nodup_identities).mp ⟨events, hCombined⟩
  obtain ⟨parts', hParts', hSame⟩ := parts_perm hPerm hBucketNames hParts
  obtain ⟨events', hCombined'⟩ := (combineModules_eq_ok_iff
    (knows_fragments hKnown').nodup_identities).mpr
      ⟨⟨parts', hParts', rfl⟩, rfl⟩
  have hFilenames : ∀ m, (filenamesOf (c.updates first) m).Perm
      (filenamesOf (c.updates second) m) := by
    intro m
    rw [filenamesOf_updates, filenamesOf_updates]
    exact (broughtFor_perm hPerm).map _
  have hMade' : c.placeholders (c.updates second) c.only.toList =
      .ok (made, moreEvents) := (placeholders_congr hFilenames _).symm.trans hMade
  refine ⟨_, _, process_eq_ok_iff.mpr ⟨_, _, _, _, hCombined', hMade', rfl⟩,
    hPerm.filter _, hSame, rfl, fun id k => ?_⟩
  exact (fragments_run_updates_perm hPerm hKnown id).filter _

theorem process_swapped_files :
    let c := Sample.combiner ["Core"]
    let a := Sample.item "A.kt" "Core.kt" "class A" .android
    let b := Sample.item "B.kt" "Core.kt" "class B" .android
    ∃ r cache', c.process .empty [a, b] .empty = .ok r cache' ∧
      ∃ r' last, c.process .empty [b, a] .empty = .ok r' last ∧
        r.passed.Perm r'.passed ∧ r.combined.Perm r'.combined ∧
        r.placeholders = r'.placeholders ∧
        ∀ id k, ((cache'.fragments id).filter fun f => f.key = k).Perm
          ((last.fragments id).filter fun f => f.key = k) := by
  intro c a b
  have hKnown : ∀ item ∈ [a, b], item.module ∈ c.registry.modules := by decide +kernel
  have hDistinct : ((c.fragments [a, b]).map fun f => f.source.filename).Nodup := by decide +kernel
  have hNames : ∀ m k, (((c.fragments [a, b]).filter fun f => f.item.module = m ∧ f.key = k).map
      fun f => f.source.filename).Nodup :=
    fun m k => hDistinct.sublist (List.filter_sublist.map _)
  have hReturns : ((c.process .empty [a, b]).run' .empty).isSome = true := by decide +kernel
  obtain ⟨r, cache', hRun⟩ := exists_of_run'_isSome hReturns
  exact ⟨r, cache', hRun, process_perm (List.Perm.swap b a []) hKnown hNames hRun⟩

end Combiner

end Amalgam
