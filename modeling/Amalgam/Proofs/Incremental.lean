import Amalgam.Proofs.BucketOutcome
import Amalgam.Proofs.Run

/-! # Incremental passes and fresh ones

A combiner that has run for many passes makes of every bucket what a fresh one makes of the bucket
alone. The cache is the only thing that connects passes, and of a bucket it shows the fragments of
the last pass that brought any, so neither the other buckets nor earlier failures can be felt.
-/

namespace Amalgam

/-- A generator that fails only in the ways it may report. -/
def Generator.Reports (generate : Generator) : Prop :=
  ∀ name m kind language f, generate name m kind language = .error f → f.isExpected = true

theorem EmptyType.reports_objc : Generator.Reports objc := by
  intro name m kind language f h
  rw [objc] at h
  split at h
  · cases h
    rfl
  · simp only at h
    split at h
    · cases h
      rfl
    · cases h

namespace Placeholder

theorem objc_ok {generate : Generator} (h : generate.Reports) (m : ModuleInfo) :
    ∃ made, objc generate m = .ok made := by
  rw [objc]
  cases hSources : generate typeName m .classType .objc with
  | ok sources => exact ⟨_, rfl⟩
  | error f =>
    simp only [h _ _ _ _ _ hSources, if_true]
    exact ⟨_, rfl⟩

theorem items_ok {generate : Generator} (h : generate.Reports) (config : ProjectConfig)
    (m : ModuleInfo) (filenames : List Text) :
    ∃ made, items generate config m filenames = .ok made := by
  obtain ⟨made, hMade⟩ := objc_ok h m
  rw [items]
  simp only [hMade]
  split
  · exact ⟨_, rfl⟩
  · exact ⟨_, rfl⟩

end Placeholder

namespace Combiner

section

variable {registry : Registry} {c : Combiner} {earlier : List Pass} {last : Pass} {m : ModuleInfo}

theorem part_of_combineBuckets {part : List Item}
    (hKnown : ∀ p ∈ earlier, ∀ item ∈ p.items, item.module ∈ registry.modules)
    (hm : m ∈ registry.modules)
    (h : combineBuckets last.tree m
      ((c.cacheAfter earlier).merged m.identity (c.broughtFor m last.items)) = .ok part) :
    List.Forall₂ (fun k item =>
        Bucket.outcome last.tree m k (Cache.latest k (c.history m (earlier ++ [last]))) =
          .ok item ∧ item.module = m ∧ item.bucketKey? = some k)
      (distinct ((Cache.overlay (c.history m (earlier ++ [last]))).map Fragment.key)) part := by
  rw [merged_cacheAfter hKnown hm, combineBuckets_eq_ok_iff] at h
  apply h.imp
  intro k item hItem
  rw [Cache.filter_overlay] at hItem
  refine ⟨hItem, Bucket.outcome_place hItem ?_ ?_ ?_⟩
  · intro f hf
    exact (pick_eq_some_iff.mp (mem_latest_history hf).1).2
  · intro f hf
    exact (mem_latest_history hf).2.1
  · intro f hf
    exact (mem_latest_history hf).2.2

end

theorem filter_eq_self_of_module {part : List Item} {m : ModuleInfo}
    (h : ∀ item ∈ part, item.module = m) : (part.filter fun item => item.module = m) = part :=
  List.filter_eq_self.mpr fun item hItem => decide_eq_true (h item hItem)

theorem filter_eq_nil_of_module {part : List Item} {m m' : ModuleInfo}
    (h : ∀ item ∈ part, item.module = m') (hNe : m' ≠ m) :
    (part.filter fun item => item.module = m) = [] := by
  apply List.filter_eq_nil_iff.mpr
  intro item hItem
  rw [h item hItem, decide_eq_true_eq]
  exact hNe

theorem filter_flatten_of_forall₂ {α : Type} {module : α → ModuleInfo} {P : α → List Item → Prop}
    {selected : List α} {parts : List (List Item)} {u : α} (h : List.Forall₂ P selected parts)
    (hModule : ∀ u part, P u part → ∀ item ∈ part, item.module = module u)
    (hNodup : (selected.map module).Nodup) (hu : u ∈ selected) :
    ∃ part, P u part ∧ (parts.flatten.filter fun item => item.module = module u) = part := by
  induction h with
  | nil => cases hu
  | @cons first part rest parts hPart hRest ih =>
    obtain ⟨hNew, hNodupRest⟩ := List.nodup_cons.mp hNodup
    rw [List.flatten_cons, List.filter_append]
    rcases List.mem_cons.mp hu with rfl | hu
    · have hOthers : (parts.flatten.filter fun item => item.module = module u) = [] := by
        rw [List.filter_flatten, List.flatten_eq_nil_iff]
        intro filtered hFiltered
        obtain ⟨part', hMem, rfl⟩ := List.mem_map.mp hFiltered
        obtain ⟨u', hu', hPart'⟩ := exists_mem_of_forall₂ hRest hMem
        apply filter_eq_nil_of_module (hModule u' part' hPart')
        intro hSame
        exact hNew (hSame ▸ List.mem_map_of_mem hu')
      have hSelf := filter_eq_self_of_module (hModule u part hPart)
      exact ⟨part, hPart, by rw [hOthers, hSelf, List.append_nil]⟩
    · have hFirst : (part.filter fun item => item.module = module u) = [] := by
        apply filter_eq_nil_of_module (hModule first part hPart)
        intro hSame
        exact hNew (hSame ▸ List.mem_map_of_mem hu)
      rw [hFirst, List.nil_append]
      exact ih hNodupRest hu

theorem placeholders_ok {c : Combiner} (hReports : c.generator.Reports)
    (selected : Table ModuleInfo (List Fragment)) (names : List Text) :
    ∃ made, c.placeholders selected names = .ok made := by
  induction names with
  | nil => exact ⟨_, rfl⟩
  | cons name rest ih =>
    obtain ⟨more, hMore⟩ := ih
    have hFirst : ∃ made, c.placeholdersFor selected name = .ok made := by
      rw [placeholdersFor]
      split
      · exact ⟨_, rfl⟩
      · next m _ =>
        split
        · obtain ⟨items, hItems⟩ :=
            Placeholder.items_ok hReports c.config m (filenamesOf selected m)
          rw [hItems]
          exact ⟨_, rfl⟩
        · exact ⟨_, rfl⟩
    obtain ⟨made, hMade⟩ := hFirst
    rw [placeholders, hMade, hMore]
    exact ⟨_, rfl⟩

/-- A fresh combiner makes this item, and no other, of these fragments alone. It returns with any
generator that keeps to its failures. -/
def MadeAlone (c : Combiner) (tree : FileTree) (fragments : List Fragment) (item : Item) : Prop :=
  ∀ generate : Generator,
    let fresh : Combiner := { c with generator := generate }
    let own := fragments.map fun f => f.item
    (∀ r cache, fresh.process tree own .empty = .ok r cache → r.combined = [item]) ∧
      (generate.Reports → ∃ r cache, fresh.process tree own .empty = .ok r cache)

theorem madeAlone {c : Combiner} {tree : FileTree} {m : ModuleInfo} {k : BucketKey}
    {fragments : List Fragment} {item : Item} (hNe : fragments ≠ [])
    (hPick : ∀ f ∈ fragments, c.pick f.item = some f.source)
    (hModule : ∀ f ∈ fragments, f.item.module = m) (hKey : ∀ f ∈ fragments, f.key = k)
    (h : Bucket.outcome tree m k fragments = .ok item) : c.MadeAlone tree fragments item := by
  intro generate fresh own
  have hFragments : fresh.fragments own = fragments := fragments_map_item hPick
  have hSelected : byModule (fresh.fragments own) = [(m, fragments)] := by
    rw [hFragments]
    exact groupBy_of_forall_eq hNe hModule
  -- A fresh cache adds nothing, so the pass has this one bucket.
  have hMerged : Cache.empty.merged m.identity fragments = fragments := List.append_nil fragments
  have hPart : combineBuckets tree m (Cache.empty.merged m.identity fragments) = .ok [item] := by
    rw [hMerged, combineBuckets, buckets, groupBy_of_forall_eq hNe hKey, mapM_eq_ok_iff]
    exact .cons h .nil
  obtain ⟨events, cache, hCombined⟩ : ∃ events cache,
      combineModules tree (byModule (fresh.fragments own)) .empty = .ok ([item], events) cache := by
    rw [hSelected, combineModules_cons, hPart]
    exact ⟨_, _, rfl⟩
  constructor
  · intro r last hProcess
    obtain ⟨combined, _, _, _, hOther, _, rfl⟩ := process_eq_ok_iff.mp hProcess
    rw [hCombined] at hOther
    cases hOther
    rfl
  · intro hReports
    have hFresh : fresh.generator.Reports := hReports
    obtain ⟨⟨made, moreEvents⟩, hMade⟩ :=
      placeholders_ok hFresh (byModule (fresh.fragments own)) fresh.only.toList
    exact ⟨_, _, process_eq_ok_iff.mpr ⟨_, _, _, _, hCombined, hMade, rfl⟩⟩

/-- Of a run, the last pass makes for every bucket of its modules what a fresh combiner makes of the
fragments with which the bucket was last brought. -/
theorem combined_eq_fresh {registry : Registry} {c : Combiner} {earlier : List Pass} {last : Pass}
    {results : List PassResult} {r : PassResult} {cache : Cache} {m : ModuleInfo}
    (hKnown : ∀ p ∈ earlier ++ [last], ∀ item ∈ p.items, item.module ∈ registry.modules)
    (hRun : c.runPasses (earlier ++ [last]) .empty = .ok (results ++ [r]) cache)
    (hOwn : c.broughtFor m last.items ≠ []) :
    ∃ keys : List BucketKey, keys.Nodup ∧
      (∀ k, k ∈ keys ↔ ∃ p ∈ earlier ++ [last], ∃ f ∈ c.broughtFor m p.items, f.key = k) ∧
      List.Forall₂ (fun k item => item.bucketKey? = some k ∧
          c.MadeAlone last.tree (Cache.latest k (c.history m (earlier ++ [last]))) item)
        keys (r.combined.filter fun item => item.module = m) := by
  have hEarlierKnown : ∀ p ∈ earlier, ∀ item ∈ p.items, item.module ∈ registry.modules :=
    fun p hp => hKnown p (List.mem_append_left _ hp)
  have hLastKnown : ∀ item ∈ last.items, item.module ∈ registry.modules :=
    hKnown last (List.mem_append_right _ List.mem_cons_self)
  have hLast := process_last hEarlierKnown hRun
  obtain ⟨⟨parts, hParts, hCombined⟩, _⟩ := process_eq_ok hLastKnown hLast
  have hBuckets := ((List.forall₂_and_left _ _).mpr ⟨fun u hu => hu, hParts⟩).imp
    fun u part hPart => by
      obtain ⟨hu, hPart⟩ := hPart
      rw [(mem_byModule hu).1] at hPart
      exact part_of_combineBuckets hEarlierKnown ((knows_fragments hLastKnown).module_mem hu) hPart
  obtain ⟨part, hPart, hFilter⟩ := filter_flatten_of_forall₂ hBuckets
    (fun u part hPart item hItem => by
      obtain ⟨k, _, _, hModule, _⟩ := exists_mem_of_forall₂ hPart hItem
      exact hModule)
    (nodup_modules _) (byModule_mem_of_ne_nil hOwn)
  have hMem : ∀ k, k ∈ distinct ((Cache.overlay (c.history m (earlier ++ [last]))).map
      Fragment.key) ↔ k ∈ (c.history m (earlier ++ [last])).flatten.map Fragment.key := by
    intro k
    rw [mem_distinct, Cache.mem_keys_overlay]
  refine ⟨_, distinct_nodup _, fun k => (hMem k).trans mem_keys_history, ?_⟩
  rw [hCombined, hFilter]
  apply ((List.forall₂_and_left _ _).mpr ⟨fun k hk => hk, hPart⟩).imp
  rintro k item ⟨hk, hOutcome, _, hKey⟩
  have hNe : Cache.latest k (c.history m (earlier ++ [last])) ≠ [] := by
    intro hNil
    exact Cache.latest_eq_nil_iff.mp hNil ((hMem k).mp hk)
  refine ⟨hKey, madeAlone hNe ?_ ?_ ?_ hOutcome⟩
  · intro f hf
    exact (mem_latest_history hf).1
  · intro f hf
    exact (mem_latest_history hf).2.1
  · intro f hf
    exact (mem_latest_history hf).2.2

theorem carried_bucket_eq_fresh :
    let c := Sample.combiner []
    let first : Pass := ⟨.empty, [Sample.item "A.h" "Core.h" "a" .ios,
      Sample.item "B.kt" "Core.kt" "b" .android]⟩
    let second : Pass := ⟨.empty, [Sample.item "C.h" "Core.h" "c" .ios]⟩
    ∃ results r cache, c.runPasses ([first] ++ [second]) .empty = .ok (results ++ [r]) cache ∧
      ∃ keys : List BucketKey, keys.Nodup ∧
        (∀ k, k ∈ keys ↔
          ∃ p ∈ [first] ++ [second], ∃ f ∈ c.broughtFor Sample.core p.items, f.key = k) ∧
        List.Forall₂ (fun k item => item.bucketKey? = some k ∧
            c.MadeAlone second.tree (Cache.latest k (c.history Sample.core ([first] ++ [second])))
              item)
          keys (r.combined.filter fun item => item.module = Sample.core) := by
  intro c first second
  have hKnown : ∀ p ∈ [first] ++ [second], ∀ item ∈ p.items, item.module ∈ c.registry.modules := by
    decide +kernel
  have hOwn : c.broughtFor Sample.core second.items ≠ [] := by decide +kernel
  have hReturns : ((c.runPasses ([first] ++ [second])).run' .empty).isSome = true := by
    decide +kernel
  obtain ⟨all, cache, hRun⟩ := exists_of_run'_isSome hReturns
  obtain ⟨results, r, _, rfl, _, _⟩ := runPasses_append_singleton hRun
  exact ⟨results, r, cache, hRun, combined_eq_fresh hKnown hRun hOwn⟩

end Combiner

end Amalgam
