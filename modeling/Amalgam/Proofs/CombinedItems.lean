import Amalgam.Proofs.Incremental

/-! # The combined items of a module

In the last pass of a run a module that brings fragments has one item for every bucket that any pass
brought for it, and a module that brings none has no item.
-/

namespace Amalgam

namespace Combiner

variable {registry : Registry} {c : Combiner} {earlier : List Pass} {last : Pass}
  {results : List PassResult} {r : PassResult} {cache : Cache} {m : ModuleInfo}

/-- The item of a bucket, made of the fragments with which it was last brought. -/
def IsItemOf (c : Combiner) (passes : List Pass) (tree : FileTree) (m : ModuleInfo) (k : BucketKey)
    (item : Item) : Prop :=
  Bucket.outcome tree m k (Cache.latest k (c.history m passes)) = .ok item ∧
    item.module = m ∧ item.bucketKey? = some k

def bucketKeys (c : Combiner) (m : ModuleInfo) (passes : List Pass) : List BucketKey :=
  distinct ((Cache.overlay (c.history m passes)).map Fragment.key)

theorem mem_bucketKeys {passes : List Pass} {k : BucketKey} :
    k ∈ c.bucketKeys m passes ↔ ∃ p ∈ passes, ∃ f ∈ c.broughtFor m p.items, f.key = k := by
  rw [bucketKeys, mem_distinct, Cache.mem_keys_overlay, mem_keys_history]

section

variable (hKnown : ∀ p ∈ earlier ++ [last], ∀ item ∈ p.items, item.module ∈ registry.modules)
  (hRun : c.runPasses (earlier ++ [last]) .empty = .ok (results ++ [r]) cache)

include hKnown hRun

theorem exists_parts_of_runPasses :
    ∃ parts, r.combined = parts.flatten ∧
      List.Forall₂ (fun u part =>
        List.Forall₂ (c.IsItemOf (earlier ++ [last]) last.tree u.1)
          (c.bucketKeys u.1 (earlier ++ [last])) part)
        (c.updates last.items) parts := by
  have hEarlierKnown : ∀ p ∈ earlier, ∀ item ∈ p.items, item.module ∈ registry.modules :=
    fun p hp => hKnown p (List.mem_append_left _ hp)
  have hLastKnown : ∀ item ∈ last.items, item.module ∈ registry.modules :=
    hKnown last (List.mem_append_right _ List.mem_cons_self)
  obtain ⟨⟨parts, hParts, hCombined⟩, _⟩ :=
    process_eq_ok hLastKnown (process_last hEarlierKnown hRun)
  refine ⟨parts, hCombined, ((List.forall₂_and_left _ _).mpr ⟨fun u hu => hu, hParts⟩).imp ?_⟩
  rintro u part ⟨hu, hPart⟩
  rw [(mem_byModule hu).1] at hPart
  exact part_of_combineBuckets hEarlierKnown ((knows_fragments hLastKnown).module_mem hu) hPart

theorem forall₂_combined (hOwn : c.broughtFor m last.items ≠ []) :
    List.Forall₂ (c.IsItemOf (earlier ++ [last]) last.tree m)
      (c.bucketKeys m (earlier ++ [last])) (r.combined.filter fun item => item.module = m) := by
  obtain ⟨parts, hCombined, hParts⟩ := exists_parts_of_runPasses hKnown hRun
  obtain ⟨part, hPart, hFilter⟩ := filter_flatten_of_forall₂ hParts
    (fun u part hPart item hItem => by
      obtain ⟨k, _, _, hModule, _⟩ := exists_mem_of_forall₂ hPart hItem
      exact hModule)
    (nodup_modules _) (byModule_mem_of_ne_nil hOwn)
  rw [hCombined, hFilter]
  exact hPart

theorem ne_nil_of_mem_combined {item : Item} (h : item ∈ r.combined) :
    c.broughtFor item.module last.items ≠ [] := by
  obtain ⟨parts, hCombined, hParts⟩ := exists_parts_of_runPasses hKnown hRun
  rw [hCombined] at h
  obtain ⟨part, hMem, hItem⟩ := List.mem_flatten.mp h
  obtain ⟨u, hu, hPart⟩ := exists_mem_of_forall₂ hParts hMem
  obtain ⟨k, _, _, hModule, _⟩ := exists_mem_of_forall₂ hPart hItem
  obtain ⟨hBrought, hNe⟩ := mem_byModule hu
  rw [hModule, broughtFor, ← hBrought]
  exact hNe

end

end Combiner

end Amalgam
