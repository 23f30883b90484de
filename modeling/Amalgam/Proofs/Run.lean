import Amalgam.Proofs.Pass

/-! # Runs of passes

A combiner takes one pass after another and keeps its cache between them. The cache is the only
thing that connects the passes: what a pass finds in it are the merges of the earlier ones, and of a
bucket it shows the fragments of the last pass that brought any.
-/

namespace Amalgam

structure Pass where
  tree : FileTree
  items : List Item

namespace Combiner

/-- Several passes through one combiner; the run ends where a pass does not return. -/
def runPasses (c : Combiner) : List Pass → EStateM Fault Cache (List PassResult)
  | [] => pure []
  | p :: rest => do
    let result ← c.process p.tree p.items
    let results ← c.runPasses rest
    return result :: results

theorem runPasses_cons_eq_ok_iff {c : Combiner} {p : Pass} {rest : List Pass}
    {cache cache' : Cache} {results : List PassResult} :
    c.runPasses (p :: rest) cache = .ok results cache' ↔
      ∃ r others between, c.process p.tree p.items cache = .ok r between ∧
        c.runPasses rest between = .ok others cache' ∧ results = r :: others := by
  rw [runPasses]
  simp only [bind, EStateM.bind]
  cases hFirst : c.process p.tree p.items cache with
  | error e last => exact iff_of_false nofun (by rintro ⟨_, _, _, h, _⟩; cases h)
  | ok r between =>
    simp only
    cases hRest : c.runPasses rest between with
    | error e last =>
      apply iff_of_false nofun
      rintro ⟨_, _, _, h, h', _⟩
      cases h
      rw [hRest] at h'
      cases h'
    | ok others last =>
      constructor
      · intro h
        cases h
        exact ⟨r, others, between, rfl, hRest, rfl⟩
      · rintro ⟨_, _, _, h, h', rfl⟩
        cases h
        rw [hRest] at h'
        cases h'
        rfl

theorem runPasses_append_singleton {c : Combiner} {earlier : List Pass} {last : Pass}
    {cache cache' : Cache} {all : List PassResult}
    (h : c.runPasses (earlier ++ [last]) cache = .ok all cache') :
    ∃ results r between, all = results ++ [r] ∧
      c.runPasses earlier cache = .ok results between ∧
      c.process last.tree last.items between = .ok r cache' := by
  induction earlier generalizing cache all with
  | nil =>
    obtain ⟨r, others, between, hLast, hRest, rfl⟩ := runPasses_cons_eq_ok_iff.mp h
    cases hRest
    exact ⟨[], r, cache, rfl, rfl, hLast⟩
  | cons p rest ih =>
    obtain ⟨first, others, next, hFirst, hRest, rfl⟩ := runPasses_cons_eq_ok_iff.mp h
    obtain ⟨results, r, between, rfl, hEarlier, hLast⟩ := ih hRest
    refine ⟨first :: results, r, between, rfl, ?_, hLast⟩
    exact runPasses_cons_eq_ok_iff.mpr ⟨first, results, next, hFirst, hEarlier, rfl⟩

def history (c : Combiner) (m : ModuleInfo) (passes : List Pass) : List (List Fragment) :=
  passes.map fun p => c.broughtFor m p.items

/-- What is remembered after passes that begin with an empty cache and all return. -/
def cacheAfter (c : Combiner) (passes : List Pass) : Cache :=
  (Cache.run .empty (passes.flatMap fun p => c.updates p.items)).2

theorem mem_keys_history {c : Combiner} {m : ModuleInfo} {k : BucketKey} {passes : List Pass} :
    k ∈ (c.history m passes).flatten.map Fragment.key ↔
      ∃ p ∈ passes, ∃ f ∈ c.broughtFor m p.items, f.key = k := by
  simp only [history, List.mem_map, List.mem_flatten, exists_exists_and_eq_and]
  constructor
  · rintro ⟨f, ⟨p, hp, hf⟩, hKey⟩
    exact ⟨p, hp, f, hf, hKey⟩
  · rintro ⟨p, hp, f, hf, hKey⟩
    exact ⟨f, ⟨p, hp, hf⟩, hKey⟩

theorem mem_latest_history {c : Combiner} {m : ModuleInfo} {k : BucketKey} {passes : List Pass}
    {f : Fragment} (h : f ∈ Cache.latest k (c.history m passes)) :
    c.pick f.item = some f.source ∧ f.item.module = m ∧ f.key = k := by
  obtain ⟨⟨own, hOwn, hMem⟩, hKey⟩ := Cache.mem_latest h
  obtain ⟨p, _, rfl⟩ := List.mem_map.mp hOwn
  obtain ⟨hPick, hModule⟩ := mem_broughtFor hMem
  exact ⟨hPick, hModule, hKey⟩

section

variable {registry : Registry} {c : Combiner} {passes earlier : List Pass} {last : Pass}
  {m : ModuleInfo}

theorem brought_updates_of_passes
    (hKnown : ∀ p ∈ passes, ∀ item ∈ p.items, item.module ∈ registry.modules)
    (hm : m ∈ registry.modules) :
    Cache.brought m.identity (passes.flatMap fun p => c.updates p.items) =
      (c.history m passes).filter fun fragments => fragments ≠ [] := by
  induction passes with
  | nil => rfl
  | cons p rest ih =>
    have hFirst : Cache.brought m.identity (c.updates p.items) =
        [c.broughtFor m p.items].filter fun fragments => fragments ≠ [] :=
      brought_updates (hKnown p List.mem_cons_self) hm
    have hRest := ih fun p hp => hKnown p (List.mem_cons_of_mem _ hp)
    rw [List.flatMap_cons, Cache.brought_append, hFirst, hRest, ← List.filter_append]
    rfl

/-- A pass sees the whole history of a module. Passes that bring nothing for it leave no trace. -/
theorem merged_cacheAfter
    (hKnown : ∀ p ∈ earlier, ∀ item ∈ p.items, item.module ∈ registry.modules)
    (hm : m ∈ registry.modules) :
    (c.cacheAfter earlier).merged m.identity (c.broughtFor m last.items) =
      Cache.overlay (c.history m (earlier ++ [last])) := by
  -- Both overlays are taken without the passes that bring nothing.
  rw [cacheAfter, Cache.merged_run_empty, brought_updates_of_passes hKnown hm, history, history,
    List.map_append, ← Cache.overlay_filter_ne_nil, ← Cache.overlay_filter_ne_nil (_ ++ _)]
  simp only [List.filter_append, List.filter_filter, Bool.and_self, List.map_cons, List.map_nil]

theorem cache_of_runPasses {cache cache' : Cache} {results : List PassResult}
    (hKnown : ∀ p ∈ passes, ∀ item ∈ p.items, item.module ∈ registry.modules)
    (h : c.runPasses passes cache = .ok results cache') :
    cache' = (cache.run (passes.flatMap fun p => c.updates p.items)).2 := by
  induction passes generalizing cache results with
  | nil =>
    cases h
    rfl
  | cons p rest ih =>
    obtain ⟨r, others, between, hFirst, hRest, rfl⟩ := runPasses_cons_eq_ok_iff.mp h
    obtain ⟨_, rfl⟩ := process_eq_ok (hKnown p List.mem_cons_self) hFirst
    have hLater := ih (fun p hp => hKnown p (List.mem_cons_of_mem _ hp)) hRest
    rw [hLater, List.flatMap_cons, Cache.run_append]

theorem process_last {results : List PassResult} {r : PassResult} {cache : Cache}
    (hKnown : ∀ p ∈ earlier, ∀ item ∈ p.items, item.module ∈ registry.modules)
    (hRun : c.runPasses (earlier ++ [last]) .empty = .ok (results ++ [r]) cache) :
    c.process last.tree last.items (c.cacheAfter earlier) = .ok r cache := by
  obtain ⟨others, r', between, hResults, hEarlier, hLast⟩ := runPasses_append_singleton hRun
  obtain ⟨rfl, hSame⟩ := List.append_inj' hResults rfl
  obtain rfl := List.singleton_inj.mp hSame
  rw [cache_of_runPasses hKnown hEarlier] at hLast
  exact hLast

end

end Combiner

end Amalgam
