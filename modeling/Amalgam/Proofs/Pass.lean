import Amalgam.Combine
import Amalgam.Proofs.CacheHistory
import Mathlib.Data.List.Forall2

/-! # What a pass is made of

A pass that returns has merged the fragments of each module into the cache, has turned every bucket
of the merged lists into one item, and has then made the placeholders. The modules of one registry
have distinct identities, so no module sees what the pass merges for another.
-/

namespace Amalgam

theorem bind_eq_ok_iff {ε α β : Type} {x : Except ε α} {f : α → Except ε β} {b : β} :
    (x >>= f) = .ok b ↔ ∃ a, x = .ok a ∧ f a = .ok b := by
  cases x with
  | error e => exact iff_of_false nofun (by rintro ⟨_, h, _⟩; cases h)
  | ok a =>
    constructor
    · intro h
      exact ⟨a, rfl, h⟩
    · rintro ⟨_, h, hf⟩
      cases h
      exact hf

theorem ok_bind {ε α β : Type} (a : α) (f : α → Except ε β) : (Except.ok a >>= f) = f a := rfl

theorem mapError_eq_ok_iff {ε ε' α : Type} {x : Except ε α} {f : ε → ε'} {a : α} :
    x.mapError f = .ok a ↔ x = .ok a := by
  cases x with
  | error e => exact iff_of_false nofun nofun
  | ok b => exact ⟨fun h => congrArg Except.ok (Except.ok.inj h),
      fun h => congrArg Except.ok (Except.ok.inj h)⟩

theorem mapM_eq_ok_iff {ε α β : Type} {f : α → Except ε β} {elements : List α}
    {results : List β} :
    elements.mapM f = .ok results ↔ List.Forall₂ (fun a b => f a = .ok b) elements results := by
  induction elements generalizing results with
  | nil =>
    rw [List.mapM_nil, List.forall₂_nil_left_iff]
    exact ⟨fun h => (Except.ok.inj h).symm, fun h => congrArg Except.ok h.symm⟩
  | cons a rest ih =>
    rw [List.mapM_cons, List.forall₂_cons_left_iff]
    cases hHead : f a with
    | error e =>
      apply iff_of_false nofun
      rintro ⟨b, _, h, _, _⟩
      cases h
    | ok b =>
      cases hRest : rest.mapM f with
      | error e =>
        apply iff_of_false nofun
        rintro ⟨_, others, _, h, _⟩
        rw [← ih, hRest] at h
        cases h
      | ok others =>
        constructor
        · intro h
          exact ⟨b, others, rfl, ih.mp hRest, (Except.ok.inj h).symm⟩
        · rintro ⟨b', others', hb, h, rfl⟩
          rw [← ih, hRest] at h
          cases hb
          cases h
          rfl

theorem forall₂_congr_of_mem {α β : Type} {R S : α → β → Prop} {elements : List α}
    (h : ∀ a ∈ elements, ∀ b, R a b ↔ S a b) (results : List β) :
    List.Forall₂ R elements results ↔ List.Forall₂ S elements results := by
  constructor
  · intro hR
    exact ((List.forall₂_and_left elements results).mpr ⟨h, hR⟩).imp fun a b hab =>
      (hab.1 b).mp hab.2
  · intro hS
    exact ((List.forall₂_and_left elements results).mpr ⟨h, hS⟩).imp fun a b hab =>
      (hab.1 b).mpr hab.2

theorem exists_mem_of_forall₂ {α β : Type} {R : α → β → Prop} {elements : List α}
    {results : List β} {b : β} (h : List.Forall₂ R elements results) (hb : b ∈ results) :
    ∃ a ∈ elements, R a b := by
  induction h with
  | nil => cases hb
  | @cons a _ _ _ hHead _ ih =>
    rcases List.mem_cons.mp hb with rfl | hb
    · exact ⟨a, List.mem_cons_self, hHead⟩
    · obtain ⟨a, ha, hR⟩ := ih hb
      exact ⟨a, List.mem_cons_of_mem _ ha, hR⟩

theorem run'_eq_some {ε σ α : Type} {x : EStateM ε σ α} {s s' : σ} {a : α}
    (h : x s = .ok a s') : x.run' s = some a := by
  change (match x s with
    | .ok a _ => some a
    | .error _ _ => none) = some a
  rw [h]

theorem exists_of_run'_isSome {ε σ α : Type} {x : EStateM ε σ α} {s : σ}
    (h : (x.run' s).isSome = true) : ∃ a s', x s = .ok a s' := by
  cases hRun : x s with
  | error e s' =>
    have hNone : x.run' s = none := by
      change (match x s with
        | .ok a _ => some a
        | .error _ _ => none) = none
      rw [hRun]
    rw [hNone] at h
    cases h
  | ok a s' => exact ⟨a, s', rfl⟩

namespace Registry

theorem eq_of_name_eq {r : Registry} {m m' : ModuleInfo} (hm : m ∈ r.modules)
    (hm' : m' ∈ r.modules) (h : m.name = m'.name) : m = m' :=
  List.inj_on_of_nodup_map r.distinct hm hm' h

theorem eq_of_identity_eq {r : Registry} {m m' : ModuleInfo} (hm : m ∈ r.modules)
    (hm' : m' ∈ r.modules) (h : m.identity = m'.identity) : m = m' :=
  eq_of_name_eq hm hm' (congrArg Identity.name h)

end Registry

theorem mem_byModule {fragments own : List Fragment} {m : ModuleInfo}
    (h : (m, own) ∈ byModule fragments) :
    own = fragments.filter (fun f => f.item.module = m) ∧ own ≠ [] := by
  obtain ⟨⟨f, hf, hModule⟩, hOwn⟩ := mem_groupBy.mp h
  refine ⟨hOwn, fun hNil => ?_⟩
  have : f ∈ own := hOwn ▸ List.mem_filter.mpr ⟨hf, decide_eq_true hModule⟩
  rw [hNil] at this
  cases this

theorem byModule_mem_of_ne_nil {fragments : List Fragment} {m : ModuleInfo}
    (h : (fragments.filter fun f => f.item.module = m) ≠ []) :
    (m, fragments.filter fun f => f.item.module = m) ∈ byModule fragments := by
  obtain ⟨f, hf⟩ := List.exists_mem_of_ne_nil _ h
  obtain ⟨hMem, hModule⟩ := List.mem_filter.mp hf
  exact mem_groupBy.mpr ⟨⟨f, hMem, of_decide_eq_true hModule⟩, rfl⟩

theorem nodup_modules (fragments : List Fragment) :
    ((byModule fragments).map Prod.fst).Nodup := by
  rw [← Table.keys, byModule, keys_groupBy]
  exact distinct_nodup _

def Registry.Knows (r : Registry) (fragments : List Fragment) : Prop :=
  ∀ f ∈ fragments, f.item.module ∈ r.modules

theorem Registry.Knows.module_mem {r : Registry} {fragments own : List Fragment} {m : ModuleInfo}
    (h : r.Knows fragments) (hOwn : (m, own) ∈ byModule fragments) : m ∈ r.modules := by
  obtain ⟨⟨f, hf, rfl⟩, _⟩ := mem_groupBy.mp hOwn
  exact h f hf

theorem Registry.Knows.nodup_identities {r : Registry} {fragments : List Fragment}
    (h : r.Knows fragments) : ((byModule fragments).map fun u => u.1.identity).Nodup := by
  have hMember : ∀ m ∈ (byModule fragments).map Prod.fst, m ∈ r.modules := by
    intro m hm
    obtain ⟨⟨_, own⟩, hOwn, rfl⟩ := List.mem_map.mp hm
    exact h.module_mem hOwn
  have hNodup := (nodup_modules fragments).map_on fun m hm m' hm' hId =>
    eq_of_identity_eq (hMember m hm) (hMember m' hm') hId
  rwa [List.map_map] at hNodup

namespace Placeholder

/-- A placeholder is an empty source, or it is made for Objective-C. -/
theorem items_cases {generate : Generator} {config : ProjectConfig} {m : ModuleInfo}
    {filenames : List Text} {made : List Item}
    (h : items generate config m filenames = .ok made) :
    ∀ item ∈ made,
      (∃ filename platform directory, item = empty m filename platform directory) ∨
        ∃ own, objc generate m = .ok own ∧ item ∈ own := by
  rw [items] at h
  split at h
  · cases hOwn : objc generate m with
    | error f =>
      rw [hOwn] at h
      cases h
    | ok own =>
      rw [hOwn] at h
      cases h
      intro item hItem
      simp only [List.mem_append, List.mem_ite_nil_right, List.mem_cons, List.not_mem_nil,
        or_false] at hItem
      rcases hItem with ((⟨_, h⟩ | hItem) | ⟨_, h⟩) | ⟨_, h | h⟩
      · exact .inl ⟨_, _, _, h⟩
      · exact .inr ⟨own, rfl, hItem⟩
      · exact .inl ⟨_, _, _, h⟩
      · exact .inl ⟨_, _, _, h⟩
      · exact .inl ⟨_, _, _, h⟩
  · cases h
    intro item hItem
    simp only [List.append_nil, List.mem_append, List.mem_ite_nil_right, List.mem_cons,
      List.not_mem_nil, or_false] at hItem
    rcases hItem with (⟨_, h⟩ | ⟨_, h⟩) | ⟨_, h | h⟩ <;> exact .inl ⟨_, _, _, h⟩

end Placeholder

namespace Combiner

theorem pick_eq_some_iff {c : Combiner} {item : Item} {source : NativeSource} :
    c.pick item = some source ↔
      c.accepts item.module = true ∧ item.kind = .payload (.native source) := by
  rw [pick, Item.native?]
  split
  · next hAccepts =>
    rw [and_iff_right hAccepts]
    split
    · next found hKind =>
      rw [hKind]
      simp
    · next hOther => exact iff_of_false (Option.some_ne_none source).symm (hOther source)
  · next hAccepts =>
    exact iff_of_false (Option.some_ne_none source).symm fun h => hAccepts h.1

theorem fragments_eq_filterMap (c : Combiner) (items : List Item) :
    c.fragments items = items.filterMap fun item => (c.pick item).map (Fragment.mk item) := by
  rw [fragments, fragmentsOf, selection, Selection.ofItems, List.map_filterMap]
  simp only [Option.map_map, Function.comp_def]

theorem mem_fragments {c : Combiner} {items : List Item} {f : Fragment} :
    f ∈ c.fragments items ↔ f.item ∈ items ∧ c.pick f.item = some f.source := by
  rw [fragments_eq_filterMap, List.mem_filterMap]
  constructor
  · rintro ⟨item, hItem, hf⟩
    obtain ⟨source, hPick, rfl⟩ := Option.map_eq_some_iff.mp hf
    exact ⟨hItem, hPick⟩
  · rintro ⟨hItem, hPick⟩
    exact ⟨f.item, hItem, Option.map_eq_some_iff.mpr ⟨f.source, hPick, rfl⟩⟩

theorem fragments_map_item {c : Combiner} {fragments : List Fragment}
    (h : ∀ f ∈ fragments, c.pick f.item = some f.source) :
    c.fragments (fragments.map fun f => f.item) = fragments := by
  rw [fragments_eq_filterMap, List.filterMap_map]
  induction fragments with
  | nil => rfl
  | cons f rest ih =>
    rw [List.filterMap_cons, Function.comp_apply, h f List.mem_cons_self, Option.map_some]
    exact congrArg (f :: ·) (ih fun g hg => h g (List.mem_cons_of_mem _ hg))

theorem combineBuckets_eq_ok_iff {tree : FileTree} {m : ModuleInfo} {fragments : List Fragment}
    {items : List Item} :
    combineBuckets tree m fragments = .ok items ↔
      List.Forall₂ (fun k item =>
        Bucket.outcome tree m k (fragments.filter fun f => f.key = k) = .ok item)
        (distinct (fragments.map Fragment.key)) items := by
  rw [combineBuckets, mapM_eq_ok_iff, buckets, groupBy, List.forall₂_map_left_iff]

theorem combineModules_cons (tree : FileTree) (m : ModuleInfo) (incoming : List Fragment)
    (rest : Table ModuleInfo (List Fragment)) (cache : Cache) :
    combineModules tree ((m, incoming) :: rest) cache =
      match combineBuckets tree m (cache.merged m.identity incoming) with
      | .error e => .error (.read e) (cache.merge m.identity incoming)
      | .ok part =>
        match combineModules tree rest (cache.merge m.identity incoming) with
        | .error e last => .error e last
        | .ok (items, events) last =>
          .ok (part ++ items,
            moduleEvents tree m incoming (cache.carried m.identity incoming) ++ events) last := by
  rw [combineModules]
  simp only [combineModule, bind, EStateM.bind]
  cases combineBuckets tree m (cache.merged m.identity incoming) with
  | error e => rfl
  | ok part =>
    simp only
    cases combineModules tree rest (cache.merge m.identity incoming) with
    | error e last => rfl
    | ok more last => rfl

theorem exists_outcome_of_combineModules {tree : FileTree}
    {selected : Table ModuleInfo (List Fragment)} {items : List Item} {events : List Event}
    {cache cache' : Cache} {item : Item}
    (h : combineModules tree selected cache = .ok (items, events) cache') (hItem : item ∈ items) :
    ∃ u ∈ selected, ∃ k bucket, Bucket.outcome tree u.1 k bucket = .ok item := by
  induction selected generalizing cache items events with
  | nil =>
    cases h
    cases hItem
  | cons u rest ih =>
    rw [combineModules_cons] at h
    cases hPart : combineBuckets tree u.1 (cache.merged u.1.identity u.2) with
    | error e =>
      rw [hPart] at h
      cases h
    | ok part =>
      rw [hPart] at h
      cases hMore : combineModules tree rest (cache.merge u.1.identity u.2) with
      | error e last =>
        rw [hMore] at h
        cases h
      | ok more last =>
        rw [hMore] at h
        cases h
        rcases List.mem_append.mp hItem with hItem | hItem
        · obtain ⟨k, _, hOutcome⟩ := exists_mem_of_forall₂ (combineBuckets_eq_ok_iff.mp hPart) hItem
          exact ⟨u, List.mem_cons_self, k, _, hOutcome⟩
        · obtain ⟨u', hu', hOutcome⟩ := ih hMore hItem
          exact ⟨u', List.mem_cons_of_mem u hu', hOutcome⟩

/-- What a pass merges for the others does not change what a module gets to see. -/
theorem merged_merge_of_ne {cache : Cache} {id other : Identity} (h : other ≠ id)
    (incoming own : List Fragment) :
    (cache.merge id incoming).merged other own = cache.merged other own := by
  rw [Cache.merged, Cache.carried, Cache.fragments_merge, if_neg h, Cache.merged, Cache.carried]

/-- The items of every module, made of what the module sees in one and the same cache. -/
def PartsOf (tree : FileTree) (cache : Cache) (selected : List Cache.Update)
    (parts : List (List Item)) : Prop :=
  List.Forall₂ (fun u part =>
    combineBuckets tree u.1 (cache.merged u.1.identity u.2) = .ok part) selected parts

/-- Modules of distinct identities are combined each on its own. -/
theorem combineModules_eq_ok_iff {tree : FileTree} {selected : Table ModuleInfo (List Fragment)}
    {cache cache' : Cache} {items : List Item}
    (hNodup : (selected.map fun u => u.1.identity).Nodup) :
    (∃ events, combineModules tree selected cache = .ok (items, events) cache') ↔
      (∃ parts, PartsOf tree cache selected parts ∧ items = parts.flatten) ∧
        cache' = (cache.run selected).2 := by
  induction selected generalizing cache items with
  | nil =>
    constructor
    · rintro ⟨events, h⟩
      cases h
      exact ⟨⟨[], .nil, rfl⟩, rfl⟩
    · rintro ⟨⟨parts, hParts, rfl⟩, rfl⟩
      cases hParts
      exact ⟨[], rfl⟩
  | cons u rest ih =>
    obtain ⟨m, incoming⟩ := u
    obtain ⟨hNew, hRest⟩ := List.nodup_cons.mp hNodup
    -- The others are combined after the merge for `m`, which they do not see.
    have hOthers : ∀ u ∈ rest, (cache.merge m.identity incoming).merged u.1.identity u.2 =
        cache.merged u.1.identity u.2 := by
      intro u hu
      refine merged_merge_of_ne (fun hId => hNew ?_) _ _
      exact List.mem_map.mpr ⟨u, hu, hId⟩
    have hParts := forall₂_congr_of_mem fun u hu part =>
      (congrArg (combineBuckets tree u.1 · = .ok part) (hOthers u hu)).to_iff
    rw [combineModules_cons]
    constructor
    · rintro ⟨events, h⟩
      cases hPart : combineBuckets tree m (cache.merged m.identity incoming) with
      | error e =>
        rw [hPart] at h
        cases h
      | ok part =>
        rw [hPart] at h
        cases hMore : combineModules tree rest (cache.merge m.identity incoming) with
        | error e last =>
          rw [hMore] at h
          cases h
        | ok more last =>
          rw [hMore] at h
          cases h
          obtain ⟨⟨parts, hRestParts, hItems⟩, rfl⟩ := (ih hRest).mp ⟨_, hMore⟩
          exact ⟨⟨part :: parts, .cons hPart ((hParts parts).mp hRestParts), by rw [hItems]; rfl⟩,
            rfl⟩
    · rintro ⟨⟨parts, hAll, rfl⟩, rfl⟩
      cases hAll with
      | @cons _ part _ others hPart hOthersParts =>
        obtain ⟨events, hMore⟩ :=
          (ih hRest).mpr ⟨⟨others, (hParts others).mpr hOthersParts, rfl⟩, rfl⟩
        rw [hPart]
        simp only
        rw [hMore]
        exact ⟨_, rfl⟩

/-- The placeholders for a name are those of its module, if the module opted in. -/
theorem placeholdersFor_cases {c : Combiner} {selected : Table ModuleInfo (List Fragment)}
    {name : Text} {own : List Item} {events : List Event}
    (h : c.placeholdersFor selected name = .ok (own, events)) :
    own = [] ∨ ∃ m, c.registry.lookup? name = some m ∧ m.singleFile = true ∧
      Placeholder.items c.generator c.config m (filenamesOf selected m) = .ok own := by
  rw [placeholdersFor] at h
  cases hModule : c.registry.lookup? name with
  | none =>
    rw [hModule] at h
    cases h
    exact .inl rfl
  | some m =>
    simp only [hModule] at h
    split at h
    · next hSingle =>
      obtain ⟨made, hMade, hOwn⟩ := bind_eq_ok_iff.mp h
      cases hOwn
      exact .inr ⟨m, rfl, hSingle, hMade⟩
    · cases h
      exact .inl rfl

theorem mem_placeholders {c : Combiner} {selected : Table ModuleInfo (List Fragment)}
    {names : List Text} {made : List Item} {events : List Event} {item : Item}
    (h : c.placeholders selected names = .ok (made, events)) :
    item ∈ made ↔ ∃ name ∈ names, ∃ own ownEvents,
      c.placeholdersFor selected name = .ok (own, ownEvents) ∧ item ∈ own := by
  induction names generalizing made events with
  | nil =>
    cases h
    simp
  | cons name rest ih =>
    rw [placeholders] at h
    cases hFirst : c.placeholdersFor selected name with
    | error f =>
      rw [hFirst] at h
      cases h
    | ok first =>
      cases hRest : c.placeholders selected rest with
      | error f =>
        rw [hFirst, hRest] at h
        cases h
      | ok more =>
        rw [hFirst, hRest] at h
        cases h
        rw [List.mem_append, ih hRest, List.exists_mem_cons_iff]
        apply or_congr_left
        constructor
        · intro hItem
          exact ⟨_, _, hFirst, hItem⟩
        · rintro ⟨_, _, hSame, hItem⟩
          rw [hFirst] at hSame
          cases hSame
          exact hItem

theorem process_eq_ok_iff {c : Combiner} {tree : FileTree} {items : List Item}
    {cache cache' : Cache} {r : PassResult} :
    c.process tree items cache = .ok r cache' ↔
      ∃ combined events made moreEvents,
        combineModules tree (byModule (c.fragments items)) cache = .ok (combined, events) cache' ∧
        c.placeholders (byModule (c.fragments items)) c.only.toList = .ok (made, moreEvents) ∧
        r = ⟨(c.selection items).untouched, combined, made, events ++ moreEvents⟩ := by
  rw [process, Selection.replaceAll, combine, ← fragments]
  simp only [bind, EStateM.bind]
  cases hCombined : combineModules tree (byModule (c.fragments items)) cache with
  | error e last => exact iff_of_false nofun (by rintro ⟨_, _, _, _, h, _⟩; cases h)
  | ok combined last =>
    obtain ⟨combined, events⟩ := combined
    simp only
    cases hMade : c.placeholders (byModule (c.fragments items)) c.only.toList with
    | error f =>
      apply iff_of_false nofun
      rintro ⟨_, _, _, _, h, h', _⟩
      cases h'
    | ok made =>
      obtain ⟨made, moreEvents⟩ := made
      constructor
      · intro h
        cases h
        exact ⟨_, _, _, _, rfl, rfl, rfl⟩
      · rintro ⟨_, _, _, _, h, h', rfl⟩
        cases h
        cases h'
        rfl

def broughtFor (c : Combiner) (m : ModuleInfo) (items : List Item) : List Fragment :=
  (c.fragments items).filter fun f => f.item.module = m

def updates (c : Combiner) (items : List Item) : List Cache.Update := byModule (c.fragments items)

theorem updates_eq_map (c : Combiner) (items : List Item) :
    c.updates items = (distinct ((c.fragments items).map fun f => f.item.module)).map
      fun m => (m, c.broughtFor m items) := rfl

theorem mem_broughtFor {c : Combiner} {m : ModuleInfo} {items : List Item} {f : Fragment}
    (h : f ∈ c.broughtFor m items) : c.pick f.item = some f.source ∧ f.item.module = m := by
  obtain ⟨hMem, hModule⟩ := List.mem_filter.mp h
  exact ⟨(mem_fragments.mp hMem).2, of_decide_eq_true hModule⟩

theorem filenamesOf_updates (c : Combiner) (items : List Item) (m : ModuleInfo) :
    filenamesOf (c.updates items) m = (c.broughtFor m items).map fun f => f.source.filename := by
  rw [filenamesOf, updates, byModule, get?_groupBy, broughtFor]

section

variable {registry : Registry} {c : Combiner} {items : List Item} {m : ModuleInfo}

theorem knows_fragments (h : ∀ item ∈ items, item.module ∈ registry.modules) :
    registry.Knows (c.fragments items) :=
  fun f hf => h f.item (mem_fragments.mp hf).1

theorem mem_modules_iff :
    m ∈ distinct ((c.fragments items).map fun f => f.item.module) ↔
      c.broughtFor m items ≠ [] := by
  rw [mem_distinct, List.mem_map, broughtFor, ne_eq, List.filter_eq_nil_iff]
  simp

/-- Of the merges of a pass, a module sees the one for itself, if there is one. -/
theorem brought_updates (hKnown : ∀ item ∈ items, item.module ∈ registry.modules)
    (hm : m ∈ registry.modules) :
    Cache.brought m.identity (c.updates items) =
      [c.broughtFor m items].filter fun fragments => fragments ≠ [] := by
  have hOne : ∀ m' ∈ distinct ((c.fragments items).map fun f => f.item.module),
      decide (m'.identity = m.identity) = decide (m' = m) := by
    intro m' hm'
    obtain ⟨f, hf, rfl⟩ := List.mem_map.mp (mem_distinct.mp hm')
    refine decide_eq_decide.mpr ⟨fun hId => ?_, congrArg _⟩
    exact Registry.eq_of_identity_eq (knows_fragments hKnown f hf) hm hId
  rw [Cache.brought, updates, byModule, groupBy, List.filter_map, List.map_map]
  simp only [Function.comp_def]
  rw [List.filter_congr hOne, List.filter_eq, (distinct_nodup _).count]
  by_cases hOwn : c.broughtFor m items = []
  · rw [if_neg fun hm => mem_modules_iff.mp hm hOwn]
    simp [hOwn]
  · rw [if_pos (mem_modules_iff.mpr hOwn)]
    have hSelf : ([c.broughtFor m items].filter fun fragments => fragments ≠ []) =
        [c.broughtFor m items] := List.filter_cons_of_pos (by simpa using hOwn)
    rw [hSelf]
    rfl

theorem process_eq_ok {tree : FileTree} {cache cache' : Cache} {r : PassResult}
    (hKnown : ∀ item ∈ items, item.module ∈ registry.modules)
    (h : c.process tree items cache = .ok r cache') :
    (∃ parts, PartsOf tree cache (c.updates items) parts ∧ r.combined = parts.flatten) ∧
      cache' = (cache.run (c.updates items)).2 := by
  obtain ⟨combined, events, made, moreEvents, hCombined, _, rfl⟩ := process_eq_ok_iff.mp h
  exact (combineModules_eq_ok_iff (knows_fragments hKnown).nodup_identities).mp ⟨events, hCombined⟩

end

end Combiner

/-! ## A module for concrete passes -/

namespace Sample

def core : ModuleInfo where
  name := "Core"
  baseDir := ⟨.relative, ["core"]⟩
  singleFile := true
  android := true
  ios := true
  iosLanguage := .objc
  cpp := false
  iosNameOverride := none

def combiner (only : List Text) : Combiner where
  only := .ofList only
  config := ⟨none⟩
  registry := ⟨[core], List.nodup_singleton _⟩
  generator := EmptyType.objc

def item (filename groupingKey text : Text) (platform : Platform) : Item :=
  let source := NativeSource.single filename (.text text) none
  .generated core (.payload (.native { source with groupingKey := groupingKey })) (some platform)

end Sample

end Amalgam
