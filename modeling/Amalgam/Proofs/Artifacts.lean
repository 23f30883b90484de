import Amalgam.Proofs.BucketOutcome
import Amalgam.Proofs.Run

/-! # The artifacts of a pass

What a pass makes is written by module, platform and filename. The merged files of a pass are
pairwise distinct, and so are its placeholders. But a merged file goes by a grouping key, be it of
this pass or carried over, and a placeholder is due by the endings of the filenames of this pass
alone. Where a due placeholder is also a bucket that merges, the pass makes one artifact twice.
-/

namespace Amalgam

structure Artifact where
  module : ModuleInfo
  platform : Option Platform
  filename : Text
deriving DecidableEq

def Item.artifact? (item : Item) : Option Artifact :=
  item.native?.map fun source => ⟨item.module, item.platform, source.filename⟩

def BucketKey.artifact (k : BucketKey) (m : ModuleInfo) : Artifact :=
  ⟨m, k.platform, k.groupingKey⟩

theorem BucketKey.artifact_inj {k k' : BucketKey} {m m' : ModuleInfo} :
    k.artifact m = k'.artifact m' ↔ m = m' ∧ k = k' := by
  cases k
  cases k'
  simp [BucketKey.artifact]

theorem BucketKey.nodup_artifacts {keys : List BucketKey} (m : ModuleInfo) (h : keys.Nodup) :
    (keys.map fun k => k.artifact m).Nodup :=
  h.map fun _ _ hSame => (artifact_inj.mp hSame).2

namespace Bucket

def merges (tree : FileTree) (bucket : List Fragment) : Bool :=
  (gather tree none (schedule bucket).order).isOk

theorem artifact?_of_outcome {tree : FileTree} {m : ModuleInfo} {k : BucketKey}
    {bucket : List Fragment} {item : Item} (h : outcome tree m k bucket = .ok item) :
    item.artifact? = if merges tree bucket then some (k.artifact m) else none := by
  rcases outcome_cases h with ⟨parts, owner, hGather, rfl⟩ | ⟨failure, hGather, _, rfl⟩
  · rw [merges, hGather]
    rfl
  · rw [merges, hGather]
    cases failure <;> rfl

end Bucket

/-! ## Merged files -/

def mergedKeys (tree : FileTree) (fragments : List Fragment) : List BucketKey :=
  (distinct (fragments.map Fragment.key)).filter fun k =>
    Bucket.merges tree (fragments.filter fun f => f.key = k)

theorem mem_mergedKeys {tree : FileTree} {fragments : List Fragment} {k : BucketKey} :
    k ∈ mergedKeys tree fragments ↔
      (fragments.filter fun f => f.key = k) ≠ [] ∧
        Bucket.merges tree (fragments.filter fun f => f.key = k) = true := by
  rw [mergedKeys, List.mem_filter, mem_distinct, List.mem_map, ne_eq, List.filter_eq_nil_iff]
  simp

theorem nodup_mergedKeys (tree : FileTree) (fragments : List Fragment) :
    (mergedKeys tree fragments).Nodup :=
  (distinct_nodup _).filter _

namespace Combiner

theorem artifacts_of_combineBuckets {tree : FileTree} {m : ModuleInfo} {fragments : List Fragment}
    {part : List Item} (h : combineBuckets tree m fragments = .ok part) :
    part.filterMap Item.artifact? = (mergedKeys tree fragments).map fun k => k.artifact m := by
  rw [combineBuckets_eq_ok_iff] at h
  rw [mergedKeys]
  -- The induction is on the keys alone: the buckets stay those of all fragments.
  generalize distinct (fragments.map Fragment.key) = keys at h ⊢
  induction h with
  | nil => rfl
  | @cons k item _ _ hItem _ ih =>
    have hArtifact := Bucket.artifact?_of_outcome hItem
    by_cases hMerges : Bucket.merges tree (fragments.filter fun f => f.key = k) = true
    · rw [if_pos hMerges] at hArtifact
      rw [List.filterMap_cons_some hArtifact, List.filter_cons, if_pos hMerges, ih]
      rfl
    · rw [if_neg hMerges] at hArtifact
      rw [List.filterMap_cons_none hArtifact, List.filter_cons, if_neg hMerges, ih]

theorem artifacts_of_parts {tree : FileTree} {cache : Cache} {selected : List Cache.Update}
    {parts : List (List Item)} (h : PartsOf tree cache selected parts) :
    parts.flatten.filterMap Item.artifact? = selected.flatMap fun u =>
      (mergedKeys tree (cache.merged u.1.identity u.2)).map fun k => k.artifact u.1 := by
  induction h with
  | nil => rfl
  | cons hPart _ ih =>
    rw [List.flatten_cons, List.filterMap_append, List.flatMap_cons,
      artifacts_of_combineBuckets hPart, ih]

theorem nodup_flatMap_artifacts {α : Type} {elements : List α} {module : α → ModuleInfo}
    {keys : α → List BucketKey} (hModules : (elements.map module).Nodup)
    (hKeys : ∀ a ∈ elements, (keys a).Nodup) :
    (elements.flatMap fun a => (keys a).map fun k => k.artifact (module a)).Nodup := by
  rw [List.nodup_flatMap]
  constructor
  · intro a ha
    exact BucketKey.nodup_artifacts _ (hKeys a ha)
  · apply (List.pairwise_map.mp hModules).imp
    intro a b hDifferent artifact hLeft hRight
    obtain ⟨k, _, rfl⟩ := List.mem_map.mp hLeft
    obtain ⟨k', _, hSame⟩ := List.mem_map.mp hRight
    exact hDifferent (BucketKey.artifact_inj.mp hSame).1.symm

end Combiner

/-! ## Placeholders -/

namespace Placeholder

/-- The keys of what the generator makes for Objective-C, which refuses names that are no
identifiers. -/
def objcKeys (m : ModuleInfo) : List BucketKey :=
  if EmptyType.isIdentifier (m.iosName ++ typeName) then
    [⟨some .ios, m.iosName ++ ".h"⟩, ⟨some .ios, m.iosName ++ ".m"⟩]
  else []

/-- The keys of the placeholders that are due in a module whose fragments have the given
filenames. -/
def keys (m : ModuleInfo) (filenames : List Text) : List BucketKey :=
  let lacks (ending : Text) : Bool := !filenames.any (Text.endsWith · ending)
  let android :=
    if m.android && lacks ".kt" then [⟨some .android, m.name ++ ".kt"⟩] else []
  let objc :=
    if m.ios && m.iosLanguage = .objc && lacks ".m" then objcKeys m else []
  let swift :=
    if m.ios && m.iosLanguage = .swift && lacks ".swift" then
      [⟨some .ios, m.iosName ++ ".swift"⟩]
    else []
  let cpp :=
    if m.cpp && lacks ".cpp" then
      [⟨some .cpp, m.name ++ ".cpp"⟩, ⟨some .cpp, m.name ++ ".hpp"⟩]
    else []
  android ++ objc ++ swift ++ cpp

theorem nodup_keys (m : ModuleInfo) (filenames : List Text) : (keys m filenames).Nodup := by
  -- Whatever is due is taken in order from these, and they differ by platform or ending.
  have hAll : [(⟨some .android, m.name ++ ".kt"⟩ : BucketKey), ⟨some .ios, m.iosName ++ ".h"⟩,
      ⟨some .ios, m.iosName ++ ".m"⟩, ⟨some .ios, m.iosName ++ ".swift"⟩,
      ⟨some .cpp, m.name ++ ".cpp"⟩, ⟨some .cpp, m.name ++ ".hpp"⟩].Nodup := by
    simp [Text.append_right_inj]
  have hKept (b : Prop) [Decidable b] (own : List BucketKey) :
      (if b then own else []).Sublist own := by
    split
    · exact List.Sublist.refl own
    · exact List.nil_sublist own
  refine hAll.sublist ?_
  rw [keys, objcKeys]
  exact (((hKept _ [_]).append ((hKept _ _).trans (hKept _ [_, _]))).append (hKept _ [_])).append
    (hKept _ [_, _])

theorem artifacts_objc (m : ModuleInfo) :
    ∃ made, objc EmptyType.objc m = .ok made ∧
      made.filterMap Item.artifact? = (objcKeys m).map fun k => k.artifact m := by
  by_cases hName : EmptyType.isIdentifier (m.iosName ++ typeName) = true
  · have hPair : ∃ header source,
        EmptyType.objc typeName m .classType .objc = .ok [header, source] ∧
          header.groupingKey = m.iosName ++ ".h" ∧ source.groupingKey = m.iosName ++ ".m" := by
      rw [EmptyType.objc]
      simp [hName]
    obtain ⟨header, source, hMade, hHeader, hSource⟩ := hPair
    rw [objc, hMade, objcKeys, if_pos hName, ← hHeader, ← hSource]
    exact ⟨_, rfl, rfl⟩
  · have hRefused : ∃ message, EmptyType.objc typeName m .classType .objc =
        .error ⟨.generator, message⟩ := by
      rw [EmptyType.objc]
      simp [hName]
    obtain ⟨message, hFailed⟩ := hRefused
    rw [objc, hFailed, objcKeys, if_neg hName]
    exact ⟨_, rfl, rfl⟩

theorem artifacts_items {config : ProjectConfig} {m : ModuleInfo} {filenames : List Text}
    {made : List Item} (h : items EmptyType.objc config m filenames = .ok made) :
    made.filterMap Item.artifact? = (keys m filenames).map fun k => k.artifact m := by
  obtain ⟨sources, hSources, hArtifacts⟩ := artifacts_objc m
  rw [items] at h
  simp only [hSources] at h
  rw [keys]
  split at h
  · next hObjc =>
    cases h
    rw [if_pos hObjc]
    simp only [List.filterMap_append, List.map_append, hArtifacts,
      apply_ite (List.filterMap Item.artifact?),
      apply_ite (List.map fun k => BucketKey.artifact k m)]
    rfl
  · next hObjc =>
    cases h
    rw [if_neg hObjc]
    simp only [List.filterMap_append, List.map_append, apply_ite (List.filterMap Item.artifact?),
      apply_ite (List.map fun k => BucketKey.artifact k m)]
    rfl

end Placeholder

namespace Registry

variable {registry : Registry}

theorem lookup?_eq_some_iff {name : Text} {m : ModuleInfo} :
    registry.lookup? name = some m ↔ m ∈ registry.modules ∧ m.name = name := by
  rw [lookup?]
  constructor
  · intro h
    exact ⟨List.mem_of_find?_eq_some h, by simpa using List.find?_some h⟩
  · rintro ⟨hm, rfl⟩
    have hFound : (registry.modules.find? fun m' => m'.name = m.name).isSome = true :=
      List.find?_isSome.mpr ⟨m, hm, decide_eq_true rfl⟩
    obtain ⟨m', h⟩ := Option.isSome_iff_exists.mp hFound
    have hName : m'.name = m.name := by simpa using List.find?_some h
    rw [h, eq_of_name_eq (List.mem_of_find?_eq_some h) hm hName]

/-- The modules of the listed names for which placeholders may be due. -/
def listed (registry : Registry) (names : List Text) : List ModuleInfo :=
  (names.filterMap registry.lookup?).filter fun m => m.singleFile

theorem mem_listed {names : List Text} {m : ModuleInfo} :
    m ∈ registry.listed names ↔
      m ∈ registry.modules ∧ m.name ∈ names ∧ m.singleFile = true := by
  rw [listed, List.mem_filter, List.mem_filterMap]
  simp only [lookup?_eq_some_iff]
  constructor
  · rintro ⟨⟨_, hName, hm, rfl⟩, hSingle⟩
    exact ⟨hm, hName, hSingle⟩
  · rintro ⟨hm, hName, hSingle⟩
    exact ⟨⟨_, hName, hm, rfl⟩, hSingle⟩

theorem listed_append (names more : List Text) :
    registry.listed (names ++ more) = registry.listed names ++ registry.listed more := by
  rw [listed, List.filterMap_append, List.filter_append, listed, listed]

theorem nodup_listed {names : List Text} (h : names.Nodup) :
    (registry.listed names).Nodup := by
  refine List.Nodup.filter _ (h.filterMap fun name name' m hm hm' => ?_)
  rw [← (lookup?_eq_some_iff.mp hm).2, ← (lookup?_eq_some_iff.mp hm').2]

end Registry

theorem NameSet.nodup_toList (names : NameSet) : names.toList.Nodup :=
  names.increasing.imp fun h => Text.ne_of_lt h

namespace Combiner

variable {c : Combiner} {selected : Table ModuleInfo (List Fragment)}

theorem artifacts_placeholdersFor (hGenerator : c.generator = EmptyType.objc) {name : Text}
    {made : List Item} {events : List Event}
    (h : c.placeholdersFor selected name = .ok (made, events)) :
    made.filterMap Item.artifact? = (c.registry.listed [name]).flatMap fun m =>
      (Placeholder.keys m (filenamesOf selected m)).map fun k => k.artifact m := by
  rw [placeholdersFor] at h
  rw [Registry.listed]
  cases hModule : c.registry.lookup? name with
  | none =>
    rw [hModule] at h
    cases h
    simp [hModule]
  | some m =>
    simp only [hModule] at h
    rw [List.filterMap_cons_some hModule, List.filterMap_nil]
    split at h
    · next hSingle =>
      rw [List.filter_cons_of_pos hSingle, List.filter_nil, List.flatMap_singleton]
      cases hItems : Placeholder.items c.generator c.config m (filenamesOf selected m) with
      | error f =>
        rw [hItems] at h
        cases h
      | ok items =>
        rw [hItems] at h
        cases h
        rw [hGenerator] at hItems
        exact Placeholder.artifacts_items hItems
    · next hSingle =>
      rw [List.filter_cons_of_neg hSingle]
      cases h
      rfl

theorem artifacts_placeholders (hGenerator : c.generator = EmptyType.objc) {names : List Text}
    {made : List Item} {events : List Event}
    (h : c.placeholders selected names = .ok (made, events)) :
    made.filterMap Item.artifact? = (c.registry.listed names).flatMap fun m =>
      (Placeholder.keys m (filenamesOf selected m)).map fun k => k.artifact m := by
  induction names generalizing made events with
  | nil =>
    cases h
    rfl
  | cons name rest ih =>
    rw [placeholders] at h
    cases hFirst : c.placeholdersFor selected name with
    | error f =>
      rw [hFirst] at h
      cases h
    | ok first =>
      cases hRest : c.placeholders selected rest with
      | error f =>
        rw [hFirst, hRest] at h
        cases h
      | ok more =>
        rw [hFirst, hRest] at h
        cases h
        rw [List.filterMap_append, artifacts_placeholdersFor hGenerator hFirst, ih hRest,
          ← List.flatMap_append, ← Registry.listed_append]
        rfl

theorem singleFile_of_broughtFor {items : List Item} {m : ModuleInfo}
    (h : c.broughtFor m items ≠ []) : m.singleFile = true := by
  obtain ⟨f, hf⟩ := List.exists_mem_of_ne_nil _ h
  obtain ⟨hPick, rfl⟩ := mem_broughtFor hf
  have hAccepts := (pick_eq_some_iff.mp hPick).1
  rw [accepts, Bool.and_eq_true] at hAccepts
  exact hAccepts.1

theorem mem_merged_artifacts {tree : FileTree} {cache : Cache} {items : List Item}
    {artifact : Artifact} :
    (artifact ∈ (c.updates items).flatMap fun u =>
      (mergedKeys tree (cache.merged u.1.identity u.2)).map fun k => k.artifact u.1) ↔
      ∃ m, c.broughtFor m items ≠ [] ∧
        ∃ k ∈ mergedKeys tree (cache.merged m.identity (c.broughtFor m items)),
          k.artifact m = artifact := by
  rw [List.mem_flatMap]
  constructor
  · rintro ⟨⟨m, own⟩, hUpdate, hArtifact⟩
    obtain ⟨rfl, hOwn⟩ := mem_byModule hUpdate
    exact ⟨m, hOwn, List.mem_map.mp hArtifact⟩
  · rintro ⟨m, hOwn, hArtifact⟩
    exact ⟨_, byModule_mem_of_ne_nil hOwn, List.mem_map.mpr hArtifact⟩

theorem mem_due_artifacts {items : List Item} {names : List Text} {artifact : Artifact} :
    (artifact ∈ (c.registry.listed names).flatMap fun m =>
      (Placeholder.keys m (filenamesOf (c.updates items) m)).map fun k => k.artifact m) ↔
      ∃ m ∈ c.registry.modules, m.name ∈ names ∧ m.singleFile = true ∧
        ∃ k ∈ Placeholder.keys m ((c.broughtFor m items).map fun f => f.source.filename),
          k.artifact m = artifact := by
  simp only [List.mem_flatMap, List.mem_map, Registry.mem_listed, filenamesOf_updates, and_assoc]

theorem nodup_artifacts_iff {tree : FileTree} {items : List Item} {cache cache' : Cache}
    {r : PassResult} (hGenerator : c.generator = EmptyType.objc)
    (hKnown : ∀ item ∈ items, item.module ∈ c.registry.modules)
    (h : c.process tree items cache = .ok r cache') :
    ((r.combined ++ r.placeholders).filterMap Item.artifact?).Nodup ↔
      ∀ m ∈ c.registry.modules, m.name ∈ c.only → c.broughtFor m items ≠ [] →
        ∀ k ∈ Placeholder.keys m ((c.broughtFor m items).map fun f => f.source.filename),
          k ∉ mergedKeys tree (cache.merged m.identity (c.broughtFor m items)) := by
  obtain ⟨combined, events, made, moreEvents, hCombined, hMade, rfl⟩ := process_eq_ok_iff.mp h
  obtain ⟨⟨parts, hParts, rfl⟩, _⟩ := (combineModules_eq_ok_iff
    (knows_fragments hKnown).nodup_identities).mp ⟨events, hCombined⟩
  have hListed : ((c.registry.listed c.only.toList).map fun m => m).Nodup := by
    rw [List.map_id']
    exact Registry.nodup_listed c.only.nodup_toList
  -- The merged files are distinct and so are the placeholders; what is left is that they differ.
  rw [PassResult.combined_mk, PassResult.placeholders_mk, List.filterMap_append,
    artifacts_of_parts hParts, artifacts_placeholders hGenerator hMade,
    List.nodup_append',
    and_iff_right (nodup_flatMap_artifacts (nodup_modules _) fun u _ => nodup_mergedKeys tree _),
    and_iff_right (nodup_flatMap_artifacts hListed fun m _ => Placeholder.nodup_keys m _)]
  constructor
  · intro hDisjoint m hm hName hOwn k hDue hMerged
    apply @hDisjoint (k.artifact m)
    · exact mem_merged_artifacts.mpr ⟨m, hOwn, k, hMerged, rfl⟩
    · exact mem_due_artifacts.mpr ⟨m, hm, hName, singleFile_of_broughtFor hOwn, k, hDue, rfl⟩
  · intro hCondition artifact hLeft hRight
    obtain ⟨m, hOwn, k, hMerged, rfl⟩ := mem_merged_artifacts.mp hLeft
    obtain ⟨m', hm, hName, _, k', hDue, hSame⟩ := mem_due_artifacts.mp hRight
    obtain ⟨rfl, rfl⟩ := BucketKey.artifact_inj.mp hSame
    exact hCondition m' hm hName hOwn k' hDue hMerged

/-- In a run, a pass makes its artifacts once each exactly if no placeholder that is due in it, of a
module that it combines, is a bucket that merges as it was last brought. -/
theorem artifacts_distinct_iff {earlier : List Pass} {last : Pass} {results : List PassResult}
    {r : PassResult} {cache : Cache} (hGenerator : c.generator = EmptyType.objc)
    (hKnown : ∀ p ∈ earlier ++ [last], ∀ item ∈ p.items, item.module ∈ c.registry.modules)
    (hRun : c.runPasses (earlier ++ [last]) .empty = .ok (results ++ [r]) cache) :
    ((r.combined ++ r.placeholders).filterMap Item.artifact?).Nodup ↔
      ∀ m ∈ c.registry.modules, m.name ∈ c.only → c.broughtFor m last.items ≠ [] →
        ∀ k ∈ Placeholder.keys m ((c.broughtFor m last.items).map fun f => f.source.filename),
          let bucket := Cache.latest k (c.history m (earlier ++ [last]))
          bucket = [] ∨ Bucket.merges last.tree bucket = false := by
  have hEarlierKnown : ∀ p ∈ earlier, ∀ item ∈ p.items, item.module ∈ c.registry.modules :=
    fun p hp => hKnown p (List.mem_append_left _ hp)
  have hLastKnown : ∀ item ∈ last.items, item.module ∈ c.registry.modules :=
    hKnown last (List.mem_append_right _ List.mem_cons_self)
  rw [nodup_artifacts_iff hGenerator hLastKnown (process_last hEarlierKnown hRun)]
  have hBucket : ∀ m ∈ c.registry.modules, ∀ k,
      k ∉ mergedKeys last.tree
        ((c.cacheAfter earlier).merged m.identity (c.broughtFor m last.items)) ↔
      Cache.latest k (c.history m (earlier ++ [last])) = [] ∨
        Bucket.merges last.tree (Cache.latest k (c.history m (earlier ++ [last]))) = false := by
    intro m hm k
    rw [merged_cacheAfter hEarlierKnown hm, mem_mergedKeys, Cache.filter_overlay, not_and_or,
      not_not, Bool.not_eq_true]
  constructor
  · intro h m hm hName hOwn k hDue
    exact (hBucket m hm k).mp (h m hm hName hOwn k hDue)
  · intro h m hm hName hOwn k hDue
    exact (hBucket m hm k).mpr (h m hm hName hOwn k hDue)

theorem artifacts_distinct_iff_header_pass :
    let c := Sample.combiner ["Core"]
    let first : Pass := ⟨.empty, [Sample.item "B.kt" "Core.kt" "class B" .android]⟩
    let second : Pass := ⟨.empty, [Sample.item "C.h" "C.h" "c" .ios]⟩
    ∃ results r cache, c.runPasses ([first] ++ [second]) .empty = .ok (results ++ [r]) cache ∧
      (((r.combined ++ r.placeholders).filterMap Item.artifact?).Nodup ↔
        ∀ m ∈ c.registry.modules, m.name ∈ c.only → c.broughtFor m second.items ≠ [] →
          ∀ k ∈ Placeholder.keys m ((c.broughtFor m second.items).map fun f => f.source.filename),
            let bucket := Cache.latest k (c.history m ([first] ++ [second]))
            bucket = [] ∨ Bucket.merges second.tree bucket = false) := by
  intro c first second
  have hKnown : ∀ p ∈ [first] ++ [second], ∀ item ∈ p.items, item.module ∈ c.registry.modules := by
    decide +kernel
  have hReturns : ((c.runPasses ([first] ++ [second])).run' .empty).isSome = true := by
    decide +kernel
  obtain ⟨all, cache, hRun⟩ := exists_of_run'_isSome hReturns
  obtain ⟨results, r, _, rfl, _, _⟩ := runPasses_append_singleton hRun
  exact ⟨results, r, cache, hRun, artifacts_distinct_iff rfl hKnown hRun⟩

/-- The Kotlin file of the first pass is carried over, and an empty one is made as well. -/
theorem carried_file_shadowed :
    let c := Sample.combiner ["Core"]
    let first : Pass := ⟨.empty, [Sample.item "B.kt" "Core.kt" "class B" .android]⟩
    let second : Pass := ⟨.empty, [Sample.item "C.h" "C.h" "c" .ios]⟩
    ∃ results r cache, c.runPasses ([first] ++ [second]) .empty = .ok (results ++ [r]) cache ∧
      ¬((r.combined ++ r.placeholders).filterMap Item.artifact?).Nodup := by
  intro c first second
  have hAll : ((c.runPasses ([first] ++ [second])).run' .empty).map (fun all => all.map fun r =>
      decide ((r.combined ++ r.placeholders).filterMap Item.artifact?).Nodup) =
        some ([true] ++ [false]) := by
    decide +kernel
  have hReturns : ((c.runPasses ([first] ++ [second])).run' .empty).isSome = true := by
    rw [← Option.isSome_map, hAll, Option.isSome_some]
  obtain ⟨all, cache, hRun⟩ := exists_of_run'_isSome hReturns
  obtain ⟨results, r, _, rfl, _, _⟩ := runPasses_append_singleton hRun
  rw [run'_eq_some hRun] at hAll
  have hSplit := List.map_append.symm.trans (Option.some.inj hAll)
  have hLast := (List.append_inj' hSplit rfl).2
  exact ⟨results, r, cache, hRun, of_decide_eq_false (List.singleton_inj.mp hLast)⟩

end Combiner

end Amalgam
