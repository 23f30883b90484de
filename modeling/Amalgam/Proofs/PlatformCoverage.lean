import Amalgam.Proofs.Artifacts
import Amalgam.Proofs.CombinedItems

/-! # Platforms of a restricted build

A module that is listed and opted in should have an item for every platform that it is enabled for.
A combined item has the platform of its bucket, but a placeholder is left out as soon as a filename
of the pass has the ending that goes with the platform, whatever the platform of that fragment. So
the platform is missing where such a fragment is there and no bucket of the module, of this pass or
carried over, has the platform.
-/

namespace Amalgam

/-- A source or a failure that a module has for a platform. -/
def Item.IsFor (item : Item) (m : ModuleInfo) (platform : Platform) : Prop :=
  item.module = m ∧ item.platform = some platform ∧
    (item.native?.isSome = true ∨ item.problem?.isSome = true)

instance (item : Item) (m : ModuleInfo) (platform : Platform) :
    Decidable (item.IsFor m platform) :=
  inferInstanceAs (Decidable (_ ∧ _ ∧ _))

namespace ModuleInfo

def enabledFor (m : ModuleInfo) : Platform → Bool
  | .android => m.android
  | .ios => m.ios
  | .cpp => m.cpp
  | .web => false

/-- Whether a filename has the ending that goes with a platform. -/
def hasEndingFor (m : ModuleInfo) (platform : Platform) (filename : Text) : Bool :=
  match platform with
  | .android => Text.endsWith filename ".kt"
  | .ios => Text.endsWith filename (if m.iosLanguage = .objc then ".m" else ".swift")
  | .cpp => Text.endsWith filename ".cpp"
  | .web => false

end ModuleInfo

/-! ## Placeholders -/

namespace Placeholder

variable {m : ModuleInfo} {platform : Platform}

theorem empty_isFor (m : ModuleInfo) (filename : Text) (platform : Platform)
    (relativePath : Option Text) : (empty m filename platform relativePath).IsFor m platform :=
  ⟨rfl, rfl, .inl rfl⟩

theorem objc_isFor {generate : Generator} {made : List Item} (h : objc generate m = .ok made) :
    ∀ item ∈ made, item.IsFor m .ios := by
  rw [objc] at h
  split at h
  · cases h
    intro item hItem
    obtain ⟨source, _, rfl⟩ := List.mem_map.mp hItem
    exact ⟨rfl, rfl, .inl rfl⟩
  · split at h
    · cases h
      intro item hItem
      rw [List.mem_singleton.mp hItem]
      exact ⟨rfl, rfl, .inr rfl⟩
    · cases h

def failed (m : ModuleInfo) (f : Failure) : Item :=
  .generated m (.failed (.report (failureReport m f))) (some .ios)

def answer (generate : Generator) (m : ModuleInfo) : List Item :=
  match generate typeName m .classType .objc with
  | .ok sources => sources.map fun source =>
      .generated m (.payload (.native (wholeFile source))) (some .ios)
  | .error f => [failed m f]

theorem objc_eq_answer {generate : Generator} (h : generate.Reports) (m : ModuleInfo) :
    objc generate m = .ok (answer generate m) := by
  rw [objc, answer]
  cases hAnswer : generate typeName m .classType .objc with
  | ok sources => rfl
  | error f => exact if_pos (h _ _ _ _ _ hAnswer)

theorem answer_objc_ne_nil (m : ModuleInfo) : answer EmptyType.objc m ≠ [] := by
  rw [answer]
  split
  · next sources hSources =>
    rw [EmptyType.objc] at hSources
    split at hSources
    · cases hSources
    · simp only at hSources
      split at hSources
      · cases hSources
      · cases hSources
        exact List.cons_ne_nil _ _
  · exact List.cons_ne_nil _ _

/-- Placeholders of one platform that are made together, if they are due. -/
structure Batch where
  due : Bool
  platform : Platform
  items : List Item

def Batch.made (b : Batch) : List Item := if b.due then b.items else []

def batches (config : ProjectConfig) (m : ModuleInfo) (filenames : List Text)
    (objcItems : List Item) : List Batch :=
  let lacks (ending : Text) : Bool := !filenames.any (Text.endsWith · ending)
  let directory := some (config.cppDirectory m.name)
  [⟨m.android && lacks ".kt", .android, [empty m (m.name ++ ".kt") .android none]⟩,
    ⟨m.ios && m.iosLanguage = .objc && lacks ".m", .ios, objcItems⟩,
    ⟨m.ios && m.iosLanguage = .swift && lacks ".swift", .ios,
      [empty m (m.iosName ++ ".swift") .ios none]⟩,
    ⟨m.cpp && lacks ".cpp", .cpp, [empty m (m.name ++ ".cpp") .cpp directory,
      empty m (m.name ++ ".hpp") .cpp directory]⟩]

theorem items_eq_batches {generate : Generator} (h : generate.Reports) (config : ProjectConfig)
    (m : ModuleInfo) (filenames : List Text) :
    items generate config m filenames =
      .ok ((batches config m filenames (answer generate m)).flatMap Batch.made) := by
  rw [items]
  simp only [objc_eq_answer h]
  split
  · next hObjc => simp [batches, Batch.made, hObjc]
  · next hObjc =>
    change Except.ok _ = _
    simp [batches, Batch.made, hObjc]

theorem exists_made_isFor_iff {all : List Batch}
    (hAll : ∀ b ∈ all, b.items ≠ [] ∧ ∀ item ∈ b.items, item.IsFor m b.platform) :
    (∃ item ∈ all.flatMap Batch.made, item.IsFor m platform) ↔
      ∃ b ∈ all, b.platform = platform ∧ b.due = true := by
  constructor
  · rintro ⟨item, hItem, _, hPlatform, _⟩
    obtain ⟨b, hb, hMade⟩ := List.mem_flatMap.mp hItem
    rw [Batch.made] at hMade
    split at hMade
    · next hDue =>
      obtain ⟨_, hOwn, _⟩ := (hAll b hb).2 item hMade
      exact ⟨b, hb, Option.some.inj (hOwn.symm.trans hPlatform), hDue⟩
    · cases hMade
  · rintro ⟨b, hb, rfl, hDue⟩
    obtain ⟨hSome, hFor⟩ := hAll b hb
    obtain ⟨item, hItem⟩ := List.exists_mem_of_ne_nil _ hSome
    refine ⟨item, List.mem_flatMap.mpr ⟨b, hb, ?_⟩, hFor item hItem⟩
    rw [Batch.made, if_pos hDue]
    exact hItem

theorem batches_isFor {config : ProjectConfig} {filenames : List Text} :
    ∀ b ∈ batches config m filenames (answer EmptyType.objc m),
      b.items ≠ [] ∧ ∀ item ∈ b.items, item.IsFor m b.platform := by
  intro b hb
  simp only [batches, List.mem_cons, List.not_mem_nil, or_false] at hb
  rcases hb with rfl | rfl | rfl | rfl
  · exact ⟨List.cons_ne_nil _ _, by simp [empty_isFor]⟩
  · exact ⟨answer_objc_ne_nil m, objc_isFor (objc_eq_answer EmptyType.reports_objc m)⟩
  · exact ⟨List.cons_ne_nil _ _, by simp [empty_isFor]⟩
  · exact ⟨List.cons_ne_nil _ _, by simp [empty_isFor]⟩

theorem made_of_items {generate : Generator} {config : ProjectConfig} {filenames : List Text}
    {made : List Item} (h : items generate config m filenames = .ok made) :
    ∀ item ∈ made, item.module = m ∧
      (item.native?.isSome = true ∨ item.problem?.isSome = true) := by
  intro item hItem
  rcases items_cases h item hItem with ⟨_, _, _, rfl⟩ | ⟨own, hOwn, hMem⟩
  · exact ⟨rfl, .inl rfl⟩
  · obtain ⟨hModule, _, hKind⟩ := objc_isFor hOwn item hMem
    exact ⟨hModule, hKind⟩

/-- Placeholders for an enabled platform are made unless a filename has its ending. -/
theorem exists_items_isFor_iff {config : ProjectConfig} {filenames : List Text}
    {made : List Item} (hEnabled : m.enabledFor platform = true)
    (h : items EmptyType.objc config m filenames = .ok made) :
    (∃ item ∈ made, item.IsFor m platform) ↔
      ∀ filename ∈ filenames, m.hasEndingFor platform filename = false := by
  rw [items_eq_batches EmptyType.reports_objc] at h
  cases h
  rw [exists_made_isFor_iff batches_isFor]
  cases platform <;> cases hLanguage : m.iosLanguage <;>
    simp_all [batches, ModuleInfo.enabledFor, ModuleInfo.hasEndingFor]

end Placeholder

namespace Combiner

variable {c : Combiner} {m : ModuleInfo} {platform : Platform}

theorem placeholdersFor_eq_ok_iff {selected : Table ModuleInfo (List Fragment)} {own : List Item}
    (hm : m ∈ c.registry.modules) (hSingle : m.singleFile = true) :
    (∃ events, c.placeholdersFor selected m.name = .ok (own, events)) ↔
      Placeholder.items c.generator c.config m (filenamesOf selected m) = .ok own := by
  rw [placeholdersFor, Registry.lookup?_eq_some_iff.mpr ⟨hm, rfl⟩]
  simp only [if_pos hSingle]
  cases Placeholder.items c.generator c.config m (filenamesOf selected m) with
  | error f =>
    constructor
    · rintro ⟨_, h⟩
      cases h
    · intro h
      cases h
  | ok items =>
    constructor
    · rintro ⟨_, h⟩
      cases h
      rfl
    · intro h
      cases h
      exact ⟨_, rfl⟩

/-- The placeholders for a name are those of the module of this name. -/
theorem name_of_placeholdersFor {selected : Table ModuleInfo (List Fragment)} {name : Text}
    {own : List Item} {events : List Event} {item : Item}
    (h : c.placeholdersFor selected name = .ok (own, events)) (hItem : item ∈ own) :
    item.module.name = name := by
  rcases placeholdersFor_cases h with rfl | ⟨m, hModule, _, hItems⟩
  · cases hItem
  · rw [(Placeholder.made_of_items hItems item hItem).1]
    exact (Registry.lookup?_eq_some_iff.mp hModule).2

theorem exists_placeholder_isFor_iff (hGenerator : c.generator = EmptyType.objc)
    {selected : Table ModuleInfo (List Fragment)} {names : List Text} {made : List Item}
    {events : List Event} (hm : m ∈ c.registry.modules) (hListed : m.name ∈ names)
    (hSingle : m.singleFile = true) (hEnabled : m.enabledFor platform = true)
    (h : c.placeholders selected names = .ok (made, events)) :
    (∃ item ∈ made, item.IsFor m platform) ↔
      ∀ filename ∈ filenamesOf selected m, m.hasEndingFor platform filename = false := by
  obtain ⟨own, hOwn⟩ := Placeholder.items_ok (hGenerator ▸ EmptyType.reports_objc) c.config m
    (filenamesOf selected m)
  obtain ⟨ownEvents, hName⟩ := (placeholdersFor_eq_ok_iff hm hSingle).mpr hOwn
  rw [hGenerator] at hOwn
  rw [← Placeholder.exists_items_isFor_iff hEnabled hOwn]
  constructor
  · rintro ⟨item, hItem, hFor⟩
    obtain ⟨name, _, others, otherEvents, hOthers, hItem⟩ := (mem_placeholders h).mp hItem
    have hSame := name_of_placeholdersFor hOthers hItem
    rw [hFor.1] at hSame
    subst hSame
    rw [hName] at hOthers
    cases hOthers
    exact ⟨item, hItem, hFor⟩
  · rintro ⟨item, hItem, hFor⟩
    exact ⟨item, (mem_placeholders h).mpr ⟨_, hListed, own, ownEvents, hName, hItem⟩, hFor⟩

end Combiner

/-! ## Combined items -/

theorem Item.platform_of_bucketKey? {item : Item} {k : BucketKey}
    (h : item.bucketKey? = some k) : item.platform = k.platform := by
  rw [bucketKey?] at h
  split at h
  · cases h
    rfl
  · cases h

theorem Bucket.native_or_problem_of_outcome {tree : FileTree} {m : ModuleInfo} {k : BucketKey}
    {bucket : List Fragment} {item : Item} (h : outcome tree m k bucket = .ok item) :
    item.native?.isSome = true ∨ item.problem?.isSome = true := by
  rcases outcome_cases h with ⟨parts, owner, _, rfl⟩ | ⟨failure, _, _, rfl⟩
  · exact .inl rfl
  · cases failure <;> exact .inr rfl

namespace Combiner

variable {registry : Registry} {c : Combiner} {earlier : List Pass} {last : Pass}
  {results : List PassResult} {r : PassResult} {cache : Cache} {m : ModuleInfo}
  {platform : Platform}

theorem exists_combined_isFor_iff
    (hKnown : ∀ p ∈ earlier ++ [last], ∀ item ∈ p.items, item.module ∈ registry.modules)
    (hRun : c.runPasses (earlier ++ [last]) .empty = .ok (results ++ [r]) cache) :
    (∃ item ∈ r.combined, item.IsFor m platform) ↔
      c.broughtFor m last.items ≠ [] ∧
        ∃ p ∈ earlier ++ [last], ∃ f ∈ c.broughtFor m p.items, f.item.platform = some platform := by
  constructor
  · rintro ⟨item, hItem, rfl, hPlatform, _⟩
    have hOwn := ne_nil_of_mem_combined hKnown hRun hItem
    have hMem : item ∈ r.combined.filter fun other => other.module = item.module :=
      List.mem_filter.mpr ⟨hItem, decide_eq_true rfl⟩
    obtain ⟨k, hk, _, _, hKey⟩ := exists_mem_of_forall₂ (forall₂_combined hKnown hRun hOwn) hMem
    obtain ⟨p, hp, f, hf, rfl⟩ := mem_bucketKeys.mp hk
    exact ⟨hOwn, p, hp, f, hf, (Item.platform_of_bucketKey? hKey).symm.trans hPlatform⟩
  · rintro ⟨hOwn, p, hp, f, hf, hPlatform⟩
    have hKey : f.key ∈ c.bucketKeys m (earlier ++ [last]) := mem_bucketKeys.mpr ⟨p, hp, f, hf, rfl⟩
    obtain ⟨item, hItem, hOutcome, hModule, hItemKey⟩ :=
      exists_mem_of_forall₂ (forall₂_combined hKnown hRun hOwn).flip hKey
    refine ⟨item, (List.mem_filter.mp hItem).1, hModule, ?_,
      Bucket.native_or_problem_of_outcome hOutcome⟩
    exact (Item.platform_of_bucketKey? hItemKey).trans hPlatform

/-- What passes through a pass of an opted-in and listed module are failures and finished files. -/
theorem exists_passed_isFor_iff {items : List Item} (hAccepts : c.accepts m = true) :
    (∃ item ∈ (c.selection items).untouched, item.IsFor m platform) ↔
      ∃ item ∈ items, item.module = m ∧ item.platform = some platform ∧
        item.problem?.isSome = true := by
  simp only [selection, Selection.ofItems, List.mem_filter]
  constructor
  · rintro ⟨item, ⟨hItem, hLeft⟩, rfl, hPlatform, hNative | hProblem⟩
    · rw [pick, if_pos hAccepts, ← Option.not_isSome, hNative] at hLeft
      cases hLeft
    · exact ⟨item, hItem, rfl, hPlatform, hProblem⟩
  · rintro ⟨item, hItem, rfl, hPlatform, hProblem⟩
    refine ⟨item, ⟨hItem, ?_⟩, rfl, hPlatform, .inr hProblem⟩
    rw [pick, if_pos hAccepts, Item.native?_of_problem? hProblem]
    rfl

/-- In a run, a listed module has an item for a platform that it is enabled for exactly if no
filename of the pass suppresses the placeholder, or some pass of the run brought a fragment for the
platform, or the pass was given a failure for it. -/
theorem platform_covered_iff (hGenerator : c.generator = EmptyType.objc)
    (hKnown : ∀ p ∈ earlier ++ [last], ∀ item ∈ p.items, item.module ∈ c.registry.modules)
    (hRun : c.runPasses (earlier ++ [last]) .empty = .ok (results ++ [r]) cache)
    (hm : m ∈ c.registry.modules) (hListed : m.name ∈ c.only) (hSingle : m.singleFile = true)
    (hEnabled : m.enabledFor platform = true) :
    (∃ item ∈ r.items, item.IsFor m platform) ↔
      (∀ f ∈ c.broughtFor m last.items, m.hasEndingFor platform f.source.filename = false) ∨
        (∃ p ∈ earlier ++ [last], ∃ f ∈ c.broughtFor m p.items,
          f.item.platform = some platform) ∨
        ∃ item ∈ last.items, item.module = m ∧ item.platform = some platform ∧
          item.problem?.isSome = true := by
  have hAccepts : c.accepts m = true := by
    rw [accepts, hSingle, AllowList.allows, decide_eq_true hListed, Bool.or_true, Bool.and_true]
  have hEarlierKnown : ∀ p ∈ earlier, ∀ item ∈ p.items, item.module ∈ c.registry.modules :=
    fun p hp => hKnown p (List.mem_append_left _ hp)
  obtain ⟨combined, _, made, _, _, hMade, hResult⟩ :=
    process_eq_ok_iff.mp (process_last hEarlierKnown hRun)
  have hPassed : r.passed = (c.selection last.items).untouched := by rw [hResult]
  have hPlaceholders : r.placeholders = made := by rw [hResult, PassResult.placeholders_mk]
  have hItems : (∃ item ∈ r.items, item.IsFor m platform) ↔
      (∃ item ∈ r.passed, item.IsFor m platform) ∨ (∃ item ∈ r.combined, item.IsFor m platform) ∨
        ∃ item ∈ r.placeholders, item.IsFor m platform := by
    simp only [PassResult.items, List.mem_append, or_and_right, exists_or, or_assoc]
  rw [hItems, exists_combined_isFor_iff hKnown hRun, hPassed, exists_passed_isFor_iff hAccepts,
    hPlaceholders, exists_placeholder_isFor_iff hGenerator hm hListed hSingle hEnabled hMade]
  change _ ∨ _ ∨ (∀ filename ∈ filenamesOf (c.updates last.items) m, _) ↔ _
  rw [filenamesOf_updates, List.forall_mem_map]
  by_cases hOwn : c.broughtFor m last.items = []
  · simp [hOwn]
  · rw [and_iff_right hOwn]
    constructor
    · rintro (hFailed | hBrought | hLacks)
      · exact .inr (.inr hFailed)
      · exact .inr (.inl hBrought)
      · exact .inl hLacks
    · rintro (hLacks | hBrought | hFailed)
      · exact .inr (.inr hLacks)
      · exact .inr (.inl hBrought)
      · exact .inl hFailed

/-- The fragment of the second pass suppresses the placeholder, but the bucket of the first pass is
carried over. -/
theorem platform_covered_iff_carried :
    let c := Sample.combiner ["Core"]
    let first : Pass := ⟨.empty, [Sample.item "A.kt" "Core.kt" "class A" .android]⟩
    let second : Pass :=
      ⟨.empty, [{ Sample.item "B.kt" "B.kt" "class B" .android with platform := none }]⟩
    ∃ results r cache, c.runPasses ([first] ++ [second]) .empty = .ok (results ++ [r]) cache ∧
      ((∃ item ∈ r.items, item.IsFor Sample.core .android) ↔
        (∀ f ∈ c.broughtFor Sample.core second.items,
          Sample.core.hasEndingFor .android f.source.filename = false) ∨
        (∃ p ∈ [first] ++ [second], ∃ f ∈ c.broughtFor Sample.core p.items,
          f.item.platform = some .android) ∨
        ∃ item ∈ second.items, item.module = Sample.core ∧ item.platform = some .android ∧
          item.problem?.isSome = true) := by
  intro c first second
  have hKnown : ∀ p ∈ [first] ++ [second], ∀ item ∈ p.items, item.module ∈ c.registry.modules := by
    decide +kernel
  have hReturns : ((c.runPasses ([first] ++ [second])).run' .empty).isSome = true := by
    decide +kernel
  have hListed : Sample.core.name ∈ c.only := by decide +kernel
  obtain ⟨all, cache, hRun⟩ := exists_of_run'_isSome hReturns
  obtain ⟨results, r, _, rfl, _, _⟩ := runPasses_append_singleton hRun
  exact ⟨results, r, cache, hRun,
    platform_covered_iff rfl hKnown hRun List.mem_cons_self hListed rfl rfl⟩

/-- A Kotlin fragment without a platform suppresses the placeholder for Android. -/
theorem platform_missing :
    let c := Sample.combiner ["Core"]
    let pass : Pass :=
      ⟨.empty, [{ Sample.item "B.kt" "B.kt" "class B" .android with platform := none }]⟩
    Sample.core ∈ c.registry.modules ∧ Sample.core.name ∈ c.only ∧
      Sample.core.singleFile = true ∧ Sample.core.enabledFor .android = true ∧
      (∀ item ∈ pass.items, item.module ∈ c.registry.modules) ∧
      ∃ r cache, c.runPasses [pass] .empty = .ok [r] cache ∧
        ¬∃ item ∈ r.items, item.IsFor Sample.core .android := by
  intro c pass
  have hAll : ((c.runPasses [pass]).run' .empty).map (fun all => all.map fun r =>
      decide (∃ item ∈ r.items, item.IsFor Sample.core .android)) = some [false] := by
    decide +kernel
  have hReturns : ((c.runPasses [pass]).run' .empty).isSome = true := by
    rw [← Option.isSome_map, hAll, Option.isSome_some]
  obtain ⟨all, cache, hRun⟩ := exists_of_run'_isSome hReturns
  rw [run'_eq_some hRun] at hAll
  obtain ⟨r, rfl, hMissing⟩ := List.map_eq_singleton_iff.mp (Option.some.inj hAll)
  refine ⟨List.mem_cons_self, by decide +kernel, rfl, rfl, by decide +kernel, r, cache, hRun, ?_⟩
  exact of_decide_eq_false hMissing

end Combiner

end Amalgam
