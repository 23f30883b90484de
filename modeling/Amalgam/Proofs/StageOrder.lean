import Amalgam.Pipeline
import Amalgam.Proofs.BucketOutcome
import Amalgam.Proofs.Pass

/-! # The order of the stages

Combining looks at native sources alone and makes native sources and failures; the web stage looks
at finished scripts alone and makes finished scripts and failures. So neither stage selects what the
other one made, and it makes no difference which of them comes first.
-/

namespace Amalgam

theorem Item.native?_of_final? {item : Item} {file : FinalFile} (h : item.final? = some file) :
    item.native? = none := by
  rw [final?] at h
  split at h
  · next hKind => rw [native?, hKind]
  · cases h

/-! ## Selections of different payloads -/

namespace Selection

variable {α β : Type} {pick : Item → Option α} {other : Item → Option β}

theorem selected_append_of_forall {items more : List Item} (h : ∀ item ∈ more, pick item = none) :
    (ofItems pick (items ++ more)).selected = (ofItems pick items).selected := by
  have hMore : (ofItems pick more).selected = [] := by
    rw [ofItems, List.filterMap_eq_nil_iff]
    intro item hItem
    rw [h item hItem, Option.map_none]
  simp only [ofItems] at hMore
  simp only [ofItems, List.filterMap_append, hMore, List.append_nil]

theorem untouched_append_of_forall {items more : List Item} (h : ∀ item ∈ more, pick item = none) :
    (ofItems pick (items ++ more)).untouched = (ofItems pick items).untouched ++ more := by
  have hMore : more.filter (fun item => (pick item).isNone) = more := by
    rw [List.filter_eq_self]
    intro item hItem
    rw [h item hItem, Option.isNone_none]
  simp only [ofItems, List.filter_append, hMore]

/-- What one selection leaves untouched still holds, in order, all that the other one selects. -/
theorem selected_untouched (hApart : ∀ item, (pick item).isSome = true → other item = none)
    (items : List Item) :
    (ofItems other (ofItems pick items).untouched).selected = (ofItems other items).selected := by
  simp only [ofItems, List.filterMap_filter]
  apply List.filterMap_congr
  intro item _
  cases hPick : pick item with
  | none => rfl
  | some a =>
    rw [hApart item (by rw [hPick, Option.isSome_some])]
    rfl

theorem untouched_comm (items : List Item) :
    (ofItems other (ofItems pick items).untouched).untouched =
      (ofItems pick (ofItems other items).untouched).untouched := by
  simp only [ofItems, List.filter_filter, Bool.and_comm]

end Selection

/-! ## What combining makes -/

theorem Bucket.final?_of_outcome {tree : FileTree} {m : ModuleInfo} {k : BucketKey}
    {bucket : List Fragment} {item : Item} (h : outcome tree m k bucket = .ok item) :
    item.final? = none := by
  rcases outcome_cases h with ⟨parts, owner, _, rfl⟩ | ⟨failure, _, _, rfl⟩
  · rfl
  · cases failure <;> rfl

namespace Placeholder

variable {generate : Generator} {m : ModuleInfo} {made : List Item}

theorem final?_of_objc (h : objc generate m = .ok made) : ∀ item ∈ made, item.final? = none := by
  rw [objc] at h
  split at h
  · cases h
    intro item hItem
    obtain ⟨source, _, rfl⟩ := List.mem_map.mp hItem
    rfl
  · split at h
    · cases h
      intro item hItem
      rw [List.mem_singleton.mp hItem]
      rfl
    · cases h

theorem final?_of_items {config : ProjectConfig} {filenames : List Text}
    (h : items generate config m filenames = .ok made) : ∀ item ∈ made, item.final? = none := by
  intro item hItem
  rcases items_cases h item hItem with ⟨_, _, _, rfl⟩ | ⟨own, hOwn, hMem⟩
  · rfl
  · exact final?_of_objc hOwn item hMem

end Placeholder

namespace Combiner

variable {c : Combiner} {tree : FileTree}

theorem final?_of_placeholders {selected : Table ModuleInfo (List Fragment)} {names : List Text}
    {made : List Item} {events : List Event}
    (h : c.placeholders selected names = .ok (made, events)) :
    ∀ item ∈ made, item.final? = none := by
  intro item hItem
  obtain ⟨name, _, own, ownEvents, hOwn, hItem⟩ := (mem_placeholders h).mp hItem
  rcases placeholdersFor_cases hOwn with rfl | ⟨m, _, _, hItems⟩
  · cases hItem
  · exact Placeholder.final?_of_items hItems item hItem

/-- Combining makes no finished files. -/
theorem final?_of_process {items : List Item} {cache cache' : Cache} {r : PassResult}
    (h : c.process tree items cache = .ok r cache') :
    ∀ item ∈ r.combined ++ r.placeholders, item.final? = none := by
  obtain ⟨combined, events, made, moreEvents, hCombined, hMade, rfl⟩ := process_eq_ok_iff.mp h
  intro item hItem
  rcases List.mem_append.mp hItem with hItem | hItem
  · obtain ⟨u, _, k, bucket, hOutcome⟩ := exists_outcome_of_combineModules hCombined hItem
    exact Bucket.final?_of_outcome hOutcome
  · exact final?_of_placeholders hMade item hItem

/-- What a pass makes depends on the fragments it is given and not on the other items. -/
theorem process_congr {items others : List Item} {cache cache' : Cache} {r : PassResult}
    (hSame : (c.selection items).selected = (c.selection others).selected)
    (h : c.process tree items cache = .ok r cache') :
    c.process tree others cache =
      .ok { r with passed := (c.selection others).untouched } cache' := by
  have hFragments : c.fragments items = c.fragments others := by
    rw [fragments, hSame, fragments]
  obtain ⟨combined, events, made, moreEvents, hCombined, hMade, rfl⟩ := process_eq_ok_iff.mp h
  rw [hFragments] at hCombined hMade
  exact process_eq_ok_iff.mpr ⟨combined, events, made, moreEvents, hCombined, hMade, rfl⟩

theorem passed_of_process {items : List Item} {cache cache' : Cache} {r : PassResult}
    (h : c.process tree items cache = .ok r cache') :
    r.passed = (c.selection items).untouched := by
  obtain ⟨_, _, _, _, _, _, rfl⟩ := process_eq_ok_iff.mp h
  rfl

end Combiner

/-! ## What the web stage makes -/

namespace WebScript

variable {tree : FileTree}

theorem final?_of_pick {item : Item} {file : FinalFile} (h : pick item = some file) :
    item.final? = some file := by
  rw [pick] at h
  split at h
  · next found hFinal =>
    split at h
    · cases h
      exact hFinal
    · cases h
  · cases h

theorem pick_of_final? {item : Item} (h : item.final? = none) : pick item = none := by
  rw [pick, h]

theorem native?_of_transform {item made : Item} {file : FinalFile}
    (hPick : pick item = some file) (h : transform tree item file = .ok made) :
    made.native? = none := by
  rw [transform] at h
  split at h
  · cases h
    exact Item.native?_of_final? (final?_of_pick hPick)
  · split at h
    · split at h
      · cases h
        rfl
      · cases h
    · split at h
      · cases h
        rfl
      · cases h

theorem pick_of_mem_selected {items : List Item} {s : Item × FinalFile}
    (h : s ∈ (Selection.ofItems pick items).selected) : pick s.1 = some s.2 := by
  obtain ⟨item, _, hItem⟩ := List.mem_filterMap.mp h
  obtain ⟨file, hPick, rfl⟩ := Option.map_eq_some_iff.mp hItem
  exact hPick

theorem process_eq_ok_iff {items out : List Item} :
    process tree items = .ok out ↔ ∃ made,
      List.Forall₂ (fun s item => transform tree s.1 s.2 = .ok item)
        (Selection.ofItems pick items).selected made ∧
      out = (Selection.ofItems pick items).untouched ++ made := by
  rw [process, Selection.replaceEach, Selection.replaceAll, bind_eq_ok_iff]
  apply exists_congr
  intro made
  rw [mapM_eq_ok_iff]
  exact and_congr_right fun _ =>
    ⟨fun h => (Except.ok.inj h).symm, fun h => congrArg Except.ok h.symm⟩

theorem native?_of_made {items made : List Item}
    (h : List.Forall₂ (fun s item => transform tree s.1 s.2 = .ok item)
      (Selection.ofItems pick items).selected made) :
    ∀ item ∈ made, item.native? = none := by
  intro item hItem
  obtain ⟨s, hs, hTransform⟩ := exists_mem_of_forall₂ h hItem
  exact native?_of_transform (pick_of_mem_selected hs) hTransform

end WebScript

namespace Combiner

variable {c : Combiner}

theorem pick_of_native? {item : Item} (h : item.native? = none) : c.pick item = none := by
  rw [pick, h, ite_self]

theorem pick_apart {item : Item} (h : (c.pick item).isSome = true) :
    WebScript.pick item = none := by
  obtain ⟨source, hPick⟩ := Option.isSome_iff_exists.mp h
  apply WebScript.pick_of_final?
  rw [Item.final?, (pick_eq_some_iff.mp hPick).2]

theorem pick_of_web_pick {item : Item} (h : (WebScript.pick item).isSome = true) :
    c.pick item = none := by
  obtain ⟨file, hPick⟩ := Option.isSome_iff_exists.mp h
  exact pick_of_native? (Item.native?_of_final? (WebScript.final?_of_pick hPick))

end Combiner

/-! ## Two stages -/

section

variable {c : Combiner} {tree : FileTree} {items out : List Item} {cache cache' : Cache}

theorem runStages_cons_iff {stage : Stage} {rest : List Stage} :
    (∃ events, runStages tree items (stage :: rest) cache = .ok (out, events) cache') ↔
      ∃ next between, (∃ events, stage.run tree items cache = .ok (next, events) between) ∧
        ∃ events, runStages tree next rest between = .ok (out, events) cache' := by
  rw [runStages]
  simp only [bind, EStateM.bind]
  cases hStage : stage.run tree items cache with
  | error fault last => exact iff_of_false nofun (by rintro ⟨_, _, ⟨_, h⟩, _⟩; cases h)
  | ok answer between =>
    obtain ⟨next, events⟩ := answer
    simp only
    cases hRest : runStages tree next rest between with
    | error fault last =>
      apply iff_of_false nofun
      rintro ⟨_, _, ⟨_, h⟩, _, h'⟩
      cases h
      rw [hRest] at h'
      cases h'
    | ok answer last =>
      constructor
      · rintro ⟨_, h⟩
        cases h
        exact ⟨next, between, ⟨events, rfl⟩, answer.2, hRest⟩
      · rintro ⟨_, _, ⟨_, h⟩, _, h'⟩
        cases h
        rw [hRest] at h'
        cases h'
        exact ⟨_, rfl⟩

theorem runStages_nil_iff :
    (∃ events, runStages tree items [] cache = .ok (out, events) cache') ↔
      out = items ∧ cache' = cache := by
  constructor
  · rintro ⟨_, h⟩
    cases h
    exact ⟨rfl, rfl⟩
  · rintro ⟨rfl, rfl⟩
    exact ⟨[], rfl⟩

theorem run_combine_iff :
    (∃ events, (Stage.combine c).run tree items cache = .ok (out, events) cache') ↔
      ∃ r, c.process tree items cache = .ok r cache' ∧ out = r.items := by
  simp only [Stage.run, bind, EStateM.bind]
  cases c.process tree items cache with
  | error fault last => exact iff_of_false nofun (by rintro ⟨_, h, _⟩; cases h)
  | ok r last =>
    constructor
    · rintro ⟨_, h⟩
      cases h
      exact ⟨r, rfl, rfl⟩
    · rintro ⟨_, h, rfl⟩
      cases h
      exact ⟨_, rfl⟩

theorem run_web_iff :
    (∃ events, Stage.web.run tree items cache = .ok (out, events) cache') ↔
      WebScript.process tree items = .ok out ∧ cache' = cache := by
  rw [Stage.run]
  cases WebScript.process tree items with
  | error e => exact iff_of_false nofun nofun
  | ok made =>
    constructor
    · rintro ⟨_, h⟩
      cases h
      exact ⟨rfl, rfl⟩
    · rintro ⟨h, rfl⟩
      cases h
      exact ⟨_, rfl⟩

/-! ## Either order -/

theorem selected_of_combined {r : PassResult} (h : c.process tree items cache = .ok r cache') :
    (Selection.ofItems WebScript.pick r.items).selected =
      (Selection.ofItems WebScript.pick items).selected := by
  have hMade : ∀ item ∈ r.combined ++ r.placeholders, WebScript.pick item = none :=
    fun item hItem => WebScript.pick_of_final? (Combiner.final?_of_process h item hItem)
  rw [PassResult.items, List.append_assoc, Selection.selected_append_of_forall hMade,
    Combiner.passed_of_process h]
  exact Selection.selected_untouched (fun _ => Combiner.pick_apart) items

theorem selected_of_web (h : WebScript.process tree items = .ok out) :
    (c.selection out).selected = (c.selection items).selected := by
  obtain ⟨made, hMade, rfl⟩ := WebScript.process_eq_ok_iff.mp h
  have hNone : ∀ item ∈ made, c.pick item = none :=
    fun item hItem => Combiner.pick_of_native? (WebScript.native?_of_made hMade item hItem)
  rw [Combiner.selection, Selection.selected_append_of_forall hNone]
  exact Selection.selected_untouched (fun _ => Combiner.pick_of_web_pick) items

/-- What the two stages make of items, whichever of them runs first. -/
structure StagesMake (c : Combiner) (tree : FileTree) (items : List Item) (cache : Cache)
    (r : PassResult) (scripts : List Item) (cache' : Cache) : Prop where
  combines : c.process tree items cache = .ok r cache'
  rewrites : List.Forall₂ (fun s item => WebScript.transform tree s.1 s.2 = .ok item)
    (Selection.ofItems WebScript.pick items).selected scripts

theorem combine_then_web_iff :
    (∃ events, runStages tree items [.combine c, .web] cache = .ok (out, events) cache') ↔
      ∃ r scripts, StagesMake c tree items cache r scripts cache' ∧
        out = (Selection.ofItems WebScript.pick r.passed).untouched ++
          (r.combined ++ r.placeholders) ++ scripts := by
  have hUntouched {r : PassResult} (h : c.process tree items cache = .ok r cache') :
      (Selection.ofItems WebScript.pick r.items).untouched =
        (Selection.ofItems WebScript.pick r.passed).untouched ++ (r.combined ++ r.placeholders) := by
    rw [PassResult.items, List.append_assoc]
    exact Selection.untouched_append_of_forall fun item hItem =>
      WebScript.pick_of_final? (Combiner.final?_of_process h item hItem)
  simp only [runStages_cons_iff, run_combine_iff, run_web_iff, runStages_nil_iff]
  constructor
  · rintro ⟨_, _, ⟨r, hProcess, rfl⟩, _, _, ⟨hWeb, rfl⟩, rfl, rfl⟩
    obtain ⟨scripts, hScripts, rfl⟩ := WebScript.process_eq_ok_iff.mp hWeb
    rw [selected_of_combined hProcess] at hScripts
    exact ⟨r, scripts, ⟨hProcess, hScripts⟩, by rw [hUntouched hProcess]⟩
  · rintro ⟨r, scripts, ⟨hProcess, hScripts⟩, rfl⟩
    rw [← selected_of_combined hProcess] at hScripts
    refine ⟨r.items, cache', ⟨r, hProcess, rfl⟩, _, _, ⟨?_, rfl⟩, rfl, rfl⟩
    exact WebScript.process_eq_ok_iff.mpr ⟨scripts, hScripts, by rw [hUntouched hProcess]⟩

theorem web_then_combine_iff :
    (∃ events, runStages tree items [.web, .combine c] cache = .ok (out, events) cache') ↔
      ∃ r scripts, StagesMake c tree items cache r scripts cache' ∧
        out = (Selection.ofItems WebScript.pick r.passed).untouched ++ scripts ++
          (r.combined ++ r.placeholders) := by
  have hUntouched {r : PassResult} {scripts : List Item}
      (hProcess : c.process tree items cache = .ok r cache')
      (hScripts : ∀ item ∈ scripts, item.native? = none) :
      (c.selection ((Selection.ofItems WebScript.pick items).untouched ++ scripts)).untouched =
        (Selection.ofItems WebScript.pick r.passed).untouched ++ scripts := by
    rw [Combiner.passed_of_process hProcess, Combiner.selection,
      Selection.untouched_append_of_forall fun item hItem =>
        Combiner.pick_of_native? (hScripts item hItem),
      Selection.untouched_comm, Combiner.selection]
  simp only [runStages_cons_iff, run_combine_iff, run_web_iff, runStages_nil_iff]
  constructor
  · rintro ⟨next, _, ⟨hWeb, rfl⟩, _, _, ⟨r, hProcess, rfl⟩, rfl, rfl⟩
    obtain ⟨scripts, hScripts, rfl⟩ := WebScript.process_eq_ok_iff.mp hWeb
    have hOriginal := Combiner.process_congr (selected_of_web hWeb) hProcess
    refine ⟨_, scripts, ⟨hOriginal, hScripts⟩, ?_⟩
    rw [← hUntouched hOriginal (WebScript.native?_of_made hScripts), PassResult.items,
      Combiner.passed_of_process hProcess, List.append_assoc]
    rfl
  · rintro ⟨r, scripts, ⟨hProcess, hScripts⟩, rfl⟩
    have hWeb := WebScript.process_eq_ok_iff.mpr ⟨scripts, hScripts, rfl⟩
    have hAfter := Combiner.process_congr (selected_of_web hWeb).symm hProcess
    refine ⟨_, cache, ⟨hWeb, rfl⟩, _, cache', ⟨_, hAfter, rfl⟩, ?_, rfl⟩
    simp only [PassResult.items, hUntouched hProcess (WebScript.native?_of_made hScripts),
      List.append_assoc]
    rfl

/-- Neither stage takes what the other makes, so they make the same of all items in either order. -/
theorem stages_commute (c : Combiner) (tree : FileTree) (items : List Item) (cache : Cache) :
    (∀ out cache', (∃ events,
        runStages tree items [.combine c, .web] cache = .ok (out, events) cache') →
      ∃ out', (∃ events,
        runStages tree items [.web, .combine c] cache = .ok (out', events) cache') ∧
        out.Perm out') ∧
    (∀ out cache', (∃ events,
        runStages tree items [.web, .combine c] cache = .ok (out, events) cache') →
      ∃ out', (∃ events,
        runStages tree items [.combine c, .web] cache = .ok (out', events) cache') ∧
        out.Perm out') ∧
    (∀ r cache', c.process tree items cache = .ok r cache' →
      (∀ item ∈ r.combined ++ r.placeholders, WebScript.pick item = none) ∧
      (Selection.ofItems WebScript.pick r.items).selected =
        (Selection.ofItems WebScript.pick items).selected) ∧
    (∀ scripts, List.Forall₂ (fun s item => WebScript.transform tree s.1 s.2 = .ok item)
        (Selection.ofItems WebScript.pick items).selected scripts →
      (∀ item ∈ scripts, c.pick item = none) ∧
      (c.selection ((Selection.ofItems WebScript.pick items).untouched ++ scripts)).selected =
        (c.selection items).selected) := by
  have hSwap (first second third : List Item) :
      (first ++ second ++ third).Perm (first ++ third ++ second) := by
    rw [List.append_assoc, List.append_assoc]
    exact List.perm_append_comm.append_left first
  refine ⟨fun out cache' h => ?_, fun out cache' h => ?_, fun r cache' h => ?_, fun scripts h => ?_⟩
  · obtain ⟨r, scripts, hMake, rfl⟩ := combine_then_web_iff.mp h
    exact ⟨_, web_then_combine_iff.mpr ⟨r, scripts, hMake, rfl⟩, hSwap _ _ _⟩
  · obtain ⟨r, scripts, hMake, rfl⟩ := web_then_combine_iff.mp h
    exact ⟨_, combine_then_web_iff.mpr ⟨r, scripts, hMake, rfl⟩, hSwap _ _ _⟩
  · exact ⟨fun item hItem => WebScript.pick_of_final? (Combiner.final?_of_process h item hItem),
      selected_of_combined h⟩
  · exact ⟨fun item hItem => Combiner.pick_of_native? (WebScript.native?_of_made h item hItem),
      selected_of_web (WebScript.process_eq_ok_iff.mpr ⟨scripts, h, rfl⟩)⟩

/-- Both orders return, the web stage has a failure to attach, and the items come out in different
orders. -/
theorem stages_commute_mixed :
    let c := Sample.combiner ["Core"]
    let final (path : Text) (content : Content) : Item :=
      .generated Sample.core (.payload (.final ⟨path, content, some .web⟩)) none
    let items := [final "a.js" (.text "require('b')"), Sample.item "F.kt" "F.kt" "" .android,
      final "b.js" (.octets [255])]
    ∃ out out' cache',
      (∃ events, runStages .empty items [.combine c, .web] .empty = .ok (out, events) cache') ∧
      (∃ events, runStages .empty items [.web, .combine c] .empty = .ok (out', events) cache') ∧
      out.Perm out' ∧ out ≠ out' := by
  intro c final items
  have hReturns : ((runStages .empty items [.combine c, .web]).run' .empty).isSome = true := by
    decide +kernel
  have hDiffer : ((runStages .empty items [.combine c, .web]).run' .empty).map Prod.fst ≠
      ((runStages .empty items [.web, .combine c]).run' .empty).map Prod.fst := by decide +kernel
  obtain ⟨⟨out, events⟩, cache', hRun⟩ := exists_of_run'_isSome hReturns
  obtain ⟨hSwap, _⟩ := stages_commute c .empty items .empty
  obtain ⟨out', ⟨events', hRun'⟩, hPerm⟩ := hSwap out cache' ⟨events, hRun⟩
  refine ⟨out, out', cache', ⟨events, hRun⟩, ⟨events', hRun'⟩, hPerm, ?_⟩
  rw [run'_eq_some hRun, run'_eq_some hRun'] at hDiffer
  rintro rfl
  exact hDiffer rfl

end

end Amalgam
