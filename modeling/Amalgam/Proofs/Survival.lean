import Amalgam.Proofs.PlatformCoverage
import Amalgam.Proofs.StageOrder

/-! # What passes through the pipeline

A stage leaves the items that it does not select in their order and puts behind them what it makes.
All that it makes are failures and items that it would select again, and no stage selects a failure.
So after any run of stages the items that none of them selects are those that were there before, in
their order, and behind them the failures that came up on the way.
-/

namespace Amalgam

theorem Item.final?_eq_some_iff {item : Item} {file : FinalFile} :
    item.final? = some file ↔ item.kind = .payload (.final file) := by
  rw [final?]
  split
  · next found hKind =>
    rw [hKind, Option.some.injEq, Kind.payload.injEq, Payload.final.injEq]
  · next hOther =>
    constructor
    · intro h
      cases h
    · intro h
      exact absurd h (hOther file)

/-! ## What a stage makes -/

namespace Combiner

variable {c : Combiner} {tree : FileTree} {items : List Item} {cache cache' : Cache}
  {r : PassResult}

theorem pick_isSome_of_native? {item : Item} (hAccepts : c.accepts item.module = true)
    (h : item.native?.isSome = true) : (c.pick item).isSome = true := by
  rwa [pick, if_pos hAccepts]

theorem accepts_of_mem_byModule {m : ModuleInfo} {own : List Fragment}
    (h : (m, own) ∈ byModule (c.fragments items)) : c.accepts m = true := by
  obtain ⟨⟨f, hf, rfl⟩, _⟩ := mem_groupBy.mp h
  exact (pick_eq_some_iff.mp (mem_fragments.mp hf).2).1

theorem problem_or_pick_of_outcome {m : ModuleInfo} {k : BucketKey} {bucket : List Fragment}
    {item : Item} (hAccepts : c.accepts m = true) (h : Bucket.outcome tree m k bucket = .ok item) :
    item.problem?.isSome = true ∨ (c.pick item).isSome = true := by
  rcases Bucket.outcome_cases h with ⟨parts, owner, _, rfl⟩ | ⟨failure, _, _, rfl⟩
  · exact .inr (pick_isSome_of_native? hAccepts rfl)
  · cases failure <;> exact .inl rfl

theorem problem_or_pick_of_placeholders {selected : Table ModuleInfo (List Fragment)}
    {made : List Item} {events : List Event} {item : Item}
    (h : c.placeholders selected c.only.toList = .ok (made, events)) (hItem : item ∈ made) :
    item.problem?.isSome = true ∨ (c.pick item).isSome = true := by
  obtain ⟨name, hName, own, _, hOwn, hItem⟩ := (mem_placeholders h).mp hItem
  rcases placeholdersFor_cases hOwn with rfl | ⟨m, hModule, hSingle, hItems⟩
  · cases hItem
  obtain ⟨hSame, hNative | hProblem⟩ := Placeholder.made_of_items hItems item hItem
  · refine .inr (pick_isSome_of_native? ?_ hNative)
    have hListed : m.name ∈ c.only := by
      rw [(Registry.lookup?_eq_some_iff.mp hModule).2]
      exact hName
    rw [hSame, accepts, hSingle, AllowList.allows, decide_eq_true hListed, Bool.or_true]
    rfl
  · exact .inl hProblem

theorem problem_or_pick_of_process (h : c.process tree items cache = .ok r cache') :
    ∀ item ∈ r.combined ++ r.placeholders,
      item.problem?.isSome = true ∨ (c.pick item).isSome = true := by
  obtain ⟨combined, events, made, moreEvents, hCombined, hMade, rfl⟩ := process_eq_ok_iff.mp h
  intro item hItem
  rcases List.mem_append.mp hItem with hItem | hItem
  · obtain ⟨u, hu, k, bucket, hOutcome⟩ := exists_outcome_of_combineModules hCombined hItem
    exact problem_or_pick_of_outcome (accepts_of_mem_byModule hu) hOutcome
  · exact problem_or_pick_of_placeholders hMade hItem

end Combiner

namespace WebScript

variable {tree : FileTree}

theorem pick_eq_some_iff {item : Item} {file : FinalFile} :
    pick item = some file ↔ item.kind = .payload (.final file) ∧
      file.platform = some .web ∧ Text.endsWith file.outputPath ".js" = true := by
  rw [← Item.final?_eq_some_iff, pick]
  cases item.final? with
  | none =>
    constructor
    · intro h
      cases h
    · rintro ⟨h, _⟩
      cases h
  | some found =>
    simp only [Bool.and_eq_true, decide_eq_true_eq, Option.ite_none_right_eq_some,
      Option.some.injEq]
    constructor
    · rintro ⟨hWeb, rfl⟩
      exact ⟨rfl, hWeb⟩
    · rintro ⟨rfl, hWeb⟩
      exact ⟨hWeb, rfl⟩

theorem problem_or_pick_of_transform {item made : Item} {file : FinalFile}
    (hPick : pick item = some file) (h : transform tree item file = .ok made) :
    made.problem?.isSome = true ∨ (pick made).isSome = true := by
  rw [transform] at h
  split at h
  · cases h
    exact .inr (Option.isSome_iff_exists.mpr ⟨file, hPick⟩)
  · split at h
    · split at h
      · cases h
        obtain ⟨_, _, hEnding⟩ := pick_eq_some_iff.mp hPick
        exact .inr (Option.isSome_iff_exists.mpr ⟨_, pick_eq_some_iff.mpr ⟨rfl, rfl, hEnding⟩⟩)
      · cases h
    · split at h
      · cases h
        exact .inl rfl
      · cases h

end WebScript

/-! ## Runs of stages -/

def failures (items : List Item) : List Item := items.filter fun item => item.problem?.isSome

namespace Stage

def selects : Stage → Item → Bool
  | .combine c, item => (c.pick item).isSome
  | .web, item => (WebScript.pick item).isSome

/-- Whether no stage selects an item. -/
def passes (stages : List Stage) (item : Item) : Bool :=
  stages.all fun stage => !stage.selects item

/-- The failures that a stage makes of the items that it selects. -/
def attached (tree : FileTree) (items : List Item) (cache : Cache) : Stage → List Item
  | .combine c =>
    match c.process tree items cache with
    | .ok r _ => failures (r.combined ++ r.placeholders)
    | .error _ _ => []
  | .web =>
    match (Selection.ofItems WebScript.pick items).selected.mapM
        fun s => WebScript.transform tree s.1 s.2 with
    | .ok made => failures made
    | .error _ => []

/-- Stages that run one after the other and return, each from a cache of its own, with the failures
that they attach. -/
inductive Runs (tree : FileTree) : List Item → List Stage → List Item → List Item → Prop
  | nil (items : List Item) : Runs tree items [] [] items
  | cons {stage : Stage} {rest : List Stage} {items next more out : List Item}
      {cache cache' : Cache} {events : List Event}
      (hStage : stage.run tree items cache = .ok (next, events) cache')
      (hRest : Runs tree next rest more out) :
      Runs tree items (stage :: rest) (stage.attached tree items cache ++ more) out

variable {tree : FileTree} {stage : Stage} {stages : List Stage}
  {items next more out : List Item} {cache cache' : Cache}

/-- The stages of a pass share one cache. -/
theorem runs_of_runStages
    (h : ∃ events, runStages tree items stages cache = .ok (out, events) cache') :
    ∃ more, Runs tree items stages more out := by
  induction stages generalizing items cache with
  | nil =>
    obtain ⟨rfl, _⟩ := runStages_nil_iff.mp h
    exact ⟨[], .nil _⟩
  | cons stage rest ih =>
    obtain ⟨next, between, ⟨_, hStage⟩, hLater⟩ := runStages_cons_iff.mp h
    obtain ⟨more, hRest⟩ := ih hLater
    exact ⟨_, .cons hStage hRest⟩

theorem selects_of_problem? {item : Item} (h : item.problem?.isSome = true) :
    stage.selects item = false := by
  cases stage with
  | combine c =>
    rw [selects, Combiner.pick_of_native? (Item.native?_of_problem? h)]
    rfl
  | web =>
    rw [selects, WebScript.pick_of_final? (Item.final?_of_problem? h)]
    rfl

theorem passes_of_problem? {item : Item} (h : item.problem?.isSome = true) :
    passes stages item = true := by
  rw [passes, List.all_eq_true]
  intro stage _
  rw [selects_of_problem? h]
  rfl

theorem passes_of_selects {item : Item} (hStage : stage ∈ stages)
    (h : stage.selects item = true) : passes stages item = false := by
  rw [passes, List.all_eq_false]
  exact ⟨stage, hStage, by rw [h]; decide⟩

/-- Neither a failure, nor a file that is no script for the web, nor a source of a module that is
not accepted is selected. -/
theorem passes_iff {item : Item} :
    passes stages item = true ↔
      (∀ c source, .combine c ∈ stages → item.kind = .payload (.native source) →
        ¬(item.module.singleFile = true ∧ c.only.allows item.module.name = true)) ∧
      ∀ file, .web ∈ stages → item.kind = .payload (.final file) →
        ¬(file.platform = some .web ∧ Text.endsWith file.outputPath ".js" = true) := by
  rw [passes, List.all_eq_true]
  simp only [Bool.not_eq_true', ← Bool.not_eq_true]
  constructor
  · intro h
    constructor
    · rintro c source hStage hKind hAccepts
      refine h _ hStage (Option.isSome_iff_exists.mpr ⟨source, ?_⟩)
      exact Combiner.pick_eq_some_iff.mpr ⟨Bool.and_eq_true_iff.mpr hAccepts, hKind⟩
    · rintro file hStage hKind hWeb
      refine h _ hStage (Option.isSome_iff_exists.mpr ⟨file, ?_⟩)
      exact WebScript.pick_eq_some_iff.mpr ⟨hKind, hWeb⟩
  · rintro ⟨hCombine, hWeb⟩ stage hStage hSelects
    cases stage with
    | combine c =>
      obtain ⟨source, hPick⟩ := Option.isSome_iff_exists.mp hSelects
      obtain ⟨hAccepts, hKind⟩ := Combiner.pick_eq_some_iff.mp hPick
      exact hCombine c source hStage hKind (Bool.and_eq_true_iff.mp hAccepts)
    | web =>
      obtain ⟨file, hPick⟩ := Option.isSome_iff_exists.mp hSelects
      obtain ⟨hKind, hScript⟩ := WebScript.pick_eq_some_iff.mp hPick
      exact hWeb file hStage hKind hScript

/-- A stage keeps what it does not select and puts behind it failures and what it would select. -/
theorem made_of_run {events : List Event}
    (h : stage.run tree items cache = .ok (next, events) cache') :
    ∃ made, next = items.filter (fun item => !stage.selects item) ++ made ∧
      stage.attached tree items cache = failures made ∧
      ∀ item ∈ made, item.problem?.isSome = true ∨ stage.selects item = true := by
  cases stage with
  | combine c =>
    obtain ⟨r, hProcess, rfl⟩ := run_combine_iff.mp ⟨events, h⟩
    refine ⟨r.combined ++ r.placeholders, ?_, ?_, Combiner.problem_or_pick_of_process hProcess⟩
    · rw [PassResult.items, List.append_assoc, Combiner.passed_of_process hProcess]
      simp only [Combiner.selection, Selection.ofItems, selects, Option.not_isSome]
    · rw [attached, hProcess]
  | web =>
    obtain ⟨hProcess, _⟩ := run_web_iff.mp ⟨events, h⟩
    obtain ⟨made, hMade, rfl⟩ := WebScript.process_eq_ok_iff.mp hProcess
    refine ⟨made, ?_, ?_, fun item hItem => ?_⟩
    · simp only [Selection.ofItems, selects, Option.not_isSome]
    · rw [attached, mapM_eq_ok_iff.mpr hMade]
    · obtain ⟨s, hs, hTransform⟩ := exists_mem_of_forall₂ hMade hItem
      exact WebScript.problem_or_pick_of_transform (WebScript.pick_of_mem_selected hs) hTransform

/-- One stage: what no stage selects stays as it is, and the failures come behind it. -/
theorem filter_passes_of_run {events : List Event} (hStage : stage ∈ stages)
    (h : stage.run tree items cache = .ok (next, events) cache') :
    next.filter (passes stages) =
      items.filter (passes stages) ++ stage.attached tree items cache := by
  obtain ⟨made, rfl, hAttached, hMade⟩ := made_of_run h
  rw [hAttached, List.filter_append, List.filter_filter]
  congr 1
  · apply List.filter_congr
    intro item _
    cases hSelects : stage.selects item with
    | false => exact Bool.and_true _
    | true => rw [passes_of_selects hStage hSelects, Bool.false_and]
  · apply List.filter_congr
    intro item hItem
    rcases hMade item hItem with hProblem | hSelects
    · rw [hProblem, passes_of_problem? hProblem]
    · rw [passes_of_selects hStage hSelects, eq_comm, ← Bool.not_eq_true]
      intro hProblem
      rw [selects_of_problem? hProblem] at hSelects
      cases hSelects

/-- All stages: the same, for the items that none of `all` selects. -/
theorem Runs.filter_passes (h : Runs tree items stages more out) {all : List Stage}
    (hAll : stages ⊆ all) :
    out.filter (passes all) = items.filter (passes all) ++ more := by
  induction h with
  | nil items => exact (List.append_nil _).symm
  | cons hStage _ ih =>
    obtain ⟨hHead, hTail⟩ := List.cons_subset.mp hAll
    rw [ih hTail, filter_passes_of_run hHead hStage, List.append_assoc]

theorem failures_filter_passes (stages : List Stage) (items : List Item) :
    failures (items.filter (passes stages)) = failures items := by
  rw [failures, List.filter_filter]
  apply List.filter_congr
  intro item _
  cases hProblem : item.problem?.isSome with
  | false => rfl
  | true => exact passes_of_problem? hProblem

theorem Runs.failures_attached (h : Runs tree items stages more out) : failures more = more := by
  induction h with
  | nil => rfl
  | cons hStage _ ih =>
    obtain ⟨made, _, hAttached, _⟩ := made_of_run hStage
    rw [failures] at ih
    rw [failures, List.filter_append, ih, hAttached, failures, List.filter_filter]
    simp only [Bool.and_self]

/-- What no stage of a run selects comes out of it as it went in, each item as often and in its
order, and behind it comes every failure that a stage attached, whatever stages ran after it. -/
theorem unselected_survive (h : Runs tree items stages more out) :
    out.filter (passes stages) = items.filter (passes stages) ++ more ∧
      failures out = failures items ++ more ∧
      ∀ item, passes stages item = true ↔
        (∀ c source, .combine c ∈ stages → item.kind = .payload (.native source) →
          ¬(item.module.singleFile = true ∧ c.only.allows item.module.name = true)) ∧
        ∀ file, .web ∈ stages → item.kind = .payload (.final file) →
          ¬(file.platform = some .web ∧ Text.endsWith file.outputPath ".js" = true) := by
  have hOut := h.filter_passes (List.Subset.refl stages)
  refine ⟨hOut, ?_, fun _ => passes_iff⟩
  calc
    failures out = failures (out.filter (passes stages)) :=
      (failures_filter_passes stages out).symm
    _ = failures (items.filter (passes stages)) ++ failures more := by
      rw [hOut, failures, List.filter_append]
      rfl
    _ = failures items ++ more := by
      rw [failures_filter_passes, h.failures_attached]

theorem unselected_survive_failed_read :
    let c := Sample.combiner ["Core"]
    let final (path : Text) (content : Content) : Item :=
      .generated Sample.core (.payload (.final ⟨path, content, some .web⟩)) none
    let foreign := { Sample.item "F.kt" "F.kt" "" .android with
      module := { Sample.core with name := "Other" } }
    let lost := Item.generated Sample.core
      (.payload (.native (.single "L.kt" (.stored (.ofText "lost")) none))) (some .android)
    let failed := Item.generated Sample.core
      (.failed (.fault (.failure ⟨.generator, "boom"⟩))) none
    let items := [foreign, final "a.js" (.octets [255]), lost, final "a.html" (.text ""), failed]
    let stages := [.combine c, .web, .combine c]
    ∃ more out, Runs .empty items stages more out ∧
      out.filter (passes stages) = [foreign, final "a.html" (.text ""), failed] ++ more ∧
      failures out = [failed] ++ more := by
  intro c final foreign lost failed items stages
  have hReturns : ((runStages .empty items stages).run' .empty).isSome = true := by decide +kernel
  have hPasses : items.filter (passes stages) = [foreign, final "a.html" (.text ""), failed] := by
    decide +kernel
  have hFailures : failures items = [failed] := by decide +kernel
  obtain ⟨⟨out, events⟩, cache', hRun⟩ := exists_of_run'_isSome hReturns
  obtain ⟨more, hRuns⟩ := runs_of_runStages ⟨events, hRun⟩
  obtain ⟨hOut, hFailed, _⟩ := unselected_survive hRuns
  rw [hPasses] at hOut
  rw [hFailures] at hFailed
  exact ⟨more, out, hRuns, hOut, hFailed⟩

end Stage

end Amalgam
