import Amalgam.Proofs.Loading
import Amalgam.Proofs.OutputAttempts
import Amalgam.Proofs.UnreadableContent

/-! # Runs of a build

A build with a plan runs its passes through one combiner that begins with an empty cache, and then
attempts the items of the last pass. There are three ways in which it ends early: something cannot
be loaded in a way that is not reported, a pass comes upon a path that does not get to the system,
or an attempt to write an output ends the run.
-/

namespace Amalgam

/-- The passes of a plan; all of them read from the tree as it is before the build. -/
def Plan.passesOn (plan : Plan) (tree : FileTree) : List Pass :=
  plan.passes.map fun p => ⟨tree, p.2⟩

namespace Build

/-- The items of the last result. -/
def lastItems (initial : List Item) (results : List PassResult) : List Item :=
  results.foldl (fun _ r => r.items) initial

theorem lastItems_append_singleton (initial : List Item) (results : List PassResult)
    (r : PassResult) : lastItems initial (results ++ [r]) = r.items := by
  rw [lastItems, List.foldl_append, List.foldl_cons, List.foldl_nil]

theorem runStages_combine (c : Combiner) (tree : FileTree) (items : List Item) (cache : Cache) :
    runStages tree items [.combine c] cache =
      match c.process tree items cache with
      | .error fault last => .error fault last
      | .ok r last =>
        .ok (r.items, .stageStarted Combiner.description items.length :: (r.events ++ [])) last := by
  simp only [runStages, Stage.run, bind, EStateM.bind, pure, EStateM.pure]
  cases c.process tree items cache <;> rfl

theorem runPasses_eq_ok_iff {c : Combiner} {tree : FileTree} {passes : List (Path × List Item)}
    {initial items : List Item} {cache last : Cache} :
    (∃ events, runPasses c tree initial passes cache = .ok (items, events) last) ↔
      ∃ results, c.runPasses (passes.map fun p => ⟨tree, p.2⟩) cache = .ok results last ∧
        items = lastItems initial results := by
  -- A pass begins with the cache that the one before leaves, and its items take the place of the
  -- earlier ones, so both are general.
  induction passes generalizing initial cache with
  | nil =>
    constructor
    · rintro ⟨events, h⟩
      cases h
      exact ⟨[], rfl, rfl⟩
    · rintro ⟨results, h, rfl⟩
      cases h
      exact ⟨[], rfl⟩
  | cons p rest ih =>
    rw [runPasses, List.map_cons]
    simp only [bind, EStateM.bind, runStages_combine, Combiner.runPasses_cons_eq_ok_iff]
    cases hFirst : c.process tree p.2 cache with
    | error fault between =>
      apply iff_of_false nofun
      rintro ⟨_, ⟨_, _, _, h, _⟩, _⟩
      cases h
    | ok r between =>
      have hRest := @ih r.items between
      constructor
      · rintro ⟨events, h⟩
        cases hMore : runPasses c tree r.items rest between with
        | error fault last' =>
          simp only [hMore] at h
          cases h
        | ok more last' =>
          simp only [hMore] at h
          cases h
          obtain ⟨others, hOthers, hItems⟩ := hRest.mp ⟨_, hMore⟩
          exact ⟨r :: others, ⟨r, others, between, rfl, hOthers, rfl⟩, hItems⟩
      · rintro ⟨_, ⟨_, others, _, h, hOthers, rfl⟩, rfl⟩
        cases h
        obtain ⟨moreEvents, hMore⟩ := hRest.mpr ⟨others, hOthers, rfl⟩
        simp only [hMore]
        exact ⟨_, rfl⟩

/-! ## Plans -/

section

variable {s : Settings} {tree : FileTree} {plan : Plan}

end

/-! ## How a build ends -/

variable {s : Settings} {process : Nat} {tree last : FileTree}

theorem result_of_unplanned {e : LoadError} {result : Result}
    (hPlan : Build.plan s tree = .error e) (h : run s process tree = .ok result last) :
    e.isFinal = false ∧ result = ⟨2, [loadDiagnostic s e], []⟩ ∧ last = tree := by
  simp only [run, hPlan] at h
  split at h
  · cases h
  · next hReported =>
    cases h
    exact ⟨Bool.eq_false_iff.mpr hReported, rfl, rfl⟩

theorem run_eq_ok_iff_of_plan {plan : Plan} {diagnostics : List Diagnostic} {code : Nat}
    (hPlan : Build.plan s tree = .ok plan) :
    (∃ events, run s process tree = .ok ⟨code, diagnostics, events⟩ last) ↔
      ∃ results cache,
        plan.combiner.runPasses (plan.passesOn tree) .empty = .ok results cache ∧
        (∀ attempt ∈ Output.attempts process s.out tree (lastItems [] results),
          ¬Output.Ends process s.out attempt) ∧
        diagnostics = (Output.attempts process s.out tree (lastItems [] results)).filterMap
          (Output.diagnostic? process s.out) ∧
        last = (lastItems [] results).foldl (Output.after process s.out) tree ∧
        code = if diagnostics.isEmpty then 0 else 1 := by
  rw [run]
  simp only [hPlan]
  constructor
  · rintro ⟨events, h⟩
    cases hRun : runPasses plan.combiner tree [] plan.passes .empty with
    | error fault cache =>
      rw [hRun] at h
      cases h
    | ok answer cache =>
      obtain ⟨results, hResults, hItems⟩ := runPasses_eq_ok_iff.mp ⟨_, hRun⟩
      simp only [hRun, hItems] at h
      cases hWrite : Output.writeItems process s.out (lastItems [] results) tree with
      | error e last' =>
        rw [hWrite] at h
        cases h
      | ok written last' =>
        rw [hWrite] at h
        cases h
        obtain ⟨hEnds, hDiagnostics, hLast⟩ := Output.writeItems_eq_ok_iff.mp ⟨_, hWrite⟩
        exact ⟨results, cache, hResults, hEnds, hDiagnostics, hLast, rfl⟩
  · rintro ⟨results, cache, hResults, hEnds, rfl, rfl, rfl⟩
    obtain ⟨passEvents, hRun⟩ := runPasses_eq_ok_iff.mpr ⟨results, hResults, rfl⟩
    obtain ⟨outputEvents, hWrite⟩ := Output.writeItems_eq_ok_iff.mpr ⟨hEnds, rfl, rfl⟩
    rw [hRun]
    simp only
    rw [hWrite]
    exact ⟨_, rfl⟩

end Build

end Amalgam
