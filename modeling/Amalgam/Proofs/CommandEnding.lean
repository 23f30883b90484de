import Amalgam.Command
import Amalgam.Proofs.BuildRuns

/-! # How a command ends

A command line that asks for a build ends with an exit code unless something stops the build. The
code is 2 exactly if something cannot be loaded; then there is one diagnostic and nothing is
written. Otherwise the diagnostics tell of the items of the last pass alone, and the code tells
whether there are any.
-/

namespace Amalgam

theorem Options.manifests_ne_nil {arguments : List Text} {settings : Settings} {json : Bool}
    {verbosity : Nat} (h : parse arguments = .ok (.build settings json verbosity)) :
    settings.manifests ≠ [] := by
  rw [parse] at h
  obtain ⟨tokens, _, h⟩ := bind_eq_ok_iff.mp h
  obtain ⟨collected?, _, h⟩ := bind_eq_ok_iff.mp h
  cases collected? with
  | none => cases h
  | some c =>
    simp only [Collected.request] at h
    split at h
    · split at h
      · cases h
      · next hManifests =>
        split at h
        · cases h
        · cases h
          simpa [List.isEmpty_iff] using hManifests
    · cases h

/-! ## Files for concrete runs -/

namespace Sample

def settings : Settings where
  manifests := [⟨.relative, ["pass"]⟩]
  modules := .value ⟨.relative, ["registry"]⟩
  projectConfig := none
  only := []
  out := .value ⟨.relative, ["out"]⟩

def registryText : String :=
  "\x7b\"modules\":[\x7b\"name\":\"M\",\"single_file_codegen\":true\x7d]\x7d"

/-- A working directory with a registry of one module and a manifest. -/
def tree (manifest : String) : FileTree where
  entries := [(Path.fileNames ⟨.relative, ["registry"]⟩, .file registryText.toUTF8.data.toList),
    (Path.fileNames ⟨.relative, ["pass"]⟩, .file manifest.toUTF8.data.toList)]
  workingDirectory := []

def missingText : String :=
  "\x7b\"fragments\":[\x7b\"module\":\"M\",\"filename\":\"A\",\"path\":\"A\"\x7d]\x7d"

def arguments : List Text := ["pass", "--modules", "registry", "--out", "out"]

theorem parse_arguments : Options.parse arguments = .ok (.build settings false 0) := by
  decide +kernel

end Sample

/-! ## Endings -/

namespace Command

def Ending.code? : Ending → Option Nat
  | .exit code => some code
  | .aborted _ => none

theorem Ending.code?_eq_some_iff {ending : Ending} {code : Nat} :
    ending.code? = some code ↔ ending = .exit code := by
  cases ending <;> simp [code?]

section

variable {arguments : List Text} {settings : Settings} {json : Bool} {verbosity : Nat}
  {process : Nat} {tree : FileTree} {code : Nat}

/-- How an answer shows diagnostics: as one value, or line by line after what is logged. -/
structure Shows (json : Bool) (verbosity code : Nat) (diagnostics : List Diagnostic)
    (answer : Answer) : Prop where
  stdout_eq : answer.stdout = if json then (report code diagnostics).print ++ "\n" else ""
  stderr_eq : ∃ events, answer.stderr = log verbosity events ++
    if json then ("" : Text) else Text.unlines (diagnostics.map Diagnostic.human)

theorem exit_iff (hArguments : Options.parse arguments = .ok (.build settings json verbosity)) :
    (run arguments process tree).ending = .exit code ↔
      ∃ diagnostics, (∃ events, Build.run settings process tree =
          .ok ⟨code, diagnostics, events⟩ (run arguments process tree).tree) ∧
        Shows json verbosity code diagnostics (run arguments process tree) := by
  simp only [run, hArguments, build]
  cases hRun : Build.run settings process tree with
  | error cause last => exact iff_of_false nofun (by rintro ⟨_, ⟨_, h⟩, _⟩; cases h)
  | ok result last =>
    obtain ⟨code', diagnostics, events⟩ := result
    simp only
    constructor
    · intro h
      have hCode : code' = code := by
        cases json <;> exact Ending.exit.inj h
      subst hCode
      refine ⟨diagnostics, ⟨events, ?_⟩, ?_⟩
      · cases json <;> rfl
      · cases json
        · exact ⟨rfl, events, rfl⟩
        · exact ⟨rfl, events, (Text.append_empty _).symm⟩
    · rintro ⟨_, ⟨_, h⟩, _⟩
      cases json
      · cases h
        rfl
      · cases h
        rfl

theorem ending_missing :
    (run Sample.arguments 0 (Sample.tree Sample.missingText)).ending = .exit 1 := by
  apply Ending.code?_eq_some_iff.mp
  decide +kernel

/-- The exit code and the diagnostics tell what happened. -/
theorem exit_code_truthful
    (hArguments : Options.parse arguments = .ok (.build settings json verbosity))
    (hReturns : (run arguments process tree).ending = .exit code) :
    (code = 2 ↔ ¬∃ registry config passes, Build.Loaded settings tree registry config passes) ∧
    ∃ diagnostics, Shows json verbosity code diagnostics (run arguments process tree) ∧
      (code = 2 → (∃ d, diagnostics = [d]) ∧ (run arguments process tree).tree = tree) ∧
      (code ≠ 2 → ∃ plan earlier last results r cache, Build.plan settings tree = .ok plan ∧
        plan.passesOn tree = earlier ++ [last] ∧
        plan.combiner.runPasses (earlier ++ [last]) .empty = .ok (results ++ [r]) cache ∧
        (Output.attempts process settings.out tree r.items).map Prod.fst = r.items ∧
        (∀ item before, (item, before) ∈ Output.attempts process settings.out tree r.items →
          ((Output.diagnostic? process settings.out (item, before)).isSome = true ↔
            item.problem?.isSome = true ∨ ∃ source e, item.native? = some source ∧
              Output.Fails process item source before settings.out e)) ∧
        diagnostics = (Output.attempts process settings.out tree r.items).filterMap
          (Output.diagnostic? process settings.out) ∧
        (run arguments process tree).tree =
          r.items.foldl (Output.after process settings.out) tree ∧
        code = if diagnostics.isEmpty then 0 else 1) := by
  obtain ⟨diagnostics, ⟨events, hRun⟩, hShows⟩ := (exit_iff hArguments).mp hReturns
  cases hPlan : Build.plan settings tree with
  | error e =>
    obtain ⟨hReported, hResult, hTree⟩ := Build.result_of_unplanned hPlan hRun
    obtain ⟨rfl, rfl, _⟩ := Build.Result.mk.inj hResult
    have hUnloaded := Build.not_loaded_of_error hPlan hReported
    refine ⟨iff_of_true rfl hUnloaded, _, hShows, fun _ => ⟨⟨_, rfl⟩, hTree⟩, ?_⟩
    exact fun hNe => absurd rfl hNe
  | ok plan =>
    obtain ⟨_, _, _, _, hLoaded⟩ := Build.loaded_of_plan hPlan
    obtain ⟨all, cache, hResults, _, hDiagnostics, hTree, hCode⟩ :=
      (Build.run_eq_ok_iff_of_plan hPlan).mp ⟨events, hRun⟩
    have hNotTwo : code ≠ 2 := by
      rw [hCode]
      split <;> decide
    have hPasses : plan.passesOn tree ≠ [] := by
      have hLength := hLoaded.manifestsLoad.length_eq
      intro hNil
      rw [List.map_eq_nil_iff.mp hNil] at hLength
      exact Options.manifests_ne_nil hArguments (List.length_eq_zero_iff.mp hLength)
    obtain ⟨earlier, last, hSplit⟩ : ∃ earlier last, plan.passesOn tree = earlier ++ [last] :=
      ⟨_, _, (List.dropLast_concat_getLast hPasses).symm⟩
    rw [hSplit] at hResults
    obtain ⟨results, r, _, rfl, _, _⟩ := Combiner.runPasses_append_singleton hResults
    rw [Build.lastItems_append_singleton] at hDiagnostics hTree
    refine ⟨iff_of_false hNotTwo (not_not.mpr ⟨_, _, _, hLoaded⟩), diagnostics, hShows,
      fun hTwo => absurd hTwo hNotTwo, fun _ => ?_⟩
    exact ⟨plan, earlier, last, results, r, cache, rfl, hSplit, hResults,
      Output.map_fst_attempts tree r.items, fun _ _ _ => Output.isSome_diagnostic?_iff,
      hDiagnostics, hTree, hCode⟩

end

theorem missing_file_reported :
    (∃ registry config passes,
      Build.Loaded Sample.settings (Sample.tree Sample.missingText) registry config passes) ∧
      ∃ diagnostics, diagnostics ≠ [] ∧
        Shows false 0 1 diagnostics (run Sample.arguments 0 (Sample.tree Sample.missingText)) := by
  obtain ⟨hTwo, diagnostics, hShows, _, hOther⟩ :=
    exit_code_truthful Sample.parse_arguments ending_missing
  have hLoaded := not_not.mp (hTwo.not.mp (by decide))
  obtain ⟨_, _, _, _, _, _, _, _, _, _, _, _, _, hCode⟩ := hOther (by decide)
  refine ⟨hLoaded, diagnostics, ?_, hShows⟩
  rintro rfl
  cases hCode

end Command

end Amalgam
