import Amalgam.Build
import Amalgam.Proofs.ManifestFormat

/-! # What a build loads

A build has a plan exactly if its registry, its project settings and all of its manifests load and
no listed name is blank. The items of a manifest belong to modules of the registry.
-/

namespace Amalgam

namespace Build

/-! ## Plans -/

/-- All that a build reads before its first pass is there and is what it should be. -/
structure Loaded (s : Settings) (tree : FileTree) (registry : Registry) (config : ProjectConfig)
    (passes : List (Path × List Item)) : Prop where
  registryLoads : ∃ path, s.modules = .value path ∧ Load.registry tree path = .ok registry
  configLoads : (s.projectConfig = none ∧ config = ⟨none⟩) ∨
    ∃ path, s.projectConfig = some (.value path) ∧ Load.projectConfig tree path = .ok config
  manifestsLoad : List.Forall₂ (fun path pass =>
    pass.1 = path ∧ Load.manifest tree registry path = .ok pass.2) s.manifests passes

theorem demand_eq_ok_iff {α ε : Type} {s : Setting α} {missing : ε} {a : α} :
    s.demand missing = .ok a ↔ s = .value a := by
  cases s with
  | blank => exact iff_of_false nofun nofun
  | value b => simp [Setting.demand]

theorem passes_eq_ok_iff {tree : FileTree} {registry : Registry} {manifests : List Path}
    {passes : List (Path × List Item)} :
    (manifests.mapM fun path => do return (path, ← Load.manifest tree registry path)) = .ok passes ↔
      List.Forall₂ (fun path pass =>
        pass.1 = path ∧ Load.manifest tree registry path = .ok pass.2) manifests passes := by
  rw [mapM_eq_ok_iff]
  apply forall₂_congr_of_mem
  intro path _ pass
  rw [bind_eq_ok_iff]
  constructor
  · rintro ⟨items, hItems, h⟩
    cases h
    exact ⟨rfl, hItems⟩
  · rintro ⟨rfl, hItems⟩
    exact ⟨pass.2, hItems, rfl⟩

def names (s : Settings) : Except LoadError (List Text) :=
  s.only.mapM fun name => name.demand .blankName

theorem loaded_of_plan {s : Settings} {tree : FileTree} {plan : Plan}
    (h : Build.plan s tree = .ok plan) :
    ∃ only, names s = .ok only ∧ plan.combiner.only = .ofList only ∧
      plan.combiner.generator = EmptyType.objc ∧
      Loaded s tree plan.combiner.registry plan.combiner.config plan.passes := by
  rw [Build.plan] at h
  cases hConfig : s.projectConfig with
  | none =>
    simp only [hConfig, bind_eq_ok_iff, demand_eq_ok_iff, passes_eq_ok_iff] at h
    obtain ⟨path, hPath, registry, hRegistry, config, hNone, passes, hPasses, only, hOnly,
      hPlan⟩ := h
    cases hNone
    cases hPlan
    exact ⟨only, hOnly, rfl, rfl, ⟨path, hPath, hRegistry⟩, .inl ⟨hConfig, rfl⟩, hPasses⟩
  | some setting =>
    simp only [hConfig, bind_eq_ok_iff, demand_eq_ok_iff, passes_eq_ok_iff] at h
    obtain ⟨path, hPath, registry, hRegistry, file, hFile, config, hLoaded, passes, hPasses, only,
      hOnly, hPlan⟩ := h
    cases hPlan
    subst hFile
    exact ⟨only, hOnly, rfl, rfl, ⟨path, hPath, hRegistry⟩, .inr ⟨file, hConfig, hLoaded⟩, hPasses⟩

/-- Once everything is loaded, only a blank name is in the way of a plan. -/
theorem plan_of_loaded {s : Settings} {tree : FileTree} {registry : Registry}
    {config : ProjectConfig} {passes : List (Path × List Item)}
    (h : Loaded s tree registry config passes) :
    Build.plan s tree = names s >>= fun only =>
      .ok ⟨⟨.ofList only, config, registry, EmptyType.objc⟩, passes⟩ := by
  obtain ⟨path, hPath, hRegistry⟩ := h.registryLoads
  have hPasses := passes_eq_ok_iff.mpr h.manifestsLoad
  rw [Build.plan, names]
  rcases h.configLoads with ⟨hNone, rfl⟩ | ⟨file, hFile, hConfig⟩
  · simp only [hPath, Setting.demand, ok_bind, hRegistry, hNone, pure_bind, hPasses]
    rfl
  · simp only [hPath, Setting.demand, ok_bind, hRegistry, hFile, hConfig, hPasses]
    rfl

theorem error_of_names {s : Settings} {e : LoadError} (h : names s = .error e) :
    e = .blankName := by
  rw [names] at h
  generalize s.only = settings at h
  induction settings with
  | nil => cases h
  | cons setting rest ih =>
    rw [List.mapM_cons] at h
    cases setting with
    | blank =>
      cases h
      rfl
    | value name =>
      cases hRest : rest.mapM fun name => name.demand LoadError.blankName with
      | error e' =>
        rw [hRest] at h
        cases h
        exact ih hRest
      | ok others =>
        rw [hRest] at h
        cases h

/-- An error that is reported says that something was not loaded. -/
theorem not_loaded_of_error {s : Settings} {tree : FileTree} {e : LoadError}
    (hPlan : Build.plan s tree = .error e) (hReported : e.isFinal = false) :
    ¬∃ registry config passes, Loaded s tree registry config passes := by
  rintro ⟨registry, config, passes, hLoaded⟩
  rw [plan_of_loaded hLoaded] at hPlan
  cases hNames : names s with
  | error e' =>
    rw [hNames] at hPlan
    cases hPlan
    cases error_of_names hNames
    cases hReported
  | ok only =>
    rw [hNames] at hPlan
    cases hPlan

end Build

end Amalgam
