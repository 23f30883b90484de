import Amalgam.Proofs.PlatformCoverage

/-! # Failures of a generator

What a generator answers shows only in the Objective-C placeholders of the module it was asked for.
Two generators that fail only in the ways they may report lead to the same combined items and the
same cache, and to the same placeholders but for those of the modules for which their answers
differ. A failure takes the place of the placeholders it is in the way of, and of no others.
-/

namespace Amalgam

namespace Placeholder

variable {generate other : Generator} {config : ProjectConfig} {m : ModuleInfo}
  {filenames : List Text}

/-- The item is no Objective-C placeholder of a module for which the answers differ. -/
def Settled (generate other : Generator) (item : Item) : Prop :=
  item.platform = some .ios → item.module.iosLanguage = .objc →
    answer generate item.module = answer other item.module

instance (generate other : Generator) (item : Item) : Decidable (Settled generate other item) :=
  inferInstanceAs (Decidable (_ → _ → _))

/-- The placeholders that are due in a module, with what stands for the Objective-C ones. -/
def due (config : ProjectConfig) (filenames : List Text) (own : List Item) (m : ModuleInfo) :
    List Item :=
  (batches config m filenames own).flatMap Batch.made

theorem module_of_due (h : generate.Reports) {item : Item}
    (hItem : item ∈ due config filenames (answer generate m) m) : item.module = m :=
  (made_of_items (items_eq_batches h config m filenames) item hItem).1

theorem filter_answer_eq_nil (hLanguage : m.iosLanguage = .objc)
    (hDiffer : answer generate m ≠ answer other m) {own : Generator} (hOwn : own.Reports) :
    (answer own m).filter (Settled generate other ·) = [] := by
  refine List.filter_eq_nil_iff.mpr fun item hItem hSettled => hDiffer ?_
  obtain ⟨rfl, hPlatform, _⟩ := objc_isFor (objc_eq_answer hOwn m) item hItem
  exact of_decide_eq_true hSettled hPlatform hLanguage

theorem filter_due_eq (hReports : generate.Reports) (hOther : other.Reports) :
    (due config filenames (answer generate m) m).filter (Settled generate other ·) =
      (due config filenames (answer other m) m).filter (Settled generate other ·) := by
  by_cases hSame : answer generate m = answer other m
  · rw [hSame]
  · cases hLanguage : m.iosLanguage with
    | objc =>
      simp only [due, batches, Batch.made, List.flatMap_cons, List.filter_append,
        apply_ite (List.filter (Settled generate other ·)),
        filter_answer_eq_nil hLanguage hSame hReports, filter_answer_eq_nil hLanguage hSame hOther]
    | swift => simp [due, batches, Batch.made, hLanguage]

end Placeholder

namespace Combiner

variable {c : Combiner} {items : List Item}

def duePlaceholders (c : Combiner) (selected : Table ModuleInfo (List Fragment))
    (names : List Text) : List Item :=
  (c.registry.listed names).flatMap fun m =>
    Placeholder.due c.config (filenamesOf selected m) (Placeholder.answer c.generator m) m

theorem placeholdersFor_eq_due (h : c.generator.Reports)
    (selected : Table ModuleInfo (List Fragment)) (name : Text) :
    ∃ events,
      c.placeholdersFor selected name = .ok (c.duePlaceholders selected [name], events) := by
  rw [placeholdersFor, duePlaceholders, Registry.listed]
  cases hModule : c.registry.lookup? name with
  | none =>
    rw [List.filterMap_cons_none hModule]
    exact ⟨_, rfl⟩
  | some m =>
    rw [List.filterMap_cons_some hModule]
    simp only
    split
    · next hSingle =>
      rw [List.filterMap_nil, List.filter_cons_of_pos hSingle, List.filter_nil,
        List.flatMap_singleton, Placeholder.items_eq_batches h]
      exact ⟨_, rfl⟩
    · next hSingle =>
      rw [List.filter_cons_of_neg hSingle]
      exact ⟨_, rfl⟩

theorem placeholders_eq_due (h : c.generator.Reports)
    (selected : Table ModuleInfo (List Fragment)) (names : List Text) :
    ∃ events, c.placeholders selected names = .ok (c.duePlaceholders selected names, events) := by
  induction names with
  | nil => exact ⟨_, rfl⟩
  | cons name rest ih =>
    obtain ⟨events, hFirst⟩ := placeholdersFor_eq_due h selected name
    obtain ⟨more, hRest⟩ := ih
    have hDue : c.duePlaceholders selected (name :: rest) =
        c.duePlaceholders selected [name] ++ c.duePlaceholders selected rest := by
      rw [duePlaceholders, duePlaceholders, duePlaceholders, ← List.flatMap_append,
        ← Registry.listed_append]
      rfl
    rw [placeholders, hFirst, hRest, hDue]
    exact ⟨_, rfl⟩

theorem filter_duePlaceholders {selected : Table ModuleInfo (List Fragment)} {names : List Text}
    {m : ModuleInfo} (hReports : c.generator.Reports) (hNodup : names.Nodup)
    (hm : m ∈ c.registry.listed names) :
    ((c.duePlaceholders selected names).filter fun item => item.module = m) =
      Placeholder.due c.config (filenamesOf selected m) (Placeholder.answer c.generator m) m := by
  let own m :=
    Placeholder.due c.config (filenamesOf selected m) (Placeholder.answer c.generator m) m
  have hParts : List.Forall₂ (fun m part => part = own m) (c.registry.listed names)
      ((c.registry.listed names).map own) :=
    List.forall₂_map_right_iff.mpr (List.forall₂_same.mpr fun _ _ => rfl)
  have hListed : ((c.registry.listed names).map id).Nodup := by
    rw [List.map_id]
    exact Registry.nodup_listed hNodup
  obtain ⟨_, rfl, hFilter⟩ := filter_flatten_of_forall₂ hParts
    (fun m part hPart item hItem => Placeholder.module_of_due hReports (hPart ▸ hItem)) hListed hm
  rw [duePlaceholders, List.flatMap_def]
  exact hFilter

theorem placeholders_of_failed {m : ModuleInfo} {f : Failure} (hReports : c.generator.Reports)
    (hm : m ∈ c.registry.modules) (hListed : m.name ∈ c.only) (hSingle : m.singleFile = true)
    (hFailed : c.generator Placeholder.typeName m .classType .objc = .error f) :
    ((c.duePlaceholders (c.updates items) c.only.toList).filter fun item => item.module = m) =
      Placeholder.due c.config ((c.broughtFor m items).map fun f => f.source.filename)
        [Placeholder.failed m f] m := by
  have hMem : m ∈ c.registry.listed c.only.toList :=
    Registry.mem_listed.mpr ⟨hm, hListed, hSingle⟩
  rw [filter_duePlaceholders hReports c.only.nodup_toList hMem, filenamesOf_updates,
    Placeholder.answer, hFailed]

theorem process_of_error {tree : FileTree} {cache last : Cache} {fault : Fault}
    (h : combineModules tree (c.updates items) cache = .error fault last) :
    c.process tree items cache = .error fault last := by
  have hCombine : c.combine tree (c.selection items).selected cache = .error fault last := by
    rw [updates, fragments] at h
    rw [combine]
    simp only [bind, EStateM.bind, h]
  rw [process, Selection.replaceAll]
  simp only [bind, EStateM.bind, hCombine]

theorem process_of_ok {tree : FileTree} {cache last : Cache} {combined : List Item}
    {events : List Event} (hReports : c.generator.Reports)
    (h : combineModules tree (c.updates items) cache = .ok (combined, events) last) :
    ∃ all, c.process tree items cache = .ok ⟨(c.selection items).untouched, combined,
      c.duePlaceholders (c.updates items) c.only.toList, all⟩ last := by
  obtain ⟨more, hMade⟩ := placeholders_eq_due hReports (c.updates items) c.only.toList
  exact ⟨_, process_eq_ok_iff.mpr ⟨_, _, _, _, h, hMade, rfl⟩⟩

end Combiner

/-- Two results that have the same items, but for placeholders that are not settled. -/
structure PassResult.AlikeBut (settled : Item → Prop) [DecidablePred settled]
    (r r' : PassResult) : Prop where
  passed : r.passed = r'.passed
  combined : r.combined = r'.combined
  placeholders : r.placeholders.filter (settled ·) = r'.placeholders.filter (settled ·)

namespace Combiner

/-- With two generators a pass ends alike, up to the placeholders on which their answers differ. A
listed module for which the generator fails has the failure where the Objective-C placeholders are
due, and everything else that is due for it. -/
theorem generator_failure_isolated {c : Combiner} {generate other : Generator}
    (hReports : generate.Reports) (hOther : other.Reports) (tree : FileTree) (items : List Item)
    (cache : Cache) :
    let own : Combiner := { c with generator := generate }
    let their : Combiner := { c with generator := other }
    (∃ fault last, own.process tree items cache = .error fault last ∧
      their.process tree items cache = .error fault last) ∨
    ∃ r r' last, own.process tree items cache = .ok r last ∧
      their.process tree items cache = .ok r' last ∧
      r.AlikeBut (Placeholder.Settled generate other) r' ∧
      ∀ m ∈ c.registry.modules, m.name ∈ c.only → m.singleFile = true →
        ∀ f, generate Placeholder.typeName m .classType .objc = .error f →
          (Placeholder.failureReport m f).code = "placeholder-generation-failed" ∧
          (r.placeholders.filter fun item => item.module = m) =
            Placeholder.due c.config ((c.broughtFor m items).map fun f => f.source.filename)
              [Placeholder.failed m f] m := by
  intro own their
  cases hCombined : combineModules tree (c.updates items) cache with
  | error fault last =>
    exact .inl ⟨fault, last, process_of_error (c := own) hCombined,
      process_of_error (c := their) hCombined⟩
  | ok result last =>
    obtain ⟨all, hOwn⟩ := process_of_ok (c := own) hReports hCombined
    obtain ⟨all', hTheir⟩ := process_of_ok (c := their) hOther hCombined
    refine .inr ⟨_, _, last, hOwn, hTheir, ⟨rfl, rfl, ?_⟩, ?_⟩
    · simp only [PassResult.placeholders_mk, duePlaceholders, List.filter_flatMap]
      exact congrArg (List.flatMap · _) (funext fun m =>
        Placeholder.filter_due_eq hReports hOther)
    · intro m hm hListed hSingle f hFailed
      exact ⟨rfl, placeholders_of_failed (c := own) hReports hm hListed hSingle hFailed⟩

/-- Where the generator fails, the placeholder for Android is still made. -/
theorem generator_failure_isolated_disk_full :
    let c := Sample.combiner ["Core"]
    let full : Failure := ⟨.system, "No space left on device"⟩
    let generate : Generator := fun _ _ _ _ => .error full
    let own : Combiner := { c with generator := generate }
    let failed := Placeholder.failed Sample.core full
    generate.Reports ∧ EmptyType.objc.Reports ∧
      ∃ r r' last, own.process .empty [] .empty = .ok r last ∧
        c.process .empty [] .empty = .ok r' last ∧
        r.AlikeBut (Placeholder.Settled generate EmptyType.objc) r' ∧
        (Placeholder.failureReport Sample.core full).code = "placeholder-generation-failed" ∧
        (r.placeholders.filter fun item => item.module = Sample.core) =
          [Placeholder.empty Sample.core "Core.kt" .android none, failed] := by
  intro c full generate own failed
  have hReports : generate.Reports := by
    intro _ _ _ _ f h
    cases h
    rfl
  refine ⟨hReports, EmptyType.reports_objc, ?_⟩
  rcases generator_failure_isolated (c := c) hReports EmptyType.reports_objc .empty [] .empty with
    ⟨fault, last, hError, _⟩ | ⟨r, r', last, hOwn, hTheir, hAlike, hFailed⟩
  · cases hError
  · obtain ⟨hCode, hMade⟩ :=
      hFailed Sample.core List.mem_cons_self (by decide +kernel) rfl full rfl
    refine ⟨r, r', last, hOwn, hTheir, hAlike, hCode, hMade.trans ?_⟩
    decide +kernel

end Combiner

end Amalgam
