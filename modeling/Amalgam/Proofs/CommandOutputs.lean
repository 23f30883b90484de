import Amalgam.Proofs.CommandEnding
import Amalgam.Proofs.WrittenOutputs

/-! # What a successful command leaves

A command that ends with the code 0 has written every output of its last pass, and nothing of the
passes before it. Which outputs share a destination is decided by their platforms and names; the
modules that they belong to are not part of the destination.
-/

namespace Amalgam

namespace Build

/-- The result of the last pass of a build. -/
def lastResult? (s : Settings) (tree : FileTree) : Option PassResult :=
  match plan s tree with
  | .error _ => none
  | .ok plan =>
    match plan.combiner.runPasses (plan.passesOn tree) .empty with
    | .error _ _ => none
    | .ok results _ => results.getLast?

/-- A build that ends with the code 0 has written all of its last result, and that only. -/
theorem lastResult_of_run {s : Settings} {process : Nat} {tree last : FileTree}
    {diagnostics : List Diagnostic} {events : List Event} (hManifests : s.manifests ≠ [])
    (h : run s process tree = .ok ⟨0, diagnostics, events⟩ last) :
    ∃ r, lastResult? s tree = some r ∧ Output.AllWritten process s.out tree r.items ∧
      last = r.items.foldl (Output.after process s.out) tree := by
  cases hPlan : Build.plan s tree with
  | error e => cases (result_of_unplanned hPlan h).2.1
  | ok plan =>
    obtain ⟨all, cache, hResults, _, hDiagnostics, hLast, hCode⟩ :=
      (run_eq_ok_iff_of_plan hPlan).mp ⟨events, h⟩
    obtain ⟨_, _, _, _, hLoaded⟩ := loaded_of_plan hPlan
    have hPasses : plan.passesOn tree ≠ [] := by
      intro hNil
      have hLength := hLoaded.manifestsLoad.length_eq
      rw [List.map_eq_nil_iff.mp hNil] at hLength
      exact hManifests (List.length_eq_zero_iff.mp hLength)
    have hLastResult : lastResult? s tree = all.getLast? := by
      simp only [lastResult?, hPlan, hResults]
    rw [← List.dropLast_concat_getLast hPasses] at hResults
    obtain ⟨results, r, _, rfl, _, _⟩ := Combiner.runPasses_append_singleton hResults
    rw [lastItems_append_singleton] at hDiagnostics hLast
    refine ⟨r, hLastResult.trans List.getLast?_concat, ?_, hLast⟩
    have hNone : diagnostics = [] := by
      by_contra hSome
      rw [if_neg (by simpa using hSome)] at hCode
      cases hCode
    exact List.filterMap_eq_nil_iff.mp (hDiagnostics.symm.trans hNone)

end Build

namespace Output

variable {process : Nat} {out : Setting Path} {t : FileTree} {items : List Item}

theorem exists_destination (h : AllWritten process out t items) {item : Item} (hItem : item ∈ items)
    {source : NativeSource} (hNative : item.native? = some source) :
    ∃ p, destination? out item = some p := by
  obtain ⟨before, later, rfl⟩ := List.append_of_mem hItem
  obtain ⟨hWritten, _⟩ := allWritten_cons.mp (allWritten_append.mp h).2
  obtain ⟨p, _, hDestination, _⟩ := native_of_written hNative hWritten
  exact ⟨p, hDestination⟩

/-- What decides where an output goes. -/
def spot? (item : Item) : Option (Option Platform × List Text) :=
  item.native?.map fun source => (item.platform, OutputPath.names source)

/-- The same, with the names as the system is given them. -/
def fileSpot? (item : Item) : Option (Option Platform × List FileName) :=
  item.native?.map fun source => (item.platform, (OutputPath.names source).map Text.Utf8.octets)

theorem places_of_destinations {p q : Path} {item other : Item} {source source' : NativeSource}
    (hp : destination? out item = some p) (hq : destination? out other = some q)
    (hNative : item.native? = some source) (hNative' : other.native? = some source') :
    ∃ dir place place', OutputPath.place item.platform source = .ok place ∧
      OutputPath.place other.platform source' = .ok place' ∧ p = dir / place ∧ q = dir / place' := by
  obtain ⟨dir, _, place, hDir, hSame, hPlace, rfl⟩ := destination?_eq_some_iff.mp hp
  obtain ⟨_, _, place', hDir', hSame', hPlace', rfl⟩ := destination?_eq_some_iff.mp hq
  cases hDir.symm.trans hDir'
  cases hNative.symm.trans hSame
  cases hNative'.symm.trans hSame'
  exact ⟨dir, place, place', hPlace, hPlace', rfl, rfl⟩

theorem destination_eq_iff {p q : Path} {item other : Item} {source source' : NativeSource}
    (hp : destination? out item = some p) (hq : destination? out other = some q)
    (hNative : item.native? = some source) (hNative' : other.native? = some source') :
    p = q ↔ (item.platform, OutputPath.names source) =
      (other.platform, OutputPath.names source') := by
  obtain ⟨dir, place, place', hPlace, hPlace', rfl, rfl⟩ :=
    places_of_destinations hp hq hNative hNative'
  rw [OutputPath.join_place_eq_iff hPlace hPlace', Prod.mk.injEq]

theorem fileNames_destination_eq_iff {p q : Path} {item other : Item}
    {source source' : NativeSource}
    (hp : destination? out item = some p) (hq : destination? out other = some q)
    (hNative : item.native? = some source) (hNative' : other.native? = some source') :
    p.fileNames = q.fileNames ↔ (item.platform, (OutputPath.names source).map Text.Utf8.octets) =
      (other.platform, (OutputPath.names source').map Text.Utf8.octets) := by
  obtain ⟨dir, place, place', hPlace, hPlace', rfl, rfl⟩ :=
    places_of_destinations hp hq hNative hNative'
  rw [OutputPath.fileNames_join_place_eq_iff hPlace hPlace', Prod.mk.injEq]

/-- What tells destinations apart is told apart by what it comes from. -/
theorem nodup_map_destinations_iff {α β : Type} {f : Path → α} {g : Item → NativeSource → β}
    (h : AllWritten process out t items)
    (hSame : ∀ {p q : Path} {item other : Item} {source source' : NativeSource},
      destination? out item = some p → destination? out other = some q →
        item.native? = some source → other.native? = some source' →
          (f p = f q ↔ g item source = g other source')) :
    ((destinations out items).map f).Nodup ↔
      (items.filterMap fun item => item.native?.map (g item)).Nodup := by
  rw [destinations, List.Nodup, List.Nodup, List.pairwise_map, List.pairwise_filterMap,
    List.pairwise_filterMap]
  refine List.Pairwise.iff_of_mem fun {item other} hItem hOther => ?_
  constructor
  · intro hApart spot hSpot spot' hSpot'
    obtain ⟨source, hNative, rfl⟩ := Option.map_eq_some_iff.mp hSpot
    obtain ⟨source', hNative', rfl⟩ := Option.map_eq_some_iff.mp hSpot'
    obtain ⟨p, hp⟩ := exists_destination h hItem hNative
    obtain ⟨q, hq⟩ := exists_destination h hOther hNative'
    exact (hSame hp hq hNative hNative').not.mp (hApart p hp q hq)
  · intro hApart p hp q hq
    obtain ⟨_, source, _, hNative⟩ := native_of_destination hp
    obtain ⟨_, source', _, hNative'⟩ := native_of_destination hq
    apply (hSame hp hq hNative hNative').not.mpr
    exact hApart _ (Option.map_eq_some_iff.mpr ⟨source, hNative, rfl⟩) _
      (Option.map_eq_some_iff.mpr ⟨source', hNative', rfl⟩)

theorem nodup_destinations_iff (h : AllWritten process out t items) :
    (destinations out items).Nodup ↔ (items.filterMap spot?).Nodup := by
  have hPaths := nodup_map_destinations_iff (f := id) h destination_eq_iff
  rwa [List.map_id] at hPaths

/-- Outputs go to different files exactly if they have different platforms or different octets in
their names. -/
theorem nodup_fileNames_iff (h : AllWritten process out t items) :
    ((destinations out items).map Path.fileNames).Nodup ↔ (items.filterMap fileSpot?).Nodup :=
  nodup_map_destinations_iff h fileNames_destination_eq_iff

end Output

/-! ## Files for concrete runs -/

namespace Sample

def modulesText : String :=
  "\x7b\"modules\":[\x7b\"name\":\"M\",\"single_file_codegen\":true\x7d," ++
    "\x7b\"name\":\"N\",\"single_file_codegen\":true\x7d]\x7d"

def twoModules (manifest : String) : FileTree where
  entries := [(Path.fileNames ⟨.relative, ["registry"]⟩, .file modulesText.toUTF8.data.toList),
    (Path.fileNames ⟨.relative, ["pass"]⟩, .file manifest.toUTF8.data.toList)]
  workingDirectory := []

def sharedText : String :=
  "\x7b\"fragments\":[\x7b\"module\":\"M\",\"filename\":\"A\",\"content\":\"a\"\x7d," ++
    "\x7b\"module\":\"N\",\"filename\":\"A\",\"content\":\"b\"\x7d]\x7d"

def distinctText : String :=
  "\x7b\"fragments\":[\x7b\"module\":\"M\",\"filename\":\"A\",\"content\":\"a\"\x7d," ++
    "\x7b\"module\":\"N\",\"filename\":\"B\",\"content\":\"b\"\x7d]\x7d"

/-- The path of an output that belongs to no platform. -/
def output (filename : Text) : Path := ⟨.relative, ["out", "any", filename]⟩

def outputs (manifest : String) : Option (List (Option Content × Option Path)) :=
  (Build.lastResult? settings (twoModules manifest)).map fun r => r.items.map fun item =>
    (item.native?.map NativeSource.content, Output.destination? settings.out item)

theorem outputs_shared : outputs sharedText = some [
    (some (.text "//\n// A\n//\n\na\n"), some (output "A")),
    (some (.text "//\n// A\n//\n\nb\n"), some (output "A"))] := by
  decide +kernel

def distinctOutputs : List (Option Content × Option Path) := [
  (some (.text "//\n// A\n//\n\na\n"), some (output "A")),
  (some (.text "//\n// B\n//\n\nb\n"), some (output "B"))]

theorem outputs_distinct : outputs distinctText = some distinctOutputs := by
  decide +kernel

theorem destinations_of_outputs {manifest : String} {r : PassResult}
    {expected : List (Option Content × Option Path)} (h : outputs manifest = some expected)
    (hLast : Build.lastResult? settings (twoModules manifest) = some r) :
    Output.destinations settings.out r.items = expected.filterMap Prod.snd := by
  rw [outputs, hLast, Option.map_some, Option.some.injEq] at h
  rw [← h, List.filterMap_map]
  rfl

theorem exists_of_outputs {manifest : String} {r : PassResult} {content : Content} {p : Path}
    {expected : List (Option Content × Option Path)} (h : outputs manifest = some expected)
    (hLast : Build.lastResult? settings (twoModules manifest) = some r)
    (hMem : (some content, some p) ∈ expected) : ∃ before item later source,
      r.items = before ++ item :: later ∧ item.native? = some source ∧
        source.content = content ∧ Output.destination? settings.out item = some p := by
  rw [outputs, hLast, Option.map_some, Option.some.injEq] at h
  rw [← h] at hMem
  obtain ⟨item, hItem, hOutput⟩ := List.mem_map.mp hMem
  obtain ⟨hContent, hDestination⟩ := Prod.mk.inj hOutput
  obtain ⟨source, hNative, hSame⟩ := Option.map_eq_some_iff.mp hContent
  obtain ⟨before, later, hSplit⟩ := List.append_of_mem hItem
  exact ⟨before, item, later, source, hSplit, hNative, hSame, hDestination⟩

end Sample

namespace Command

variable {arguments : List Text} {settings : Settings} {json : Bool} {verbosity : Nat}
  {process : Nat} {tree : FileTree}

theorem lastResult_of_exit
    (hArguments : Options.parse arguments = .ok (.build settings json verbosity))
    (hReturns : (run arguments process tree).ending = .exit 0) :
    ∃ r, Build.lastResult? settings tree = some r ∧
      Output.AllWritten process settings.out tree r.items ∧
      (run arguments process tree).tree =
        r.items.foldl (Output.after process settings.out) tree := by
  obtain ⟨diagnostics, ⟨events, hRun⟩, _⟩ := (exit_iff hArguments).mp hReturns
  exact Build.lastResult_of_run (Options.manifests_ne_nil hArguments) hRun

/-- The code 0 means that all outputs of the last pass have a destination and are written. Unless
names of temporary files get in the way, the tree is then known: each destination holds what was
written there last, all other files are as before, and no temporary file is left. -/
theorem tree_of_exit_zero
    (hArguments : Options.parse arguments = .ok (.build settings json verbosity))
    (hReturns : (run arguments process tree).ending = .exit 0) :
    ∃ r, Build.lastResult? settings tree = some r ∧
      (∀ item ∈ r.items, ∀ source, item.native? = some source →
        ∃ p, Output.destination? settings.out item = some p) ∧
      (Output.Apart process (Output.destinations settings.out r.items) tree →
        Output.Remains process settings.out r.items tree (run arguments process tree).tree) := by
  obtain ⟨r, hLast, hWritten, hTree⟩ := lastResult_of_exit hArguments hReturns
  refine ⟨r, hLast, fun item hItem source hNative => ?_, fun hApart => ?_⟩
  · exact Output.exists_destination hWritten hItem hNative
  · rw [hTree]
    exact Output.remains_of_apart hWritten hApart

theorem ending_shared :
    (run Sample.arguments 0 (Sample.twoModules Sample.sharedText)).ending = .exit 0 := by
  apply Ending.code?_eq_some_iff.mp
  decide +kernel

theorem tree_of_shared_destination :
    (run Sample.arguments 0 (Sample.twoModules Sample.sharedText)).ending = .exit 0 ∧
      ∃ r, Build.lastResult? Sample.settings (Sample.twoModules Sample.sharedText) = some r ∧
        Output.destinations Sample.settings.out r.items =
          [Sample.output "A", Sample.output "A"] ∧
        Output.Remains 0 Sample.settings.out r.items (Sample.twoModules Sample.sharedText)
          (run Sample.arguments 0 (Sample.twoModules Sample.sharedText)).tree := by
  obtain ⟨r, hLast, _, hRemains⟩ := tree_of_exit_zero Sample.parse_arguments ending_shared
  have hDestinations := Sample.destinations_of_outputs Sample.outputs_shared hLast
  refine ⟨ending_shared, r, hLast, hDestinations, hRemains ?_⟩
  rw [hDestinations]
  refine ⟨by decide, fun q hq octets => ?_⟩
  have hPlace : q = Sample.output "A" := by simpa using hq
  have hFree : (Sample.twoModules Sample.sharedText).node?
      ((Sample.twoModules Sample.sharedText).place (Output.temporary 0 q)) = none := by
    rw [hPlace]
    decide +kernel
  rw [hFree]
  exact nofun

/-- Outputs have one path exactly if they have the same platform and the same names, and they are
one file exactly if the names also have the same octets. Where no two are one file, and none has the
name of a temporary file, every output is there with its own content. -/
theorem outputs_distinct_iff
    (hArguments : Options.parse arguments = .ok (.build settings json verbosity))
    (hReturns : (run arguments process tree).ending = .exit 0) :
    ∃ r, Build.lastResult? settings tree = some r ∧
      ((Output.destinations settings.out r.items).Nodup ↔
        (r.items.filterMap Output.spot?).Nodup) ∧
      (((Output.destinations settings.out r.items).map Path.fileNames).Nodup ↔
        (r.items.filterMap Output.fileSpot?).Nodup) ∧
      (((Output.destinations settings.out r.items).map Path.fileNames).Nodup →
        (∀ p ∈ Output.destinations settings.out r.items,
          ∀ q ∈ Output.destinations settings.out r.items,
            p.fileNames ≠ (Output.temporary process q).fileNames) →
        ∀ before item later, r.items = before ++ item :: later →
          ∀ source, item.native? = some source →
            ∃ p text octets, Output.destination? settings.out item = some p ∧
              source.content.read (before.foldl (Output.after process settings.out) tree) =
                .ok text ∧
              Text.Utf8.encode text = .ok octets ∧
              (run arguments process tree).tree.read p = .ok octets) := by
  obtain ⟨r, hLast, hWritten, hTree⟩ := lastResult_of_exit hArguments hReturns
  refine ⟨r, hLast, Output.nodup_destinations_iff hWritten, Output.nodup_fileNames_iff hWritten, ?_⟩
  intro hDistinct hTemporary before item later hSplit source hNative
  rw [hSplit] at hWritten hDistinct hTemporary hTree
  obtain ⟨p, hDestination⟩ := Output.exists_destination hWritten (by simp) hNative
  rw [Output.destinations_append, Output.destinations_cons, hDestination, Option.toList_some,
    List.singleton_append] at hDistinct hTemporary
  rw [List.map_append, List.map_cons] at hDistinct
  have hNotLater := (List.nodup_cons.mp (List.nodup_append.mp hDistinct).2.1).1
  obtain ⟨_, text, octets, hSame, hRead, hEncode, hStays⟩ :=
    Output.read_of_written hWritten hDestination fun q hq =>
      ⟨(ne_of_mem_of_not_mem (List.mem_map_of_mem hq) hNotLater).symm,
        hTemporary p (by simp) q (by simp [hq])⟩
  cases hNative.symm.trans hSame
  exact ⟨p, text, octets, hDestination, hRead, hEncode, hTree ▸ hStays⟩

theorem ending_distinct :
    (run Sample.arguments 0 (Sample.twoModules Sample.distinctText)).ending = .exit 0 := by
  apply Ending.code?_eq_some_iff.mp
  decide +kernel

theorem distinct_outputs_kept :
    (run Sample.arguments 0 (Sample.twoModules Sample.distinctText)).ending = .exit 0 ∧
      (run Sample.arguments 0 (Sample.twoModules Sample.distinctText)).tree.read
        (Sample.output "A") = .ok (Text.Utf8.octets "//\n// A\n//\n\na\n") ∧
      (run Sample.arguments 0 (Sample.twoModules Sample.distinctText)).tree.read
        (Sample.output "B") = .ok (Text.Utf8.octets "//\n// B\n//\n\nb\n") := by
  obtain ⟨r, hLast, hSpots, _, hKept⟩ := outputs_distinct_iff Sample.parse_arguments ending_distinct
  rw [Sample.destinations_of_outputs Sample.outputs_distinct hLast] at hSpots hKept
  have hOwn {text : Text} {p : Path}
      (hMem : (some (.text text), some p) ∈ Sample.distinctOutputs) :
      (run Sample.arguments 0 (Sample.twoModules Sample.distinctText)).tree.read p =
        .ok (Text.Utf8.octets text) := by
    obtain ⟨before, item, later, source, hSplit, hNative, hContent, hDestination⟩ :=
      Sample.exists_of_outputs Sample.outputs_distinct hLast hMem
    obtain ⟨p', text', octets, hSame, hText, hEncode, hRead⟩ :=
      hKept (by decide +kernel) (by decide +kernel) before item later hSplit source hNative
    cases hDestination.symm.trans hSame
    rw [hContent] at hText
    cases hText
    rw [hRead, (Text.Utf8.encodeWith_eq_ok_iff.mp hEncode).2]
  exact ⟨ending_distinct, hOwn (by decide), hOwn (by decide)⟩

/-- Two modules have a file of one name. Both outputs go to one place, and only one is there. -/
theorem output_overwritten :
    (run Sample.arguments 0 (Sample.twoModules Sample.sharedText)).ending = .exit 0 ∧
      Sample.outputs Sample.sharedText = some [
        (some (.text "//\n// A\n//\n\na\n"), some (Sample.output "A")),
        (some (.text "//\n// A\n//\n\nb\n"), some (Sample.output "A"))] ∧
      (run Sample.arguments 0 (Sample.twoModules Sample.sharedText)).tree.read
        (Sample.output "A") = .ok (Text.Utf8.octets "//\n// A\n//\n\nb\n") := by
  refine ⟨ending_shared, Sample.outputs_shared, ?_⟩
  decide +kernel

end Command

end Amalgam
