import Amalgam.Proofs.OutputAttempts
import Amalgam.Proofs.Pass

/-! # The places of outputs

An output goes down from the output directory by the directory of its platform and the names of its
relative path and filename. So do the temporary file it is first written to, and the directories in
between. Platform and names are all that decides the place.
-/

namespace Amalgam

namespace Path

/-- A name that leads one place down: the separator is not in it, and it is not one of the names for
the place itself and the one above. -/
structure IsDown (name : Text) : Prop where
  ne_empty : name ≠ ""
  ne_here : name ≠ "."
  ne_up : name ≠ ".."
  not_separator : .char '/' ∉ name.toList

/-- The path goes on from another one by at least one name, and only down. -/
def IsBelow (p out : Path) : Prop :=
  ∃ names ≠ [], (∀ name ∈ names, IsDown name) ∧ p = ⟨out.anchor, out.parts ++ names⟩

theorem IsBelow.parts_ne_nil {p out : Path} (h : p.IsBelow out) : p.parts ≠ [] := by
  obtain ⟨names, hSome, _, rfl⟩ := h
  exact List.append_ne_nil_of_right_ne_nil _ hSome

/-- The path is another one or on the way to it. -/
def LeadsTo (p q : Path) : Prop := p.anchor = q.anchor ∧ p.parts <+: q.parts

theorem leadsTo_refl (p : Path) : p.LeadsTo p := ⟨rfl, List.prefix_refl _⟩

theorem parent_leadsTo (p : Path) : p.parent.LeadsTo p := ⟨rfl, List.dropLast_prefix _⟩

theorem LeadsTo.trans {p q r : Path} (h : p.LeadsTo q) (h' : q.LeadsTo r) : p.LeadsTo r :=
  ⟨h.1.trans h'.1, h.2.trans h'.2⟩

/-- On the way to a path below another one are only the other one, the ways to it, and paths below
it. -/
theorem LeadsTo.of_isBelow {p q out : Path} (h : p.LeadsTo q) (hBelow : q.IsBelow out) :
    p.LeadsTo out ∨ p.IsBelow out := by
  obtain ⟨names, _, hDown, rfl⟩ := hBelow
  have hAnchor : p.anchor = out.anchor := h.1
  have hPrefix : p.parts <+: out.parts ++ names := h.2
  rcases List.prefix_or_prefix_of_prefix hPrefix (List.prefix_append _ _) with hOut | ⟨rest, hParts⟩
  · exact .inl ⟨hAnchor, hOut⟩
  · by_cases hRest : rest = []
    · rw [hRest, List.append_nil] at hParts
      exact .inl ⟨hAnchor, hParts ▸ List.prefix_refl _⟩
    · rw [← hParts] at hPrefix
      have hNames : rest <+: names := (List.prefix_append_right_inj _).mp hPrefix
      exact .inr ⟨rest, hRest, fun name hName => hDown name (hNames.subset hName),
        by rw [hParts, ← hAnchor]⟩

theorem join_relative (p : Path) (parts : List Text) :
    p / (⟨.relative, parts⟩ : Path) = ⟨p.anchor, p.parts ++ parts⟩ := rfl

theorem parts_ofText {text name : Text} (h : name ∈ (ofText text).parts) :
    name ≠ "" ∧ name ≠ "." ∧ .char '/' ∉ name.toList := by
  obtain ⟨hPiece, hKept⟩ := List.mem_filter.mp h
  obtain ⟨piece, hMem, rfl⟩ := List.mem_map.mp hPiece
  obtain ⟨hEmpty, hHere⟩ := of_decide_eq_true hKept
  refine ⟨hEmpty, hHere, ?_⟩
  rw [Text.toList_ofList]
  exact Text.not_mem_of_mem_splitAt hMem

end Path

namespace OutputPath

/-! ## Names of an output -/

/-- The names in a text that is read as a relative path. -/
def components (text : Text) : List Text := (Path.ofText (slashes text)).parts

/-- The names that lead to an output from the directory of its platform. -/
def names (source : NativeSource) : List Text :=
  (source.relativePath.map components).getD [] ++ components source.filename

theorem components_empty : components "" = [] := by decide

theorem isDown_of_component {text name : Text} (h : name ∈ components text)
    (hUp : (".." : Text) ∉ components text) : Path.IsDown name := by
  obtain ⟨hEmpty, hHere, hSeparator⟩ := Path.parts_ofText h
  exact ⟨hEmpty, hHere, fun hSame => hUp (hSame ▸ h), hSeparator⟩

theorem anchor_of_isAbsolute {p : Path} (h : p.isAbsolute = false) : p.anchor = .relative := by
  simpa [Path.isAbsolute] using h

theorem normalize_eq_ok_iff {what text : Text} {p : Path} :
    normalize what text = .ok p ↔
      (Path.ofText (slashes text)).isAbsolute = false ∧ (".." : Text) ∉ components text ∧
        p = ⟨.relative, components text⟩ := by
  have hHere : ("." : Text) ∉ components text := fun h => (Path.parts_ofText h).2.1 rfl
  have hDotted : ((Path.ofText (slashes text)).parts.any fun name => name = "." || name = "..") =
      decide ((".." : Text) ∈ components text) := by
    rw [Bool.eq_iff_iff, List.any_eq_true, decide_eq_true_eq]
    constructor
    · rintro ⟨name, hName, hDot⟩
      rw [← Bool.decide_or, decide_eq_true_eq] at hDot
      rcases hDot with rfl | rfl
      · exact absurd hName hHere
      · exact hName
    · intro hUp
      exact ⟨"..", hUp, rfl⟩
  rw [normalize]
  simp only [hDotted, decide_eq_true_eq]
  cases hAbsolute : (Path.ofText (slashes text)).isAbsolute with
  | true => simp
  | false =>
    have hPath : Path.ofText (slashes text) = ⟨.relative, components text⟩ := by
      rw [components, ← anchor_of_isAbsolute hAbsolute]
    by_cases hUp : (".." : Text) ∈ components text
    · simp [hUp]
    · simp [hUp, hPath, eq_comm]

theorem relativePath_eq_ok {source : NativeSource} {p : Path} (h : relativePath source = .ok p) :
    (".." : Text) ∉ (source.relativePath.map components).getD [] ∧
      p = ⟨.relative, (source.relativePath.map components).getD []⟩ := by
  rw [relativePath] at h
  split at h
  · next hNone =>
    cases h
    simp [hNone, Path.here]
  · next text hText =>
    rw [hText]
    split at h
    · next hEmpty =>
      cases h
      simp [hEmpty, components_empty, Path.here]
    · obtain ⟨_, hUp, rfl⟩ := normalize_eq_ok_iff.mp h
      rw [Option.map_some, Option.getD_some]
      exact ⟨hUp, rfl⟩

theorem ofText_platformDirectory (platform : Option Platform) :
    Path.ofText (platformDirectory platform) = ⟨.relative, [platformDirectory platform]⟩ := by
  rcases platform with _ | _ | _ | _ | _ <;> decide

theorem place_eq_ok {platform : Option Platform} {source : NativeSource} {p : Path}
    (h : place platform source = .ok p) :
    p = ⟨.relative, platformDirectory platform :: names source⟩ ∧
      ∀ name ∈ names source, Path.IsDown name := by
  obtain ⟨directory, hDirectory, h⟩ := bind_eq_ok_iff.mp h
  obtain ⟨name, hName, h⟩ := bind_eq_ok_iff.mp h
  obtain ⟨hUp, rfl⟩ := relativePath_eq_ok hDirectory
  obtain ⟨_, hUp', rfl⟩ := normalize_eq_ok_iff.mp hName
  rw [ofText_platformDirectory, Path.join_relative, Path.join_relative] at h
  constructor
  · rw [names, ← List.cons_append, ← Except.ok.inj h]
    rfl
  · intro name hName
    rcases List.mem_append.mp hName with hName | hName
    · cases hText : source.relativePath with
      | none =>
        rw [hText] at hName
        cases hName
      | some text =>
        rw [hText, Option.map_some, Option.getD_some] at hName hUp
        exact isDown_of_component hName hUp
    · exact isDown_of_component hName hUp'

theorem isDown_platformDirectory (platform : Option Platform) :
    Path.IsDown (platformDirectory platform) := by
  rcases platform with _ | _ | _ | _ | _ <;> exact ⟨by decide, by decide, by decide, by decide⟩

theorem ofName?_platformDirectory :
    Function.LeftInverse Platform.ofName? platformDirectory := by
  intro platform
  rcases platform with _ | _ | _ | _ | _ <;> rfl

/-- An output has its place below the output directory. -/
theorem place_isBelow {out p : Path} {platform : Option Platform} {source : NativeSource}
    (h : place platform source = .ok p) : (out / p).IsBelow out := by
  obtain ⟨rfl, hDown⟩ := place_eq_ok h
  refine ⟨platformDirectory platform :: names source, List.cons_ne_nil _ _, ?_, rfl⟩
  exact List.forall_mem_cons.mpr ⟨isDown_platformDirectory platform, hDown⟩

/-- Outputs have one place exactly if they have one platform and the same names. -/
theorem join_place_eq_iff {out p q : Path} {platform other : Option Platform}
    {source source' : NativeSource} (h : place platform source = .ok p)
    (h' : place other source' = .ok q) :
    out / p = out / q ↔ platform = other ∧ names source = names source' := by
  obtain ⟨rfl, _⟩ := place_eq_ok h
  obtain ⟨rfl, _⟩ := place_eq_ok h'
  rw [Path.join_relative, Path.join_relative, Path.mk.injEq, and_iff_right rfl,
    List.append_cancel_left_eq, List.cons.injEq, ofName?_platformDirectory.injective.eq_iff]

theorem octets_platformDirectory_inj {platform other : Option Platform} :
    Text.Utf8.octets (platformDirectory platform) = Text.Utf8.octets (platformDirectory other) ↔
      platform = other := by
  have hCharacters (platform : Option Platform) :
      ∀ c ∈ (platformDirectory platform).toList, c.isSurrogate = false := by
    rcases platform with _ | _ | _ | _ | _ <;> decide
  rw [Text.Utf8.octets_inj (hCharacters _) (hCharacters _),
    ofName?_platformDirectory.injective.eq_iff]

/-- Outputs are one file exactly if they have one platform and names of the same octets. -/
theorem fileNames_join_place_eq_iff {out p q : Path} {platform other : Option Platform}
    {source source' : NativeSource} (h : place platform source = .ok p)
    (h' : place other source' = .ok q) :
    (out / p).fileNames = (out / q).fileNames ↔ platform = other ∧
      (names source).map Text.Utf8.octets = (names source').map Text.Utf8.octets := by
  obtain ⟨rfl, _⟩ := place_eq_ok h
  obtain ⟨rfl, _⟩ := place_eq_ok h'
  simp only [Path.join_relative, Path.fileNames, List.map_append, List.append_cancel_left_eq,
    List.map_cons, List.cons.injEq, octets_platformDirectory_inj]

end OutputPath

/-! ## Temporary files -/

namespace Output

theorem toList_temporaryName (process : Nat) (name : Text) :
    (temporaryName process name).toList =
      name.toList ++ (".tmp." : Text).toList ++ (Nat.toDigits 10 process).map .char := by
  simp [temporaryName, ToString.toString, Nat.repr]

theorem isDown_temporaryName {name : Text} (process : Nat) (h : Path.IsDown name) :
    Path.IsDown (temporaryName process name) := by
  have hLetter : .char 't' ∈ (temporaryName process name).toList := by
    rw [toList_temporaryName]
    simp
  -- A letter in the name is enough to tell it from the names of dots alone.
  have hOther {text : Text} (hText : .char 't' ∉ text.toList) :
      temporaryName process name ≠ text := by
    intro hSame
    rw [hSame] at hLetter
    exact hText hLetter
  refine ⟨hOther (by decide), hOther (by decide), hOther (by decide), ?_⟩
  rw [toList_temporaryName, List.mem_append, List.mem_append]
  rintro ((hName | hMiddle) | hDigits)
  · exact h.not_separator hName
  · exact absurd hMiddle (by decide)
  · obtain ⟨c, hDigit, hSeparator⟩ := List.mem_map.mp hDigits
    cases hSeparator
    exact absurd (Nat.isDigit_of_mem_toDigits (by decide) (by decide) hDigit) (by decide)

theorem temporary_concat (process : Nat) (anchor : Anchor) (parts : List Text) (name : Text) :
    temporary process ⟨anchor, parts ++ [name]⟩ =
      ⟨anchor, parts ++ [temporaryName process name]⟩ := by
  simp [temporary, Path.name]

theorem temporary_isBelow {out p : Path} (process : Nat) (h : p.IsBelow out) :
    (temporary process p).IsBelow out := by
  obtain ⟨names, hSome, hDown, rfl⟩ := h
  obtain ⟨before, name, rfl⟩ := (List.eq_nil_or_concat names).resolve_left hSome
  simp only [List.concat_eq_append, ← List.append_assoc] at hDown ⊢
  rw [temporary_concat, List.append_assoc]
  refine ⟨_, by simp, ?_, rfl⟩
  intro other hOther
  rcases List.mem_append.mp hOther with hBefore | hLast
  · exact hDown other (List.mem_append_left _ hBefore)
  · rw [List.mem_singleton.mp hLast]
    exact isDown_temporaryName process (hDown name (List.mem_append_right _ List.mem_cons_self))

/-! ## Destinations -/

variable {out : Setting Path}

/-- Where an item goes, if it is an output that has a place. -/
def destination? (out : Setting Path) (item : Item) : Option Path :=
  match out, item.native? with
  | .value dir, some source => (OutputPath.destination dir item.platform source).toOption
  | _, _ => none

def destinations (out : Setting Path) (items : List Item) : List Path :=
  items.filterMap (destination? out)

theorem destination?_eq_some_iff {item : Item} {p : Path} :
    destination? out item = some p ↔ ∃ dir source place, out = .value dir ∧
      item.native? = some source ∧ OutputPath.place item.platform source = .ok place ∧
      p = dir / place := by
  rw [destination?.eq_def]
  split
  · next dir source hNative =>
    rw [OutputPath.destination]
    cases hPlace : OutputPath.place item.platform source with
    | error e =>
      apply iff_of_false nofun
      rintro ⟨_, _, _, _, hOther, hPlace', _⟩
      cases hNative.symm.trans hOther
      cases hPlace.symm.trans hPlace'
    | ok place =>
      constructor
      · intro h
        exact ⟨dir, source, place, rfl, hNative, hPlace, (Option.some.inj h).symm⟩
      · rintro ⟨_, _, _, hDir, hOther, hPlace', rfl⟩
        cases hDir
        cases hNative.symm.trans hOther
        cases hPlace.symm.trans hPlace'
        rfl
  · next hNot =>
    apply iff_of_false nofun
    rintro ⟨dir, source, _, rfl, hNative, _⟩
    exact hNot dir source rfl hNative

theorem destination?_of_not_native (out : Setting Path) {item : Item} (h : item.native? = none) :
    destination? out item = none := by
  rw [destination?.eq_def, h]
  cases out <;> rfl

theorem native_of_destination {item : Item} {p : Path} (h : destination? out item = some p) :
    ∃ dir source, out = .value dir ∧ item.native? = some source := by
  obtain ⟨dir, source, _, hDir, hNative, _⟩ := destination?_eq_some_iff.mp h
  exact ⟨dir, source, hDir, hNative⟩

theorem isBelow_of_destination {dir p : Path} {item : Item}
    (h : destination? (.value dir) item = some p) : p.IsBelow dir := by
  obtain ⟨_, source, place, hDir, _, hPlace, rfl⟩ := destination?_eq_some_iff.mp h
  cases hDir
  exact OutputPath.place_isBelow hPlace

theorem destinations_cons (item : Item) (rest : List Item) :
    destinations out (item :: rest) = (destination? out item).toList ++ destinations out rest := by
  rw [destinations, List.filterMap_cons]
  cases destination? out item <;> rfl

theorem destinations_append (before later : List Item) :
    destinations out (before ++ later) = destinations out before ++ destinations out later :=
  List.filterMap_append

theorem isBelow_of_mem_destinations {dir p : Path} {items : List Item}
    (h : p ∈ destinations (.value dir) items) : p.IsBelow dir := by
  obtain ⟨item, _, hDestination⟩ := List.mem_filterMap.mp h
  exact isBelow_of_destination hDestination

theorem exists_of_mem_destinations {items : List Item} {p : Path}
    (h : p ∈ destinations out items) :
    ∃ before item later, items = before ++ item :: later ∧ destination? out item = some p := by
  obtain ⟨item, hItem, hDestination⟩ := List.mem_filterMap.mp h
  obtain ⟨before, later, hSplit⟩ := List.append_of_mem hItem
  exact ⟨before, item, later, hSplit, hDestination⟩

/-- Of the items that go to one file there is a last one. -/
theorem exists_last_destination {items : List Item} {names : List FileName}
    (h : names ∈ (destinations out items).map Path.fileNames) : ∃ before item later p,
      items = before ++ item :: later ∧ destination? out item = some p ∧ p.fileNames = names ∧
        names ∉ (destinations out later).map Path.fileNames := by
  induction items with
  | nil => cases h
  | cons item rest ih =>
    by_cases hRest : names ∈ (destinations out rest).map Path.fileNames
    · obtain ⟨before, last, later, p, rfl, hDestination, hNames, hLater⟩ := ih hRest
      exact ⟨item :: before, last, later, p, rfl, hDestination, hNames, hLater⟩
    · rw [destinations_cons, List.map_append] at h
      obtain ⟨p, hItem, hNames⟩ := List.mem_map.mp ((List.mem_append.mp h).resolve_right hRest)
      exact ⟨[], item, rest, p, rfl, Option.mem_toList.mp hItem, hNames, hRest⟩

end Output

end Amalgam
