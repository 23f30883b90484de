import Amalgam.Proofs.OutputPlaces

/-! # Accepted output paths

The relative path and the filename of an output are cut at their slashes, backslashes included. A
text is refused exactly if it begins with a slash or one of its pieces is `..`; pieces that are
empty or `.` are passed over. So an output goes below the directory of its platform if a piece is
left, and takes the place of that directory otherwise.
-/

namespace Amalgam

namespace Path

theorem anchorOf_eq_relative_iff (text : List CodePoint) :
    anchorOf text = .relative ↔ text.head? ≠ some (.char '/') := by
  fun_cases anchorOf text with
  | case1 | case2 | case3 => simp
  | case4 _ _ _ hOther => simpa [List.head?_eq_some_iff] using hOther

theorem anchor_ofText (text : Text) : (ofText text).anchor = anchorOf text.toList := rfl

theorem append_eq_self_iff {out : Path} {names : List Text} :
    (⟨out.anchor, out.parts ++ names⟩ : Path) = out ↔ names = [] := by
  cases out
  simp

theorem isBelow_append_iff {out : Path} {names : List Text}
    (hDown : ∀ name ∈ names, IsDown name) :
    (⟨out.anchor, out.parts ++ names⟩ : Path).IsBelow out ↔ names ≠ [] := by
  constructor
  · rintro ⟨others, hSome, _, hSame⟩
    obtain ⟨_, hParts⟩ := Path.mk.inj hSame
    rwa [List.append_cancel_left hParts]
  · intro hSome
    exact ⟨names, hSome, hDown, rfl⟩

end Path

namespace OutputPath

variable {out p : Path} {platform : Option Platform} {source : NativeSource} {text : Text}

/-! ## Texts -/

/-- What stands between the slashes of a text, backslashes read as slashes. -/
def pieces (text : Text) : List Text := Text.split '/' (slashes text)

/-- The text does not begin at a root and never goes up. -/
structure StaysWithin (text : Text) : Prop where
  not_rooted : (slashes text).toList.head? ≠ some (.char '/')
  not_up : (".." : Text) ∉ pieces text

/-- Some piece of the text leads further down. -/
def Descends (text : Text) : Prop :=
  ∃ piece ∈ pieces text, piece ≠ ("" : Text) ∧ piece ≠ ("." : Text)

theorem mem_components_iff {name : Text} :
    name ∈ components text ↔ name ∈ pieces text ∧ name ≠ "" ∧ name ≠ "." := by
  rw [components, Path.ofText, pieces, List.mem_filter, decide_eq_true_eq]

theorem descends_iff : Descends text ↔ components text ≠ [] := by
  constructor
  · rintro ⟨piece, hPiece, hName⟩
    exact List.ne_nil_of_mem (mem_components_iff.mpr ⟨hPiece, hName⟩)
  · intro hSome
    obtain ⟨name, hName⟩ := List.exists_mem_of_ne_nil _ hSome
    exact ⟨name, mem_components_iff.mp hName⟩

/-- A text that does not begin with a slash begins with a piece that is not empty. -/
theorem descends_of_staysWithin (hSome : text ≠ "") (hWithin : StaysWithin text)
    (hDot : ("." : Text) ∉ pieces text) : Descends text := by
  have hChars : (slashes text).toList ≠ [] := by
    rw [slashes, Text.toList_ofList, ne_eq, List.map_eq_nil_iff]
    exact fun hNil => hSome (Text.toList_inj.mp hNil)
  obtain ⟨c, rest, hText⟩ := List.exists_cons_of_ne_nil hChars
  have hFirst : c ≠ .char '/' := by
    rintro rfl
    exact hWithin.not_rooted (by rw [hText, List.head?_cons])
  obtain ⟨piece, others, hRest⟩ := List.exists_cons_of_ne_nil (Text.splitAt_ne_nil '/' rest)
  have hPiece : Text.ofList (c :: piece) ∈ pieces text := by
    rw [pieces, Text.split, hText, Text.splitAt, if_neg hFirst, hRest]
    exact List.mem_cons_self
  have hNonempty : Text.ofList (c :: piece) ≠ "" := by
    intro hEmpty
    exact List.cons_ne_nil _ _ (congrArg Text.toList hEmpty)
  exact ⟨_, hPiece, hNonempty, fun hSame => hDot (hSame ▸ hPiece)⟩

theorem normalize_isOk_iff (what : Text) :
    (∃ p, normalize what text = .ok p) ↔ StaysWithin text := by
  have hUp : (".." : Text) ∈ components text ↔ (".." : Text) ∈ pieces text :=
    mem_components_iff.trans (and_iff_left ⟨by decide, by decide⟩)
  have hRoot : (Path.ofText (slashes text)).isAbsolute = false ↔
      (slashes text).toList.head? ≠ some (.char '/') := by
    rw [Path.isAbsolute, decide_eq_false_iff_not, not_ne_iff, Path.anchor_ofText,
      Path.anchorOf_eq_relative_iff]
  simp only [normalize_eq_ok_iff, exists_and_left, exists_eq, and_true, hUp, hRoot]
  exact ⟨fun h => ⟨h.1, h.2⟩, fun h => ⟨h.not_rooted, h.not_up⟩⟩

/-! ## Places -/

/-- The texts that the place of an output is made of, below the directory of its platform. -/
def texts (source : NativeSource) : List Text := source.relativePath.toList ++ [source.filename]

theorem names_eq_flatMap (source : NativeSource) :
    names source = (texts source).flatMap components := by
  rw [names, texts, List.flatMap_append, List.flatMap_singleton]
  cases source.relativePath with
  | none => rfl
  | some text =>
    rw [Option.toList_some, List.flatMap_singleton]
    rfl

theorem names_ne_nil_iff : names source ≠ [] ↔ ∃ text ∈ texts source, Descends text := by
  simp [names_eq_flatMap, descends_iff, List.flatMap_eq_nil_iff]

theorem relativePath_isOk_iff :
    (∃ p, relativePath source = .ok p) ↔ ∀ text ∈ source.relativePath, StaysWithin text := by
  rw [relativePath]
  cases source.relativePath with
  | none => simp
  | some text =>
    simp only [Option.mem_some_iff, forall_eq']
    split
    · next hEmpty =>
      subst hEmpty
      exact iff_of_true ⟨_, rfl⟩ ⟨by decide, by decide⟩
    · exact normalize_isOk_iff _

theorem destination_isOk_iff :
    (∃ p, destination out platform source = .ok p) ↔
      ∀ text ∈ texts source, StaysWithin text := by
  have hTexts : (∀ text ∈ texts source, StaysWithin text) ↔
      (∀ text ∈ source.relativePath, StaysWithin text) ∧ StaysWithin source.filename := by
    simp [texts, or_imp, forall_and]
  rw [hTexts, ← relativePath_isOk_iff, ← normalize_isOk_iff "output filename"]
  constructor
  · rintro ⟨p, h⟩
    obtain ⟨place, hPlace, _⟩ := bind_eq_ok_iff.mp h
    obtain ⟨directory, hDirectory, hRest⟩ := bind_eq_ok_iff.mp hPlace
    obtain ⟨name, hName, _⟩ := bind_eq_ok_iff.mp hRest
    exact ⟨⟨directory, hDirectory⟩, name, hName⟩
  · rintro ⟨⟨directory, hDirectory⟩, name, hName⟩
    rw [destination, place, hDirectory, ok_bind, hName]
    exact ⟨_, rfl⟩

def platformPath (out : Path) (platform : Option Platform) : Path :=
  out / .ofText (platformDirectory platform)

theorem destination_eq_ok (h : destination out platform source = .ok p) :
    p = ⟨(platformPath out platform).anchor, (platformPath out platform).parts ++ names source⟩ ∧
      ∀ name ∈ names source, Path.IsDown name := by
  obtain ⟨place, hPlace, h⟩ := bind_eq_ok_iff.mp h
  obtain ⟨rfl, hDown⟩ := place_eq_ok hPlace
  refine ⟨?_, hDown⟩
  rw [← Except.ok.inj h, Path.join_relative, platformPath, ofText_platformDirectory,
    Path.join_relative, List.append_assoc, List.singleton_append]

theorem isBelow_platformPath_iff (h : destination out platform source = .ok p) :
    p.IsBelow (platformPath out platform) ↔ ∃ text ∈ texts source, Descends text := by
  obtain ⟨rfl, hDown⟩ := destination_eq_ok h
  rw [Path.isBelow_append_iff hDown, names_ne_nil_iff]

theorem eq_platformPath_iff (h : destination out platform source = .ok p) :
    p = platformPath out platform ↔ ∀ text ∈ texts source, ¬Descends text := by
  obtain ⟨rfl, _⟩ := destination_eq_ok h
  rw [Path.append_eq_self_iff, ← not_iff_not, ← ne_eq, names_ne_nil_iff]
  simp

/-- A text is accepted exactly if it stays within, an output has a place exactly if its texts do,
and the place is below the directory of the platform exactly if one of them descends. If none does,
it is that directory. A filename that is not empty and has no piece `.` always does. -/
theorem output_paths_accepted_iff (what text : Text) (out : Path) (platform : Option Platform)
    (source : NativeSource) :
    ((∃ p, normalize what text = .ok p) ↔ StaysWithin text) ∧
    ((∃ p, destination out platform source = .ok p) ↔
      ∀ text ∈ texts source, StaysWithin text) ∧
    ∀ p, destination out platform source = .ok p →
      (p.IsBelow (platformPath out platform) ↔ ∃ text ∈ texts source, Descends text) ∧
      (p = platformPath out platform ↔ ∀ text ∈ texts source, ¬Descends text) ∧
      (source.filename ≠ "" → ("." : Text) ∉ pieces source.filename →
        p.IsBelow (platformPath out platform)) := by
  refine ⟨normalize_isOk_iff what, destination_isOk_iff, fun p hPlaced => ?_⟩
  have hBelow := isBelow_platformPath_iff hPlaced
  refine ⟨hBelow, eq_platformPath_iff hPlaced, fun hSome hDot => hBelow.mpr ?_⟩
  have hFilename : source.filename ∈ texts source :=
    List.mem_append_right _ (List.mem_singleton_self _)
  have hWithin : StaysWithin source.filename :=
    destination_isOk_iff.mp ⟨p, hPlaced⟩ source.filename hFilename
  exact ⟨source.filename, hFilename, descends_of_staysWithin hSome hWithin hDot⟩

/-- Backslashes, doubled slashes and dots on the way change nothing. -/
theorem output_paths_accepted_respelled :
    let out : Path := ⟨.relative, ["out"]⟩
    let source := NativeSource.single "c\\d.h" (.text "d") (some "a//.\\b/")
    destination out (some .ios) source = .ok ⟨.relative, ["out", "ios", "a", "b", "c", "d.h"]⟩ ∧
      (∀ text ∈ (["a//.\\b/", "c\\d.h"] : List Text), StaysWithin text) ∧
      source.filename ≠ "" ∧ ("." : Text) ∉ pieces source.filename ∧
      (⟨.relative, ["out", "ios", "a", "b", "c", "d.h"]⟩ : Path).IsBelow
        (platformPath out (some .ios)) := by
  intro out source
  have hPlaced : destination out (some .ios) source =
      .ok ⟨.relative, ["out", "ios", "a", "b", "c", "d.h"]⟩ := by decide +kernel
  have hSome : source.filename ≠ "" := by decide
  have hDot : ("." : Text) ∉ pieces source.filename := by decide +kernel
  obtain ⟨_, hAccepted, hPlaces⟩ := output_paths_accepted_iff "path" "" out (some .ios) source
  obtain ⟨_, _, hBelow⟩ := hPlaces _ hPlaced
  exact ⟨hPlaced, hAccepted.mp ⟨_, hPlaced⟩, hSome, hDot, hBelow hSome hDot⟩

/-- A filename that is no more than a dot is accepted, and its output takes the place of the
directory of its platform. -/
theorem platform_directory_taken :
    let out : Path := ⟨.relative, ["out"]⟩
    let source := NativeSource.single "." (.text "a") none
    ¬((∃ p, normalize "output filename" source.filename = .ok p) ↔
        (slashes source.filename).toList.head? ≠ some (.char '/') ∧
          ("." : Text) ∉ pieces source.filename ∧ (".." : Text) ∉ pieces source.filename) ∧
      ∃ p, destination out none source = .ok p ∧ ¬p.IsBelow (platformPath out none) := by
  intro out source
  refine ⟨fun h => ?_, platformPath out none, by decide +kernel, ?_⟩
  · exact (h.mp ⟨.here, by decide +kernel⟩).2.1 (by decide +kernel)
  · rintro ⟨names, hSome, _, hSame⟩
    exact hSome (Path.append_eq_self_iff.mp hSame.symm)

end OutputPath

end Amalgam
