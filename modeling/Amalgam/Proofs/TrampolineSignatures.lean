import Amalgam.Merge.Trampoline
import Mathlib.Data.List.TakeWhile

/-! # Signatures of trampolines

A line opens a trampoline if it begins with a signature and a marked name after that. The name is
the whole run of word characters, so there is at most one on a line. All of this holds for any
notion of word characters that the letters of ASCII fall under, as they are all that markers have.
-/

namespace Amalgam

namespace Merge

variable {isWord : CodePoint → Bool} {line name text : List CodePoint}

/-! ## Names -/

/-- A name is taken up to the end of the text or to a character that is in no name. -/
theorem takeWhile_eq_iff : text.takeWhile isWord = name ↔
    (∀ c ∈ name, isWord c = true) ∧
      ∃ rest, text = name ++ rest ∧ ∀ c ∈ rest.head?, isWord c = false := by
  constructor
  · rintro rfl
    refine ⟨fun c => List.mem_takeWhile_imp, text.dropWhile isWord,
      List.takeWhile_append_dropWhile.symm, fun c hFirst => ?_⟩
    have hStop := List.head?_dropWhile_not isWord text
    rwa [hFirst] at hStop
  · rintro ⟨hWords, rest, rfl, hStop⟩
    have hRest : rest.takeWhile isWord = [] := by
      cases rest with
      | nil => rfl
      | cons c others => rw [List.takeWhile_cons_of_neg (by simp [hStop c rfl])]
    rw [List.takeWhile_append_of_pos hWords, hRest, List.append_nil]

theorem exists_letters_of_marker {marker : Text} (h : marker ∈ nameMarkers) :
    ∃ letters : List Char, marker.toList = letters.map .char ∧ ∀ c ∈ letters, c.isAlpha = true := by
  simp only [nameMarkers, List.mem_cons, List.not_mem_nil, or_false] at h
  rcases h with rfl | rfl
  · exact ⟨"SCValdiFunctionInvoke".toList, rfl, List.all_eq_true.mp (by decide)⟩
  · exact ⟨"SCValdiBlockCreate".toList, rfl, List.all_eq_true.mp (by decide)⟩

theorem marker_ne_nil : ∀ marker ∈ nameMarkers, marker.toList ≠ [] := by decide

/-- A marker is made of word characters, so a name begins with it as soon as the text does. -/
theorem marker_prefix_takeWhile (hWord : ∀ c : Char, c.isAlpha = true → isWord c = true)
    {marker : Text} (hMarker : marker ∈ nameMarkers) (h : marker.toList <+: text) :
    marker.toList <+: text.takeWhile isWord := by
  obtain ⟨rest, rfl⟩ := h
  obtain ⟨letters, hLetters, hAlpha⟩ := exists_letters_of_marker hMarker
  have hWords : ∀ c ∈ marker.toList, isWord c = true := by
    rw [hLetters, List.forall_mem_map]
    exact fun c hMem => hWord c (hAlpha c hMem)
  rw [List.takeWhile_append_of_pos hWords]
  exact List.prefix_append _ _

/-! ## Signatures -/

/-- No signature is the beginning of the other. -/
theorem signatures_apart : ∀ signature ∈ signatures, ∀ other ∈ signatures,
    signature.toList <+: other.toList → signature = other := by decide

theorem signature_unique {signature other : Text} (h : signature ∈ signatures)
    (h' : other ∈ signatures) (hLine : signature.toList <+: line) (hLine' : other.toList <+: line) :
    signature = other := by
  rcases List.prefix_or_prefix_of_prefix hLine hLine' with hPrefix | hPrefix
  · exact signatures_apart signature h other h' hPrefix
  · exact (signatures_apart other h' signature h hPrefix).symm

/-- The line begins with a signature, then a name of word characters that begins with a marker, and
there the name ends: no further word character follows. -/
structure Opens (isWord : CodePoint → Bool) (line name : List CodePoint) : Prop where
  signed : ∃ signature ∈ signatures, ∃ rest,
    line = signature.toList ++ name ++ rest ∧ ∀ c ∈ rest.head?, isWord c = false
  words : ∀ c ∈ name, isWord c = true
  marked : ∃ marker ∈ nameMarkers, marker.toList <+: name

theorem opens_iff : Opens isWord line name ↔
    ∃ signature ∈ signatures, ∃ text, line = signature.toList ++ text ∧
      text.takeWhile isWord = name ∧ ∃ marker ∈ nameMarkers, marker.toList <+: name := by
  constructor
  · rintro ⟨⟨signature, hSignature, rest, rfl, hStop⟩, hWords, hMarked⟩
    exact ⟨signature, hSignature, name ++ rest, List.append_assoc _ _ _,
      takeWhile_eq_iff.mpr ⟨hWords, rest, rfl, hStop⟩, hMarked⟩
  · rintro ⟨signature, hSignature, text, rfl, hName, hMarked⟩
    obtain ⟨hWords, rest, rfl, hStop⟩ := takeWhile_eq_iff.mp hName
    exact ⟨⟨signature, hSignature, rest, (List.append_assoc _ _ _).symm, hStop⟩, hWords, hMarked⟩

theorem Opens.name_unique {other : List CodePoint} (h : Opens isWord line name)
    (h' : Opens isWord line other) : name = other := by
  obtain ⟨signature, hSignature, text, rfl, hName, _⟩ := opens_iff.mp h
  obtain ⟨signature', hSignature', text', hLine, hName', _⟩ := opens_iff.mp h'
  have hSame : signature = signature' := signature_unique hSignature hSignature'
    (List.prefix_append _ text) (hLine ▸ List.prefix_append _ text')
  rw [hSame, List.append_cancel_left_eq] at hLine
  rw [← hName, ← hName', hLine]

/-! ## Reading a line -/

theorem opens_of_trampolineNameWith (hWord : ∀ c : Char, c.isAlpha = true → isWord c = true)
    (h : trampolineNameWith isWord line = some name) : Opens isWord line name := by
  obtain ⟨signature, hSignature, h⟩ := List.exists_of_findSome?_eq_some h
  split at h
  · next hHere =>
    obtain ⟨text, rfl⟩ := List.isPrefixOf_iff_prefix.mp hHere
    simp only [List.drop_left] at h
    split at h
    · next hFound =>
      cases h
      obtain ⟨hMarked, _⟩ := Bool.and_eq_true_iff.mp hFound
      obtain ⟨marker, hMarker, hText⟩ := List.any_eq_true.mp hMarked
      have hName := marker_prefix_takeWhile hWord hMarker (List.isPrefixOf_iff_prefix.mp hText)
      exact opens_iff.mpr ⟨signature, hSignature, text, rfl, rfl, marker, hMarker, hName⟩
    · cases h
  · cases h

theorem trampolineNameWith_isSome (h : Opens isWord line name) :
    (trampolineNameWith isWord line).isSome = true := by
  obtain ⟨signature, hSignature, text, rfl, hName, marker, hMarker, hMarked⟩ := opens_iff.mp h
  have hSome : name ≠ [] := fun hNone =>
    marker_ne_nil marker hMarker (List.prefix_nil.mp (hNone ▸ hMarked))
  have hPrefix : marker.toList <+: text := hMarked.trans (hName ▸ List.takeWhile_prefix isWord)
  have hText : (nameMarkers.any fun marker => marker.toList.isPrefixOf text) = true :=
    List.any_eq_true.mpr ⟨marker, hMarker, List.isPrefixOf_iff_prefix.mpr hPrefix⟩
  rw [trampolineNameWith, List.findSome?_isSome_iff]
  refine ⟨signature, hSignature, ?_⟩
  rw [if_pos (List.isPrefixOf_iff_prefix.mpr (List.prefix_append _ _)), List.drop_left]
  simp [hText, hName, hSome]

theorem trampolineNameWith_eq_some_iff
    (hWord : ∀ c : Char, c.isAlpha = true → isWord c = true) :
    trampolineNameWith isWord line = some name ↔ Opens isWord line name := by
  refine ⟨opens_of_trampolineNameWith hWord, fun hOpens => ?_⟩
  obtain ⟨found, hFound⟩ := Option.isSome_iff_exists.mp (trampolineNameWith_isSome hOpens)
  rw [hFound, (opens_of_trampolineNameWith hWord hFound).name_unique hOpens]

theorem trampolineName?_eq_some_iff {line name : Text} :
    trampolineName? line = some name ↔ Opens Text.isWordChar line.toList name.toList := by
  rw [← trampolineNameWith_eq_some_iff fun _ => Text.isWordChar_of_isAlpha, trampolineName?,
    Option.map_eq_some_iff]
  constructor
  · rintro ⟨found, hFound, rfl⟩
    rw [hFound, Text.toList_ofList]
  · intro hFound
    exact ⟨name.toList, hFound, Text.ofList_toList name⟩

/-- Whatever word characters are besides letters, a name is read off a line exactly if the line
opens a trampoline of that name, and it opens no second one. Sources are read so with the word
characters of all scripts. -/
theorem trampoline_read_iff (isWord : CodePoint → Bool)
    (hWord : ∀ c : Char, c.isAlpha = true → isWord c = true) (line : Text) :
    (∀ name, trampolineNameWith isWord line.toList = some name ↔ Opens isWord line.toList name) ∧
    (∀ name other, Opens isWord line.toList name → Opens isWord line.toList other → name = other) ∧
    ∀ name, trampolineName? line = some name ↔
      Opens Text.isWordChar line.toList name.toList :=
  ⟨fun _ => trampolineNameWith_eq_some_iff hWord, fun _ _ => Opens.name_unique,
    fun _ => trampolineName?_eq_some_iff⟩

/-- The name goes on over a letter that is not of ASCII and ends before a middle dot. -/
theorem trampoline_read_accented :
    let line : Text := "static id SCValdiBlockCreateÉ·(void);"
    let name : Text := "SCValdiBlockCreateÉ"
    (∀ c : Char, c.isAlpha = true → Text.isWordChar c = true) ∧
      Opens Text.isWordChar line.toList name.toList ∧
      trampolineNameWith Text.isWordChar line.toList = some name.toList ∧
      ∀ other, Opens Text.isWordChar line.toList other → other = name.toList := by
  intro line name
  have hWord (c : Char) : c.isAlpha = true → Text.isWordChar c = true := Text.isWordChar_of_isAlpha
  have hOpens : Opens Text.isWordChar line.toList name.toList := by
    refine ⟨⟨"static id ", by decide, ("·(void);" : Text).toList, ?_, ?_⟩, ?_, ?_⟩
    · decide +kernel
    · rintro c ⟨⟩
      decide +kernel
    · exact List.all_eq_true.mp (by decide +kernel)
    · exact ⟨"SCValdiBlockCreate", by decide, by decide⟩
  obtain ⟨hRead, hUnique, _⟩ := trampoline_read_iff Text.isWordChar hWord line
  exact ⟨hWord, hOpens, (hRead _).mpr hOpens, fun other hOther => hUnique _ _ hOther hOpens⟩

end Merge

end Amalgam
