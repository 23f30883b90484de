import Amalgam.FileTree.Operations
import Mathlib.Data.List.Basic

/-! # Names of files

A file is named by octets. They tell texts apart that are made of characters, but half a surrogate
pair may stand for an octet that also belongs to a character. A path does not get to the system if
its text has the null character or half a surrogate pair that stands for no octet.
-/

namespace Amalgam

namespace Text.Utf8

theorem octets_append (first rest : Text) : octets (first ++ rest) = octets first ++ octets rest :=
  List.flatMap_append

/-! ## Texts of characters -/

theorem exists_characters {points : List CodePoint} (h : ∀ c ∈ points, c.isSurrogate = false) :
    ∃ characters : List Char, points = characters.map .char := by
  induction points with
  | nil => exact ⟨[], rfl⟩
  | cons c rest ih =>
    obtain ⟨characters, rfl⟩ := ih fun d hd => h d (List.mem_cons_of_mem c hd)
    cases c with
    | char c => exact ⟨c :: characters, rfl⟩
    | surrogate half => cases h _ List.mem_cons_self

/-- Texts of characters are told apart by their octets. -/
theorem octets_inj {a b : Text} (ha : ∀ c ∈ a.toList, c.isSurrogate = false)
    (hb : ∀ c ∈ b.toList, c.isSurrogate = false) : octets a = octets b ↔ a = b := by
  obtain ⟨first, hFirst⟩ := exists_characters ha
  obtain ⟨second, hSecond⟩ := exists_characters hb
  refine ⟨fun h => ?_, congrArg octets⟩
  rw [octets, octets, hFirst, hSecond, List.flatMap_map, List.flatMap_map] at h
  have hSame : String.ofList first = String.ofList second := by
    rw [← String.toByteArray_inj, String.toByteArray_ofList, String.toByteArray_ofList]
    exact congrArg List.toByteArray h
  rw [← toList_inj, hFirst, hSecond, String.ofList_injective hSame]

/-! ## Octets above ASCII -/

theorem high_ofNat {n : Nat} (h : 0x80 ≤ n) (h' : n < 0x100) : 0x80 ≤ (UInt8.ofNat n).toNat := by
  rw [UInt8.toNat_ofNat_of_lt' h']
  exact h

theorem high_of_mem_utf8EncodeChar {c : Char} {octet : UInt8} (hc : 0x80 ≤ c.toNat)
    (h : octet ∈ String.utf8EncodeChar c) : 0x80 ≤ octet.toNat := by
  have hc' : ¬c.val.toNat ≤ 0x7f := Nat.not_le.mpr hc
  simp only [String.utf8EncodeChar, if_neg hc'] at h
  split at h
  · simp only [List.mem_cons, List.not_mem_nil, or_false] at h
    rcases h with rfl | rfl <;> apply high_ofNat <;> omega
  · split at h
    · simp only [List.mem_cons, List.not_mem_nil, or_false] at h
      rcases h with rfl | rfl | rfl <;> apply high_ofNat <;> omega
    · simp only [List.mem_cons, List.not_mem_nil, or_false] at h
      rcases h with rfl | rfl | rfl | rfl <;> apply high_ofNat <;> omega

theorem pointOctets_ne_nil (c : CodePoint) : pointOctets c ≠ [] := by
  cases c with
  | char c => exact String.utf8EncodeChar_ne_nil
  | surrogate half =>
    rw [pointOctets]
    split <;> exact List.cons_ne_nil _ _

theorem high_of_mem_pointOctets {half : Fin 0x800} {octet : UInt8}
    (h : octet ∈ pointOctets (.surrogate half)) : 0x80 ≤ octet.toNat := by
  have hHalf := half.isLt
  rw [pointOctets] at h
  split at h
  · next escaped hEscaped =>
    obtain ⟨hRange, hOctet⟩ := Option.ite_none_right_eq_some.mp hEscaped
    rw [List.mem_singleton.mp h, ← Option.some.inj hOctet]
    apply high_ofNat <;> omega
  · simp only [List.mem_cons, List.not_mem_nil, or_false] at h
    rcases h with rfl | rfl | rfl <;> apply high_ofNat <;> omega

/-- A text whose octets are all of ASCII is made of characters. -/
theorem characters_of_low {text : Text} (h : ∀ octet ∈ octets text, octet.toNat < 0x80) :
    ∀ c ∈ text.toList, c.isSurrogate = false := by
  intro c hc
  cases c with
  | char c => rfl
  | surrogate half =>
    obtain ⟨octet, hOctet⟩ := List.exists_mem_of_ne_nil _ (pointOctets_ne_nil (.surrogate half))
    have hLow := h octet (List.mem_flatMap.mpr ⟨_, hc, hOctet⟩)
    have hHigh := high_of_mem_pointOctets hOctet
    omega

theorem octets_eq_upward_iff {text : Text} : octets text = FileTree.upward ↔ text = ".." := by
  constructor
  · intro h
    have hLow : FileTree.upward.all (·.toNat < 0x80) = true := by decide
    have hCharacters : ∀ c ∈ text.toList, c.isSurrogate = false := by
      apply characters_of_low
      intro octet hOctet
      exact of_decide_eq_true (List.all_eq_true.mp hLow octet (h ▸ hOctet))
    exact (octets_inj hCharacters (by decide)).mp h
  · rintro rfl
    rfl

/-! ## The null octet -/

theorem zero_mem_utf8EncodeChar_iff {c : Char} : 0 ∈ String.utf8EncodeChar c ↔ c = '\x00' := by
  constructor
  · intro h
    have hAscii : c.toNat < 0x80 := by
      apply Nat.lt_of_not_le
      intro hHigh
      exact absurd (high_of_mem_utf8EncodeChar hHigh h) (by decide)
    have hSize : c.utf8Size = 1 := Char.utf8Size_eq_one_iff.mpr (Nat.le_of_lt_succ hAscii)
    rw [String.utf8EncodeChar_eq_singleton hSize, List.mem_singleton] at h
    have hZero := congrArg UInt8.toNat h
    apply Char.toNat_inj.mp
    simp only [UInt8.toNat_zero, UInt32.toNat_toUInt8] at hZero
    change c.val.toNat = 0
    change c.val.toNat < 0x80 at hAscii
    omega
  · rintro rfl
    decide

theorem zero_mem_pointOctets_iff {c : CodePoint} : 0 ∈ pointOctets c ↔ c = .char '\x00' := by
  cases c with
  | char c => rw [pointOctets, zero_mem_utf8EncodeChar_iff, CodePoint.char.injEq]
  | surrogate half =>
    refine iff_of_false (fun h => ?_) nofun
    exact absurd (high_of_mem_pointOctets h) (by decide)

theorem zero_mem_octets_iff {text : Text} : 0 ∈ octets text ↔ .char '\x00' ∈ text.toList := by
  simp only [octets, List.mem_flatMap, zero_mem_pointOctets_iff, exists_eq_right]

end Text.Utf8

namespace Path

theorem barrier?_cases {p : Path} {e : FileError} (h : p.barrier? = some e) :
    e = .nullByte ∨ ∃ cause, e = .unencodable cause := by
  rw [barrier?] at h
  split at h
  · cases h
    exact .inr ⟨_, rfl⟩
  · split at h
    · cases h
      exact .inl rfl
    · cases h

/-- A path gets to the system if its text has no null character and no half of a surrogate pair but
those that stand for an octet. -/
theorem barrier?_eq_none_iff {p : Path} :
    p.barrier? = none ↔
      .char '\x00' ∉ p.text.toList ∧ ∀ c ∈ p.text.toList, Text.Utf8.hasOctets c = true := by
  have hOk (octets : List UInt8) : Text.Utf8.encodeName p.text = .ok octets ↔
      (∀ c ∈ p.text.toList, Text.Utf8.hasOctets c = true) ∧ octets = Text.Utf8.octets p.text :=
    Text.Utf8.encodeWith_eq_ok_iff
  rw [barrier?]
  cases hEncoded : Text.Utf8.encodeName p.text with
  | error e =>
    refine iff_of_false nofun fun h => ?_
    cases hEncoded.symm.trans ((hOk _).mpr ⟨h.2, rfl⟩)
  | ok octets =>
    obtain ⟨hAll, rfl⟩ := (hOk octets).mp hEncoded
    rw [and_iff_left hAll, ← Text.Utf8.zero_mem_octets_iff]
    simp

/-- Of two paths the first that does not get to the system decides. -/
theorem barriers_cases {p q : Path} {e : FileError} (h : (p.barrier? <|> q.barrier?) = some e) :
    p.barrier? = some e ∨ q.barrier? = some e := by
  cases hFirst : p.barrier? with
  | none =>
    rw [hFirst] at h
    exact .inr h
  | some cause =>
    rw [hFirst] at h
    exact .inl h

theorem barriers_eq_none_iff {p q : Path} :
    (p.barrier? <|> q.barrier?) = none ↔ p.barrier? = none ∧ q.barrier? = none := by
  cases p.barrier? <;> simp

end Path

end Amalgam
