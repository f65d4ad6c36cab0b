/-
  What is assumed of the escaping of texts.

  * `Escaping.Harmless` holds if an escaped text cannot end the place where it stands;
  * `IsEntity` holds of entities, and `Escaping.ByEntities` if, in values of attributes, these
    stand for the characters with a meaning in markup and for no others;
  * `Escaping.harmless_entities` and `Escaping.byEntities_entities`: the program escapes like
    this.
-/
import DviMarkup.Text.Escape

namespace DviMarkup

/-- Whether an escaped text has no character that could end the place where it stands: no angle
    brackets, and in a value of an attribute no double quote either. -/
structure Escaping.Harmless [Escaping] : Prop where
  content : ∀ s, ∀ c ∈ (Escaping.content s).toList, c ≠ '<' ∧ c ≠ '>'
  value : ∀ s, ∀ c ∈ (Escaping.value s).toList, c ≠ '<' ∧ c ≠ '>' ∧ c ≠ '"'

/-! ## Entities -/

/-- Whether a text is an entity: a name or a number between `&` and `;`. -/
def IsEntity (s : List Char) : Prop :=
  ∃ name, s = '&' :: (name ++ [';']) ∧ name ≠ [] ∧ ∀ c ∈ name, c.isAlphanum = true ∨ c = '#'

theorem IsEntity.mem {s : List Char} (h : IsEntity s) {c : Char} (hc : c ∈ s) :
    c.isAlphanum = true ∨ c = '#' ∨ c = '&' ∨ c = ';' := by
  obtain ⟨name, rfl, -, chars⟩ := h
  simp only [List.mem_cons, List.mem_append, List.not_mem_nil, or_false] at hc
  rcases hc with rfl | hc | rfl
  · exact .inr (.inr (.inl rfl))
  · exact (chars c hc).imp_right .inl
  · exact .inr (.inr (.inr rfl))

/-- Whether values of attributes are escaped character by character: entities stand for the
    characters with a meaning in markup, perhaps also for the single quote, and for no others. -/
structure Escaping.ByEntities [Escaping] (escape : Char → List Char) : Prop where
  value : ∀ s, (Escaping.value s).toList = s.toList.flatMap escape
  marks : ∀ c ∈ "&<>\"".toList, IsEntity (escape c)
  quote : escape '\x27' = ['\x27'] ∨ IsEntity (escape '\x27')
  others : ∀ c, c ∉ "&<>\"\x27".toList → escape c = [c]

namespace Escaping.ByEntities

variable [Escaping] {escape : Char → List Char} (entities : ByEntities escape)

include entities

/-- A character stays as it is, unless it has a meaning in markup, or becomes an entity. -/
theorem char (c : Char) : (c ∉ "&<>\"".toList ∧ escape c = [c]) ∨ IsEntity (escape c) := by
  by_cases mark : c ∈ "&<>\"".toList
  · exact .inr (entities.marks c mark)
  by_cases quote : c = '\x27'
  · subst quote
    exact entities.quote.imp_left fun same => ⟨mark, same⟩
  · refine .inl ⟨mark, entities.others c ?_⟩
    simp only [String.reduceToList, List.mem_cons, List.not_mem_nil, or_false, not_or] at mark ⊢
    exact ⟨mark.1, mark.2.1, mark.2.2.1, mark.2.2.2, quote⟩

/-- An escaped value of an attribute has no angle brackets and no double quote. -/
theorem plain (s : String) :
    ∀ c ∈ (Escaping.value s).toList, c ≠ '<' ∧ c ≠ '>' ∧ c ≠ '"' := by
  intro c hc
  rw [entities.value, List.mem_flatMap] at hc
  obtain ⟨d, -, hd⟩ := hc
  rcases entities.char d with ⟨mark, same⟩ | entity
  · obtain rfl : c = d := List.mem_singleton.mp (same ▸ hd)
    refine ⟨?_, ?_, ?_⟩ <;> (rintro rfl; exact mark (by decide))
  · have chars := entity.mem hd
    refine ⟨?_, ?_, ?_⟩ <;> (rintro rfl; revert chars; decide)

end Escaping.ByEntities

/-! ## The program -/

theorem Text.plain_escapeTextChar (c : Char) : ∀ d ∈ escapeTextChar c, d ≠ '<' ∧ d ≠ '>' := by
  unfold escapeTextChar
  split
  · simp
  · split
    · simp
    · split
      · simp
      · rename_i hlt hgt
        intro d hd
        obtain rfl := List.mem_singleton.mp hd
        exact ⟨hlt, hgt⟩

theorem Text.plain_escapeText (s : String) :
    ∀ c ∈ (escapeText s).toList, c ≠ '<' ∧ c ≠ '>' := by
  intro c hc
  rw [escapeText, String.toList_ofList, List.mem_flatMap] at hc
  obtain ⟨d, -, hd⟩ := hc
  exact plain_escapeTextChar d c hd

namespace Escaping

/-- The program writes values of attributes with entities. -/
theorem byEntities_entities : ByEntities Text.escapeAttributeChar where
  value _ := String.toList_ofList
  marks c hc := by
    simp only [String.reduceToList, List.mem_cons, List.not_mem_nil, or_false] at hc
    rcases hc with rfl | rfl | rfl | rfl
    · exact ⟨"amp".toList, rfl, by simp, by simp⟩
    · exact ⟨"lt".toList, rfl, by simp, by simp⟩
    · exact ⟨"gt".toList, rfl, by simp, by simp⟩
    · exact ⟨"quot".toList, rfl, by simp, by simp⟩
  quote := .inl (by decide)
  others c hc := by
    simp only [String.reduceToList, List.mem_cons, List.not_mem_nil, or_false, not_or] at hc
    obtain ⟨amp, lt, gt, quot, -⟩ := hc
    rw [Text.escapeAttributeChar, if_neg quot, Text.escapeTextChar, if_neg amp, if_neg lt,
      if_neg gt]

/-- What the program escapes cannot end the place where it stands. -/
theorem harmless_entities : Harmless where
  content := Text.plain_escapeText
  value := byEntities_entities.plain

end Escaping

end DviMarkup
