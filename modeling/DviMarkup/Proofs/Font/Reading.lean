/-
  What a TFM file is read as.

  * `Describes` says what stands at the places that the sizes of a file define;
  * `lookup_charactersOf`: a code has metrics if it has a word with a width;
  * `read_or_refused`: reading a file never leaves the data or the range of its numbers;
  * `parse_describes`: a file is read if it is consistent, and as what it describes;
    `twoCharacters` is such a file.
-/
import DviMarkup.Proofs.Font.Tables

namespace DviMarkup.Tfm

variable (data : List UInt8) (l : Layout)

/-! ## Characters by their codes -/

/-- The word of a character, by its code. -/
def infoAt (code : UInt8) : Word := wordAt data (l.charInfos + (code.toNat - l.bc.toNat))

/-- The font has a character with the code: the code is in the range, and its width index
    is not 0. -/
def HasCharacter (code : UInt8) : Prop :=
  l.bc ≤ code.toNat ∧ code.toNat ≤ l.ec ∧ (infoAt data l code).b0 ≠ 0

instance (code : UInt8) : Decidable (HasCharacter data l code) :=
  inferInstanceAs (Decidable (_ ∧ _ ∧ _))

theorem lookup_charactersOf_cons (code : Nat) (info : Word) (infos : List Word) (c : UInt8) :
    (charactersOf data l code (info :: infos)).lookup c =
      if info.b0 ≠ 0 ∧ c = UInt8.ofNat code then some (charOf data l info)
      else (charactersOf data l (code + 1) infos).lookup c := by
  rw [charactersOf]
  by_cases hinfo : info.b0 = 0
  · rw [if_pos hinfo, if_neg fun h => h.1 hinfo]
  · rw [if_neg hinfo, List.lookup_cons]
    by_cases hc : c = UInt8.ofNat code
    · rw [if_pos ⟨hinfo, hc⟩, beq_iff_eq.2 hc]
    · rw [if_neg fun h => hc h.2, beq_eq_false_iff_ne.2 hc]

/-- A character is found under its code if its word has a width. -/
theorem lookup_charactersOf (code : Nat) (infos : List Word) (h : code + infos.length ≤ 256) (c : UInt8) :
    (charactersOf data l code infos).lookup c =
      if code ≤ c.toNat then
        (infos[c.toNat - code]?).bind fun info => if info.b0 = 0 then none else some (charOf data l info)
      else none := by
  induction infos generalizing code with
  | nil => simp [charactersOf]
  | cons info infos ih =>
    simp only [List.length_cons] at h
    have hkey : c = UInt8.ofNat code ↔ c.toNat = code := by
      rw [← UInt8.toNat_inj, UInt8.toNat_ofNat_of_lt' (show code < 256 by omega)]
    rw [lookup_charactersOf_cons, ih (code + 1) (by omega)]
    by_cases hcode : c.toNat = code
    · rw [if_pos hcode.ge, hcode, Nat.sub_self, List.getElem?_cons_zero, Option.bind_some,
        if_neg (show ¬ code + 1 ≤ code by omega)]
      by_cases hinfo : info.b0 = 0
      · rw [if_pos hinfo, if_neg fun hfound => hfound.1 hinfo]
      · rw [if_neg hinfo, if_pos ⟨hinfo, hkey.2 hcode⟩]
    · rw [if_neg fun hfound => hcode (hkey.1 hfound.2)]
      by_cases hle : code ≤ c.toNat
      · rw [if_pos hle, if_pos (show code + 1 ≤ c.toNat by omega),
          show c.toNat - code = c.toNat - (code + 1) + 1 by omega, List.getElem?_cons_succ]
      · rw [if_neg hle, if_neg (show ¬ code + 1 ≤ c.toNat by omega)]

/-- **A code has metrics if the font has the character**, and they are those at its indices. -/
theorem character_metricsAt (h : l.Sound) (code : UInt8) :
    (metricsAt data l).character code =
      if HasCharacter data l code then some (charOf data l (infoAt data l code)) else none := by
  obtain ⟨-, hbc, hec, -⟩ := h.bounds
  have hlast := h.last
  have hfirst := h.first
  have hcount : l.count = l.ec - l.bc + 1 := rfl
  rw [Metrics.character, metricsAt, lookup_charactersOf data l _ _ (by rw [length_wordsAt]; omega),
    getElem?_wordsAt]
  by_cases hlo : l.bc.toNat ≤ code.toNat
  · by_cases hhi : code.toNat - l.bc.toNat < l.count.toNat
    · rw [if_pos hlo, if_pos hhi, Option.bind_some]
      change (if (infoAt data l code).b0 = 0 then none else some (charOf data l (infoAt data l code))) = _
      by_cases hinfo : (infoAt data l code).b0 = 0
      · rw [if_pos hinfo, if_neg fun hhas => hhas.2.2 hinfo]
      · rw [if_neg hinfo, if_pos ⟨by omega, by omega, hinfo⟩]
    · rw [if_pos hlo, if_neg hhi, Option.bind_none, if_neg fun hhas => ?_]
      have := hhas.2.1
      omega
  · rw [if_neg hlo, if_neg fun hhas => ?_]
    have := hhas.1
    omega

/-! ## Files -/

/-- What a file with the given sizes says about a font. -/
structure Describes (m : Metrics) : Prop where
  checksum : m.checksum = (wordAt data 6).unsigned
  designSize : m.designSize = (wordAt data 7).signed
  character : ∀ code, m.character code =
    if HasCharacter data l code then some (charOf data l (infoAt data l code)) else none
  instructions : m.instructions = (wordsAt data l.program l.nl.toNat).map (instructionOf data l)
  params : m.params = (wordsAt data l.params l.np.toNat).map Word.signed

theorem describes_of_parse {data : List UInt8} {m : Metrics} (h : parse data = .ok m) :
    Consistent data ∧ Describes data (layout data) m := by
  obtain ⟨hconsistent, rfl⟩ := (accepts_parse data).eq_ok_iff.1 h
  exact ⟨hconsistent, rfl, rfl, character_metricsAt data _ hconsistent.sound, rfl, rfl⟩

/-- **Reading a file never leaves the data or the range of its numbers**: a file is read, or it is
    refused for what is wrong with it. -/
theorem read_or_refused :
    (∃ m, parse data = .ok m) ∨ ∃ fault, parse data = .error fault ∧ fault ≠ .outOfRange := by
  by_cases h : Consistent data
  · exact .inl ⟨_, (accepts_parse data).accepted h⟩
  · exact .inr ((accepts_parse data).refused h)

/-- Sizes that were not checked could lead out of the range: here there are too many codes. -/
example : (Sizes.mk 2 0 32767 1 1 1 1 0 0 0 0).tables.run [] = .error .outOfRange := rfl

/-- **A file is read if it is consistent, and as what it describes.** -/
theorem parse_describes :
    ((∃ m, parse data = .ok m) ↔ Consistent data) ∧
      ∀ m, parse data = .ok m → Describes data (layout data) m := by
  refine ⟨⟨?_, fun h => ⟨_, (accepts_parse data).accepted h⟩⟩, fun m h => (describes_of_parse h).2⟩
  rintro ⟨m, h⟩
  exact (describes_of_parse h).1

/-- A font with the characters 65 and 66.  The program of the former starts at its third instruction,
    which is what the first one tells, and goes on with the fifth. -/
def twoCharacters : List UInt8 :=
  [0, 26, 0, 2, 0, 65, 0, 66, 0, 3, 0, 2, 0, 2, 0, 1, 0, 5, 0, 2, 0, 0, 0, 1,
    222, 173, 190, 239, 0, 160, 0, 0,
    1, 16, 1, 0, 2, 17, 0, 0,
    0, 0, 0, 0, 0, 8, 0, 0, 0, 4, 0, 0,
    0, 0, 0, 0, 0, 11, 0, 0,
    0, 0, 0, 0, 255, 255, 255, 240,
    0, 0, 0, 0,
    200, 0, 0, 2, 128, 66, 128, 1, 1, 67, 0, 68, 128, 66, 0, 68, 128, 66, 128, 0,
    255, 255, 128, 0, 0, 0, 16, 0,
    0, 0, 0, 5]

/-- What is read of it. -/
def twoCharacterMetrics : Metrics where
  checksum := 0xDEADBEEF
  designSize := 10485760
  characters := [(65, ⟨524288, 720896, 0, 0, some 2⟩), (66, ⟨262144, 720896, -16, 0, none⟩)]
  instructions := [⟨72, true, 0, .ligature 2 true true 0⟩, ⟨0, true, 66, .kern 4096⟩,
    ⟨1, false, 67, .ligature 68 true true 0⟩, ⟨0, true, 66, .ligature 68 true true 0⟩,
    ⟨0, true, 66, .kern (-32768)⟩]
  params := [5]

theorem parse_describes_twoCharacters :
    Consistent twoCharacters ∧ parse twoCharacters = .ok twoCharacterMetrics ∧
      Describes twoCharacters (layout twoCharacters) twoCharacterMetrics := by
  have hparse : parse twoCharacters = .ok twoCharacterMetrics := by decide
  exact ⟨(parse_describes twoCharacters).1.1 ⟨_, hparse⟩, hparse, (parse_describes twoCharacters).2 _ hparse⟩

end DviMarkup.Tfm
