/-
  The places of a TFM file.

  The twelve sizes at the front of a file say where each of its tables begins and how
  many words it has.  What a file says is described here by these places, without
  cutting it into pieces.

  * `byteAt`, `shortAt` and `wordAt` are what stands at a place, `wordsAt` the words
    from one on;
  * `Layout` are the twelve sizes, and the places that they define; `layout` are those
    of a file;
  * `words_eq` and `sizes_words`: the words and the sizes of a file are those at its
    places.
-/
import DviMarkup.Font.Tfm
import DviMarkup.Proofs.Number.BigEndian

namespace DviMarkup.Tfm

variable (data : List UInt8)

/-! ## What stands at a place -/

/-- The byte at a place, and 0 after the end. -/
def byteAt (place : Nat) : UInt8 := data.getD place 0

/-- The number in two's complement in two bytes. -/
def shortAt (place : Nat) : Int := BigEndian.signed [byteAt data place, byteAt data (place + 1)]

/-- The word with an index, counted from the front of the file. -/
def wordAt (index : Nat) : Word :=
  ⟨byteAt data (4 * index), byteAt data (4 * index + 1), byteAt data (4 * index + 2),
    byteAt data (4 * index + 3)⟩

/-- So many words from an index on. -/
def wordsAt (start count : Nat) : List Word := (List.range count).map fun i => wordAt data (start + i)

@[simp] theorem length_wordsAt (start count : Nat) : (wordsAt data start count).length = count := by
  simp [wordsAt]

theorem getElem?_wordsAt (start count i : Nat) :
    (wordsAt data start count)[i]? = if i < count then some (wordAt data (start + i)) else none := by
  by_cases h : i < count
  · rw [wordsAt, List.getElem?_map, List.getElem?_range h, if_pos h]
    rfl
  · rw [if_neg h, List.getElem?_eq_none (by rw [length_wordsAt]; omega)]

theorem wordsAt_add (start m n : Nat) :
    wordsAt data start (m + n) = wordsAt data start m ++ wordsAt data (start + m) n := by
  simp only [wordsAt, List.range_add, List.map_append, List.map_map, Function.comp_def, Nat.add_assoc]

/-- The whole words of a file, one after the other. -/
theorem words_eq : words data = wordsAt data 0 (data.length / 4) := by
  induction data using words.induct with
  | case1 b0 b1 b2 b3 rest ih =>
    have hlen : (b0 :: b1 :: b2 :: b3 :: rest).length / 4 = 1 + rest.length / 4 := by
      simp only [List.length_cons]
      omega
    have hrest : ∀ i, wordAt (b0 :: b1 :: b2 :: b3 :: rest) (0 + 1 + i) = wordAt rest (0 + i) := by
      intro i
      rw [Nat.zero_add, Nat.zero_add, Nat.add_comm 1 i]
      rfl
    have hwords : wordsAt (b0 :: b1 :: b2 :: b3 :: rest) (0 + 1) (rest.length / 4) =
        wordsAt rest 0 (rest.length / 4) := List.map_congr_left fun i _ => hrest i
    rw [words, ih, hlen, wordsAt_add, hwords]
    rfl
  | case2 data hshort =>
    have hlen : data.length / 4 = 0 := by
      rcases data with _ | ⟨b0, _ | ⟨b1, _ | ⟨b2, _ | ⟨b3, rest⟩⟩⟩⟩
      case cons.cons.cons.cons => exact absurd rfl (hshort b0 b1 b2 b3 rest)
      all_goals simp
    rw [words.eq_2 _ hshort, hlen]
    rfl

theorem toInt_ofInt_signed (b b' : UInt8) :
    (Int16.ofInt (BigEndian.signed [b, b'])).toInt = BigEndian.signed [b, b'] := by
  have hbounds := BigEndian.signed_bounds [b, b']
  simp only [List.length_cons, List.length_nil] at hbounds
  exact Int16.toInt_ofInt_of_le (by omega) (by omega)

/-! ## The sizes -/

/-- The sizes of a file: its length, the length of its header, its range of codes, and
    the lengths of the other tables, all but the codes in words. -/
structure Layout where
  lf : Int
  lh : Int
  bc : Int
  ec : Int
  nw : Int
  nh : Int
  nd : Int
  ni : Int
  nl : Int
  nk : Int
  ne : Int
  np : Int

namespace Layout

variable (l : Layout)

/-- The number of character codes. -/
def count : Int := l.ec - l.bc + 1

/-- The index of the first word of a table, for each of the tables. -/
def charInfos : Nat := 6 + l.lh.toNat
def widths : Nat := l.charInfos + l.count.toNat
def heights : Nat := l.widths + l.nw.toNat
def depths : Nat := l.heights + l.nh.toNat
def italics : Nat := l.depths + l.nd.toNat
def program : Nat := l.italics + l.ni.toNat
def kerns : Nat := l.program + l.nl.toNat
def recipes : Nat := l.kerns + l.nk.toNat
def params : Nat := l.recipes + l.ne.toNat

/-- All but the length of the file. -/
def sizes : List Int := [l.lh, l.bc, l.ec, l.nw, l.nh, l.nd, l.ni, l.nl, l.nk, l.ne, l.np]

/-- Sizes that fit together. -/
structure Sound : Prop where
  nonneg : ∀ n ∈ l.sizes, 0 ≤ n
  header : 2 ≤ l.lh
  last : l.ec ≤ 255
  first : l.bc ≤ l.ec + 1
  dimensions : 0 < l.nw ∧ 0 < l.nh ∧ 0 < l.nd ∧ 0 < l.ni
  total : l.lf = 6 + l.lh + (l.ec - l.bc + 1) + l.nw + l.nh + l.nd + l.ni + l.nl + l.nk + l.ne + l.np

end Layout

/-- The sizes of a file. -/
def layout : Layout where
  lf := shortAt data 0
  lh := shortAt data 2
  bc := shortAt data 4
  ec := shortAt data 6
  nw := shortAt data 8
  nh := shortAt data 10
  nd := shortAt data 12
  ni := shortAt data 14
  nl := shortAt data 16
  nk := shortAt data 18
  ne := shortAt data 20
  np := shortAt data 22

/-- The sizes as whole numbers, with the stated length of the file. -/
def Sizes.layout (s : Sizes) (stated : Int16) : Layout where
  lf := stated.toInt
  lh := s.lh.toInt
  bc := s.bc.toInt
  ec := s.ec.toInt
  nw := s.nw.toInt
  nh := s.nh.toInt
  nd := s.nd.toInt
  ni := s.ni.toInt
  nl := s.nl.toInt
  nk := s.nk.toInt
  ne := s.ne.toInt
  np := s.np.toInt

/-- The sizes are read from the first six words. -/
theorem sizes_words {data : List UInt8} (h : 24 ≤ data.length) :
    ∃ stated s, sizes (words data) = .ok (stated, s, wordsAt data 6 (data.length / 4 - 6)) ∧
      s.layout stated = layout data := by
  have hsplit : words data = wordsAt data 0 6 ++ wordsAt data 6 (data.length / 4 - 6) := by
    rw [words_eq, show data.length / 4 = 6 + (data.length / 4 - 6) by omega, wordsAt_add]
    simp
  rw [hsplit]
  refine ⟨_, _, rfl, ?_⟩
  simp only [Sizes.layout, layout, Word.upper, Word.lower, toInt_ofInt_signed]
  rfl

end DviMarkup.Tfm
