/-
  The scale of texts, in exact numbers.

  A text is written in the size of its font, and moves the place on by its width.  Both are
  in points in the end, but on different ways: the width by the unit of the document, which
  the magnification makes larger or smaller, and the size without it.

  * `pointsPerUnit_tex` is the unit of a document that TeX has written;
  * `Font.Consistent` holds of fonts with the same design size in their definition and
    their metrics, and `Font.pointSize_eq` is the size at which they are used;
  * `unit_executeAll`: the unit is that of the preamble until there is another one;
  * `scale_putText`: how the size of a text and its width go together;
  * `scale_putText_ne`: they do not fit each other in a document that is magnified.
-/
import DviMarkup.Proofs.Typesetter.Footprint
import DviMarkup.Proofs.Typesetter.Texts
import Mathlib.Tactic.FieldSimp

namespace DviMarkup

open Typesetter Scalar

/-! ## Units and sizes -/

section Sizes

variable [Completion]

/-- TeX counts in units of which there are 65536 in a point, if nothing is magnified. -/
theorem pointsPerUnit_tex (magnification : UInt32) :
    (pointsPerUnit 25400000 473628672 magnification : ℚ) = magnification.toNat / 65536000 := by
  have numerator : (25400000 : UInt32).toNat = 25400000 := rfl
  have denominator : (473628672 : UInt32).toNat = 473628672 := rfl
  simp only [pointsPerUnit, ofInt_rat, ofPlaces_rat, numerator, denominator]
  norm_num
  ring

/-- Whether the definition of a font has the design size of its metrics, which is given in
    sixteenths of a DVI unit there. -/
structure Font.Consistent (f : Font) : Prop where
  nonzero : f.designSize ≠ 0
  same : f.metrics.designSize.toInt = 16 * f.designSize.toNat

/-- The size at which a font is used is a number of units without magnification. -/
theorem Font.pointSize_eq {f : Font} (h : f.Consistent) :
    (f.pointSize : ℚ) = f.scaleFactor.toNat / 65536 := by
  have nonzero : (f.designSize.toNat : ℚ) ≠ 0 := by
    rw [Nat.cast_ne_zero]
    exact fun zero => h.nonzero (UInt32.toNat_inj.mp zero)
  simp only [pointSize, designPoints, magnification, if_neg h.nonzero, ofInt_rat, h.same]
  push_cast
  field_simp
  ring

end Sizes

/-! ## Texts -/

section Texts

/-- The size in which a piece is written, if it is a text. -/
def Piece.size? {α : Type} : Piece α → Option α
  | span _ _ size .. | text _ _ _ size .. => some size
  | _ => none

theorem Markup.exists_size_putText {α : Type} [Scalar α] (m : Markup α) (x y : α)
    (transform : Matrix α) (font : Font) (height : α) (characters : String) :
    ∃ piece, m.putText x y transform font height characters = m.write piece ∧
      piece.size? = some font.pointSize := by
  unfold Markup.putText
  split
  · exact ⟨_, rfl, rfl⟩
  · exact ⟨_, rfl, rfl⟩

/-- **The unit is that of the preamble until there is another one**, whatever becomes of the
    commands. -/
theorem unit_executeAll {α : Type} [Scalar α] [Escaping] {t : Typesetter α} {m : Markup α}
    (hm : t.output = .markup m) (numerator denominator magnification : UInt32) (comment : String)
    {items : List Item} (last : ∀ n d g c, .ok (.preamble n d g c) ∉ items) :
    ∃ m', ((executeAll (.ok (.preamble numerator denominator magnification comment) ::
        items)).run.run t).2.output = .markup m' ∧
      m'.pointsPerUnit = pointsPerUnit numerator denominator magnification := by
  have keeps : Keeps (markup? fun m : Markup α => m.pointsPerUnit) (executeAll items) := by
    refine keeps_executeAll fun command hmem => Command.keeps_field fun m => ?_
    cases command with
    | preamble n d g c => exact absurd hmem (last n d g c)
    | _ => rfl
  rw [← markup?_eq_some, executeAll, run_bind]
  obtain ⟨core, output⟩ := t
  obtain rfl : output = .markup m := hm
  exact keeps _

/-- How the size in which a text is written and by how much the place moves on, both in
    points, go together with the size at which the document uses the font. -/
structure TextScale (magnification : UInt32) (font : Font) (unit : ℚ) (width : Int)
    (size advance : ℚ) : Prop where
  /-- The text is written in the size of the font without the magnification. -/
  size_eq : size * (magnification.toNat / 1000) = font.scaleFactor.toNat * unit
  /-- The place moves on by a part of the size with the magnification. -/
  advance_eq : advance = width / 2 ^ 20 * size * (magnification.toNat / 1000)
  /-- So the text is written in the size of the font only if nothing is magnified, or
      if there is nothing to see of it. -/
  same_iff : size = font.scaleFactor.toNat * unit ↔ magnification = 1000 ∨ font.scaleFactor = 0

variable [Completion]

theorem textScale {font : Font} (h : font.Consistent) (magnification : UInt32) (width : Int) :
    TextScale magnification font (pointsPerUnit 25400000 473628672 magnification) width
      font.pointSize
      (font.toUnits (width : ℚ) * pointsPerUnit 25400000 473628672 magnification) := by
  have scale : (font.pointSize : ℚ) * (magnification.toNat / 1000) =
      font.scaleFactor.toNat * pointsPerUnit 25400000 473628672 magnification := by
    rw [font.pointSize_eq h, pointsPerUnit_tex]
    ring
  refine ⟨scale, ?_, ?_⟩
  · rw [font.toUnits_eq, pointsPerUnit_tex]
    ring
  · have magnified : (magnification.toNat / 1000 : ℚ) = 1 ↔ magnification = 1000 := by
      rw [div_eq_one_iff_eq (by norm_num), ← UInt32.toNat_inj]
      exact_mod_cast Iff.rfl
    have seen : (font.pointSize : ℚ) = 0 ↔ font.scaleFactor = 0 := by
      rw [font.pointSize_eq h, div_eq_zero_iff, ← UInt32.toNat_inj]
      norm_num
    rw [← scale, eq_comm, mul_right_eq_self₀, magnified, seen]

/-- **Texts are spaced with the magnification, but written without it.**  After a preamble
    by TeX, and whatever commands up to the next one, the size in which a text is written
    and by how much the place moves on are those of `TextScale`. -/
theorem scale_putText [Escaping] {t : Typesetter ℚ} {m : Markup ℚ} (hm : t.output = .markup m)
    (magnification : UInt32) (comment : String) {items : List Item}
    (last : ∀ n d g c, .ok (.preamble n d g c) ∉ items) {t₁ : Typesetter ℚ}
    (before : ((executeAll (.ok (.preamble 25400000 473628672 magnification comment) ::
      items)).run.run t).2 = t₁)
    {font : Font} (hfont : t₁.core.font = some font) (consistent : font.Consistent)
    {text : List UInt8} {d : ℚ} {t₂ : Typesetter ℚ}
    (run : (putText text).run.run t₁ = (.ok d, t₂)) :
    ∃ m₁ piece size width, t₁.output = .markup m₁ ∧
      t₂ = { t₁ with output := .markup (m₁.write piece) } ∧ piece.size? = some size ∧
      font.textWidth? m₁.mode text = some width ∧
      TextScale magnification font m₁.pointsPerUnit width size (m₁.points d) ∧
      ∃ t₃, (Command.setText text).execute.run.run t₁ = (.ok (), t₃) ∧ t₃.output = t₂.output ∧
        t₃.currentPoint.1 - t₁.currentPoint.1 = m₁.points d := by
  obtain ⟨m₁, hm₁, unit⟩ := unit_executeAll hm 25400000 473628672 magnification comment last
  rw [before] at hm₁
  obtain ⟨font', extent, characters, hfont', hmeasure, -, rfl, rfl⟩ := exists_of_run_putText hm₁ run
  obtain rfl : font = font' := Option.some.inj (hfont.symm.trans hfont')
  obtain ⟨piece, hpiece, hsize⟩ := m₁.exists_size_putText t₁.currentPoint.1 t₁.currentPoint.2
    t₁.core.matrix font extent.height (String.ofList characters)
  rw [hpiece] at run ⊢
  have sum := font.measure_width m₁.mode text
  rw [hmeasure] at sum
  obtain ⟨width, hwidth, units⟩ := Option.map_eq_some_iff.mp sum.symm
  have scale := textScale consistent magnification width
  rw [units, ← unit] at scale
  have moved : (Command.setText text).execute.run.run t₁ = (.ok (),
      { core := t₁.core.moveRight extent.width, output := .markup (m₁.write piece) }) := by
    rw [Command.execute, run_bind, run]
    rfl
  refine ⟨m₁, piece, font.pointSize, width, hm₁, rfl, hsize, hwidth, scale, _, moved, rfl, ?_⟩
  obtain ⟨core, output⟩ := t₁
  obtain rfl : output = .markup m₁ := hm₁
  exact (sub_eq_of_eq_add' (add_mul core.position.h extent.width m₁.pointsPerUnit))

end Texts

/-! ## A document that is magnified -/

/-- A font of ten points with one character, half as wide as that. -/
def halfWide : Font where
  name := "cmr10"
  checksum := 0
  scaleFactor := 655360
  designSize := 655360
  metrics := (Metrics.empty 0 0xA00000).insert 65 ⟨0x80000, 0x80000, 0, 0, none⟩

/-- The beginning of a document with the font. -/
def opening : List Item :=
  [.ok (.defineFont 0 halfWide.toFontDefinition), .ok (.enableFont 0)]

/-- A typesetter at the beginning of a document. -/
def blankPage : Typesetter ℚ :=
  letI := Completion.blank
  .markup (.ofList [("cmr10", halfWide.metrics)]) (.insert {} "cmr10" 65 'A') .strict

/-- The typesetter after the opening of a document that is twice as large. -/
def doubled : Typesetter ℚ :=
  letI := Completion.blank
  ((executeAll (.ok (.preamble 25400000 473628672 2000 "") :: opening)).run.run blankPage).2

/-- What becomes of a text in the document. -/
def doubledText : Except Failure ℚ × Typesetter ℚ :=
  letI := Completion.blank
  (putText [65]).run.run doubled

/-- In the document, the text is written in half of the size at which it is spaced. -/
theorem scale_putText_doubled :
    letI := Completion.blank
    (∀ n d g c, .ok (.preamble n d g c) ∉ opening) ∧ doubled.core.font = some halfWide ∧
      halfWide.Consistent ∧ ∃ d t m piece size width, doubledText = (.ok d, t) ∧
        doubled.output = .markup m ∧ t.output = .markup (m.write piece) ∧
        piece.size? = some size ∧
        TextScale 2000 halfWide m.pointsPerUnit width size (m.points d) := by
  let := Completion.blank
  have last : ∀ n d g c, .ok (.preamble n d g c) ∉ opening := by
    simp [opening]
  have font : doubled.core.font = some halfWide := by
    decide +kernel
  have consistent : halfWide.Consistent := ⟨by decide, by decide⟩
  refine ⟨last, font, consistent, ?_⟩
  rcases h : doubledText with ⟨failure | d, t⟩
  · have succeeds : doubledText.1.isOk = true := by
      decide +kernel
    rw [h] at succeeds
    cases succeeds
  · obtain ⟨m, piece, size, width, hm, rfl, hsize, -, scale, -⟩ :=
      scale_putText (t := blankPage) rfl 2000 "" last rfl font consistent h
    exact ⟨d, _, m, piece, size, width, rfl, hm, rfl, hsize, scale⟩

/-- The text is written in ten points, but twenty points are the size of the font. -/
theorem scale_putText_ne :
    letI := Completion.blank
    ∃ m, doubledText.2.output = .markup m ∧ m.pieces.toList.map Piece.size? = [some 10] ∧
      halfWide.scaleFactor.toNat * m.pointsPerUnit = 20 :=
  ⟨_, rfl, by decide +kernel, by decide +kernel⟩

end DviMarkup
