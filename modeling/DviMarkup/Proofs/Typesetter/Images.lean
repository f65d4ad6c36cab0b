/-
  The places and sizes of images, in exact numbers.

  The transform of an image is made of five parts, the first of which moves the place to the
  corner of the image and the last of which moves this corner to the origin.  So whatever is
  scaled and turned in between, the corner comes to its place.

  * `Image.Drawn` holds of descriptions that are not skipped, and `run_image`: what becomes of
    them;
  * `Image.Drawing.OfKeys`: which numbers of a description are which;
  * `Image.Drawing.apply_transform`: the corner comes to its place;
  * `Image.Drawing.factors_pos` and what follows it: by how much an image is scaled;
  * `image_placement`: all of this for the command that draws an image.
-/
import DviMarkup.Proofs.Graphics.Chains
import DviMarkup.Proofs.Typesetter.Fragments
import Mathlib.Algebra.Order.Field.Basic
import Mathlib.Tactic.Linarith

namespace DviMarkup

open Scalar Typesetter

/-! ## Images that are drawn -/

section Drawn

variable {α : Type} [Scalar α]

/-- Whether a description is drawn: it has a file, and there is something to see of it. -/
structure Image.Drawn (α : Type) [Scalar α] (description : String) (file : List Char) : Prop where
  named : attribute? (attributes description.toList) "psfile" = some file
  nonempty : file ≠ []
  seen : (Drawing.ofAttributes (attributes description.toList) : Drawing α).isEmpty = false

theorem Image.fragment?_eq [Escaping] {description : String} {file : List Char}
    (drawn : Drawn α description file) (t : Typesetter α) :
    fragment? t description =
      let d : Drawing α := .ofAttributes (attributes description.toList)
      some (d.element (String.ofList (fileName file))
        (d.transform t.core.matrix t.currentPoint.1 t.currentPoint.2)) := by
  have named : file.isEmpty = false := List.isEmpty_eq_false_iff.mpr drawn.nonempty
  rw [fragment?, drawn.named, Option.getD_some, named, drawn.seen]
  rfl

/-- Writing a fragment always succeeds and leaves what all typesetters share as it is. -/
theorem Typesetter.exists_run_putSvg (t : Typesetter α) (fragment : String) :
    ∃ output, (putSvg fragment).run.run t = (.ok (), { t with output }) := by
  obtain ⟨core, output⟩ := t
  cases output <;> exact ⟨_, rfl⟩

/-- **An image that is drawn is written as its element**, and nothing else happens. -/
theorem run_image [Escaping] {description : String} {file : List Char}
    (drawn : Image.Drawn α description file) (t : Typesetter α) :
    let d : Image.Drawing α := .ofAttributes (Image.attributes description.toList)
    (Command.image description).execute.run.run t =
      (putSvg (d.element (String.ofList (Image.fileName file))
        (d.transform t.core.matrix t.currentPoint.1 t.currentPoint.2))).run.run t := by
  rw [Command.execute, Image.run_draw, Image.fragment?_eq drawn t]

end Drawn

section Exact

variable [Completion]

namespace Image.Drawing

/-! ## Numbers -/

/-- Whether the numbers of a drawing are those that a description has for their keys. -/
structure OfKeys (d : Drawing ℚ) (table : List (List Char × List Char)) : Prop where
  left : d.left = number table "llx" 0
  lower : d.lower = number table "lly" 0
  right : d.right = number table "urx" 0
  upper : d.upper = number table "ury" 0
  /-- Sides are given in tenths of a point. -/
  width : d.width = number table "rwi" (-1) / 10
  height : d.height = number table "rhi" (-1) / 10
  hoffset : d.hoffset = number table "hoffset" 0
  voffset : d.voffset = number table "voffset" 0
  hscale : d.hscale = number table "hscale" 100
  vscale : d.vscale = number table "vscale" 100
  angle : d.angle = number table "angle" 0

theorem ofKeys_ofAttributes (table : List (List Char × List Char)) :
    (ofAttributes table : Drawing ℚ).OfKeys table where
  left := rfl
  lower := rfl
  right := rfl
  upper := rfl
  width := congrArg (number table "rwi" (-1) / ·) (ofInt_rat 10)
  height := congrArg (number table "rhi" (-1) / ·) (ofInt_rat 10)
  hoffset := rfl
  voffset := rfl
  hscale := rfl
  vscale := rfl
  angle := rfl

/-! ## The corner -/

/-- **The lower left corner of an image comes to its place**, however it is scaled and
    turned. -/
theorem apply_transform (d : Drawing ℚ) (current : Matrix ℚ) (x y : ℚ) :
    (d.transform current x y).apply d.left d.upper =
      current.apply (x + d.hoffset) (y - d.voffset) := by
  have left : d.left + -d.left = 0 := by ring
  have upper : d.upper + -d.upper = 0 := by ring
  rw [transform]
  simp only [Matrix.apply_translate, Matrix.apply_scale, Matrix.apply_rotate, left, upper]
  congr 1 <;> ring

/-! ## Sizes -/

/-- Whether factors bring an image to the size that it is to have: a side that is given gets its
    length, a side that is not gets the factor of the other, and without sides nothing is
    scaled. -/
structure Fits (d : Drawing ℚ) (sx sy : ℚ) : Prop where
  pos : 0 < sx ∧ 0 < sy
  width : 0 < d.width → sx * |d.right - d.left| = d.width
  height : 0 < d.height → sy * |d.upper - d.lower| = d.height
  oneSide : ¬(0 < d.width ↔ 0 < d.height) → sx = sy
  noSide : ¬0 < d.width → ¬0 < d.height → sx = 1 ∧ sy = 1

/-- There is something to see of an image unless a side is zero. -/
theorem isEmpty_eq_false {d : Drawing ℚ} (seen : d.isEmpty = false) :
    d.width ≠ 0 ∧ d.height ≠ 0 ∧ 0 < |d.left - d.right| ∧ 0 < |d.lower - d.upper| := by
  simp only [isEmpty, Bool.or_eq_false_iff, eq, decide_eq_false_iff_not, zero_rat] at seen
  obtain ⟨⟨⟨width, height⟩, right⟩, upper⟩ := seen
  exact ⟨width, height, abs_pos.mpr (sub_ne_zero.mpr (Ne.symm right)),
    abs_pos.mpr (sub_ne_zero.mpr (Ne.symm upper))⟩

omit [Completion] in
/-- The factor of a side that is given brings it to its length. -/
theorem div_mul_side {size a b : ℚ} (side : 0 < |a - b|) : size / |a - b| * |b - a| = size := by
  rw [abs_sub_comm b a, div_mul_cancel₀ size side.ne']

/-- **An image comes to the size that it is to have.** -/
theorem fits_factors {d : Drawing ℚ} (seen : d.isEmpty = false) :
    d.Fits d.factors.1 d.factors.2 := by
  obtain ⟨width, height, a, b⟩ := isEmpty_eq_false seen
  have factors : d.factors =
      let sx := d.width / |d.left - d.right|
      let sy := d.height / |d.lower - d.upper|
      let sx := if sx < 0 then sy else sx
      let sy := if sy < 0 then sx else sy
      if sx < 0 then (1, 1) else (sx, sy) := by
    simp [Drawing.factors, lt, zero_rat, Scalar.abs, one]
  rw [factors]
  dsimp only
  rcases lt_or_gt_of_ne width with narrow | wide
  · have sx : d.width / |d.left - d.right| < 0 := div_neg_of_neg_of_pos narrow a
    rw [if_pos sx]
    rcases lt_or_gt_of_ne height with low | high
    · have sy : d.height / |d.lower - d.upper| < 0 := div_neg_of_neg_of_pos low b
      rw [if_pos sy]
      exact ⟨⟨one_pos, one_pos⟩, fun h => absurd h narrow.not_gt, fun h => absurd h low.not_gt,
        fun _ => rfl, fun _ _ => ⟨rfl, rfl⟩⟩
    · have sy : 0 < d.height / |d.lower - d.upper| := div_pos high b
      rw [if_neg sy.not_gt, if_neg sy.not_gt]
      exact ⟨⟨sy, sy⟩, fun h => absurd h narrow.not_gt, fun _ => div_mul_side b, fun _ => rfl,
        fun _ h => absurd high h⟩
  · have sx : 0 < d.width / |d.left - d.right| := div_pos wide a
    rw [if_neg sx.not_gt, if_neg sx.not_gt]
    rcases lt_or_gt_of_ne height with low | high
    · have sy : d.height / |d.lower - d.upper| < 0 := div_neg_of_neg_of_pos low b
      rw [if_pos sy]
      exact ⟨⟨sx, sx⟩, fun _ => div_mul_side a, fun h => absurd h low.not_gt, fun _ => rfl,
        fun h => absurd wide h⟩
    · have sy : 0 < d.height / |d.lower - d.upper| := div_pos high b
      rw [if_neg sy.not_gt]
      exact ⟨⟨sx, sy⟩, fun _ => div_mul_side a, fun _ => div_mul_side b,
        fun h => absurd (iff_of_true wide high) h, fun h => absurd wide h⟩

end Image.Drawing

/-- **Images are anchored and sized as requested.**  An image that is drawn is written with a
    transform that is made of five parts, one of them with factors for its sides.  It brings the
    lower left corner of the image to its place, and each side that is given to its length.
    All numbers in it are those that the description has for their keys.  Nothing changes but
    what was written. -/
theorem image_placement [Escaping] (t : Typesetter ℚ) {description : String} {file : List Char}
    (drawn : Image.Drawn ℚ description file) :
    let d : Image.Drawing ℚ := .ofAttributes (Image.attributes description.toList)
    let x := t.currentPoint.1 + d.hoffset
    let y := t.currentPoint.2 - d.voffset
    ∃ (matrix : Matrix ℚ) (sx sy : ℚ) (output : Output ℚ),
      (Command.image description).execute.run.run t =
          (putSvg (d.element (String.ofList (Image.fileName file)) matrix)).run.run t ∧
        (Command.image description).execute.run.run t = (.ok (), { t with output }) ∧
        matrix = ((((t.core.matrix.translate x y).scale (d.hscale / 100) (d.vscale / 100)).rotate
          (-d.angle)).scale sx sy).translate (-d.left) (-d.upper) ∧
        matrix.apply d.left d.upper = t.core.matrix.apply x y ∧ d.Fits sx sy ∧
        d.OfKeys (Image.attributes description.toList) := by
  intro d x y
  have run := run_image drawn t
  obtain ⟨output, written⟩ := t.exists_run_putSvg
    (d.element (String.ofList (Image.fileName file)) (d.transform t.core.matrix _ _))
  have hundred : (ofInt 100 : ℚ) = 100 := ofInt_rat 100
  refine ⟨d.transform t.core.matrix t.currentPoint.1 t.currentPoint.2, d.factors.1, d.factors.2,
    output, run, run.trans written, ?_, d.apply_transform _ _ _, d.fits_factors drawn.seen,
    Image.Drawing.ofKeys_ofAttributes _⟩
  rw [Image.Drawing.transform, hundred]

end Exact

/-- Sines and cosines of quarter turns. -/
@[reducible] def quarterTurns : Completion where
  infinite _ := 0
  undefined _ := 0
  sine x := if x = 90 then 1 else if x = -90 then -1 else 0
  cosine x := if x = 90 ∨ x = -90 then 0 else 1
  spell _ := ""

/-- A typesetter at a place. -/
def atPlace : Typesetter ℚ :=
  letI := quarterTurns
  [.moveRight 3, .moveDown 4].foldl after (.fragments (.ofList []))

/-- A description with all that there is to say of an image, of a part away from the origin. -/
def turnedFigure : String :=
  "psfile=fig.eps llx=10 lly=20 urx=30 ury=60 rwi=400 rhi=400 " ++
    "hoffset=1 voffset=2 hscale=50 vscale=200 angle=90"

/-- The figure is made twice as wide, then scaled again and turned, and its corner comes to its
    place. -/
theorem image_placement_turnedFigure :
    letI := quarterTurns
    let d : Image.Drawing ℚ := .ofAttributes (Image.attributes turnedFigure.toList)
    let matrix : Matrix ℚ := ⟨0, -4, 1 / 2, 0, -26, 42⟩
    (∃ output, (Command.image turnedFigure).execute.run.run atPlace =
        (putSvg (d.element "fig" matrix)).run.run atPlace ∧
      (Command.image turnedFigure).execute.run.run atPlace = (.ok (), { atPlace with output })) ∧
      (d.left = 10 ∧ d.lower = 20 ∧ d.right = 30 ∧ d.upper = 60) ∧
      matrix.apply 10 60 = (4, 2) := by
  let := quarterTurns
  intro d matrix
  have drawn : Image.Drawn ℚ turnedFigure "fig.eps".toList :=
    ⟨by decide +kernel, by decide, by decide +kernel⟩
  have name : String.ofList (Image.fileName "fig.eps".toList) = "fig" := by
    decide +kernel
  obtain ⟨matrix', sx, sy, output, run, ends, composed, placed, fits, keys⟩ :=
    image_placement atPlace drawn
  have corners : d.left = 10 ∧ d.lower = 20 ∧ d.right = 30 ∧ d.upper = 60 := by
    rw [keys.left, keys.lower, keys.right, keys.upper]
    decide +kernel
  have sides : d.width = 40 ∧ d.height = 40 ∧
      |d.right - d.left| = 20 ∧ |d.upper - d.lower| = 40 := by
    decide +kernel
  obtain ⟨width, height, right, upper⟩ := sides
  obtain rfl : sx = 2 := by
    have given := fits.width (width ▸ by norm_num)
    rw [right, width] at given
    linarith
  obtain rfl : sy = 1 := by
    have given := fits.height (height ▸ by norm_num)
    rw [upper, height] at given
    linarith
  obtain rfl : matrix' = matrix := by
    rw [composed]
    decide +kernel
  rw [name] at run
  have there : atPlace.core.matrix.apply (atPlace.currentPoint.1 + d.hoffset)
      (atPlace.currentPoint.2 - d.voffset) = (4, 2) := by
    decide +kernel
  rw [corners.1, corners.2.2.2, there] at placed
  exact ⟨⟨output, run, ends⟩, corners, placed⟩

end DviMarkup
