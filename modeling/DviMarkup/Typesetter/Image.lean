/-
  Images that specials describe.

  A description is a list of keys, some of them with a value after an equals
  sign: the name of the file, the corners of the part to show, the size that it
  is to have, and how to move, scale and turn it.

  * `Image.attributes` reads a description, and `Image.attribute?` looks a key up;
  * `Image.Drawing` is what a description says, in numbers;
  * `Image.Drawing.transform` is the transform of the image and
    `Image.Drawing.element` the element for it;
  * `Image.draw` draws an image.
-/
import DviMarkup.Typesetter.Basic

namespace DviMarkup.Image

open Scalar

/-! ## Descriptions -/

/-- Whether a character belongs to a key. -/
def isKeyChar (c : Char) : Bool := !(c = '=' || Text.isBlank c)

/-- The value at the front of a text, and the text after it: after an equals
    sign, what is between quotes or else all up to a blank. -/
def value : List Char → List Char × List Char
  | '=' :: '"' :: s => (s.takeWhile (· ≠ '"'), (s.dropWhile (· ≠ '"')).drop 1)
  | '=' :: s => (s.takeWhile (!Text.isBlank ·), s.dropWhile (!Text.isBlank ·))
  | s => ([], s)

/-- The key and the value at the front of a text, and the text after them. -/
def entry (s : List Char) : (List Char × List Char) × List Char :=
  let key := (s.takeWhile isKeyChar).map Char.toLower
  let (v, rest) := value (s.dropWhile isKeyChar)
  ((key, v), Text.trimStart rest)

theorem length_dropWhile_le {τ : Type} (p : τ → Bool) (s : List τ) :
    (s.dropWhile p).length ≤ s.length :=
  (List.dropWhile_sublist p).length_le

theorem length_value_le (s : List Char) : (value s).2.length ≤ s.length := by
  unfold value
  split
  · rename_i s
    have := length_dropWhile_le (· ≠ '"') s
    simp only [List.length_drop, List.length_cons]
    omega
  · rename_i s _
    have := length_dropWhile_le (!Text.isBlank ·) s
    simp only [List.length_cons]
    omega
  · exact Nat.le_refl _

/-- Every entry uses up a character, as long as no blank is in front. -/
theorem length_entry_lt (c : Char) (s : List Char) (h : Text.isBlank c = false) :
    (entry (c :: s)).2.length < (c :: s).length := by
  have trim := length_dropWhile_le Text.isBlank
  have key := length_dropWhile_le isKeyChar s
  have val := length_value_le
  by_cases hc : c = '='
  · subst hc
    simp only [entry, Text.trimStart]
    rw [List.dropWhile_cons_of_neg (by decide)]
    refine Nat.lt_of_le_of_lt (trim _) ?_
    unfold value
    split
    · rename_i s' heq
      cases heq
      have := length_dropWhile_le (· ≠ '"') s'
      simp only [List.length_drop, List.length_cons]
      omega
    · rename_i s' _ heq
      cases heq
      have := length_dropWhile_le (!Text.isBlank ·) s
      simp only [List.length_cons]
      omega
    · rename_i h₁ h₂
      exact absurd rfl (h₂ s)
  · have hk : isKeyChar c = true := by simp [isKeyChar, hc, h]
    simp only [entry, Text.trimStart]
    rw [List.dropWhile_cons_of_pos hk]
    have h₁ := trim (value (s.dropWhile isKeyChar)).2
    have h₂ := val (s.dropWhile isKeyChar)
    simp only [List.length_cons]
    omega

/-- The entries of a text without blanks in front. -/
def entries (s : List Char) : List (List Char × List Char) :=
  match s with
  | [] => []
  | c :: rest =>
    if h : Text.isBlank c then []
    else
      have := length_entry_lt c rest (by simpa using h)
      (entry (c :: rest)).1 :: entries (entry (c :: rest)).2
termination_by s.length
decreasing_by exact this

/-- The values of the keys, of which the last for a key counts. -/
def attributes (description : List Char) : List (List Char × List Char) :=
  Table.ofPairs (entries (Text.trimStart description))

/-- The value of a key, if it is there. -/
def attribute? (table : List (List Char × List Char)) (key : String) : Option (List Char) :=
  table.lookup key.toList

/-! ## Drawings -/

variable {α : Type} [Scalar α]

/-- The number that a key has for a value, or the given one. -/
def number (table : List (List Char × List Char)) (key : String) (default : Int) : α :=
  match (attribute? table key).bind Numeral.parse? with
  | some n => ofNumeral n
  | none => ofInt default

/-- What a description says. -/
structure Drawing (α : Type) where
  /-- The corners of the part to show, in points. -/
  left : α
  lower : α
  right : α
  upper : α
  /-- The size that it is to have, in points; below zero if it is not given. -/
  width : α
  height : α
  /-- How far to move it. -/
  hoffset : α
  voffset : α
  /-- How to scale it, in percent. -/
  hscale : α
  vscale : α
  /-- How far to turn it, in degrees. -/
  angle : α

/-- The numbers in a description; sizes are given in tenths of a point. -/
def Drawing.ofAttributes (table : List (List Char × List Char)) : Drawing α where
  left := number table "llx" 0
  lower := number table "lly" 0
  right := number table "urx" 0
  upper := number table "ury" 0
  width := number table "rwi" (-1) / ofInt 10
  height := number table "rhi" (-1) / ofInt 10
  hoffset := number table "hoffset" 0
  voffset := number table "voffset" 0
  hscale := number table "hscale" 100
  vscale := number table "vscale" 100
  angle := number table "angle" 0

namespace Drawing

/-- Whether there is nothing to see of the image. -/
def isEmpty (d : Drawing α) : Bool :=
  eq d.width zero || eq d.height zero || eq d.right d.left || eq d.upper d.lower

/-- The factors that bring the part to show to the size it is to have.  If only
    one side is given, both have its factor; if none is, the size stays. -/
def factors (d : Drawing α) : α × α :=
  let sx := d.width / abs (d.left - d.right)
  let sy := d.height / abs (d.lower - d.upper)
  let sx := if lt sx zero then sy else sx
  let sy := if lt sy zero then sx else sy
  if lt sx zero then (one, one) else (sx, sy)

/-- The transform of an image at a place. -/
def transform (d : Drawing α) (current : Matrix α) (x y : α) : Matrix α :=
  let (sx, sy) := d.factors
  current.translate (x + d.hoffset) (y - d.voffset)
    |>.scale (d.hscale / ofInt 100) (d.vscale / ofInt 100)
    |>.rotate (-d.angle)
    |>.scale sx sy
    |>.translate (-d.left) (-d.upper)

/-- The element for an image in a file. -/
def element [Escaping] (d : Drawing α) (file : String) (transform : Matrix α) : String :=
  "<image x=\"" ++ markup d.left ++ "\" y=\"" ++ markup d.lower ++ "\" width=\"" ++
    markup (d.right - d.left) ++ "\" height=\"" ++ markup (d.upper - d.lower) ++ "\" href=\"" ++
    Escaping.value file ++ "\"" ++ transform.svgAttribute ++ "></image>"

end Drawing

/-- The name of the file without the ending that is implied. -/
def fileName (file : List Char) : List Char :=
  (Text.dropEnding? ".eps".toList file).getD file

/-- Draws the image that a description is about, if it names a file and there is
    anything to see. -/
def draw [Escaping] (description : String) : Action α Unit := do
  let table := attributes description.toList
  let file := (attribute? table "psfile").getD []
  let d : Drawing α := .ofAttributes table
  if file.isEmpty || d.isEmpty then return ()
  let t ← get
  let (x, y) := t.currentPoint
  Typesetter.putSvg (d.element (String.ofList (fileName file)) (d.transform t.core.matrix x y))

end DviMarkup.Image
