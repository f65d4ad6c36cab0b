/-
  The templates of markup.

  Texts, rules and images are written by templates: fixed text with holes.  What the
  document says stands in the holes only, and cannot end the place where a hole is.

  * `Slot.Allows` tells what can stand in a place: no brackets between tags, no
    double quote either in an attribute, and only a colour where a colour is;
  * `Template` is a text with holes, `Filling` is what can be filled in and
    `Template.fill` the text with it;
  * `span`, `text`, `rule` and `image` are the templates;
  * `exists_fill_span`, `exists_fill_text`, `exists_fill_rule` and `exists_fill_image`:
    this is how the pieces of a document are written, if texts are escaped as they should.
-/
import DviMarkup.Proofs.Command.Origins
import DviMarkup.Proofs.Number.Spelling
import DviMarkup.Proofs.Text.Escaping
import DviMarkup.Proofs.Typesetter.Elements
import DviMarkup.Typesetter.Image

namespace DviMarkup

open Scalar

/-! ## Places -/

/-- The kinds of places in markup. -/
inductive Slot where
  /-- Between tags. -/
  | content
  /-- In the value of an attribute. -/
  | value
  /-- A colour in the value of an attribute. -/
  | color

/-- Whether a text can stand in a place. -/
def Slot.Allows : Slot → String → Prop
  | content, s => ∀ c ∈ s.toList, c ≠ '<' ∧ c ≠ '>'
  | value, s => ∀ c ∈ s.toList, c ≠ '<' ∧ c ≠ '>' ∧ c ≠ '"'
  | color, s => IsColor s

theorem plain_of_isNumeralChar {c : Char} (h : isNumeralChar c = true) :
    c ≠ '<' ∧ c ≠ '>' ∧ c ≠ '"' ∧ c ≠ '\x7b' := by
  refine ⟨?_, ?_, ?_, ?_⟩ <;> (rintro rfl; exact absurd h (by decide))

theorem allows_markup (x : Binary64) : Slot.value.Allows (markup x) := fun c hc =>
  have h := plain_of_isNumeralChar (Binary64.isNumeralChar_markup x c hc)
  ⟨h.1, h.2.1, h.2.2.1⟩

theorem Slot.content_allows_empty : Slot.content.Allows "" := nofun

theorem Slot.value_allows_empty : Slot.value.Allows "" := nofun

theorem Escaping.Harmless.allows_content [Escaping] (harmless : Harmless) (s : String) :
    Slot.content.Allows (Escaping.content s) :=
  harmless.content s

theorem Escaping.Harmless.allows_value [Escaping] (harmless : Harmless) (s : String) :
    Slot.value.Allows (Escaping.value s) :=
  harmless.value s

/-! ## Templates -/

/-- The holes of the templates. -/
inductive Hole where
  | color | family | size | top | left | width | height | characters | file
  /-- The values of a transform. -/
  | a | b | c | d | e | f

/-- The place where a hole is. -/
def Hole.slot : Hole → Slot
  | color => .color
  | characters => .content
  | _ => .value

/-- What can be filled in. -/
structure Filling where
  text : Hole → String
  allowed : ∀ hole : Hole, hole.slot.Allows (text hole)

/-- A part of a template. -/
inductive Segment where
  | fixed (text : String)
  | hole (h : Hole)

/-- A text with holes. -/
abbrev Template := List Segment

def Segment.fill (filling : Filling) : Segment → String
  | fixed text => text
  | hole h => filling.text h

namespace Template

/-- The text with its holes filled in. -/
def fill (filling : Filling) (t : Template) : String :=
  String.join (t.map (Segment.fill filling))

section Fill

variable (filling : Filling)

@[simp] theorem fill_nil : fill filling [] = "" := rfl

@[simp] theorem fill_fixed (text : String) (t : Template) :
    fill filling (.fixed text :: t) = text ++ fill filling t :=
  String.join_cons

@[simp] theorem fill_hole (h : Hole) (t : Template) :
    fill filling (.hole h :: t) = filling.text h ++ fill filling t :=
  String.join_cons

@[simp] theorem fill_append (s t : Template) :
    fill filling (s ++ t) = fill filling s ++ fill filling t := by
  rw [fill, List.map_append, String.join_append, fill, fill]

end Fill

/-- A transform as an attribute, if there is one. -/
def transform : (transformed : Bool) → Template
  | false => []
  | true => [.fixed " transform=\"matrix(", .hole .a, .fixed " ", .hole .b, .fixed " ", .hole .c,
      .fixed " ", .hole .d, .fixed " ", .hole .e, .fixed " ", .hole .f, .fixed ")\""]

/-- A text outside of SVG. -/
def span : Template :=
  [.fixed "<span style=\"line-height: 0; color: ", .hole .color, .fixed "; font-family: ",
    .hole .family, .fixed "; font-size: ", .hole .size, .fixed "pt; position: absolute; top: ",
    .hole .top, .fixed "pt; left: ", .hole .left,
    .fixed "pt; overflow: visible;\"><span style=\"margin-top: -", .hole .size,
    .fixed "pt; line-height: 0pt; height: ", .hole .size,
    .fixed "pt; display: inline-block; vertical-align: baseline; \">", .hole .characters,
    .fixed "</span><span style=\"display: inline-block; vertical-align: ", .hole .height,
    .fixed "pt; height: 0pt; line-height: 0;\"></span></span>"]

/-- A text inside of SVG. -/
def text (transformed : Bool) : Template :=
  [.fixed "<text alignment-baseline=\"baseline\" y=\"", .hole .top, .fixed "\" x=\"", .hole .left,
    .fixed "\" font-family=\"", .hole .family, .fixed "\" font-size=\"", .hole .size,
    .fixed "\" fill=\"", .hole .color, .fixed "\""] ++ transform transformed ++
    [.fixed ">", .hole .characters, .fixed "</text>"]

/-- A rectangle. -/
def rule (transformed : Bool) : Template :=
  [.fixed "<rect x=\"", .hole .left, .fixed "\" y=\"", .hole .top, .fixed "\" width=\"",
    .hole .width, .fixed "\" height=\"", .hole .height, .fixed "\" fill=\"", .hole .color,
    .fixed "\""] ++ transform transformed ++ [.fixed "></rect>"]

/-- The place and the size of an image. -/
def imageBox : Template :=
  [.fixed " x=\"", .hole .left, .fixed "\" y=\"", .hole .top, .fixed "\" width=\"", .hole .width,
    .fixed "\" height=\"", .hole .height, .fixed "\" href=\""]

/-- An image. -/
def image (transformed : Bool) : Template :=
  [.fixed "<image"] ++ imageBox ++ [.hole .file, .fixed "\""] ++ transform transformed ++
    [.fixed "></image>"]

end Template

/-! ## Texts and rules -/

/-- What is filled in for numbers and for texts that can stand in their places. -/
def Filling.ofNumbers {color family characters file : String} (hcolor : IsColor color)
    (hfamily : Slot.value.Allows family) (hcharacters : Slot.content.Allows characters)
    (hfile : Slot.value.Allows file) (number : Hole → Binary64) : Filling where
  text
    | .color => color
    | .family => family
    | .characters => characters
    | .file => file
    | hole => markup (number hole)
  allowed
    | .color => hcolor
    | .family => hfamily
    | .characters => hcharacters
    | .file => hfile
    | .size | .top | .left | .width | .height | .a | .b | .c | .d | .e | .f => allows_markup _

/-- The value of a transform for a hole. -/
def Matrix.at (m : Matrix Binary64) : Hole → Binary64
  | .a => m.a
  | .b => m.b
  | .c => m.c
  | .d => m.d
  | .e => m.e
  | .f => m.f
  | _ => zero

/-- The number for a hole: the value of a transform, if it is not one of the given. -/
def Hole.number (m : Matrix Binary64) (size top left width height : Binary64) : Hole → Binary64
  | .size => size
  | .top => top
  | .left => left
  | .width => width
  | .height => height
  | hole => m.at hole

/-- What is filled in for a piece: a colour, two texts and the numbers. -/
def Filling.ofPiece {color family characters : String} (hcolor : IsColor color)
    (hfamily : Slot.value.Allows family) (hcharacters : Slot.content.Allows characters)
    (number : Hole → Binary64) : Filling :=
  .ofNumbers hcolor hfamily hcharacters Slot.value_allows_empty number

/-- The values of a transform stand in its attribute. -/
theorem fill_transform (m : Matrix Binary64) {filling : Filling}
    (h : ∀ hole ∈ [Hole.a, .b, .c, .d, .e, .f], filling.text hole = markup (m.at hole)) :
    (Template.transform !m.isIdentity).fill filling = m.svgAttribute := by
  simp only [List.mem_cons, List.not_mem_nil, or_false, forall_eq_or_imp, forall_eq] at h
  obtain ⟨ha, hb, hc, hd, he, hf⟩ := h
  unfold Matrix.svgAttribute
  cases m.isIdentity with
  | true => rfl
  | false =>
    simp [Template.transform, Matrix.toList, Matrix.at, ha, hb, hc, hd, he, hf, String.append_assoc]

section Pieces

variable {color : String} (hcolor : IsColor color)

include hcolor

/-- The transform is filled in for the piece. -/
theorem fill_transform_ofPiece {family characters : String} (hfamily : Slot.value.Allows family)
    (hcharacters : Slot.content.Allows characters) (m : Matrix Binary64)
    (size top left width height : Binary64) :
    (Template.transform !m.isIdentity).fill (.ofPiece hcolor hfamily hcharacters
      (Hole.number m size top left width height)) = m.svgAttribute :=
  fill_transform m (by simp [Filling.ofPiece, Filling.ofNumbers, Hole.number])

/-- A text outside of SVG is written by its template. -/
theorem exists_fill_span [Escaping] (harmless : Escaping.Harmless) (family : String)
    (size top left height : Binary64) (characters : String) :
    ∃ filling, Piece.render (.span color family size top left height characters) =
      Template.span.fill filling := by
  refine ⟨.ofPiece hcolor (harmless.allows_value family) (harmless.allows_content characters)
    (Hole.number .identity size top left zero height), ?_⟩
  dsimp only [Piece.render]
  simp [Template.span, Filling.ofPiece, Filling.ofNumbers, Hole.number, String.append_assoc]

/-- A text inside of SVG is written by its template. -/
theorem exists_fill_text [Escaping] (harmless : Escaping.Harmless) (y x : Binary64)
    (family : String) (size : Binary64) (m : Matrix Binary64) (characters : String) :
    ∃ filling, Piece.render (.text y x family size color m characters) =
      (Template.text !m.isIdentity).fill filling := by
  refine ⟨.ofPiece hcolor (harmless.allows_value family) (harmless.allows_content characters)
    (Hole.number m size y x zero zero), ?_⟩
  rw [Template.text, Template.fill_append, Template.fill_append, fill_transform_ofPiece]
  dsimp only [Piece.render]
  simp [Filling.ofPiece, Filling.ofNumbers, Hole.number, String.append_assoc]

/-- A rectangle is written by its template. -/
theorem exists_fill_rule [Escaping] (x y width height : Binary64) (m : Matrix Binary64) :
    ∃ filling, Piece.render (.rule x y width height color m) =
      (Template.rule !m.isIdentity).fill filling := by
  refine ⟨.ofPiece hcolor Slot.value_allows_empty Slot.content_allows_empty
    (Hole.number m zero y x width height), ?_⟩
  rw [Template.rule, Template.fill_append, Template.fill_append, fill_transform_ofPiece]
  dsimp only [Piece.render]
  simp [Filling.ofPiece, Filling.ofNumbers, Hole.number, String.append_assoc]

end Pieces

/-! ## Images -/

namespace Svg

theorem resolveMarks_map_char (header : List Char) (depth : Int) (s : List Char) :
    resolveMarks header depth (s.map .char) = (s, depth) := by
  induction s with
  | nil => rfl
  | cons c s ih => simp only [List.map_cons, resolveMarks, Mark.resolve, ih, List.cons_append,
      List.nil_append]

/-- The element of an image is written as it is. -/
theorem resolve_image (header : List Char) (depth : Int) {s : List Char} (h : '<' ∉ s) :
    resolve header depth ("<image".toList ++ (s ++ "</image>".toList)) =
      ("<image".toList ++ (s ++ "</image>".toList), depth) := by
  have front (rest : List Char) : marks ('<' :: 'i' :: rest) = .char '<' :: marks ('i' :: rest) := by
    have : firstMark '<' ('i' :: rest) = (.char '<', 1) := by
      simp [firstMark, closeText, startsOpenTag, openText, List.isPrefixOf, List.isPrefixOf?]
    rw [marks, this]
    rfl
  have back : marks "</image>".toList = "</image>".toList.map .char := by
    decide +kernel
  have hmarks : marks ("<image".toList ++ (s ++ "</image>".toList)) =
      ("<image".toList ++ (s ++ "</image>".toList)).map .char := by
    have hname : '<' ∉ "image".toList ++ s := by
      simp [h]
    calc marks ("<image".toList ++ (s ++ "</image>".toList))
      _ = .char '<' :: marks (("image".toList ++ s) ++ "</image>".toList) := front _
      _ = .char '<' :: (("image".toList ++ s).map .char ++ "</image>".toList.map .char) := by
        rw [marks_append hname, back]
      _ = _ := by simp
  rw [resolve, hmarks, resolveMarks_map_char]

/-- The place is put only into what stands between texts that do not ask for it. -/
theorem placed_append {x y front back : List Char} (hfront : '\x7b' ∉ front)
    (hback : '\x7b' ∉ back) (s : List Char) :
    placed x y (front ++ (s ++ '"' :: back)) = front ++ (placed x y s ++ '"' :: back) := by
  have replaced (rest new s : List Char) (h : '"' ∉ rest) :
      Text.replaceAll '\x7b' rest new (front ++ (s ++ '"' :: back)) =
        front ++ (Text.replaceAll '\x7b' rest new s ++ '"' :: back) := by
    rw [Text.replaceAll_append_of_not_mem hfront, Text.replaceAll_append_cons (by decide) h,
      Text.replaceAll_of_not_mem hback]
  rw [placed, replaced _ _ _ (by decide), replaced _ _ _ (by decide), placed]

theorem mem_placed {x y s : List Char} {c : Char} (h : c ∈ placed x y s) :
    c ∈ x ∨ c ∈ y ∨ c ∈ s := by
  rcases Text.mem_replaceAll h with h | h
  · exact .inr (.inl h)
  · exact (Text.mem_replaceAll h).imp_right .inr

end Svg

/-- A text with the place in it can stand in an attribute if the text can. -/
theorem allows_placed (x y : Binary64) {s : String} (h : Slot.value.Allows s) :
    Slot.value.Allows
      (String.ofList (Svg.placed (markup x).toList (markup y).toList s.toList)) := by
  intro c hc
  rw [String.toList_ofList] at hc
  rcases Svg.mem_placed hc with hc | hc | hc
  · exact allows_markup x c hc
  · exact allows_markup y c hc
  · exact h c hc

/-- Whether a part of a template is a number or fixed text without a character. -/
def Segment.avoids (c : Char) : Segment → Bool
  | fixed text => !text.toList.contains c
  | hole .color | hole .family | hole .characters | hole .file => false
  | hole _ => true

/-- What is filled in for an image: the name of the file and the numbers. -/
def Filling.ofImage {file : String} (hfile : Slot.value.Allows file)
    (number : Hole → Binary64) : Filling :=
  .ofNumbers (.inl rfl) Slot.value_allows_empty Slot.content_allows_empty hfile number

/-- A character of which no number is made does not come in with the numbers. -/
theorem not_mem_fill {c : Char} (hc : isNumeralChar c = false) {t : Template}
    (h : t.all (Segment.avoids c) = true) {file : String} (hfile : Slot.value.Allows file)
    (number : Hole → Binary64) : c ∉ (t.fill (.ofImage hfile number)).toList := by
  have hmarkup (x : Binary64) : c ∉ (markup x).toList := fun hmem => by
    rw [Binary64.isNumeralChar_markup x c hmem] at hc
    cases hc
  induction t with
  | nil => simp
  | cons segment t ih =>
    rw [List.all_cons, Bool.and_eq_true] at h
    cases segment with
    | fixed text =>
      have : c ∉ text.toList := by simpa [Segment.avoids] using h.1
      simp [this, ih h.2]
    | hole hole =>
      rw [Template.fill_hole, String.toList_append, List.mem_append, not_or]
      refine ⟨?_, ih h.2⟩
      cases hole with
      | color => cases h.1
      | family => cases h.1
      | characters => cases h.1
      | file => cases h.1
      | _ => exact hmarkup _

/-- **The element of an image is written by its template**, with the place in the name of
    its file, wherever it is written.  It leaves the number of open elements as it is. -/
theorem exists_fill_image [Escaping] (d : Image.Drawing Binary64) {file : String}
    (hfile : Slot.value.Allows (Escaping.value file)) (m : Matrix Binary64)
    (header : List Char) (depth : Int) (x y : Binary64) :
    (Svg.resolve header depth (d.element file m).toList).2 = depth ∧
      ∃ filling, filling.text .file = String.ofList (Svg.placed (markup x).toList
          (markup y).toList (Escaping.value file).toList) ∧
        String.ofList (Svg.placed (markup x).toList (markup y).toList
            (Svg.resolve header depth (d.element file m).toList).1) =
          (Template.image !m.isIdentity).fill filling := by
  let name := Escaping.value file
  let number := Hole.number m zero d.lower d.left (d.right - d.left) (d.upper - d.lower)
  let filling := Filling.ofImage (allows_placed x y hfile) number
  let box := (Template.imageBox.fill filling).toList
  have transform : (Template.transform !m.isIdentity).fill filling = m.svgAttribute :=
    fill_transform m (by simp [filling, Filling.ofImage, Filling.ofNumbers, number, Hole.number])
  -- no tag begins and no place is asked for in the numbers
  have hbox (c : Char) (hc : isNumeralChar c = false)
      (h : Template.imageBox.all (Segment.avoids c) = true) : c ∉ box :=
    not_mem_fill hc h _ number
  have htransform (c : Char) (hc : isNumeralChar c = false)
      (h : ∀ transformed, (Template.transform transformed).all (Segment.avoids c) = true) :
      c ∉ m.svgAttribute.toList := by
    rw [← transform]
    exact not_mem_fill hc (h _) _ number
  have element : (d.element file m).toList = "<image".toList ++
      (box ++ (name.toList ++ '"' :: (m.svgAttribute.toList ++ ['>'])) ++ "</image>".toList) := by
    unfold Image.Drawing.element
    simp [box, Template.imageBox, filling, Filling.ofImage, Filling.ofNumbers, number, Hole.number,
      name]
  have resolved : Svg.resolve header depth (d.element file m).toList =
      ((d.element file m).toList, depth) := by
    have hname : '<' ∉ name.toList := fun h => (hfile _ h).1 rfl
    rw [element, Svg.resolve_image]
    simp [hbox '<' (by decide) (by decide), hname, htransform '<' (by decide) (by decide)]
  have shape : (d.element file m).toList = ("<image".toList ++ box) ++
      (name.toList ++ '"' :: (m.svgAttribute.toList ++ "></image>".toList)) := by
    rw [element]
    simp
  refine ⟨congrArg Prod.snd resolved, filling, rfl, ?_⟩
  rw [resolved, shape, Svg.placed_append (by simp [hbox '\x7b' (by decide) (by decide)])
    (by simp [htransform '\x7b' (by decide) (by decide)]), ← String.toList_inj,
    String.toList_ofList, Template.image, Template.fill_append, Template.fill_append,
    Template.fill_append, Template.fill_append, transform]
  simp [box, filling, Filling.ofImage, Filling.ofNumbers, name]

end DviMarkup
