/-
  Elements in fragments.

  A balanced fragment closes what it opens.  The number of open elements is kept by
  a scan that looks only at how tags begin, so two kinds of elements make a
  difference to it: an element `svg` without an end tag is counted as open for
  ever, and of an element whose name only begins with `svg` nothing but the end tag
  is counted.

  * `Xml.Content` is balanced content, `Content.text` is how it is written;
  * `Content.emptySvg` and `Content.lookalikes` are the numbers of elements of the
    two kinds;
  * `Svg.change_marks_cons`: the scan counts at each place of a fragment for itself;
  * `Xml.depth_putSvg_text`: the number of open elements after a balanced fragment;
    if there are as many elements of one kind as of the other, text is placed as
    before.
-/
import DviMarkup.Proofs.Text.Markup
import DviMarkup.Proofs.Typesetter.Pictures

namespace DviMarkup

open Scalar

/-! ## The scan, place by place -/

namespace Svg

theorem firstMark_of_ne {c : Char} (h : c ≠ '<') (rest : List Char) :
    firstMark c rest = (.char c, 1) := by
  have hc : ('<' == c) = false := beq_false_of_ne h.symm
  have hclose : closeText.isPrefixOf (c :: rest) = false := by
    simp [closeText, List.isPrefixOf, hc]
  have hopen : startsOpenTag (c :: rest) = false := by
    simp [startsOpenTag, openText, List.isPrefixOf?, hc]
  simp [firstMark, hclose, hopen]

/-- What is counted where a tag begins. -/
theorem change_firstMark (rest : List Char) :
    (firstMark '<' rest).1.change =
      if closeText.isPrefixOf ('<' :: rest) then -1
      else if startsOpenTag ('<' :: rest) then 1 else 0 := by
  fun_cases firstMark '<' rest with
  | case1 s hclose hend => rw [if_pos hclose, Mark.change]
  | case2 s hclose hend => rw [if_pos hclose, Mark.change]
  | case3 s hclose hopen hbegin => rw [if_neg hclose, if_pos hopen, Mark.change]
  | case4 s hclose hopen hbegin => rw [if_neg hclose, if_pos hopen, Mark.change]
  | case5 s hclose hopen => rw [if_neg hclose, if_neg hopen, Mark.change]

/-- Nothing of a text is a tag if no tag begins in it. -/
theorem marks_append {s : List Char} (h : '<' ∉ s) (rest : List Char) :
    marks (s ++ rest) = s.map .char ++ marks rest := by
  induction s with
  | nil => rfl
  | cons c s ih =>
    rw [List.mem_cons, not_or] at h
    rw [List.cons_append, marks, firstMark_of_ne (Ne.symm h.1), List.map_cons, List.cons_append]
    exact congrArg _ (ih h.2)

theorem change_map_char (s : List Char) : change (s.map .char) = 0 := by
  induction s with
  | nil => rfl
  | cons c s ih => rw [List.map_cons, change_cons, ih, Mark.change, Int.zero_add]

/-- Nothing is counted in a text in which no tag begins. -/
theorem change_marks_append {s : List Char} (h : '<' ∉ s) (rest : List Char) :
    change (marks (s ++ rest)) = change (marks rest) := by
  rw [marks_append h, change_append, change_map_char, Int.zero_add]

/-- In a piece, a tag begins with the first character at most. -/
theorem not_mem_tail_text (m : Mark) : '<' ∉ m.text.tail := by
  cases m with
  | char c => simp [Mark.text]
  | _ => decide

/-- **The scan counts at each place for itself**, although it goes on only after the
    piece that it found. -/
theorem change_marks_cons (c : Char) (rest : List Char) :
    change (marks (c :: rest)) = (firstMark c rest).1.change + change (marks rest) := by
  have tail : (firstMark c rest).1.text.tail ++ rest.drop ((firstMark c rest).2 - 1) = rest := by
    have whole := text_firstMark c rest
    cases htext : (firstMark c rest).1.text with
    | nil =>
      generalize (firstMark c rest).1 = m at htext
      cases m <;> cases htext
    | cons d text =>
      rw [htext, List.cons_append] at whole
      exact (List.cons.inj whole).2
  have skipped := change_marks_append (not_mem_tail_text (firstMark c rest).1)
    (rest.drop ((firstMark c rest).2 - 1))
  rw [tail] at skipped
  rw [marks, change_cons, skipped]

end Svg

/-! ## What text depends on -/

namespace Markup

variable {α : Type} [Scalar α]

theorem depth_putSvg (m : Markup α) (x y : α) (fragment : String) :
    (m.putSvg x y fragment).depth = m.depth + Svg.change (Svg.marks fragment.toList) := by
  rw [putSvg_eq]

/-- Text is placed by what is kept of the number of open elements, the colour and the
    unit. -/
theorem exists_piece_putText {m m' : Markup α} (depth : m'.depth = m.depth)
    (color : m'.color = m.color) (unit : m'.pointsPerUnit = m.pointsPerUnit) (x y : α)
    (transform : Matrix α) (font : Font) (height : α) (characters : String) :
    ∃ piece, m.putText x y transform font height characters = m.write piece ∧
      m'.putText x y transform font height characters = m'.write piece := by
  simp only [Markup.putText, Markup.points, depth, color, unit]
  split
  · exact ⟨_, rfl, rfl⟩
  · exact ⟨_, rfl, rfl⟩

end Markup

namespace Xml

/-! ## Balanced content -/

/-- Whether a character separates the parts of a tag. -/
def isSpace (c : Char) : Bool :=
  c = ' ' || c = '\t' || c = '\n' || c = '\r'

/-- Whether a character ends the name in a tag. -/
def endsName (c : Char) : Bool :=
  c = '>' || c = '/' || isSpace c

/-- The name of an element. -/
structure ElementName where
  text : List Char
  text_ne_nil : text ≠ [] := by decide
  plain : ∀ c ∈ text, c ≠ '<' ∧ endsName c = false := by simp [endsName, isSpace]

/-- What stands in a tag after the name: nothing, or attributes after a space.  No
    tag begins in it. -/
structure Attributes where
  text : List Char
  apart : ∀ c ∈ text.head?, isSpace c = true := by simp [isSpace]
  plain : '<' ∉ text := by decide

/-- Balanced content: texts, and elements with an end tag or without. -/
inductive Content where
  | nil
  /-- A character of a text. -/
  | char (c : Char) (plain : c ≠ '<') (rest : Content)
  /-- An element with what is in it, and what comes after it. -/
  | element (name : ElementName) (attributes closing : Attributes) (inner rest : Content)
  /-- An element that ends with its start tag, and what comes after it. -/
  | empty (name : ElementName) (attributes : Attributes) (rest : Content)

/-- Whether the name is that of the element `svg`.  A blank that is no space does
    not end a name, but it does for the scan. -/
def ElementName.isSvg (n : ElementName) : Bool :=
  match "svg".toList.isPrefixOf? n.text with
  | some [] => true
  | some (c :: _) => Text.isBlank c
  | none => false

/-- Whether the name begins with `svg`. -/
def ElementName.beginsSvg (n : ElementName) : Bool :=
  "svg".toList.isPrefixOf n.text

/-- Whether the name begins with `svg` but is another one. -/
def ElementName.isLookalike (n : ElementName) : Bool :=
  n.beginsSvg && !n.isSvg

namespace Content

/-- How content is written. -/
def text : Content → List Char
  | nil => []
  | char c _ rest => c :: rest.text
  | element name attributes closing inner rest =>
    '<' :: (name.text ++ (attributes.text ++ '>' :: (inner.text ++
      '<' :: '/' :: (name.text ++ (closing.text ++ '>' :: rest.text)))))
  | empty name attributes rest =>
    '<' :: (name.text ++ (attributes.text ++ '/' :: '>' :: rest.text))

/-- The number of elements `svg` that end with their start tags. -/
def emptySvg : Content → Nat
  | nil => 0
  | char _ _ rest => rest.emptySvg
  | element _ _ _ inner rest => inner.emptySvg + rest.emptySvg
  | empty name _ rest => name.isSvg.toNat + rest.emptySvg

/-- The number of elements with an end tag whose names only begin with `svg`. -/
def lookalikes : Content → Nat
  | nil => 0
  | char _ _ rest => rest.lookalikes
  | element name _ _ inner rest => name.isLookalike.toNat + inner.lookalikes + rest.lookalikes
  | empty _ _ rest => rest.lookalikes

end Content

/-! ## Tags -/

theorem not_mem_svg {c : Char} (h : endsName c = true) : c ∉ "svg".toList := by
  intro hc
  simp only [String.reduceToList, List.mem_cons, List.not_mem_nil, or_false] at hc
  obtain rfl | rfl | rfl := hc <;> exact absurd h (by decide)

theorem svgEndsName_of_endsName {c : Char} (h : endsName c = true) : Svg.endsName c = true := by
  simp only [endsName, isSpace, Bool.or_eq_true, decide_eq_true_eq] at h
  obtain (rfl | rfl) | ((rfl | rfl) | rfl) | rfl := h <;> decide

/-- In a name, only a blank ends it for the scan. -/
theorem svgEndsName_of_not {c : Char} (h : endsName c = false) :
    Svg.endsName c = Text.isBlank c := by
  simp only [endsName, Bool.or_eq_false_iff, decide_eq_false_iff_not] at h
  simp [Svg.endsName, h.1.1, h.1.2]

theorem Attributes.exists_cons (a : Attributes) {d : Char} (hd : endsName d = true)
    (rest : List Char) : ∃ e s, a.text ++ d :: rest = e :: s ∧ endsName e = true := by
  cases htext : a.text with
  | nil => exact ⟨d, rest, rfl, hd⟩
  | cons c s =>
    have hc : isSpace c = true := a.apart c (by rw [htext]; rfl)
    exact ⟨c, s ++ d :: rest, rfl, by simp [endsName, hc]⟩

namespace ElementName

variable (n : ElementName) {d : Char} (hd : endsName d = true) (rest : List Char)

include hd

/-- A start tag is counted if the name is `svg`. -/
theorem startsOpenTag_append :
    Svg.startsOpenTag ('<' :: (n.text ++ d :: rest)) = n.isSvg := by
  have front : Svg.openText.isPrefixOf? ('<' :: (n.text ++ d :: rest)) =
      ("svg".toList.isPrefixOf? n.text).map (· ++ d :: rest) := by
    rw [← Text.isPrefixOf?_append_cons (not_mem_svg hd)]
    rfl
  rw [Svg.startsOpenTag, front, isSvg]
  cases h : "svg".toList.isPrefixOf? n.text with
  | none => rfl
  | some tail =>
    cases tail with
    | nil => exact svgEndsName_of_endsName hd
    | cons c tail =>
      have hc : c ∈ n.text := by
        rw [← List.append_eq_of_isPrefixOf?_eq_some h]
        simp
      exact svgEndsName_of_not (n.plain c hc).2

omit hd in
/-- A start tag is no end tag. -/
theorem closeText_isPrefixOf_append :
    Svg.closeText.isPrefixOf ('<' :: (n.text ++ d :: rest)) = false := by
  cases htext : n.text with
  | nil => exact absurd htext n.text_ne_nil
  | cons c s =>
    have hc : c ≠ '/' := by
      rintro rfl
      exact absurd (n.plain '/' (by simp [htext])).2 (by decide)
    have : ('/' == c) = false := beq_false_of_ne hc.symm
    simp [Svg.closeText, List.isPrefixOf, this]

/-- An end tag is counted if the name begins with `svg`. -/
theorem closeText_isPrefixOf_slash_append :
    Svg.closeText.isPrefixOf ('<' :: '/' :: (n.text ++ d :: rest)) = n.beginsSvg := by
  have front : Svg.closeText.isPrefixOf ('<' :: '/' :: (n.text ++ d :: rest)) =
      "svg".toList.isPrefixOf (n.text ++ d :: rest) := rfl
  rw [front, ← List.isSome_isPrefixOf?_eq_isPrefixOf, Text.isPrefixOf?_append_cons (not_mem_svg hd),
    Option.isSome_map, List.isSome_isPrefixOf?_eq_isPrefixOf, beginsSvg]

omit hd in
theorem beginsSvg_of_isSvg (h : n.isSvg = true) : n.beginsSvg = true := by
  rw [beginsSvg, ← List.isSome_isPrefixOf?_eq_isPrefixOf]
  unfold isSvg at h
  split at h
  · rename_i hn
    rw [hn]
    rfl
  · rename_i hn
    rw [hn]
    rfl
  · cases h

end ElementName

/-! ## Counting in balanced content -/

section Tags

variable (n : ElementName) (a : Attributes) {d : Char} (hd : endsName d = true) (plain : d ≠ '<')
  (rest : List Char)

include hd plain

theorem change_startTag :
    Svg.change (Svg.marks ('<' :: (n.text ++ (a.text ++ d :: rest)))) =
      n.isSvg.toNat + Svg.change (Svg.marks rest) := by
  obtain ⟨e, s, hs, he⟩ := a.exists_cons hd rest
  have name : '<' ∉ n.text := fun h => (n.plain _ h).1 rfl
  have step := Svg.change_marks_append (s := [d]) (by simpa using plain.symm) rest
  rw [Svg.change_marks_cons, Svg.change_marks_append name, Svg.change_marks_append a.plain,
    ← step, Svg.change_firstMark, hs, n.closeText_isPrefixOf_append, n.startsOpenTag_append he]
  cases n.isSvg <;> rfl

theorem change_endTag :
    Svg.change (Svg.marks ('<' :: '/' :: (n.text ++ (a.text ++ d :: rest)))) =
      -n.beginsSvg.toNat + Svg.change (Svg.marks rest) := by
  obtain ⟨e, s, hs, he⟩ := a.exists_cons hd rest
  have name : '<' ∉ n.text := fun h => (n.plain _ h).1 rfl
  have step := Svg.change_marks_append (s := [d]) (by simpa using plain.symm) rest
  have slash := Svg.change_marks_append (s := ['/']) (by decide)
  have noStart : Svg.startsOpenTag ('<' :: '/' :: (n.text ++ e :: s)) = false := rfl
  rw [Svg.change_marks_cons, ← List.singleton_append, slash, Svg.change_marks_append name,
    Svg.change_marks_append a.plain, ← step, Svg.change_firstMark, hs, List.singleton_append,
    n.closeText_isPrefixOf_slash_append he, noStart]
  cases n.beginsSvg <;> rfl

end Tags

/-- **Balanced content is counted right but for two kinds of elements.** -/
theorem Content.change_marks_text (content : Content) (rest : List Char) :
    Svg.change (Svg.marks (content.text ++ rest)) =
      content.emptySvg - content.lookalikes + Svg.change (Svg.marks rest) := by
  induction content generalizing rest with
  | nil => simp [text, emptySvg, lookalikes]
  | char c plain content ih =>
    have step := Svg.change_marks_append (s := [c]) (by simpa using plain.symm)
    rw [text, ← List.singleton_append, List.append_assoc, step, ih, emptySvg, lookalikes]
  | element name attributes closing inner content hinner hcontent =>
    have both : name.isSvg.toNat - name.beginsSvg.toNat = -(name.isLookalike.toNat : Int) := by
      have begins := name.beginsSvg_of_isSvg
      rw [ElementName.isLookalike]
      cases hsvg : name.isSvg with
      | true => rw [begins hsvg]; rfl
      | false => simp
    simp only [text, List.cons_append, List.append_assoc, emptySvg, lookalikes]
    rw [change_startTag name attributes rfl (by decide), hinner,
      change_endTag name closing rfl (by decide), hcontent]
    push_cast
    omega
  | empty name attributes content ih =>
    have step := Svg.change_marks_append (s := ['>']) (by decide)
    simp only [text, List.cons_append, List.append_assoc, emptySvg, lookalikes]
    rw [change_startTag name attributes rfl (by decide), ← List.singleton_append, step, ih]
    push_cast
    omega

/-! ## Balanced fragments -/

variable {α : Type} [Scalar α]

/-- **A balanced fragment leaves the number of open elements as it was, but for the
    elements `svg` that end with their start tags, which it adds, and the elements
    whose names only begin with `svg`, which it takes off.**  If there are as many of
    one kind as of the other, the same is written for every text as without the
    fragment. -/
theorem depth_putSvg_text (m : Markup α) (x y : α) (content : Content) :
    (m.putSvg x y (String.ofList content.text)).depth =
        m.depth + content.emptySvg - content.lookalikes ∧
      (content.emptySvg = content.lookalikes →
        ∀ (x' y' : α) (transform : Matrix α) (font : Font) (height : α) (characters : String),
          ∃ piece, m.putText x' y' transform font height characters = m.write piece ∧
            (m.putSvg x y (String.ofList content.text)).putText x' y' transform font height
                characters =
              (m.putSvg x y (String.ofList content.text)).write piece) := by
  have depth : (m.putSvg x y (String.ofList content.text)).depth =
      m.depth + content.emptySvg - content.lookalikes := by
    have hcontent := content.change_marks_text []
    rw [List.append_nil, Svg.marks, Svg.change_nil] at hcontent
    rw [Markup.depth_putSvg, String.toList_ofList, hcontent]
    omega
  refine ⟨depth, fun same x' y' transform font height characters => ?_⟩
  have unchanged : (m.putSvg x y (String.ofList content.text)).depth = m.depth := by
    rw [depth, same]
    omega
  have frame := Markup.putSvg_eq m x y (String.ofList content.text)
  exact Markup.exists_piece_putText unchanged (by rw [frame]) (by rw [frame]) x' y' transform font
    height characters

/-- Nothing after the name. -/
def Attributes.none : Attributes := { text := [] }

/-- The element `<svgx></svgx>`, and what comes after it. -/
def svgx (rest : Content) : Content :=
  .element { text := "svgx".toList } .none .none .nil rest

/-- The element `<svg/>`, and what comes after it. -/
def emptySvg (rest : Content) : Content :=
  .empty { text := "svg".toList } .none rest

/-- One element of either kind in an element `svg`. -/
def bothKinds : Content :=
  .element { text := "svg".toList } { text := " id=\"a>b\"".toList } .none
    (svgx (emptySvg .nil)) .nil

/-- A typesetter of markup before anything is written. -/
def emptyMarkup : Markup Binary64 := .start {} .strict

/-- A font without characters. -/
def bareFont : Font :=
  { name := "cmr10", checksum := 0, scaleFactor := 655360, designSize := 655360
    metrics := .empty 0 10485760 }

/-- Elements of the two kinds make up for each other. -/
theorem depth_putSvg_bothKinds :
    (bothKinds.emptySvg = 1 ∧ bothKinds.lookalikes = 1) ∧
      (emptyMarkup.putSvg zero zero (String.ofList bothKinds.text)).depth = 0 ∧
      ∃ piece,
        emptyMarkup.putText zero zero .identity bareFont zero "A" = emptyMarkup.write piece ∧
          (emptyMarkup.putSvg zero zero (String.ofList bothKinds.text)).putText zero zero .identity
              bareFont zero "A" =
            (emptyMarkup.putSvg zero zero (String.ofList bothKinds.text)).write piece := by
  have kinds : bothKinds.emptySvg = 1 ∧ bothKinds.lookalikes = 1 := by decide +kernel
  obtain ⟨depth, placed⟩ := depth_putSvg_text emptyMarkup zero zero bothKinds
  refine ⟨kinds, ?_, placed (kinds.1.trans kinds.2.symm) zero zero .identity bareFont zero "A"⟩
  rw [depth, kinds.1, kinds.2]
  rfl

/-- A balanced fragment may change the number of open elements: after an element whose
    name only begins with `svg` it is below zero, and after an element `svg` without
    an end tag it stays above. -/
theorem depth_putSvg_ne :
    (svgx .nil).text = "<svgx></svgx>".toList ∧
      (emptyMarkup.putSvg zero zero "<svgx></svgx>").depth = -1 ∧
      (emptySvg .nil).text = "<svg/>".toList ∧
      (emptyMarkup.putSvg zero zero "<svg/>").depth = 1 ∧ emptyMarkup.depth = 0 := by
  decide +kernel

end Xml

end DviMarkup
