/-
  Nested pictures.

  The elements that are open are counted, so that the start of a picture is judged
  by one count and its end, maybe much later, by another.  In well-nested pieces
  both come to the same.

  * `Mark.text` are the characters of a piece, and `flatMap_text_marks`: those of
    the pieces of a fragment are the fragment;
  * `Nest` is well-nested pieces, `Nest.marks` are its pieces and `Nest.fates` is
    what becomes of each by what it is nested in;
  * `fates` is what becomes of pieces by the count of open elements;
  * `Nest.fates_marks`: in well-nested pieces the two agree.
-/
import DviMarkup.Typesetter.Svg
import Mathlib.Data.List.Basic

namespace DviMarkup.Svg

/-! ## Pieces of a fragment -/

/-- The characters of a piece. -/
def Mark.text : Mark → List Char
  | char c => [c]
  | openTag => openText
  | closeTag => closeText
  | beginPicture => beginText
  | endPicture => endText

theorem append_drop_of_isPrefixOf {p : List Char} (hp : 0 < p.length) {c : Char}
    {rest : List Char} (h : p.isPrefixOf (c :: rest) = true) :
    p ++ rest.drop (p.length - 1) = c :: rest := by
  have hdrop : (c :: rest).drop p.length = rest.drop (p.length - 1) := by
    obtain ⟨n, hn⟩ := Nat.exists_eq_succ_of_ne_zero (Nat.pos_iff_ne_zero.mp hp)
    rw [hn, List.drop_succ_cons, Nat.succ_sub_one]
  rw [← hdrop]
  exact (List.prefix_iff_eq_append.mp (List.isPrefixOf_iff_prefix.mp h))

theorem isPrefixOf_openText {s : List Char} (h : startsOpenTag s = true) :
    openText.isPrefixOf s = true := by
  unfold startsOpenTag at h
  rw [← List.isSome_isPrefixOf?_eq_isPrefixOf]
  split at h
  · rename_i hs
    rw [hs]
    rfl
  · cases h

/-- The piece at the front and what comes after it are the text. -/
theorem text_firstMark (c : Char) (rest : List Char) :
    (firstMark c rest).1.text ++ rest.drop ((firstMark c rest).2 - 1) = c :: rest := by
  fun_cases firstMark c rest with
  | case1 s hclose hend => exact append_drop_of_isPrefixOf (by decide) hend
  | case2 s hclose hend => exact append_drop_of_isPrefixOf (by decide) hclose
  | case3 s hclose hopen hbegin => exact append_drop_of_isPrefixOf (by decide) hbegin
  | case4 s hclose hopen hbegin =>
    exact append_drop_of_isPrefixOf (by decide) (isPrefixOf_openText hopen)
  | case5 s hclose hopen => rfl

/-- The pieces of a fragment are the fragment. -/
theorem flatMap_text_marks (s : List Char) : (marks s).flatMap Mark.text = s := by
  induction s using marks.induct with
  | case1 => rw [marks, List.flatMap_nil]
  | case2 c rest mark length h ih =>
    rw [marks, h, List.flatMap_cons, ih]
    have := text_firstMark c rest
    rwa [h] at this

/-! ## Well-nested pieces -/

/-- Well-nested pieces. -/
inductive Nest where
  | nil
  | char (c : Char) (rest : Nest)
  /-- A picture with what is in it, and what comes after it. -/
  | picture (inner rest : Nest)
  /-- An element with what is in it, and what comes after it. -/
  | element (inner rest : Nest)

/-- What becomes of a piece. -/
inductive Fate where
  | kept (mark : Mark)
  /-- It is the start of a picture of its own. -/
  | header
  /-- It is the end of a picture of its own. -/
  | footer
  | removed
deriving DecidableEq

/-- What is written for a piece, given the header of a picture. -/
def Fate.text (header : List Char) : Fate → List Char
  | kept mark => mark.text
  | .header => header
  | footer => "</svg>".toList
  | removed => []

namespace Nest

/-- The pieces in order. -/
def marks : Nest → List Mark
  | nil => []
  | char c rest => .char c :: rest.marks
  | picture inner rest => .beginPicture :: (inner.marks ++ .endPicture :: rest.marks)
  | element inner rest => .openTag :: (inner.marks ++ .closeTag :: rest.marks)

/-- What becomes of the pieces, given whether they stand in an open element: a
    picture that does is no element of its own. -/
def fates : (inside : Bool) → Nest → List Fate
  | _, nil => []
  | inside, char c rest => .kept (.char c) :: rest.fates inside
  | false, picture inner rest => .header :: (inner.fates true ++ .footer :: rest.fates false)
  | true, picture inner rest => .removed :: (inner.fates true ++ .removed :: rest.fates true)
  | inside, element inner rest =>
    .kept .openTag :: (inner.fates true ++ .kept .closeTag :: rest.fates inside)

end Nest

/-! ## Counting -/

/-- How much a piece adds to the number of open elements. -/
def Mark.change : Mark → Int
  | char _ => 0
  | openTag | beginPicture => 1
  | closeTag | endPicture => -1

/-- How much pieces add to the number of open elements. -/
def change : List Mark → Int
  | [] => 0
  | m :: ms => m.change + change ms

/-- What becomes of a piece, given the number of open elements before it. -/
def Mark.fate (depth : Int) : Mark → Fate
  | beginPicture => if depth + 1 ≤ 1 then .header else .removed
  | endPicture => if depth - 1 ≤ 0 then .footer else .removed
  | mark => .kept mark

/-- What becomes of pieces in order. -/
def fates : (depth : Int) → List Mark → List Fate
  | _, [] => []
  | depth, m :: ms => m.fate depth :: fates (depth + m.change) ms

@[simp] theorem change_nil : change [] = 0 := rfl

@[simp] theorem change_cons (m : Mark) (ms : List Mark) :
    change (m :: ms) = m.change + change ms := rfl

@[simp] theorem change_append (ms ns : List Mark) : change (ms ++ ns) = change ms + change ns := by
  induction ms with
  | nil => simp
  | cons m ms ih => simp [ih, Int.add_assoc]

@[simp] theorem length_fates (depth : Int) (ms : List Mark) :
    (fates depth ms).length = ms.length := by
  induction ms generalizing depth with
  | nil => rfl
  | cons m ms ih => simp [fates, ih]

theorem fates_append (depth : Int) (ms ns : List Mark) :
    fates depth (ms ++ ns) = fates depth ms ++ fates (depth + change ms) ns := by
  induction ms generalizing depth with
  | nil => simp [fates]
  | cons m ms ih => simp [fates, ih, Int.add_assoc]

/-- Around pieces that close what they open, a piece that opens is judged by the
    count without it, and the one that closes by the count with it. -/
theorem fates_enclosed {m m' : Mark} (hm : m.change = 1) (hm' : m'.change = -1) {ms : List Mark}
    (hms : change ms = 0) (depth : Int) (ns : List Mark) :
    fates depth (m :: (ms ++ m' :: ns)) =
      m.fate depth :: (fates (depth + 1) ms ++ m'.fate (depth + 1) :: fates depth ns) := by
  have back : depth + 1 + change ms + m'.change = depth := by omega
  rw [fates, hm, fates_append, fates, back, hms, Int.add_zero]

theorem Mark.resolve_eq (header : List Char) (depth : Int) (m : Mark) :
    m.resolve header depth = ((m.fate depth).text header, depth + m.change) := by
  cases m with
  | char c =>
    rw [change, Int.add_zero]
    rfl
  | openTag => rfl
  | closeTag => rfl
  | beginPicture =>
    rw [resolve, fate, apply_ite (Fate.text header)]
    rfl
  | endPicture =>
    rw [resolve, fate, apply_ite (Fate.text header)]
    rfl

/-- What is written for pieces is what becomes of each. -/
theorem resolveMarks_eq (header : List Char) (depth : Int) (ms : List Mark) :
    resolveMarks header depth ms =
      ((fates depth ms).flatMap (Fate.text header), depth + change ms) := by
  induction ms generalizing depth with
  | nil => simp [resolveMarks, fates]
  | cons m ms ih => simp [resolveMarks, fates, ih, Mark.resolve_eq, Int.add_assoc]

/-! ## Counting in well-nested pieces -/

namespace Nest

/-- Well-nested pieces close what they open. -/
theorem change_marks (n : Nest) : change n.marks = 0 := by
  induction n with
  | nil => rfl
  | char c rest ih => simp [marks, ih, Mark.change]
  | picture inner rest hinner hrest => simp [marks, hinner, hrest, Mark.change]
  | element inner rest hinner hrest => simp [marks, hinner, hrest, Mark.change]

/-- **The count of open elements tells whether a picture is nested**, at its start
    as well as at its end. -/
theorem fates_marks (n : Nest) {depth : Int} (h : 0 ≤ depth) :
    Svg.fates depth n.marks = n.fates (decide (0 < depth)) := by
  induction n generalizing depth with
  | nil => rfl
  | char c rest ih => simp [marks, fates, Svg.fates, Mark.fate, Mark.change, ih h]
  | picture inner rest hinner hrest =>
    have hdepth : 0 ≤ depth + 1 := by omega
    have inside : decide (0 < depth + 1) = true := decide_eq_true (by omega)
    rw [marks, fates_enclosed rfl rfl inner.change_marks, hinner hdepth, hrest h, inside]
    by_cases hd : 0 < depth
    · have hstart : ¬ depth + 1 ≤ 1 := by omega
      have hend : ¬ depth + 1 - 1 ≤ 0 := by omega
      simp only [hd, decide_true, fates, Mark.fate, if_neg hstart, if_neg hend]
    · have hstart : depth + 1 ≤ 1 := by omega
      have hend : depth + 1 - 1 ≤ 0 := by omega
      simp only [hd, decide_false, fates, Mark.fate, if_pos hstart, if_pos hend]
  | element inner rest hinner hrest =>
    have hdepth : 0 ≤ depth + 1 := by omega
    have inside : decide (0 < depth + 1) = true := decide_eq_true (by omega)
    rw [marks, fates_enclosed rfl rfl inner.change_marks, hinner hdepth, hrest h, inside]
    simp [fates, Mark.fate]

/-- Of two pictures, one in the other, the outer one is written. -/
example : (picture (picture nil nil) nil).fates false = [.header, .removed, .removed, .footer] :=
  rfl

/-- Around pieces that close nothing that they did not open, this remains so. -/
theorem change_take_enclosed {m m' : Mark} (hm : m.change = 1) (hm' : m'.change = -1)
    {ms ns : List Mark} (hms : ∀ k, 0 ≤ change (ms.take k)) (hns : ∀ k, 0 ≤ change (ns.take k))
    (k : Nat) : 0 ≤ change ((m :: (ms ++ m' :: ns)).take k) := by
  cases k with
  | zero => simp
  | succ k =>
    have hmsk := hms k
    rw [List.take_succ_cons, change_cons, List.take_append, change_append, hm]
    cases k - ms.length with
    | zero =>
      rw [List.take_zero, change_nil]
      omega
    | succ j =>
      have hnsj := hns j
      rw [List.take_succ_cons, change_cons, hm']
      omega

/-- Well-nested pieces close nothing that they did not open. -/
theorem change_take_nonneg (n : Nest) (k : Nat) : 0 ≤ change (n.marks.take k) := by
  induction n generalizing k with
  | nil => simp [marks]
  | char c rest ih =>
    cases k with
    | zero => simp
    | succ k =>
      rw [marks, List.take_succ_cons, change_cons, Mark.change, Int.zero_add]
      exact ih k
  | picture inner rest hinner hrest => exact change_take_enclosed rfl rfl hinner hrest k
  | element inner rest hinner hrest => exact change_take_enclosed rfl rfl hinner hrest k

section Part

variable {n : Nest} {before ms rest : List Mark} (h : before ++ (ms ++ rest) = n.marks)

include h

/-- What becomes of some of the pieces, by the count of what is open before them. -/
theorem fates_part :
    Svg.fates (change before) ms = ((n.fates false).drop before.length).take ms.length := by
  have whole : n.fates false = Svg.fates 0 before ++
      (Svg.fates (change before) ms ++ Svg.fates (change before + change ms) rest) := by
    rw [← fates_append, ← Int.zero_add (change before), ← fates_append, h,
      n.fates_marks (Int.le_refl 0)]
    rfl
  rw [whole, List.drop_left' (length_fates 0 before), List.take_left' (length_fates _ ms)]

theorem change_part_nonneg (k : Nat) : 0 ≤ change before + change (ms.take k) := by
  have front : n.marks.take (before.length + min k ms.length) = before ++ ms.take k := by
    rw [← h, List.take_length_add_append, List.take_append_of_le_length (Nat.min_le_right _ _),
      ← List.take_eq_take_min]
  rw [← change_append, ← front]
  exact n.change_take_nonneg _

end Part

end Nest

end DviMarkup.Svg
