/-
  Fragments that are cut in two.

  What is written for a fragment is found by a scan that looks ahead, to the character
  after the name of an element and to the end of what begins or ends a picture, and by
  a second pass that puts the place into what the scan wrote.  So a fragment may be cut
  wherever nothing that is looked for is cut, and the two parts may be written one after
  the other.

  * `Svg.marks_append_of_uncut`: the pieces of the parts are those of the fragment;
  * `Svg.Separable` tells where a fragment may be cut, `Svg.Separable.resolve` what the
    scan writes for the parts, and `Svg.Separable.placed` how they get the place;
  * `Typesetter.run_putSvg_append`: to write the parts is to write the fragment.
-/
import DviMarkup.Proofs.Number.Spelling
import DviMarkup.Proofs.Text.Markup
import DviMarkup.Proofs.Typesetter.Output
import DviMarkup.Proofs.Typesetter.Pictures

namespace DviMarkup

open Text Scalar

namespace Svg

/-! ## Scanning -/

theorem startsOpenTag_iff {s : List Char} :
    startsOpenTag s = true ↔ ∃ c, endsName c = true ∧ openText ++ [c] <+: s := by
  unfold startsOpenTag
  constructor
  · intro h
    split at h
    · rename_i c tail hs
      refine ⟨c, h, tail, ?_⟩
      rw [List.append_assoc]
      exact List.append_eq_of_isPrefixOf?_eq_some hs
    · cases h
  · rintro ⟨c, hc, tail, rfl⟩
    exact hc

section Uncut

variable {a b : List Char}

/-- The piece at the front is found without what comes after the cut. -/
theorem firstMark_append {c : Char} (begins : ¬EndsWithin beginText (c :: a))
    (ends : ¬EndsWithin endText (c :: a)) : firstMark c (a ++ b) = firstMark c a := by
  have stable {p : List Char} (h : ¬EndsWithin p (c :: a)) :
      p.isPrefixOf (c :: a ++ b) = p.isPrefixOf (c :: a) :=
    isPrefixOf_append_eq (fun cut => h cut.endsWithin) (List.cons_ne_nil c a)
  have closes : ¬EndsWithin closeText (c :: a) := fun h => ends (h.of_prefix (by decide))
  -- an element's name and the character after it are looked at together
  have opens : startsOpenTag (c :: a ++ b) = startsOpenTag (c :: a) := by
    rw [Bool.eq_iff_iff, startsOpenTag_iff, startsOpenTag_iff]
    refine exists_congr fun d => and_congr_right fun _ => ?_
    refine prefix_append_iff ?_ (List.cons_ne_nil c a)
    intro cut
    obtain ⟨u, hu, hsuffix, hprefix, ne⟩ := cut.endsWithin
    have name : u <+: openText := (List.prefix_concat_iff.mp hprefix).resolve_left ne
    have shorter : openText.length < beginText.length := by decide
    refine begins ⟨u, hu, hsuffix, name.trans (by decide), ?_⟩
    rintro rfl
    exact Nat.not_le_of_lt shorter name.length_le
  unfold firstMark
  dsimp only
  rw [← List.cons_append, stable closes, stable ends, opens, stable begins]

theorem length_firstMark (c : Char) (rest : List Char) :
    (firstMark c rest).2 = (firstMark c rest).1.text.length := by
  fun_cases firstMark c rest <;> rfl

/-- The piece at the front ends before the text does. -/
theorem firstMark_within (c : Char) (rest : List Char) :
    (firstMark c rest).2 - 1 ≤ rest.length := by
  have whole := congrArg List.length (text_firstMark c rest)
  rw [List.length_append, List.length_drop, List.length_cons, ← length_firstMark] at whole
  omega

/-- **The pieces of two parts are the pieces of the fragment** if the first part does not
    end within what begins or ends a picture. -/
theorem marks_append_of_uncut (begins : ¬EndsWithin beginText a) (ends : ¬EndsWithin endText a) :
    marks (a ++ b) = marks a ++ marks b := by
  induction a using marks.induct with
  | case1 => rw [List.nil_append, marks, List.nil_append]
  | case2 c rest mark length h ih =>
    have front : firstMark c (rest ++ b) = (mark, length) := by
      rw [firstMark_append begins ends, h]
    have within : length - 1 ≤ rest.length := by
      simpa only [h] using firstMark_within c rest
    have later : rest.drop (length - 1) <:+ c :: rest :=
      (List.drop_suffix _ rest).trans (List.suffix_cons c rest)
    rw [List.cons_append, marks, front, marks, h]
    dsimp only
    rw [List.drop_append_of_le_length within, ih (fun h => begins (h.of_suffix later))
      fun h => ends (h.of_suffix later), List.cons_append]

end Uncut

/-! ## Two parts -/

/-- Whether a fragment can be cut in two: what begins or ends a picture is not cut, nor is
    what asks for the place in what is written for the parts, of which the second finds open
    what the first leaves open. -/
structure Separable (header : List Char) (depth : Int) (a b : List Char) : Prop where
  begins : ¬EndsWithin beginText a
  ends : ¬EndsWithin endText a
  horizontal : ¬Straddles ('\x7b' :: "?x\x7d".toList) (resolve header depth a).1
    (resolve header (resolve header depth a).2 b).1
  vertical : ¬Straddles ('\x7b' :: "?y\x7d".toList) (resolve header depth a).1
    (resolve header (resolve header depth a).2 b).1

namespace Separable

variable {header a b : List Char} {depth : Int} (h : Separable header depth a b)

include h

/-- The scan writes the parts one after the other. -/
theorem resolve :
    Svg.resolve header depth (a ++ b) =
      ((Svg.resolve header depth a).1 ++ (Svg.resolve header (Svg.resolve header depth a).2 b).1,
        (Svg.resolve header (Svg.resolve header depth a).2 b).2) := by
  simp only [Svg.resolve, marks_append_of_uncut h.begins h.ends, resolveMarks_eq, fates_append,
    List.flatMap_append, change_append, Int.add_assoc]

/-- The parts get the place apart from each other, if it is not nothing and has no character
    of what asks for it. -/
theorem placed {x y : List Char} (hx : x ≠ [])
    (apart : ∀ c ∈ '\x7b' :: "?y\x7d".toList, c ∉ x) :
    Svg.placed x y (Svg.resolve header depth (a ++ b)).1 =
      Svg.placed x y (Svg.resolve header depth a).1 ++
        Svg.placed x y (Svg.resolve header (Svg.resolve header depth a).2 b).1 := by
  -- the second pass of the place sees what the first one wrote
  rw [h.resolve, Svg.placed, replaceAll_append h.horizontal,
    replaceAll_append fun cut => h.vertical (straddles_of_straddles_replaceAll apart hx cut)]
  rfl

end Separable

/-- A fragment can be cut before a character that begins no tag and is not in what asks for
    the place. -/
theorem separable_of_plain {header a b : List Char} {depth : Int} {d : Char}
    (begins : ¬EndsWithin beginText a) (ends : ¬EndsWithin endText a) (tag : d ≠ '<')
    (horizontal : d ∉ "?x\x7d".toList) (vertical : d ∉ "?y\x7d".toList) :
    Separable header depth a (d :: b) := by
  have front (depth : Int) :
      (resolve header depth (d :: b)).1 = d :: (resolve header depth b).1 := by
    rw [resolve, marks, firstMark_of_ne tag]
    rfl
  refine ⟨begins, ends, ?_, ?_⟩
  · rw [front]
    exact fun cut => horizontal cut.mem_tail
  · rw [front]
    exact fun cut => vertical cut.mem_tail

end Svg

/-! ## Writing two parts -/

theorem Binary64.not_mem_markup (x : Binary64) :
    ∀ c ∈ '\x7b' :: "?y\x7d".toList, c ∉ (markup x).toList := by
  intro c hc h
  have numeral := isNumeralChar_markup x c h
  have none : ('\x7b' :: "?y\x7d".toList).all (fun c => !isNumeralChar c) = true := by decide
  have := List.all_eq_true.mp none c hc
  rw [numeral] at this
  cases this

section Write

variable {m : Markup Binary64} {a b : String}
  (h : Svg.Separable m.header.toList m.depth a.toList b.toList)

include h

theorem Markup.output_putSvg_append [Escaping] (x y : Binary64) :
    (m.putSvg x y (a ++ b)).output = ((m.putSvg x y a).putSvg x y b).output := by
  rw [output_putSvg, output_putSvg, output_putSvg, String.toList_append,
    h.placed (Binary64.markup_ne_nil x) (Binary64.not_mem_markup x), String.ofList_append,
    String.append_assoc]
  rfl

/-- But for the pieces in which it was written, the same is kept. -/
theorem Markup.putSvg_append (x y : Binary64) :
    m.putSvg x y (a ++ b) =
      { (m.putSvg x y a).putSvg x y b with pieces := (m.putSvg x y (a ++ b)).pieces } := by
  simp only [putSvg, write, String.toList_append, h.resolve]
  rfl

/-- **To write a fragment in two parts is to write it at once**: both succeed, the same has
    been written, as many elements are open, and nothing else is different. -/
theorem Typesetter.run_putSvg_append [Escaping] {t : Typesetter Binary64}
    (hm : t.output = .markup m) :
    ∃ m₁ m₂ : Markup Binary64,
      (putSvg (a ++ b)).run.run t = (.ok (), { t with output := .markup m₁ }) ∧
        (do putSvg a; putSvg b).run.run t = (.ok (), { t with output := .markup m₂ }) ∧
        m₁.output = m₂.output ∧ m₁.depth = m₂.depth ∧ m₁ = { m₂ with pieces := m₁.pieces } := by
  generalize hpoint : t.currentPoint = point
  obtain ⟨x, y⟩ := point
  have later : ({ t with output := .markup (m.putSvg x y a) } : Typesetter Binary64).currentPoint =
      (x, y) := by
    rw [← hpoint, currentPoint, currentPoint, hm]
    rfl
  refine ⟨m.putSvg x y (a ++ b), (m.putSvg x y a).putSvg x y b, ?_, ?_,
    Markup.output_putSvg_append h x y, ?_, Markup.putSvg_append h x y⟩
  · rw [run_putSvg hm, hpoint]
  · rw [run_bind, run_putSvg hm, hpoint]
    dsimp only
    rw [run_putSvg rfl, later]
  · rw [Markup.putSvg_append h x y]

end Write

/-- A picture is cut between what asks for either coordinate, and its end is left for the
    second part. -/
theorem run_putSvg_append_emptyPage :
    Svg.Separable (Markup.start {} .strict : Markup Binary64).header.toList 0
        "<svg beginpicture>\x7b?x\x7d".toList " \x7b?y\x7d</svg endpicture>".toList ∧
      ∃ m₁ m₂ : Markup Binary64,
        (Typesetter.putSvg "<svg beginpicture>\x7b?x\x7d \x7b?y\x7d</svg endpicture>").run.run
            emptyPage = (.ok (), { emptyPage with output := .markup m₁ }) ∧
          (do
            Typesetter.putSvg "<svg beginpicture>\x7b?x\x7d"
            Typesetter.putSvg " \x7b?y\x7d</svg endpicture>").run.run emptyPage =
              (.ok (), { emptyPage with output := .markup m₂ }) ∧
          m₁.output = m₂.output ∧ m₁.depth = m₂.depth ∧ m₁ = { m₂ with pieces := m₁.pieces } := by
  have h : Svg.Separable (Markup.start {} .strict : Markup Binary64).header.toList 0
      "<svg beginpicture>\x7b?x\x7d".toList " \x7b?y\x7d</svg endpicture>".toList :=
    Svg.separable_of_plain (by decide) (by decide) (by decide) (by decide) (by decide)
  exact ⟨h, Typesetter.run_putSvg_append h rfl⟩

end DviMarkup
