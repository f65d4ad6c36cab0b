/-
  The names of image files in markup.

  The element of an image is written as a fragment, and a fragment can ask for the place.  So
  what stands in the element is the name that the description has, with entities for markup,
  unless this name asks for the place itself.

  * `Svg.placed_eq_self_iff`: a text comes out as it is if it does not ask for the place;
  * `Escaping.ByEntities.infix_value_iff`: entities do not ask for it;
  * `image_written`: what is written for an image, and when it has the name of its file;
  * `image_written_ne`: a name that does not come out as it is.
-/
import DviMarkup.Proofs.Typesetter.Images
import DviMarkup.Proofs.Typesetter.Templates

namespace DviMarkup

open Scalar Typesetter

/-- A text that asks for the place comes out different, since no number has a brace. -/
theorem Svg.placed_eq_self_iff {x y s : List Char} (hx : '\x7b' ∉ x) (hy : '\x7b' ∉ y) :
    placed x y s = s ↔
      ¬ '\x7b' :: "?x\x7d".toList <:+: s ∧ ¬ '\x7b' :: "?y\x7d".toList <:+: s := by
  constructor
  · intro same
    have first : ¬ '\x7b' :: "?x\x7d".toList <:+: s := by
      intro found
      have less : (placed x y s).count '\x7b' < s.count '\x7b' :=
        (Text.count_replaceAll_le hy).trans_lt (Text.count_replaceAll_lt hx found)
      rw [same] at less
      exact Nat.lt_irrefl _ less
    refine ⟨first, fun found => ?_⟩
    have less := Text.count_replaceAll_lt hy found
    rw [placed, Text.replaceAll_of_not_infix first] at same
    rw [same] at less
    exact Nat.lt_irrefl _ less
  · rintro ⟨hx, hy⟩
    rw [placed, Text.replaceAll_of_not_infix hx, Text.replaceAll_of_not_infix hy]

/-- An escaped text asks for the place where the text does: an entity has no brace, and does not
    go on with what asks for it. -/
theorem Escaping.ByEntities.infix_value_iff [Escaping] {escape : Char → List Char}
    (entities : ByEntities escape) {p : List Char}
    (hp : ∀ c ∈ '\x7b' :: p, c ∈ "\x7b?xy\x7d".toList) (s : List Char) :
    '\x7b' :: p <:+: (Escaping.value (String.ofList s)).toList ↔ '\x7b' :: p <:+: s := by
  rw [entities.value, String.toList_ofList]
  refine Text.infix_flatMap_iff (fun c => ?_) (fun c hc => ?_) hp
  · rcases entities.char c with ⟨-, same⟩ | entity
    · exact .inl same
    · have absent : '\x7b' ∉ escape c := fun h => absurd (entity.mem h) (by decide)
      obtain ⟨name, put, -, -⟩ := entity
      rw [put] at absent ⊢
      exact .inr ⟨'&', name ++ [';'], rfl, by decide, absent⟩
  · refine entities.others c fun mark => ?_
    have apart : ∀ d ∈ "\x7b?xy\x7d".toList, d ∉ "&<>\"\x27".toList := by
      simp
    exact apart c hc mark

/-- An image that is drawn is written as an element with its name, in which the place is put. -/
theorem exists_run_image [Escaping] {escape : Char → List Char}
    (entities : Escaping.ByEntities escape) {t : Typesetter Binary64} {m : Markup Binary64}
    (hm : t.output = .markup m) {description : String} {file : List Char}
    (drawn : Image.Drawn Binary64 description file) :
    ∃ (transformed : Bool) (filling : Filling),
      (Command.image description).execute.run.run t = (.ok (), { t with
          output := .markup (m.write (.raw ((Template.image transformed).fill filling))) }) ∧
        filling.text .file = String.ofList (Svg.placed (markup t.currentPoint.1).toList
          (markup t.currentPoint.2).toList
          (Escaping.value (String.ofList (Image.fileName file))).toList) := by
  let d : Image.Drawing Binary64 := .ofAttributes (Image.attributes description.toList)
  obtain ⟨depth, filling, hfile, fills⟩ := exists_fill_image d
    (entities.plain (String.ofList (Image.fileName file)))
    (d.transform t.core.matrix t.currentPoint.1 t.currentPoint.2) m.header.toList m.depth
    t.currentPoint.1 t.currentPoint.2
  have run := (run_image drawn t).trans (run_putSvg hm _)
  rw [Markup.putSvg] at run
  dsimp only at run
  rw [depth, fills] at run
  exact ⟨_, filling, run, hfile⟩

/-- **What is written for an image**, if texts are escaped by entities, is an element with the name
    of its file, and the number of open elements stays as it is.  Between the quotes is the name
    in the description with entities for markup and, where the name asks for it, the place.  So it
    is the name that was asked for if and only if this name does not ask for the place. -/
theorem image_written [Escaping] {escape : Char → List Char}
    (entities : Escaping.ByEntities escape) {t : Typesetter Binary64} {m : Markup Binary64}
    (hm : t.output = .markup m) {description : String} {file : List Char}
    (drawn : Image.Drawn Binary64 description file) :
    let name := Escaping.value (String.ofList (Image.fileName file))
    ∃ (transformed : Bool) (filling : Filling),
      (Command.image description).execute.run.run t = (.ok (), { t with
          output := .markup (m.write (.raw ((Template.image transformed).fill filling))) }) ∧
        (t.after (.image description)).depth? = some m.depth ∧
        filling.text .file = String.ofList (Svg.placed (markup t.currentPoint.1).toList
          (markup t.currentPoint.2).toList name.toList) ∧
        (filling.text .file = name ↔
          ¬ '\x7b' :: "?x\x7d".toList <:+: Image.fileName file ∧
            ¬ '\x7b' :: "?y\x7d".toList <:+: Image.fileName file) := by
  intro name
  obtain ⟨transformed, filling, run, hfile⟩ := exists_run_image entities hm drawn
  have brace (x : Binary64) : '\x7b' ∉ (markup x).toList := fun h =>
    (plain_of_isNumeralChar (Binary64.isNumeralChar_markup x _ h)).2.2.2 rfl
  refine ⟨transformed, filling, run, ?_, hfile, ?_⟩
  · rw [after, run]
    rfl
  · rw [hfile, ← String.toList_inj, String.toList_ofList,
      Svg.placed_eq_self_iff (brace _) (brace _),
      entities.infix_value_iff (by simp), entities.infix_value_iff (by simp)]

/-- A typesetter of markup with an open element. -/
def insideSvg : Typesetter Binary64 :=
  (Typesetter.markup (.ofList []) {} .strict : Typesetter Binary64).after (.rawSvg "<svg>")

/-- A name with a character that becomes an entity comes out as it is but for the entity. -/
theorem image_written_entity :
    ∃ (m : Markup Binary64) (transformed : Bool) (filling : Filling),
      insideSvg.output = .markup m ∧ m.depth = 1 ∧
        (Command.image "psfile=\"a & b.eps\" urx=1 ury=1").execute.run.run insideSvg =
          (.ok (), { insideSvg with
            output := .markup (m.write (.raw ((Template.image transformed).fill filling))) }) ∧
        filling.text .file = "a &amp; b" := by
  have seen : insideSvg.markup? Markup.depth = some 1 := by
    decide +kernel
  obtain ⟨m, hm, depth⟩ := markup?_eq_some.mp seen
  have drawn : Image.Drawn Binary64 "psfile=\"a & b.eps\" urx=1 ury=1" "a & b.eps".toList :=
    ⟨by decide +kernel, by decide, by decide +kernel⟩
  obtain ⟨transformed, filling, run, -, -, named⟩ :=
    image_written Escaping.byEntities_entities hm drawn
  have name : Escaping.value (String.ofList (Image.fileName "a & b.eps".toList)) =
      "a &amp; b" := by
    decide +kernel
  rw [name] at named
  exact ⟨m, transformed, filling, hm, depth, run, named.mpr (by decide +kernel)⟩

/-- A name that asks for the place is not the one that is written. -/
theorem image_written_ne :
    ∃ (m : Markup Binary64) (transformed : Bool) (filling : Filling),
      insideSvg.output = .markup m ∧
        (Command.image "psfile=\x7b?x\x7d.png urx=1 ury=1").execute.run.run insideSvg =
          (.ok (), { insideSvg with
            output := .markup (m.write (.raw ((Template.image transformed).fill filling))) }) ∧
        filling.text .file = "0.png" ∧
        Escaping.value (String.ofList (Image.fileName "\x7b?x\x7d.png".toList)) =
          "\x7b?x\x7d.png" := by
  have seen : insideSvg.markup? Markup.depth = some 1 := by
    decide +kernel
  obtain ⟨m, hm, -⟩ := markup?_eq_some.mp seen
  have drawn : Image.Drawn Binary64 "psfile=\x7b?x\x7d.png urx=1 ury=1"
      "\x7b?x\x7d.png".toList := ⟨by decide +kernel, by decide, by decide +kernel⟩
  obtain ⟨transformed, filling, run, named⟩ :=
    exists_run_image Escaping.byEntities_entities hm drawn
  exact ⟨m, transformed, filling, hm, run, named.trans (by decide +kernel), by decide +kernel⟩

end DviMarkup
