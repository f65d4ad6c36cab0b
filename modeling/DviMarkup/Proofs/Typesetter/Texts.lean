/-
  What becomes of a text.

  A text is typeset if there is a font and no character is missing.  Then it moves the
  place on by its width, and all that changes besides is what was written.

  * `run_putText_markup` and `run_putText_plain` are what becomes of a text, with the
    reasons why it may fail in the order in which they are looked for;
  * `Output.unwritten` is what is kept for the output besides what was written;
  * `Output.advance?` is by how much a text moves the place, if it can be typeset;
  * `run_putText`: all that matters of a text is by how much it moves the place;
  * `Output.advance?_append`: in exact numbers, a text moves the place by as much as its
    parts.
-/
import DviMarkup.Proofs.Font.Widths
import DviMarkup.Proofs.Typesetter.Parts

namespace DviMarkup

open Typesetter

/-! ## Runs -/

section Runs

variable {α : Type} [Scalar α] {t : Typesetter α}

omit [Scalar α] in
theorem run_currentFont (t : Typesetter α) :
    currentFont.run.run t = match t.core.font with
      | none => (.error .noActiveFont, t)
      | some font => (.ok font, t) := by
  refine (run_get_bind _ t).trans ?_
  cases t.core.font <;> rfl

theorem run_measure (font : Font) (mode : Strictness) (text : List UInt8) (t : Typesetter α) :
    (Typesetter.measure font mode text).run.run t = match font.measure mode text with
      | .error code => (.error (.missingGlyph font.name code), t)
      | .ok extent => (.ok extent, t) := by
  unfold Typesetter.measure
  cases (font.measure mode text : Except UInt8 (Extent α)) <;> rfl

/-- A text in markup: there must be a font, then all characters must have metrics and then
    entries in the encoding. -/
theorem run_putText_markup {m : Markup α} (hm : t.output = .markup m) (text : List UInt8) :
    (putText text).run.run t =
      match t.core.font with
      | none => (.error .noActiveFont, t)
      | some font =>
        match font.measure m.mode text with
        | .error code => (.error (.missingGlyph font.name code), t)
        | .ok extent =>
          match m.encodings.resolveAll m.mode font.name text with
          | .error code => (.error (.missingEncoding font.name code), t)
          | .ok characters =>
            (.ok extent.width,
              { t with output := .markup (m.putText t.currentPoint.1 t.currentPoint.2 t.core.matrix
                  font extent.height (String.ofList characters)) }) := by
  obtain ⟨core, output⟩ := t
  obtain rfl : output = .markup m := hm
  refine (run_get_bind _ _).trans ?_
  dsimp only
  rw [run_bind, run_currentFont]
  cases core.font with
  | none => rfl
  | some font =>
    dsimp only
    rw [run_bind, run_measure]
    cases (font.measure m.mode text : Except UInt8 (Extent α)) with
    | error code => rfl
    | ok extent =>
      dsimp only
      cases m.encodings.resolveAll m.mode font.name text <;> rfl

/-- What there is to a text that was typeset as markup. -/
theorem exists_of_run_putText {m : Markup α} (hm : t.output = .markup m) {text : List UInt8}
    {d : α} {t' : Typesetter α} (run : (putText text).run.run t = (.ok d, t')) :
    ∃ font extent characters, t.core.font = some font ∧ font.measure m.mode text = .ok extent ∧
      m.encodings.resolveAll m.mode font.name text = .ok characters ∧ d = extent.width ∧
      t' = { t with output := .markup (m.putText t.currentPoint.1 t.currentPoint.2 t.core.matrix
        font extent.height (String.ofList characters)) } := by
  rw [run_putText_markup hm] at run
  split at run
  · cases run
  · split at run
    · cases run
    · split at run
      · cases run
      · rename_i font hfont _ extent hmeasure _ characters hresolve
        cases run
        exact ⟨font, extent, characters, hfont, hmeasure, hresolve, rfl, rfl⟩

/-- A plain text needs no entries. -/
theorem run_putText_plain {p : Plain α} (hp : t.output = .plain p) (text : List UInt8) :
    (putText text).run.run t =
      match t.core.font with
      | none => (.error .noActiveFont, t)
      | some font =>
        match font.measure p.mode text with
        | .error code => (.error (.missingGlyph font.name code), t)
        | .ok extent =>
          (.ok extent.width,
            { t with output := .plain (p.putText t.core.position.h t.core.position.v font
                extent.width text) }) := by
  obtain ⟨core, output⟩ := t
  obtain rfl : output = .plain p := hp
  refine (run_get_bind _ _).trans ?_
  dsimp only
  rw [run_bind, run_currentFont]
  cases core.font with
  | none => rfl
  | some font =>
    dsimp only
    rw [run_bind, run_measure]
    cases (font.measure p.mode text : Except UInt8 (Extent α)) <;> rfl

end Runs

/-! ## By how much a text moves the place -/

/-- What is kept for the output besides what was written. -/
def Output.unwritten {α : Type} : Output α → Output α
  | .silent => .silent
  | .fragments _ => .fragments ""
  | .markup m => .markup { m with pieces := #[] }
  | .plain p => .plain { p with snippets := [], written := "" }

namespace Output

variable {α : Type} [Scalar α]

/-- By how much a text moves the place, in DVI units, if it can be typeset. -/
def advance? (font? : Option Font) (text : List UInt8) : Output α → Option α
  | .markup m => do
    let font ← font?
    let width ← (font.measure m.mode text).toOption.map (·.width)
    let _ ← (m.encodings.resolveAll m.mode font.name text).toOption
    return width
  | .plain p => do
    font?.bind fun font => (font.measure p.mode text).toOption.map (·.width)
  | _ => some Scalar.zero

/-- What was written has nothing to do with it. -/
theorem advance?_unwritten (font? : Option Font) (text : List UInt8) (o : Output α) :
    o.unwritten.advance? font? text = o.advance? font? text := by
  cases o <;> rfl

end Output

theorem Markup.unwritten_putText {α : Type} [Scalar α] (m : Markup α) (x y : α)
    (transform : Matrix α) (font : Font) (height : α) (characters : String) :
    (Output.markup (m.putText x y transform font height characters)).unwritten =
      (Output.markup m).unwritten := by
  unfold Markup.putText
  split <;> rfl

/-- **All that matters of a text is by how much it moves the place**, and whether it can be
    typeset at all. -/
theorem run_putText {α : Type} [Scalar α] (t : Typesetter α) (text : List UInt8) :
    ∃ result o, (putText text).run.run t = (result, { t with output := o }) ∧
      result.toOption = t.output.advance? t.core.font text ∧
      o.unwritten = t.output.unwritten := by
  obtain ⟨core, output⟩ := t
  cases output with
  | markup m =>
    rw [run_putText_markup rfl, Output.advance?]
    dsimp only
    cases core.font with
    | none => exact ⟨_, _, rfl, rfl, rfl⟩
    | some font =>
      simp only [Option.bind_eq_bind, Option.bind_some]
      cases (font.measure m.mode text : Except UInt8 (Extent α)) with
      | error code => exact ⟨_, _, rfl, rfl, rfl⟩
      | ok extent =>
        dsimp only
        cases m.encodings.resolveAll m.mode font.name text with
        | error code => exact ⟨_, _, rfl, rfl, rfl⟩
        | ok characters => exact ⟨_, _, rfl, rfl, m.unwritten_putText _ _ _ _ _ _⟩
  | plain p =>
    rw [run_putText_plain rfl, Output.advance?]
    dsimp only
    cases core.font with
    | none => exact ⟨_, _, rfl, rfl, rfl⟩
    | some font =>
      simp only [Option.bind_some]
      cases (font.measure p.mode text : Except UInt8 (Extent α)) with
      | error code => exact ⟨_, _, rfl, rfl, rfl⟩
      | ok extent => exact ⟨_, _, rfl, rfl, rfl⟩
  | silent => exact ⟨_, _, rfl, rfl, rfl⟩
  | fragments written => exact ⟨_, _, rfl, rfl, rfl⟩

/-! ## Parts of a text -/

/-- A text has characters if its parts have. -/
theorem Encodings.resolveAll_append (e : Encodings) (mode : Strictness) (font : String)
    (a b : List UInt8) :
    (e.resolveAll mode font (a ++ b)).toOption = do
      let characters ← (e.resolveAll mode font a).toOption
      return characters ++ (← (e.resolveAll mode font b).toOption) := by
  induction a with
  | nil =>
    simp only [List.nil_append, resolveAll]
    cases e.resolveAll mode font b <;> rfl
  | cons code a ih =>
    rw [List.cons_append, resolveAll, resolveAll]
    cases e.resolve? mode font code with
    | none => rfl
    | some c =>
      dsimp only
      revert ih
      cases e.resolveAll mode font (a ++ b) <;> cases e.resolveAll mode font a <;>
        cases e.resolveAll mode font b <;> intro ih <;> cases ih <;> rfl

/-- **In exact numbers, a text moves the place by as much as its parts**, and can be typeset
    if they can. -/
theorem Output.advance?_append [Completion] (o : Output ℚ) (font? : Option Font)
    (a b : List UInt8) :
    o.advance? font? (a ++ b) = do
      let x ← o.advance? font? a
      return x + (← o.advance? font? b) := by
  cases o with
  | markup m =>
    simp only [advance?, Font.measure_width, Font.textWidth?_append, Encodings.resolveAll_append]
    rcases font? with _ | font
    · rfl
    · dsimp only [Option.bind_eq_bind, Option.bind_some]
      cases font.textWidth? m.mode a <;> cases font.textWidth? m.mode b <;>
        cases (m.encodings.resolveAll m.mode font.name a).toOption <;>
        cases (m.encodings.resolveAll m.mode font.name b).toOption <;>
        simp [font.toUnits_add]
  | plain p =>
    simp only [advance?, Font.measure_width, Font.textWidth?_append]
    rcases font? with _ | font
    · rfl
    · dsimp only [Option.bind_some]
      cases font.textWidth? p.mode a <;> cases font.textWidth? p.mode b <;>
        simp [font.toUnits_add]
  | _ => simp [advance?]

end DviMarkup
