/-
  What is written as markup consists of complete pieces.

  A run may end at any command, with a failure.  What was written by then is still one
  piece after the other: an instance of a template, or a fragment.

  * `Command.Writes` tells what a command can write: nothing, an instance of one of
    its templates, or its own fragment;
  * `Adds` holds of the actions that add what they write, and keep colours colours;
  * `output_after`: what a command that a document can give adds is what it writes;
  * `executed` are the commands that a run comes to, with the typesetters before them;
  * `written_typesetOps`: what a run has written is what these commands write.
-/
import Mathlib.Data.List.Forall2
import DviMarkup.Convert
import DviMarkup.Proofs.Typesetter.Templates

namespace DviMarkup

open Scalar Typesetter

/-! ## What a command writes -/

/-- Whether a text is a template with its holes filled in. -/
def Template.Writes (t : Template) (out : String) : Prop :=
  ∃ filling, out = t.fill filling

/-- A fragment as it is written: its pictures are resolved and the place is put in. -/
def Typesetter.resolved (t : Typesetter Binary64) (fragment : String) : String :=
  match t.output with
  | .markup m => String.ofList (Svg.placed (Scalar.markup t.currentPoint.1).toList
      (Scalar.markup t.currentPoint.2).toList
      (Svg.resolve m.header.toList m.depth fragment.toList).1)
  | _ => ""

/-- What a command can write on a typesetter.  A fragment is always written; texts, rules
    and images are not if there is nothing to see of them or the command fails. -/
def Command.Writes (t : Typesetter Binary64) (out : String) : Command → Prop
  | .rawSvg fragment => out = t.resolved fragment
  | .setText _ | .putText _ =>
    out = "" ∨ Template.span.Writes out ∨ ∃ transformed, (Template.text transformed).Writes out
  | .setRule _ _ | .putRule _ _ => out = "" ∨ ∃ transformed, (Template.rule transformed).Writes out
  | .image _ => out = "" ∨ ∃ transformed, (Template.image transformed).Writes out
  | _ => out = ""

/-! ## Actions that add what they write -/

/-- Whether the colour and the colours to come back to are colours. -/
def Markup.Colored {α : Type} (m : Markup α) : Prop :=
  IsColor m.color ∧ ∀ color ∈ m.colors, IsColor color

theorem blindToCore_output : BlindToCore (output : Typesetter Binary64 → Output Binary64) :=
  fun _ _ => rfl

section Escaped

variable [Escaping]

/-- Whether an action on a typesetter of markup adds to what was written a text of a kind,
    and keeps colours colours, also when it fails. -/
def Adds {β : Type} (P : String → Prop) (action : Action Binary64 β) : Prop :=
  ∀ t m, t.output = .markup m → m.Colored →
    ∃ m' out, (action.run.run t).2.output = .markup m' ∧ m'.Colored ∧
      m'.output = m.output ++ out ∧ P out

theorem Markup.output_write (m : Markup Binary64) (piece : Piece Binary64) :
    (m.write piece).output = m.output ++ piece.render := by
  simp [Markup.write, Markup.output, renderAll]

namespace Adds

variable {β ε : Type} {P : String → Prop}

/-- What keeps the output adds nothing. -/
theorem of_keeps {action : Action Binary64 β} (h : Keeps output action) (nothing : P "") :
    Adds P action := by
  intro t m hm hcolors
  exact ⟨m, "", (h t).trans hm, hcolors, by rw [String.append_empty], nothing⟩

theorem bind_keeps {action : Action Binary64 β} {next : β → Action Binary64 ε}
    (h : Adds P action) (hnext : ∀ b, Keeps output (next b)) : Adds P (action >>= next) := by
  intro t m hm hcolors
  obtain ⟨m', out, hm', hcolors', hout, hP⟩ := h t m hm hcolors
  refine ⟨m', out, ?_, hcolors', hout, hP⟩
  rw [run_bind]
  rcases run : action.run.run t with ⟨failure | b, t'⟩
  · rwa [run] at hm'
  · rw [run] at hm'
    exact (hnext b t').trans hm'

theorem keeps_bind {action : Action Binary64 β} {next : β → Action Binary64 ε}
    (h : Keeps output action) (nothing : P "") (hnext : ∀ b, Adds P (next b)) :
    Adds P (action >>= next) := by
  intro t m hm hcolors
  have ht := h t
  rw [run_bind]
  rcases run : action.run.run t with ⟨failure | b, t'⟩
  · rw [run] at ht
    exact ⟨m, "", ht.trans hm, hcolors, by rw [String.append_empty], nothing⟩
  · rw [run] at ht
    exact hnext b t' m (ht.trans hm) hcolors

/-- What follows a look at the state is known to be about markup. -/
theorem get_bind {next : Typesetter Binary64 → Action Binary64 β}
    (h : ∀ t m, t.output = .markup m → m.Colored → Adds P (next t)) : Adds P (get >>= next) := by
  intro t m hm hcolors
  rw [run_get_bind]
  exact h t m hm hcolors t m hm hcolors

theorem map {action : Action Binary64 β} (h : Adds P action) (f : β → ε) :
    Adds P (f <$> action) := by
  rw [map_eq_pure_bind]
  exact h.bind_keeps fun b => .pure (f b)

/-- A change for markup adds what it writes. -/
theorem modifyMarkup {f : Core Binary64 → Markup Binary64 → Markup Binary64}
    (h : ∀ core m, m.Colored →
      (f core m).Colored ∧ ∃ out, (f core m).output = m.output ++ out ∧ P out) :
    Adds P (Typesetter.modifyMarkup f) := by
  intro t m hm hcolors
  obtain ⟨core, output⟩ := t
  obtain rfl : output = .markup m := hm
  obtain ⟨hcolors', out, hout, hP⟩ := h core m hcolors
  exact ⟨f core m, out, rfl, hcolors', hout, hP⟩

/-- A change for markup that writes nothing. -/
theorem modifyMarkup_nothing {f : Core Binary64 → Markup Binary64 → Markup Binary64}
    (pieces : ∀ core m, (f core m).pieces = m.pieces)
    (colors : ∀ core m, m.Colored → (f core m).Colored) :
    Adds (· = "") (Typesetter.modifyMarkup f) :=
  .modifyMarkup fun core m hcolors => ⟨colors core m hcolors, "", by
    rw [Markup.output, pieces, String.append_empty, Markup.output], rfl⟩

/-- Pages are nothing to markup. -/
theorem modifyPlain (nothing : P "") (f : Core Binary64 → Plain Binary64 → Plain Binary64) :
    Adds P (Typesetter.modifyPlain f) := by
  intro t m hm hcolors
  obtain ⟨core, output⟩ := t
  obtain rfl : output = .markup m := hm
  exact ⟨m, "", rfl, hcolors, by rw [String.append_empty], nothing⟩

end Adds

/-! ## Commands -/

theorem adds_preamble (numerator denominator magnification : UInt32) :
    Adds (· = "") (preamble numerator denominator magnification : Action Binary64 Unit) :=
  .modifyMarkup_nothing (fun _ _ => rfl) fun _ _ hcolors => hcolors

theorem adds_setPaper (width height : Binary64) : Adds (· = "") (setPaper width height) :=
  .modifyMarkup_nothing (fun _ _ => rfl) fun _ _ hcolors => hcolors

/-- Colours stay colours if a colour comes in. -/
theorem adds_pushColor {color : String} (h : IsColor color) :
    Adds (· = "") (pushColor color : Action Binary64 Unit) :=
  .modifyMarkup_nothing (fun _ _ => rfl) fun _ _ hcolors => ⟨h, List.forall_mem_cons.mpr hcolors⟩

theorem adds_putText (harmless : Escaping.Harmless) (text : List UInt8) :
    Adds (fun out => out = "" ∨ Template.span.Writes out ∨
      ∃ transformed, (Template.text transformed).Writes out)
      (putText text : Action Binary64 Binary64) := by
  have font : Keeps output (currentFont : Action Binary64 Font) :=
    OnCore.keeps blindToCore_output fun _ => onCore_currentFont
  refine .get_bind fun t m hm _ => ?_
  rw [hm]
  refine .keeps_bind font (.inl rfl) fun font => ?_
  refine .keeps_bind (keeps_measure font m.mode text) (.inl rfl) fun extent => ?_
  split
  · exact .of_keeps (.throw _) (.inl rfl)
  · refine Adds.bind_keeps (.modifyMarkup fun core m hcolors => ?_) fun _ => .pure _
    unfold Markup.putText
    dsimp only
    split
    · obtain ⟨filling, hfilling⟩ := exists_fill_span hcolors.1 harmless font.name font.pointSize
        (t.currentPoint.2 - m.points extent.height) t.currentPoint.1 (m.points extent.height) _
      exact ⟨hcolors, _, m.output_write _, .inr (.inl ⟨filling, hfilling⟩)⟩
    · obtain ⟨filling, hfilling⟩ := exists_fill_text hcolors.1 harmless t.currentPoint.2
        t.currentPoint.1 font.name font.pointSize core.matrix _
      exact ⟨hcolors, _, m.output_write _, .inr (.inr ⟨_, filling, hfilling⟩)⟩

theorem adds_putRule (height width : Int32) :
    Adds (fun out => out = "" ∨ ∃ transformed, (Template.rule transformed).Writes out)
      (putRule height width : Action Binary64 Unit) := by
  refine .get_bind fun t _ _ _ => .modifyMarkup fun core m hcolors => ?_
  unfold Markup.putRule
  split
  · exact ⟨hcolors, "", by rw [String.append_empty], .inl rfl⟩
  · obtain ⟨filling, hfilling⟩ := exists_fill_rule hcolors.1 t.currentPoint.1
      (t.currentPoint.2 - m.points (ofInt height.toInt)) (m.points (ofInt width.toInt))
      (m.points (ofInt height.toInt)) core.matrix
    exact ⟨hcolors, _, m.output_write _, .inr ⟨_, filling, hfilling⟩⟩

theorem adds_popColor : Adds (· = "") (popColor : Action Binary64 Unit) := by
  refine .get_bind fun t m hm hcolors => ?_
  rw [hm]
  dsimp only
  split
  · exact .of_keeps (.throw _) rfl
  · rename_i color colors hstack
    refine .modifyMarkup_nothing (fun _ _ => rfl) fun _ _ _ => ?_
    have h := hcolors.2
    rw [hstack, List.forall_mem_cons] at h
    exact h

theorem Markup.output_putSvg (m : Markup Binary64) (x y : Binary64) (fragment : String) :
    (m.putSvg x y fragment).output = m.output ++ String.ofList
      (Svg.placed (Scalar.markup x).toList (Scalar.markup y).toList
        (Svg.resolve m.header.toList m.depth fragment.toList).1) :=
  Markup.output_write { m with depth := _ } _

/-- A fragment is always written. -/
theorem output_putSvg {t : Typesetter Binary64} {m : Markup Binary64} (hm : t.output = .markup m)
    (hcolors : m.Colored) (fragment : String) :
    ∃ m', ((putSvg fragment).run.run t).2.output = .markup m' ∧ m'.Colored ∧
      m'.output = m.output ++ t.resolved fragment := by
  rw [run_putSvg hm, resolved, hm]
  exact ⟨_, rfl, hcolors, m.output_putSvg _ _ fragment⟩

theorem adds_draw (harmless : Escaping.Harmless) (description : String) :
    Adds (fun out => out = "" ∨ ∃ transformed, (Template.image transformed).Writes out)
      (Image.draw description : Action Binary64 Unit) := by
  intro t m hm hcolors
  rw [Image.run_draw]
  cases hfragment : Image.fragment? t description with
  | none => exact ⟨m, "", hm, hcolors, by rw [String.append_empty], .inl rfl⟩
  | some fragment =>
    obtain ⟨m', hm', hcolors', hout⟩ := output_putSvg hm hcolors fragment
    refine ⟨m', _, hm', hcolors', hout, .inr ?_⟩
    unfold Image.fragment? at hfragment
    dsimp only at hfragment
    split at hfragment
    · cases hfragment
    · obtain rfl := Option.some.inj hfragment
      rw [resolved, hm]
      obtain ⟨-, filling, -, fills⟩ :=
        exists_fill_image _ (harmless.allows_value _) _ m.header.toList m.depth _ _
      exact ⟨_, filling, fills⟩

/-- **Every command that a document can give adds what it writes**, whether it succeeds or
    fails. -/
theorem output_after (harmless : Escaping.Harmless) {command : Command}
    (h : Item.OfDocument (.ok command)) {t : Typesetter Binary64} {m : Markup Binary64}
    (hm : t.output = .markup m) (hcolors : m.Colored) :
    ∃ m' out, (t.after command).output = .markup m' ∧ m'.Colored ∧
      m'.output = m.output ++ out ∧ command.Writes t out := by
  have core (f : Core Binary64 → Core Binary64) : Keeps output (modifyCore f) :=
    keeps_modifyCore blindToCore_output f
  by_cases shared : command.isShared = true
  · have keeps : Keeps output (command.execute : Action Binary64 Unit) :=
      OnCore.keeps blindToCore_output fun _ => Command.onCore_execute shared
    refine ⟨m, "", (keeps t).trans hm, hcolors, by rw [String.append_empty], ?_⟩
    cases command <;> first | rfl | cases shared
  unfold after Command.execute
  cases command with
  | preamble => exact adds_preamble _ _ _ t m hm hcolors
  | beginPage =>
    exact (Adds.modifyPlain (P := (· = "")) rfl _).bind_keeps (fun _ => core _) t m hm hcolors
  | endPage => exact Adds.modifyPlain (P := (· = "")) rfl _ t m hm hcolors
  | setText text => exact (adds_putText harmless text).bind_keeps (fun _ => core _) t m hm hcolors
  | putText text => exact (adds_putText harmless text).map _ t m hm hcolors
  | setRule height width =>
    exact (adds_putRule height width).bind_keeps (fun _ => core _) t m hm hcolors
  | putRule height width => exact adds_putRule height width t m hm hcolors
  | pushColor => exact adds_pushColor h t m hm hcolors
  | popColor => exact adds_popColor t m hm hcolors
  | setPaper => exact adds_setPaper _ _ t m hm hcolors
  | rawSvg fragment =>
    obtain ⟨m', hm', hcolors', hout⟩ := output_putSvg hm hcolors fragment
    exact ⟨m', _, hm', hcolors', hout, rfl⟩
  | postScript code =>
    exact ⟨m, "", (PostScript.keeps_execute blindToCore_output code t).trans hm, hcolors,
      by rw [String.append_empty], rfl⟩
  | image description => exact adds_draw harmless description t m hm hcolors
  | _ => exact absurd rfl shared

/-! ## Runs -/

/-- The commands that are executed, with the typesetters before them: all of them up to
    and with the first that fails. -/
def executed (t : Typesetter Binary64) : List Item → List (Typesetter Binary64 × Command)
  | [] => []
  | .error _ :: _ => []
  | .ok command :: items =>
    (t, command) :: match command.execute.run.run t with
      | (.ok _, t') => executed t' items
      | (.error _, _) => []

/-- What a run adds is what its commands write. -/
theorem output_executeAll (harmless : Escaping.Harmless) {items : List Item}
    (hitems : ∀ item ∈ items, item.OfDocument)
    {t : Typesetter Binary64} {m : Markup Binary64} (hm : t.output = .markup m)
    (hcolors : m.Colored) :
    ∃ m' outs, ((executeAll items).run.run t).2.output = .markup m' ∧
      m'.output = m.output ++ String.join outs ∧
      List.Forall₂ (fun step out => step.2.Writes step.1 out) (executed t items) outs := by
  induction items generalizing t m with
  | nil => exact ⟨m, [], hm, by simp, .nil⟩
  | cons item items ih =>
    obtain ⟨hitem, hrest⟩ := List.forall_mem_cons.mp hitems
    cases item with
    | error failure => exact ⟨m, [], hm, by simp, .nil⟩
    | ok command =>
      obtain ⟨m₁, out, hm₁, hcolors₁, hout, hwrites⟩ := output_after harmless hitem hm hcolors
      rw [executeAll, run_bind, executed]
      unfold after at hm₁
      rcases run : command.execute.run.run t with ⟨failure | _, t'⟩
      · rw [run] at hm₁
        exact ⟨m₁, [out], hm₁, by simp [hout], .cons hwrites .nil⟩
      · rw [run] at hm₁
        obtain ⟨m', outs, hm', houts, hall⟩ := ih hrest hm₁ hcolors₁
        exact ⟨m', out :: outs, hm', by simp [houts, hout, String.append_assoc],
          .cons hwrites hall⟩

end Escaped

/-- **What is written as markup consists of complete pieces** if no escaped text can end its
    place, whatever the document is and whether it can be typeset or not: each command that is
    executed writes nothing, an instance of a template with harmless texts in its holes, or its
    own fragment. -/
theorem written_typesetOps [Escaping] (harmless : Escaping.Harmless) (library : Library)
    (encodings : Encodings) (mode : Strictness) (ops : List (Except Dvi.Fault Dvi.Op)) :
    ∃ outs : List String,
      ((typesetOps ops).run.run (.markup library encodings mode : Typesetter Binary64)).2.written =
        String.join outs ∧
      List.Forall₂ (fun step out => step.2.Writes step.1 out)
        (executed (.markup library encodings mode) (pipeline.run ops)) outs := by
  have colored : (Markup.start encodings mode : Markup Binary64).Colored := ⟨.inl rfl, nofun⟩
  obtain ⟨m', outs, hm', houts, hall⟩ := output_executeAll harmless (ofDocument_pipeline ops)
    (t := .markup library encodings mode) rfl colored
  refine ⟨outs, ?_, hall⟩
  rw [typesetOps, written, hm']
  exact houts.trans String.empty_append

/-- A document with a quote in the name of a font, an angle bracket in a text and a fragment, at
    the end of which nothing was saved that could be restored. -/
def quotedFont : List (Except Dvi.Fault Dvi.Op) :=
  [.ok (.defineFont 0 0 655360 655360 "" "a\"b"), .ok (.enableFont 0), .ok (.typesetChar 60 true),
    .ok (.special (Utf8.encode "dvisvgm:raw <g>")), .ok .pop, .ok (.typesetChar 60 true)]

/-- A typesetter with metrics for this font. -/
def quotedFontPage : Typesetter Binary64 :=
  .markup (.ofList [("a\"b", (Metrics.empty 0 10485760).insert 60 ⟨524288, 524288, 0, 0, none⟩)])
    (.insert {} "a\"b" 60 '<') .strict

/-- Five of its commands are executed, and what could end a place stands there as an entity. -/
theorem written_typesetOps_quotedFont :
    (∃ outs : List String,
      ((typesetOps quotedFont).run.run quotedFontPage).2.written = String.join outs ∧
        List.Forall₂ (fun step out => step.2.Writes step.1 out)
          (executed quotedFontPage (pipeline.run quotedFont)) outs ∧ outs.length = 5) ∧
      ((typesetOps quotedFont).run.run quotedFontPage).1.isOk = false ∧
      ((typesetOps quotedFont).run.run quotedFontPage).2.written =
        "<span style=\"line-height: 0; color: black; font-family: a&quot;b; font-size: 10pt; " ++
        "position: absolute; top: -4.999999999999999pt; left: 0pt; overflow: visible;\">" ++
        "<span style=\"margin-top: -10pt; line-height: 0pt; height: 10pt; " ++
        "display: inline-block; vertical-align: baseline; \">&lt;</span>" ++
        "<span style=\"display: inline-block; vertical-align: 4.999999999999999pt; " ++
        "height: 0pt; line-height: 0;\"></span></span><g>" := by
  refine ⟨?_, by decide +kernel, by decide +kernel⟩
  obtain ⟨outs, joined, writes⟩ :=
    written_typesetOps Escaping.harmless_entities _ _ .strict quotedFont
  have five : (executed quotedFontPage (pipeline.run quotedFont)).length = 5 := by
    decide +kernel
  exact ⟨outs, joined, writes, writes.length_eq ▸ five⟩

end DviMarkup
