/-
  The fragments of SVG that commands write.

  * `Typesetter.after` is a typesetter after a command;
  * `Command.fragment?` is the fragment that a command writes: markup as it is, or
    the element of an image;
  * `after_fragment`: of a typesetter of markup, the command does with it what
    `Markup.putSvg` does, and nothing else;
  * `depth_after`: a command without a fragment opens and closes no element.
-/
import DviMarkup.Proofs.Typesetter.Footprint

namespace DviMarkup

open Scalar

variable {α : Type} [Scalar α]

/-- A typesetter after a command, also if the command fails. -/
def Typesetter.after [Escaping] (t : Typesetter α) (command : Command) : Typesetter α :=
  (command.execute.run.run t).2

/-! ## Fragments -/

/-- The element of the image that a description is about, if it is drawn. -/
def Image.fragment? [Escaping] (t : Typesetter α) (description : String) : Option String :=
  let table := attributes description.toList
  let file := (attribute? table "psfile").getD []
  let d : Drawing α := .ofAttributes table
  let (x, y) := t.currentPoint
  if file.isEmpty || d.isEmpty then none
  else some (d.element (String.ofList (fileName file)) (d.transform t.core.matrix x y))

/-- The fragment that a command writes, if it writes one. -/
def Command.fragment? [Escaping] (t : Typesetter α) : Command → Option String
  | .rawSvg fragment => some fragment
  | .image attributes => Image.fragment? t attributes
  | _ => none

theorem Image.run_draw [Escaping] (t : Typesetter α) (description : String) :
    (draw description).run.run t =
      match fragment? t description with
      | some fragment => (Typesetter.putSvg fragment).run.run t
      | none => (.ok (), t) := by
  unfold draw fragment?
  dsimp only
  generalize attributes description.toList = table
  generalize (((attribute? table "psfile").getD []).isEmpty ||
    (Drawing.ofAttributes table : Drawing α).isEmpty) = skipped
  cases skipped with
  | true =>
    simp only [if_true]
    rfl
  | false =>
    simp only [Bool.false_eq_true, if_false]
    exact run_get_bind _ t

/-- Writing a fragment always succeeds, and touches only what is kept for markup. -/
theorem Typesetter.run_putSvg {t : Typesetter α} {m : Markup α} (hm : t.output = .markup m)
    (fragment : String) :
    (putSvg fragment).run.run t =
      (.ok (),
        { t with output := .markup (m.putSvg t.currentPoint.1 t.currentPoint.2 fragment) }) := by
  obtain ⟨core, output⟩ := t
  obtain rfl : output = .markup m := hm
  rfl

/-- **A command with a fragment writes it** and does nothing else. -/
theorem after_fragment [Escaping] {t : Typesetter α} {m : Markup α} (hm : t.output = .markup m)
    {command : Command} {fragment : String} (h : command.fragment? t = some fragment) :
    t.after command =
      { t with output := .markup (m.putSvg t.currentPoint.1 t.currentPoint.2 fragment) } := by
  cases command with
  | rawSvg markup =>
    obtain rfl : markup = fragment := by simpa [Command.fragment?] using h
    exact congrArg Prod.snd (t.run_putSvg hm markup)
  | image attributes =>
    have himage : Image.fragment? t attributes = some fragment := h
    rw [Typesetter.after, Command.execute, Image.run_draw, himage]
    exact congrArg Prod.snd (t.run_putSvg hm fragment)
  | _ => cases h

/-! ## Open elements -/

/-- The number of open elements, if markup is written. -/
def Typesetter.depth? (t : Typesetter α) : Option Int :=
  match t.output with
  | .markup m => some m.depth
  | _ => none

/-- Commands other than markup and images open and close no element, in whatever
    state. -/
theorem Command.keeps_depth [Escaping] {command : Command}
    (raw : ∀ fragment, command ≠ .rawSvg fragment)
    (image : ∀ attributes, command ≠ .image attributes) :
    Keeps Typesetter.depth? (command.execute : Action α Unit) := by
  have keeps : Keeps (Typesetter.markup? fun m : Markup α => m.depth) command.execute := by
    refine Command.keeps_field fun m => ?_
    cases command with
    | rawSvg fragment => exact absurd rfl (raw fragment)
    | image attributes => exact absurd rfl (image attributes)
    | _ => rfl
  exact keeps

/-- **A command without a fragment opens and closes no element.** -/
theorem depth_after [Escaping] {t : Typesetter α} {command : Command}
    (h : command.fragment? t = none) : (t.after command).depth? = t.depth? := by
  cases command with
  | rawSvg markup => cases h
  | image attributes =>
    have himage : Image.fragment? t attributes = none := h
    rw [Typesetter.after, Command.execute, Image.run_draw, himage]
  | _ => exact Command.keeps_depth (fun _ => Command.noConfusion) (fun _ => Command.noConfusion) t

end DviMarkup
