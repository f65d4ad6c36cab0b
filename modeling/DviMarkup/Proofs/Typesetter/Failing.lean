/-
  Commands that fail.

  Whatever can be wrong with a command is found out before it changes anything.  So a
  command that fails leaves the typesetter as it was, except that a library knows for which
  fonts it was asked.  Code is another matter, since it may fail after some of its steps.

  * `Succeeds` holds of the actions that never fail, and `FailsCleanly` of those that leave
    the state as it was if they fail;
  * an action that looks first and changes something at the end fails cleanly
    (`FailsCleanly.keeps_bind`, `FailsCleanly.bind_succeeds`);
  * `run_defineFont` is what becomes of the definition of a font;
  * `Command.failsCleanly_execute`: all other commands but code fail cleanly;
  * `eq_of_execute_error`: a command that fails changes nothing.
-/
import Mathlib.Control.Monad.Basic
import DviMarkup.Number.Binary64
import DviMarkup.Proofs.Typesetter.Frame

namespace DviMarkup

/-! ## Actions that fail -/

section Actions

variable {σ β ε : Type}

/-- Whether an action succeeds in every state. -/
def Succeeds (action : ExceptT Failure (StateM σ) β) : Prop :=
  ∀ s, ∃ b s', action.run.run s = (.ok b, s')

/-- Whether an action that fails leaves the state as it was. -/
def FailsCleanly (action : ExceptT Failure (StateM σ) β) : Prop :=
  ∀ s failure s', action.run.run s = (.error failure, s') → s' = s

namespace Succeeds

theorem pure (b : β) : Succeeds (pure b : ExceptT Failure (StateM σ) β) :=
  fun s => ⟨b, s, rfl⟩

theorem get : Succeeds (get : ExceptT Failure (StateM σ) σ) := fun s => ⟨s, s, rfl⟩

theorem modify (f : σ → σ) : Succeeds (modify f : ExceptT Failure (StateM σ) PUnit) :=
  fun s => ⟨⟨⟩, f s, rfl⟩

theorem bind {action : ExceptT Failure (StateM σ) β} {next : β → ExceptT Failure (StateM σ) ε}
    (h : Succeeds action) (hnext : ∀ b, Succeeds (next b)) : Succeeds (action >>= next) := by
  intro s
  obtain ⟨b, s', run⟩ := h s
  rw [run_bind, run]
  exact hnext b s'

end Succeeds

namespace FailsCleanly

theorem of_succeeds {action : ExceptT Failure (StateM σ) β} (h : Succeeds action) :
    FailsCleanly action := by
  intro s failure s' run
  obtain ⟨b, s'', ok⟩ := h s
  rw [ok] at run
  cases run

theorem pure (b : β) : FailsCleanly (pure b : ExceptT Failure (StateM σ) β) :=
  of_succeeds (.pure b)

theorem throw (failure : Failure) :
    FailsCleanly (throw failure : ExceptT Failure (StateM σ) β) := by
  rintro s _ s' ⟨⟩
  rfl

/-- What fails after a look has changed nothing if it fails cleanly itself. -/
theorem keeps_bind {action : ExceptT Failure (StateM σ) β}
    {next : β → ExceptT Failure (StateM σ) ε} (h : Keeps (fun s => s) action)
    (hnext : ∀ b, FailsCleanly (next b)) : FailsCleanly (action >>= next) := by
  intro s failure s' run
  have same := h s
  rcases run_bind_eq_error.mp run with first | ⟨b, t, first, later⟩
  · rwa [first] at same
  · rw [first] at same
    exact (hnext b t failure s' later).trans same

/-- What succeeds can be done at the end. -/
theorem bind_succeeds {action : ExceptT Failure (StateM σ) β}
    {next : β → ExceptT Failure (StateM σ) ε} (h : FailsCleanly action)
    (hnext : ∀ b, Succeeds (next b)) : FailsCleanly (action >>= next) := by
  intro s failure s' run
  rcases run_bind_eq_error.mp run with first | ⟨b, t, -, later⟩
  · exact h s failure s' first
  · obtain ⟨c, t', ok⟩ := hnext b t
    rw [ok] at later
    cases later

/-- A look at the state never fails. -/
theorem get_bind {next : σ → ExceptT Failure (StateM σ) β} (h : ∀ s, FailsCleanly (next s)) :
    FailsCleanly (MonadState.get >>= next) :=
  keeps_bind .get h

end FailsCleanly

end Actions

/-! ## Parts of commands -/

namespace Typesetter

variable {α : Type}

theorem succeeds_modifyCore (f : Core α → Core α) : Succeeds (modifyCore f) := .modify _

theorem succeeds_modifyMarkup (f : Core α → Markup α → Markup α) : Succeeds (modifyMarkup f) :=
  .modify _

theorem succeeds_modifyPlain (f : Core α → Plain α → Plain α) : Succeeds (modifyPlain f) :=
  .modify _

theorem failsCleanly_pop : FailsCleanly (pop : Action α Unit) := by
  refine .get_bind fun t => ?_
  split
  · exact .throw _
  · exact .of_succeeds (succeeds_modifyCore _)

theorem failsCleanly_popColor : FailsCleanly (popColor : Action α Unit) := by
  refine .get_bind fun t => ?_
  split
  · split
    · exact .throw _
    · exact .of_succeeds (succeeds_modifyMarkup _)
  · exact .pure ()

/-- A transform cannot be restored only if there is none. -/
theorem eq_of_run_restoreTransform {t t' : Typesetter α} {failure : Failure}
    (run : (restoreTransform : Action α Unit).run.run t = (.error failure, t')) :
    t' = t ∧ failure = .postScript .nothingSaved := by
  rw [restoreTransform, run_get_bind] at run
  cases saved : t.core.saved with
  | nil =>
    rw [saved] at run
    cases run
    exact ⟨rfl, rfl⟩
  | cons matrix saved' =>
    rw [saved] at run
    cases run

theorem failsCleanly_enableFont (number : UInt32) :
    FailsCleanly (enableFont number : Action α Unit) := by
  refine .get_bind fun t => ?_
  split
  · exact .throw _
  · exact .of_succeeds (succeeds_modifyCore _)

variable [Scalar α]

theorem succeeds_setCurrentPoint (x y : α) :
    Succeeds (setCurrentPoint x y : Action α Unit) := by
  refine Succeeds.get.bind fun t => ?_
  split <;> exact succeeds_modifyCore _

/-- A text is measured and its characters are looked up before anything is written. -/
theorem failsCleanly_putText (text : List UInt8) :
    FailsCleanly (putText text : Action α α) := by
  refine .get_bind fun t => ?_
  split
  · refine .keeps_bind keeps_currentFont fun font =>
      .keeps_bind (keeps_measure font _ text) fun extent => ?_
    split
    · exact .throw _
    · exact .of_succeeds ((succeeds_modifyMarkup _).bind fun _ => .pure _)
  · refine .keeps_bind keeps_currentFont fun font =>
      .keeps_bind (keeps_measure font _ text) fun extent => ?_
    exact .of_succeeds ((succeeds_modifyPlain _).bind fun _ => .pure _)
  · exact .pure _

theorem succeeds_putRule (height width : Int32) :
    Succeeds (putRule height width : Action α Unit) :=
  Succeeds.get.bind fun _ => succeeds_modifyMarkup _

theorem succeeds_putSvg (fragment : String) : Succeeds (putSvg fragment : Action α Unit) := by
  refine Succeeds.get.bind fun t => Succeeds.get.bind fun u => ?_
  split
  · exact .modify _
  · exact succeeds_modifyMarkup _

theorem succeeds_draw [Escaping] (description : String) :
    Succeeds (Image.draw description : Action α Unit) := by
  unfold Image.draw
  dsimp only
  split
  · exact .pure ()
  · exact Succeeds.get.bind fun t => succeeds_putSvg _

/-! ## Fonts -/

omit [Scalar α] in
/-- What becomes of the definition of a font: the library is asked for the metrics if
    neither the number nor the metrics are there. -/
theorem run_defineFont (number : UInt32) (definition : FontDefinition) (t : Typesetter α) :
    (defineFont number definition).run.run t =
      match t.definedFont number, t.core.metrics.lookup definition.name with
      | some _, _ => (.ok (), t)
      | none, some metrics =>
        (.ok (), { t with core := { t.core with
          fonts := (number, { definition with metrics }) :: t.core.fonts } })
      | none, none =>
        match t.core.library.load t.core.asked definition.name with
        | .error failure =>
          (.error failure,
            { t with core := { t.core with asked := definition.name :: t.core.asked } })
        | .ok metrics =>
          (.ok (), { t with core := { t.core with
            asked := definition.name :: t.core.asked
            metrics := (definition.name, metrics) :: t.core.metrics
            fonts := (number, { definition with metrics }) :: t.core.fonts } }) := by
  refine (run_get_bind _ t).trans ?_
  cases t.definedFont number with
  | some font => rfl
  | none =>
    dsimp only
    rw [run_bind, loadMetrics, run_get_bind]
    dsimp only
    cases t.core.metrics.lookup definition.name with
    | some metrics => rfl
    | none =>
      dsimp only
      rw [run_bind]
      cases load : t.core.library.load t.core.asked definition.name with
      | error failure => rfl
      | ok metrics => rfl

end Typesetter

/-! ## Commands -/

section Commands

open Typesetter

variable {α : Type} [Scalar α]

/-- **Commands leave the state as it was if they fail**, besides code and the definition of
    a font. -/
theorem Command.failsCleanly_execute [Escaping] {command : Command}
    (code : ∀ code, command ≠ .postScript code)
    (font : ∀ number definition, command ≠ .defineFont number definition) :
    FailsCleanly (command.execute : Action α Unit) := by
  unfold Command.execute
  cases command with
  | pop => exact failsCleanly_pop
  | setText text => exact (failsCleanly_putText text).bind_succeeds fun _ => succeeds_modifyCore _
  | putText text => exact (failsCleanly_putText text).bind_succeeds fun _ => .pure _
  | enableFont number => exact failsCleanly_enableFont number
  | popColor => exact failsCleanly_popColor
  | postScript source => exact absurd rfl (code source)
  | defineFont number definition => exact absurd rfl (font number definition)
  | preamble => exact .of_succeeds (succeeds_modifyMarkup _)
  | beginPage =>
    exact .of_succeeds ((succeeds_modifyPlain _).bind fun _ => succeeds_modifyCore _)
  | endPage => exact .of_succeeds (succeeds_modifyPlain _)
  | setRule height width =>
    exact .of_succeeds ((succeeds_putRule height width).bind fun _ => succeeds_modifyCore _)
  | putRule height width => exact .of_succeeds (succeeds_putRule height width)
  | pushColor => exact .of_succeeds (succeeds_modifyMarkup _)
  | setPaper => exact .of_succeeds (succeeds_modifyMarkup _)
  | rawSvg fragment => exact .of_succeeds (succeeds_putSvg fragment)
  | image description => exact .of_succeeds (succeeds_draw description)
  | special | beginPostamble | endPostamble => exact .pure ()
  | push | moveRight | moveDown | moveBy => exact .of_succeeds (succeeds_modifyCore _)

/-- **A command that fails changes nothing**: registers and their stack, fonts, metrics,
    transforms, all that is kept for the output and what was written are as before.  Only
    the library may remember that it was asked for a font, if this was to be defined. -/
theorem eq_of_execute_error [Escaping] {command : Command}
    (code : ∀ code, command ≠ .postScript code) {t t' : Typesetter α} {failure : Failure}
    (run : command.execute.run.run t = (.error failure, t')) :
    t'.written = t.written ∧ ∃ asked, t' = { t with core := { t.core with asked } } ∧
      (asked = t.core.asked ∨ ∃ number definition, command = .defineFont number definition ∧
        asked = definition.name :: t.core.asked) := by
  by_cases font : ∃ number definition, command = .defineFont number definition
  · obtain ⟨number, definition, rfl⟩ := font
    rw [Command.execute, run_defineFont] at run
    split at run
    · cases run
    · cases run
    · split at run
      · cases run
        exact ⟨rfl, _, rfl, .inr ⟨number, definition, rfl, rfl⟩⟩
      · cases run
  · have clean : FailsCleanly (command.execute : Action α Unit) :=
      Command.failsCleanly_execute code fun number definition h => font ⟨number, definition, h⟩
    obtain rfl := clean t failure t' run
    exact ⟨rfl, _, rfl, .inl rfl⟩

end Commands

/-- A font with two characters. -/
def twoCharacters : Metrics :=
  ((Metrics.empty 0 0xA00000).insert 104 ⟨0x80000, 0x70000, 0, 0, none⟩).insert 105
    ⟨0x40000, 0x70000, 0, 0, none⟩

/-- A typesetter in the middle of a document, with a font of which the encoding has only
    one of the characters. -/
def halfEncoded : Typesetter Binary64 :=
  ((executeAll [.ok (.defineFont 0 ⟨"cmr10", 0, 0xA0000, 0xA0000⟩), .ok (.enableFont 0),
    .ok .push, .ok (.pushColor "white"), .ok (.setText [104])]).run.run
      (.markup (.ofList [("cmr10", twoCharacters)]) (.insert {} "cmr10" 104 'h') .strict)).2

/-- What becomes of a text with both characters. -/
def halfText : Except Failure Unit × Typesetter Binary64 :=
  (Command.setText [104, 105]).execute.run.run halfEncoded

/-- The text fails at its second character, and changes nothing. -/
theorem eq_of_execute_error_halfText :
    (∀ code, Command.setText [104, 105] ≠ .postScript code) ∧
      halfText.1 = .error (.missingEncoding "cmr10" 105) ∧
      halfText.2.written = halfEncoded.written ∧
      ∃ asked, halfText.2 = { halfEncoded with core := { halfEncoded.core with asked } } ∧
        (asked = halfEncoded.core.asked ∨
          ∃ number definition, Command.setText [104, 105] = .defineFont number definition ∧
            asked = definition.name :: halfEncoded.core.asked) := by
  have code : ∀ code, Command.setText [104, 105] ≠ .postScript code := fun _ => Command.noConfusion
  have fails : halfText.1 = .error (.missingEncoding "cmr10" 105) := by
    decide +kernel
  have run : (Command.setText [104, 105]).execute.run.run halfEncoded =
      (.error (.missingEncoding "cmr10" 105), halfText.2) := Prod.ext fails rfl
  exact ⟨code, fails, eq_of_execute_error code run⟩

end DviMarkup
