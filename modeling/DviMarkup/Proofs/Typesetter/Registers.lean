/-
  Saved registers.

  Commands that save registers and commands that restore them are brackets, which may be
  nested, and every page has its own.

  * `registerBrackets`: saving and restoring registers are brackets;
  * `Command.nests_execute`: other commands are done in between, unless they begin a page;
  * `Command.unrestored` counts the saved registers that are still to be restored, and
    `length_stack_foldl_after`: so many are on the stack;
  * `push_pop_brackets`: what is done between two brackets comes to the same as without them,
    and then the registers come back; a restoring command without a saving one on the same
    page fails.
-/
import Mathlib.Control.Monad.Basic
import DviMarkup.Number.Binary64
import DviMarkup.Proofs.Typesetter.Brackets
import DviMarkup.Proofs.Typesetter.Fragments

namespace DviMarkup

open Typesetter

variable {α : Type}

/-! ## Brackets -/

/-- Registers are saved and restored. -/
def registerBrackets :
    Brackets (positionStack : Part (Typesetter α) _) Typesetter.push Typesetter.pop where
  current t := t.core.position
  reinstate position t := { t with core := { t.core with position } }
  current_put _ _ := rfl
  run_save _ := rfl
  run_restore _ _ _ := rfl

variable [Scalar α]

/-- A command does to the saved registers what it says, unless it begins a page. -/
theorem Command.nests_execute [Escaping] {command : Command}
    (page : ∀ parameters, command ≠ .beginPage parameters) :
    Nests positionStack Command.push .pop [command] (command.execute : Action α Unit) := by
  refine registerBrackets.nests_event Command.noConfusion ?_ ?_ fun push pop => ?_
  · rintro rfl
    rfl
  · rintro rfl
    rfl
  · exact Command.ignores_positionStack push pop page

/-! ## Registers that are still saved -/

/-- How many saved registers are still to be restored on a page after a command, if there
    were `n` before. -/
def Command.unrestored (n : Nat) : Command → Nat
  | .beginPage _ => 0
  | .push => n + 1
  | .pop => n - 1
  | _ => n

omit [Scalar α] in
/-- Registers cannot be restored if none are saved, and only then. -/
theorem run_pop (t : Typesetter α) :
    pop.run.run t = match t.core.stack with
      | [] => (.error .positionStackUnderflow, t)
      | position :: stack => (.ok (), { t with core := { t.core with position, stack } }) := by
  refine (run_get_bind _ t).trans ?_
  cases t.core.stack <;> rfl

theorem stack_after [Escaping] {command : Command} (push : command ≠ .push) (pop : command ≠ .pop)
    (page : ∀ parameters, command ≠ .beginPage parameters) (t : Typesetter α) :
    (t.after command).core.stack = t.core.stack :=
  (Command.ignores_positionStack push pop page).get_eq t

theorem length_stack_after [Escaping] (t : Typesetter α) (command : Command) :
    (t.after command).core.stack.length = command.unrestored t.core.stack.length := by
  cases command with
  | push => rfl
  | beginPage => rfl
  | pop =>
    rw [after, Command.execute, run_pop]
    cases h : t.core.stack with
    | nil => exact congrArg List.length h
    | cons position stack => rfl
  | _ =>
    exact congrArg List.length
      (stack_after Command.noConfusion Command.noConfusion (fun _ => Command.noConfusion) t)

/-- So many registers are saved, also if some of the commands fail. -/
theorem length_stack_foldl_after [Escaping] (history : List Command) (t : Typesetter α) :
    (history.foldl after t).core.stack.length =
      history.foldl Command.unrestored t.core.stack.length := by
  induction history generalizing t with
  | nil => rfl
  | cons command history ih =>
    rw [List.foldl_cons, List.foldl_cons, ih, length_stack_after]

/-- **Registers are bracketed.**  Commands between a bracket and the one that closes it
    come to the same as without the brackets, with all that they change, and then only the
    registers come back.  After whatever commands, on a page that was begun without saved
    registers, restoring fails exactly if none are left to be restored. -/
theorem push_pop_brackets [Escaping] :
    (∀ (commands : List Command) (t t' : Typesetter α),
      (∀ parameters, .beginPage parameters ∉ commands) → Balanced .push .pop commands →
        ((executeAll ((Command.push :: commands ++ [Command.pop]).map .ok)).run.run t =
            (.ok (), t') ↔
          ∃ t₁, (executeAll (commands.map .ok)).run.run t = (.ok (), t₁) ∧
            t' = { t₁ with core := { t₁.core with
              position := t.core.position, stack := t.core.stack } })) ∧
      ∀ (history : List Command) (t : Typesetter α), t.core.stack = [] →
        (Command.pop.execute.run.run (history.foldl after t) =
            (.error .positionStackUnderflow, history.foldl after t) ↔
          history.foldl Command.unrestored 0 = 0) := by
  constructor
  · intro commands t t' page balanced
    have nests : Nests positionStack Command.push .pop (commands.flatMap fun c => [c])
        (executeAll (commands.map .ok) : Action α Unit) :=
      nests_executeAll fun command h => Command.nests_execute fun parameters heq =>
        page parameters (heq ▸ h)
    rw [List.flatMap_singleton'] at nests
    rw [executeAll_enclosed]
    exact registerBrackets.run_bracketed nests balanced t t'
  · intro history t new
    have length := length_stack_foldl_after history t
    rw [new, List.length_nil] at length
    rw [Command.execute, run_pop, ← length, List.length_eq_zero_iff]
    cases (history.foldl after t).core.stack with
    | nil => exact iff_of_true rfl rfl
    | cons position stack =>
      refine iff_of_false (fun h => ?_) (List.cons_ne_nil _ _)
      cases h

/-- A page with two fonts, on which registers are saved already. -/
def twoFonts : Typesetter Binary64 :=
  let metrics := (Metrics.empty 0 0xA00000).insert 104 ⟨0x80000, 0x70000, 0, 0, none⟩
  ([.defineFont 0 ⟨"cmr10", 0, 0xA0000, 0xA0000⟩, .defineFont 1 ⟨"cmbx10", 0, 0xA0000, 0xA0000⟩,
    .beginPage (.replicate 10 0), .enableFont 0, .moveDown 7, .push].foldl after
      (.plain (.ofList [("cmr10", metrics), ("cmbx10", metrics)]) {} .strict))

/-- Commands with a text, a bracket of their own, code that goes to a place, another font and
    a rule. -/
def wandering : List Command :=
  [.setText [104, 104], .push, .postScript "10 20 moveto", .moveBy .w (some 5), .pop,
    .enableFont 1, .setRule 5 7]

/-- What becomes of the commands between brackets. -/
def wanderingRun : Except Failure Unit × Typesetter Binary64 :=
  (executeAll ((Command.push :: wandering ++ [Command.pop]).map .ok)).run.run twoFonts

/-- After the commands, the registers are those from before; and on a page with one bracket,
    the second restoring command fails. -/
theorem push_pop_brackets_wandering :
    (∀ parameters, .beginPage parameters ∉ wandering) ∧
      Balanced Command.push .pop wandering ∧ wanderingRun.1 = .ok () ∧
      (∃ t₁, (executeAll (wandering.map .ok)).run.run twoFonts = (.ok (), t₁) ∧
        wanderingRun.2 = { t₁ with core := { t₁.core with
          position := twoFonts.core.position, stack := twoFonts.core.stack } }) ∧
      (Typesetter.silent (α := Binary64) (.ofList [])).core.stack = [] ∧
      Command.pop.execute.run.run
          ([Command.push, .beginPage (.replicate 10 0), .push, .pop].foldl after
            (.silent (.ofList []) : Typesetter Binary64)) =
        (.error .positionStackUnderflow,
          [Command.push, .beginPage (.replicate 10 0), .push, .pop].foldl after
            (.silent (.ofList []))) := by
  have page : ∀ parameters, .beginPage parameters ∉ wandering := by
    simp [wandering]
  have balanced : Balanced Command.push .pop wandering := by
    decide +kernel
  have succeeds : wanderingRun.1 = .ok () := by
    decide +kernel
  have run : (executeAll ((Command.push :: wandering ++ [Command.pop]).map .ok)).run.run twoFonts =
      (.ok (), wanderingRun.2) := Prod.ext succeeds rfl
  exact ⟨page, balanced, succeeds, (push_pop_brackets.1 _ _ _ page balanced).mp run, rfl,
    (push_pop_brackets.2 _ _ rfl).mpr rfl⟩

end DviMarkup
