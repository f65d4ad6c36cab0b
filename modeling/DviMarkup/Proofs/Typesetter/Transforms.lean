/-
  Saved transforms.

  The operators that save the transform and those that restore it are brackets, also if they
  are in different commands and on different pages.

  * `PostScript.operators` are the operators that tokens run, and `Command.operators` those
    of a command;
  * `PostScript.transformBrackets`: saving and restoring the transform are brackets, also
    where there are operands (`PostScript.sessionBrackets`);
  * `PostScript.nests_execute`: code does to the saved transforms what its operators say;
  * `gsave_grestore_brackets`: commands between code that saves the transform and code that
    restores it come to the same as without both, and then the transform comes back.
-/
import Mathlib.Control.Monad.Basic
import DviMarkup.Number.Binary64
import DviMarkup.Proofs.Typesetter.Brackets
import DviMarkup.Proofs.Typesetter.Fragments

namespace DviMarkup

open Typesetter

/-! ## Operators -/

namespace PostScript

/-- The operators in tokens, in order. -/
def operators (ts : List (Except Fault Token)) : List String :=
  ts.flatMap fun
    | .ok (.operator name) => [name]
    | _ => []

end PostScript

/-- The operators that a command runs, in order. -/
def Command.operators : Command → List String
  | .postScript code => PostScript.operators (PostScript.tokens code)
  | _ => []

/-! ## Brackets -/

namespace PostScript

open Session

variable {α δ : Type} {part : Part (Typesetter α) (List δ)}

/-- The transform is saved and restored. -/
def transformBrackets :
    Brackets (savedTransforms : Part (Typesetter α) _) saveTransform restoreTransform where
  current t := t.core.matrix
  reinstate matrix t := { t with core := { t.core with matrix } }
  current_put _ _ := rfl
  run_save _ := rfl
  run_restore _ _ _ := rfl

/-- What brackets a part of the typesetter does so too where there are operands. -/
def sessionBrackets {save restore : DviMarkup.Action α Unit}
    (brackets : Brackets part save restore) :
    Brackets (sessionPart part) (onTypesetter save) (onTypesetter restore) where
  current s := brackets.current s.typesetter
  reinstate x s := { s with typesetter := brackets.reinstate x s.typesetter }
  current_put stack s := brackets.current_put stack s.typesetter
  run_save s := by
    rw [run_onTypesetter, brackets.run_save]
    rfl
  run_restore x stack s := by
    rw [run_onTypesetter]
    dsimp only [sessionPart]
    rw [brackets.run_restore]

variable [Scalar α]

/-- An operator does to the saved transforms what it says. -/
theorem nests_operator (name : String) :
    Nests (sessionPart savedTransforms) "gsave" "grestore" [name]
      (operator name : Session.Action α Unit) := by
  refine (sessionBrackets transformBrackets).nests_event (by decide) ?_ ?_ fun gsave grestore => ?_
  · rintro rfl
    rfl
  · rintro rfl
    rfl
  · exact (ignores_operator gsave grestore).narrow (fun saved stack => (stack.1, saved))
      fun _ _ => rfl

theorem nests_runTokens (ts : List (Except Fault Token)) :
    Nests (sessionPart savedTransforms) "gsave" "grestore" (operators ts)
      (runTokens ts : Session.Action α Unit) := by
  induction ts with
  | nil => exact Ignores.nests (.pure ()) rfl rfl
  | cons t ts ih =>
    unfold operators
    rw [List.flatMap_cons]
    cases t with
    | error fault => exact fun _ _ _ _ _ _ _ _ run => by cases run
    | ok t =>
      refine Nests.bind ?_ fun _ => ih
      cases t with
      | operator name => exact nests_operator name
      | _ => exact (onOperands_token fun _ => Token.noConfusion).ignores.nests rfl rfl

/-- Code does to the saved transforms what its operators say. -/
theorem nests_execute (code : String) :
    Nests savedTransforms "gsave" "grestore" (operators (tokens code))
      (execute code : DviMarkup.Action α Unit) := by
  intro t inner base base' ht enough b t' run
  rw [run_execute, Prod.mk.injEq] at run
  obtain ⟨result, rfl⟩ := run
  obtain ⟨inner', ht', count, run'⟩ := nests_runTokens (tokens code)
    { stack := [], typesetter := t } inner base base' ht enough b _ (Prod.ext result rfl)
  refine ⟨inner', ht', count, ?_⟩
  rw [run_execute]
  dsimp only [sessionPart] at run'
  rw [run']

/-- Code that is only an operator comes to what this does with the typesetter. -/
theorem execute_operator {code name : String} {action : DviMarkup.Action α Unit}
    (ts : tokens code = [.ok (.operator name)]) (h : operator name = onTypesetter action) :
    execute code = action := by
  refine funext fun t => ?_
  have run : (execute code).run.run t = action.run.run t := by
    rw [run_execute, ts, runTokens, token, h, show
      (onTypesetter action >>= fun _ => runTokens []) = onTypesetter action from bind_pure_unit]
    rfl
  exact run

theorem execute_gsave : (execute "gsave" : DviMarkup.Action α Unit) = saveTransform :=
  execute_operator (by decide +kernel : tokens "gsave" = [.ok (.operator "gsave")]) rfl

theorem execute_grestore : (execute "grestore" : DviMarkup.Action α Unit) = restoreTransform :=
  execute_operator (by decide +kernel : tokens "grestore" = [.ok (.operator "grestore")]) rfl

end PostScript

/-! ## Commands -/

variable {α : Type} [Scalar α]

/-- A command does to the saved transforms what its operators say. -/
theorem Command.nests_savedTransforms [Escaping] (command : Command) :
    Nests savedTransforms "gsave" "grestore" command.operators
      (command.execute : Action α Unit) := by
  cases command with
  | postScript code => exact PostScript.nests_execute code
  | _ => exact (Command.ignores_savedTransforms fun _ => Command.noConfusion).nests rfl rfl

/-- **Transforms are bracketed across commands.**  Commands whose operators are balanced
    come to the same after code that saves the transform as without it, with the transform
    saved; and if the transform is restored after them, only the transform comes back and
    what was saved is as before. -/
theorem gsave_grestore_brackets [Escaping] {commands : List Command}
    (balanced : Balanced "gsave" "grestore" (commands.flatMap Command.operators))
    (t t' : Typesetter α) :
    ((executeAll ((Command.postScript "gsave" :: commands).map .ok)).run.run t = (.ok (), t') ↔
        ∃ t₁, (executeAll (commands.map .ok)).run.run t = (.ok (), t₁) ∧
          t' = { t₁ with core := { t₁.core with saved := t.core.matrix :: t.core.saved } }) ∧
      ((executeAll ((Command.postScript "gsave" :: commands ++
            [Command.postScript "grestore"]).map .ok)).run.run t = (.ok (), t') ↔
        ∃ t₁, (executeAll (commands.map .ok)).run.run t = (.ok (), t₁) ∧
          t' = { t₁ with core := { t₁.core with
            matrix := t.core.matrix, saved := t.core.saved } }) := by
  have nests : Nests savedTransforms "gsave" "grestore" (commands.flatMap Command.operators)
      (executeAll (commands.map .ok) : Action α Unit) :=
    nests_executeAll fun command _ => command.nests_savedTransforms
  have opening : (Command.postScript "gsave").execute (α := α) = saveTransform :=
    PostScript.execute_gsave
  have closing : (Command.postScript "grestore").execute (α := α) = restoreTransform :=
    PostScript.execute_grestore
  constructor
  · rw [List.map_cons, executeAll, opening]
    exact PostScript.transformBrackets.run_opened nests balanced t t'
  · rw [executeAll_enclosed, opening, closing]
    exact PostScript.transformBrackets.run_bracketed nests balanced t t'

/-- A page on which a transform is saved already. -/
def scaled : Typesetter Binary64 :=
  [.preamble 25400000 473628672 1000 "", .beginPage (.replicate 10 0), .postScript "2 dup scale gsave"
    ].foldl after (.markup (.ofList []) {} .strict)

/-- Commands with code on two pages, brackets of their own and an image. -/
def acrossPages : List Command :=
  [.postScript "3 5 scale gsave", .push, .postScript "7 9 translate 1 2 moveto (gsave)",
    .image "psfile=plot.eps llx=0 lly=0 urx=30 ury=20", .pop, .endPage,
    .beginPage (.replicate 10 0), .postScript "gsave [ 1 ] grestore grestore"]

/-- What becomes of the commands. -/
def acrossPagesRun : Except Failure Unit × Typesetter Binary64 :=
  (executeAll (acrossPages.map .ok)).run.run scaled

/-- Between code that saves the transform and code that restores it, the commands succeed on
    a page where one transform is saved, and that one is left. -/
theorem gsave_grestore_brackets_acrossPages :
    Balanced "gsave" "grestore" (acrossPages.flatMap Command.operators) ∧
      acrossPagesRun.1 = .ok () ∧ scaled.core.saved.length = 1 ∧
      (executeAll ((Command.postScript "gsave" :: acrossPages ++
          [Command.postScript "grestore"]).map .ok)).run.run scaled =
        (.ok (), { acrossPagesRun.2 with core := { acrossPagesRun.2.core with
          matrix := scaled.core.matrix, saved := scaled.core.saved } }) := by
  have balanced : Balanced "gsave" "grestore" (acrossPages.flatMap Command.operators) := by
    decide +kernel
  have succeeds : acrossPagesRun.1 = .ok () := by
    decide +kernel
  have run : (executeAll (acrossPages.map .ok)).run.run scaled = (.ok (), acrossPagesRun.2) :=
    Prod.ext succeeds rfl
  exact ⟨balanced, succeeds, by decide +kernel,
    (gsave_grestore_brackets balanced scaled _).2.mpr ⟨_, run, rfl⟩⟩

end DviMarkup
