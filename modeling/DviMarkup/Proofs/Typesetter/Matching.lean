/-
  Actions that match others, also when they fail.

  * `Matches`: in related states, two actions end with the same result, a value or a failure,
    and leave related states;
  * `OnCore.matches`: actions on what typesetters share match themselves if nothing else
    differs;
  * `PostScript.matches_code`: so does code where the unit is the same;
  * `matches_executeAll`: so do commands in order, if each of them does.
-/
import DviMarkup.Proofs.Typesetter.Following

namespace DviMarkup

/-! ## Matching -/

section Matches

variable {σ β ε : Type}

/-- Whether an action matches another one: in related states both come to the same result,
    also when they fail, and leave related states. -/
def Matches (R : σ → σ → Prop) (action action' : ExceptT Failure (StateM σ) β) : Prop :=
  ∀ s s', R s s' → (action.run.run s).1 = (action'.run.run s').1 ∧
    R (action.run.run s).2 (action'.run.run s').2

namespace Matches

variable {R : σ → σ → Prop}

theorem pure (b : β) : Matches R (pure b) (pure b) := fun _ _ hs => ⟨rfl, hs⟩

theorem throw (failure : Failure) :
    Matches R (throw failure : ExceptT Failure (StateM σ) β) (throw failure) :=
  fun _ _ hs => ⟨rfl, hs⟩

theorem modify {f f' : σ → σ} (h : ∀ s s', R s s' → R (f s) (f' s')) :
    Matches R (modify f) (modify f') := fun s s' hs => ⟨rfl, h s s' hs⟩

/-- What comes afterwards starts in related states, if both go on at all. -/
theorem bind {action action' : ExceptT Failure (StateM σ) β}
    {next next' : β → ExceptT Failure (StateM σ) ε} (h : Matches R action action')
    (hnext : ∀ b, Matches R (next b) (next' b)) :
    Matches R (action >>= next) (action' >>= next') := by
  intro s s' hs
  obtain ⟨result, ht⟩ := h s s' hs
  rw [run_bind, run_bind]
  rcases run : action.run.run s with ⟨r, t⟩
  rcases run' : action'.run.run s' with ⟨r', t'⟩
  rw [run, run'] at result ht
  obtain rfl : r = r' := result
  cases r with
  | error failure => exact ⟨rfl, ht⟩
  | ok b => exact hnext b t t' ht

theorem get_bind {next next' : σ → ExceptT Failure (StateM σ) β}
    (h : ∀ s s', R s s' → Matches R (next s) (next' s')) :
    Matches R (MonadState.get >>= next) (MonadState.get >>= next') :=
  fun s s' hs => h s s' hs s s' hs

theorem map {action action' : ExceptT Failure (StateM σ) β} (h : Matches R action action')
    (f : β → ε) : Matches R (f <$> action) (f <$> action') := by
  rw [map_eq_pure_bind, map_eq_pure_bind]
  exact h.bind fun b => .pure (f b)

end Matches

/-- Actions on a part match themselves if the relation says of this part that it is the
    same. -/
theorem OnPart.matches {γ : Type} {part : Part σ γ} {invariant : γ → Prop}
    {cause : Failure → Prop} {R : σ → σ → Prop} {action : ExceptT Failure (StateM σ) β}
    (h : OnPart part invariant cause action)
    (same : ∀ s s', R s s' → part.get s = part.get s' ∧ invariant (part.get s))
    (put : ∀ s s' g, R s s' → invariant g → R (part.put g s) (part.put g s')) :
    Matches R action action := by
  intro s s' hs
  obtain ⟨result, g, run, run', hg, -⟩ := h s s' (same s s' hs).1 (same s s' hs).2
  rw [run, run']
  exact ⟨rfl, put s s' g hs hg⟩

end Matches

/-! ## Typesetters -/

variable {α β : Type} {library : Library} {Q : Output α → Output α → Prop}

/-- Actions on what typesetters share match themselves. -/
theorem OnCore.matches {action : Action α β} (h : OnCore library action) :
    Matches (Alike library Q) action action :=
  OnPart.matches h (fun _ _ ht => ⟨ht.core, ht.library⟩)
    fun _ _ _ ht hlibrary => ⟨rfl, hlibrary, ht.output⟩

namespace Typesetter

theorem matches_modifyPlain {f : Core α → Plain α → Plain α}
    (h : ∀ core o o', Q o o' → Q (o.onPlain (f core)) (o'.onPlain (f core))) :
    Matches (Alike library Q) (modifyPlain f) (modifyPlain f) := by
  rw [modifyPlain_eq]
  refine .modify fun t t' ht => ⟨ht.core, ht.library, ?_⟩
  rw [← ht.core]
  exact h t.core _ _ ht.output

theorem matches_setCurrentPoint [Scalar α] (units : ∀ o o', Q o o' → o.unit? = o'.unit?)
    (x y : α) : Matches (Alike library Q) (setCurrentPoint x y) (setCurrentPoint x y) := by
  rw [setCurrentPoint_eq]
  refine Matches.get_bind fun t t' ht => ?_
  rw [units _ _ ht.output]
  split <;> exact OnCore.matches (onCore_modifyCore fun _ => rfl)

end Typesetter

/-! ## Code -/

namespace PostScript

open Session

section Operands

variable {R : Typesetter α → Typesetter α → Prop}

/-- What is done with the typesetter matches as it does without operands. -/
theorem matches_onTypesetter {action : DviMarkup.Action α β} (h : Matches R action action) :
    Matches (SameOperands R) (onTypesetter action) (onTypesetter action) := by
  intro s s' hs
  obtain ⟨result, ht⟩ := h s.typesetter s'.typesetter hs.typesetter
  rw [run_onTypesetter, run_onTypesetter]
  exact ⟨result, hs.stack, ht⟩

/-- Actions on the operands match themselves. -/
theorem OnOperands.matches {action : Session.Action α β} (h : OnOperands action) :
    Matches (SameOperands R) action action :=
  OnPart.matches h (fun _ _ hs => ⟨hs.stack, trivial⟩) fun _ _ _ hs _ => ⟨rfl, hs.typesetter⟩

end Operands

variable [Scalar α] (units : ∀ o o', Q o o' → o.unit? = o'.unit?)

include units

theorem matches_operator (name : String) :
    Matches (SameOperands (Alike library Q)) (operator name) (operator name) := by
  rcases operator_cases (α := α) name with h | ⟨operands, h, heq⟩ | rfl | rfl
  · exact h.matches
  · rw [heq]
    exact h.matches.bind fun change => matches_onTypesetter change.onCore_run.matches
  · refine Matches.get_bind fun s s' hs => ?_
    rw [Typesetter.currentPoint_alike units hs.typesetter]
    exact (onOperands_push _).matches.bind fun _ => (onOperands_push _).matches
  · exact (onOperands_popPair "moveto").matches.bind fun _ =>
      matches_onTypesetter (Typesetter.matches_setCurrentPoint units _ _)

theorem matches_runTokens (ts : List (Except Fault Token)) :
    Matches (SameOperands (Alike library Q)) (runTokens ts) (runTokens ts) := by
  induction ts with
  | nil => exact .pure ()
  | cons t ts ih =>
    cases t with
    | error fault => exact .throw _
    | ok t =>
      refine Matches.bind ?_ fun _ => ih
      cases t with
      | operator name => exact matches_operator units name
      | arrayEnd => exact onOperands_closeArray.matches
      | _ => exact (onOperands_push _).matches

/-- **Code matches itself where the unit is the same.** -/
theorem matches_code (code : String) :
    Matches (Alike library Q) (execute code) (execute code) := by
  intro t t' ht
  obtain ⟨result, hs⟩ := matches_runTokens units (tokens code) { stack := [], typesetter := t }
    { stack := [], typesetter := t' } ⟨rfl, ht⟩
  rw [run_execute, run_execute]
  exact ⟨result, hs.typesetter⟩

end PostScript

/-! ## Commands in order -/

/-- **Commands in order match themselves if each of them does.** -/
theorem matches_executeAll [Scalar α] [Escaping] {R : Typesetter α → Typesetter α → Prop}
    (commands : ∀ command : Command, Matches R command.execute command.execute)
    (items : List Item) : Matches R (executeAll items) (executeAll items) := by
  induction items with
  | nil => exact .pure ()
  | cons item items ih =>
    cases item with
    | error failure => exact .throw failure
    | ok command => exact (commands command).bind fun _ => ih

end DviMarkup
