/-
  What actions leave as it is.

  * `Keeps view action`: whatever becomes of the action, what the view shows of the
    state is the same before and after;
  * `Typesetter.BlindToCore` holds of the views that show only what is kept for
    the output, and the actions on the shared state keep these (`OnCore.keeps`);
  * `PostScript.keeps_code`: code keeps all but the place and transforms.
-/
import DviMarkup.Proofs.Typesetter.Parts

namespace DviMarkup

/-! ## Views of the state -/

section Keeps

variable {σ β γ ε : Type}

/-- Whether an action leaves what a view shows of the state as it is, also when it
    fails. -/
def Keeps (view : σ → γ) (action : ExceptT Failure (StateM σ) β) : Prop :=
  ∀ s, view (action.run.run s).2 = view s

namespace Keeps

variable {view : σ → γ}

theorem pure (b : β) : Keeps view (pure b : ExceptT Failure (StateM σ) β) := fun _ => rfl

theorem throw (failure : Failure) :
    Keeps view (throw failure : ExceptT Failure (StateM σ) β) := fun _ => rfl

theorem get : Keeps view (get : ExceptT Failure (StateM σ) σ) := fun _ => rfl

theorem modify {f : σ → σ} (h : ∀ s, view (f s) = view s) :
    Keeps view (modify f : ExceptT Failure (StateM σ) PUnit) := h

/-- What follows keeps the view if it does so whatever was found out before. -/
theorem bind {action : ExceptT Failure (StateM σ) β} {next : β → ExceptT Failure (StateM σ) ε}
    (h : Keeps view action) (hnext : ∀ b, Keeps view (next b)) :
    Keeps view (action >>= next) := by
  intro s
  have hs := h s
  rw [run_bind]
  rcases hrun : action.run.run s with ⟨failure | b, s'⟩
  · rwa [hrun] at hs
  · rw [hrun] at hs
    exact (hnext b s').trans hs

/-- What is done with the result does not matter. -/
theorem map {action : ExceptT Failure (StateM σ) β} (h : Keeps view action) (f : β → ε) :
    Keeps view (f <$> action) := by
  rw [map_eq_pure_bind]
  exact h.bind fun b => .pure (f b)

end Keeps

/-- Actions on a part keep what shows nothing of the part. -/
theorem OnPart.view_eq {δ : Type} {part : Part σ δ} {invariant : δ → Prop}
    {cause : Failure → Prop} {action : ExceptT Failure (StateM σ) β}
    (h : OnPart part invariant cause action) (view : σ → γ)
    (blind : ∀ g s, view (part.put g s) = view s) {s : σ} (hs : invariant (part.get s)) :
    view (action.run.run s).2 = view s := by
  obtain ⟨result, g, run, -, -, -⟩ := h s s rfl hs
  rw [run]
  exact blind g s

end Keeps

/-! ## Views of the output -/

namespace Typesetter

variable {α β γ : Type}

/-- Whether a view shows nothing of the state that all typesetters share. -/
def BlindToCore (view : Typesetter α → γ) : Prop :=
  ∀ t core, view { t with core } = view t

/-- Whether a view shows nothing of what code can change: the place, the transform and the
    saved transforms. -/
def BlindToCode (view : Typesetter α → γ) : Prop :=
  ∀ t h v matrix saved,
    view { t with core := { t.core with
      position := { t.core.position with h, v }, matrix, saved } } = view t

end Typesetter

section Views

variable {α β γ : Type} {view : Typesetter α → γ}

/-- Actions on what typesetters share keep what shows nothing of it. -/
theorem OnCore.keeps (blind : Typesetter.BlindToCore view) {action : Action α β}
    (h : ∀ library, OnCore library action) : Keeps view action := fun t =>
  (h t.core.library).view_eq view (fun core t => blind t core) rfl

namespace Typesetter

theorem keeps_modifyCore (blind : BlindToCore view) (f : Core α → Core α) :
    Keeps view (modifyCore f) :=
  .modify fun t => blind t (f t.core)

theorem keeps_setCurrentPoint [Scalar α] (blind : BlindToCode view) (x y : α) :
    Keeps view (setCurrentPoint x y) := by
  refine Keeps.get.bind fun t => ?_
  split <;> exact .modify fun t => blind t _ _ t.core.matrix t.core.saved

theorem keeps_modifyMarkup {f : Core α → Markup α → Markup α}
    (h : ∀ core m,
      view { core, output := .markup (f core m) } = view { core, output := .markup m }) :
    Keeps view (modifyMarkup f) := by
  refine .modify fun t => ?_
  obtain ⟨core, output⟩ := t
  cases output with
  | markup m => exact h core m
  | _ => rfl

theorem keeps_modifyPlain {f : Core α → Plain α → Plain α}
    (h : ∀ core p,
      view { core, output := .plain (f core p) } = view { core, output := .plain p }) :
    Keeps view (modifyPlain f) := by
  refine .modify fun t => ?_
  obtain ⟨core, output⟩ := t
  cases output with
  | plain p => exact h core p
  | _ => rfl

theorem keeps_currentFont : Keeps view (currentFont : Action α Font) := by
  refine Keeps.get.bind fun t => ?_
  split
  · exact .throw _
  · exact .pure _

theorem keeps_measure [Scalar α] (font : Font) (mode : Strictness) (text : List UInt8) :
    Keeps view (measure font mode text : Action α (Extent α)) := by
  unfold measure
  split
  · exact .pure _
  · exact .throw _

end Typesetter

end Views

/-! ## Code -/

namespace PostScript

open Session

variable {α β γ : Type} {view : Typesetter α → γ}

theorem OnOperands.keeps {action : Session.Action α β} (h : OnOperands action) :
    Keeps (fun s => view s.typesetter) action :=
  fun _ => OnPart.view_eq h (fun s => view s.typesetter) (fun _ _ => rfl) trivial

theorem keeps_onTypesetter {action : DviMarkup.Action α β} (h : Keeps view action) :
    Keeps (fun s => view s.typesetter) (onTypesetter action) :=
  fun s => h s.typesetter

section Steps

variable [Scalar α]

section Blind

variable (blind : Typesetter.BlindToCode view)

include blind

omit [Scalar α] in
theorem keeps_change (change : Change α) : Keeps view change.run := by
  cases change with
  | save => exact .modify fun t => blind t t.core.position.h t.core.position.v _ _
  | restore =>
    refine Keeps.get.bind fun t => ?_
    split
    · exact .throw _
    · exact .modify fun t => blind t t.core.position.h t.core.position.v _ _
  | transform f => exact .modify fun t => blind t t.core.position.h t.core.position.v _ _

theorem keeps_operator (name : String) : Keeps (fun s => view s.typesetter) (operator name) := by
  rcases operator_cases (α := α) name with h | ⟨operands, h, heq⟩ | rfl | rfl
  · exact h.keeps
  · rw [heq]
    exact h.keeps.bind fun change => keeps_onTypesetter (keeps_change blind change)
  · exact Keeps.get.bind fun _ => (onOperands_push _).keeps.bind fun _ => (onOperands_push _).keeps
  · exact (onOperands_popPair "moveto").keeps.bind fun _ =>
      keeps_onTypesetter (Typesetter.keeps_setCurrentPoint blind _ _)

theorem keeps_token (t : Token) : Keeps (fun s => view s.typesetter) (token t) := by
  cases t with
  | arrayEnd => exact onOperands_closeArray.keeps
  | operator name => exact keeps_operator blind name
  | _ => exact (onOperands_push _).keeps

theorem keeps_runTokens (ts : List (Except Fault Token)) :
    Keeps (fun s => view s.typesetter) (runTokens ts) := by
  induction ts with
  | nil => exact .pure ()
  | cons t ts ih =>
    cases t with
    | error fault => exact (onOperands_fail fault).keeps
    | ok t => exact (keeps_token blind t).bind fun _ => ih

/-- **Code changes nothing but the place and transforms.** -/
theorem keeps_code (code : String) : Keeps view (execute code) := fun typesetter =>
  keeps_runTokens blind (tokens code) { stack := [], typesetter }

end Blind

/-- Code keeps what shows nothing of what typesetters share. -/
theorem keeps_execute (blind : Typesetter.BlindToCore view) (code : String) :
    Keeps view (execute code) :=
  keeps_code (fun t _ _ _ _ => blind t _) code

end Steps

end PostScript

end DviMarkup
