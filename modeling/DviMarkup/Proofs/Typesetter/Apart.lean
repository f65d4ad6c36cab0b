/-
  Actions that have nothing to do with a part of the state.

  Few commands look at the saved registers or at the saved transforms.  The others come to
  the same whatever is saved, and leave it as it is.

  * `Ignores`: it makes no difference to an action whether a part of the state is replaced
    before or after it; so the action leaves that part as it is (`Ignores.get_eq`);
  * `Typesetter.positionStack` and `Typesetter.savedTransforms` are the saved registers and
    the saved transforms, and `Typesetter.savedState` is both;
  * `PostScript.ignores_operator`: operators other than `gsave` and `grestore` ignore both;
  * `Command.ignores_positionStack`: commands ignore the saved registers unless they save or
    restore registers or begin a page;
  * `Command.ignores_savedTransforms`: commands without code ignore the saved transforms.
-/
import DviMarkup.Proofs.Typesetter.Parts

namespace DviMarkup

/-! ## Ignoring a part -/

section Ignores

variable {σ γ δ β ε : Type}

/-- Whether an action has nothing to do with a part of the state: it makes no difference
    whether the part is replaced before or afterwards. -/
def Ignores (part : Part σ γ) (action : ExceptT Failure (StateM σ) β) : Prop :=
  ∀ s g, action.run.run (part.put g s) =
    ((action.run.run s).1, part.put g (action.run.run s).2)

namespace Ignores

variable {part : Part σ γ}

/-- A part that is ignored stays as it is. -/
theorem get_eq {action : ExceptT Failure (StateM σ) β} (h : Ignores part action) (s : σ) :
    part.get (action.run.run s).2 = part.get s := by
  have same := h s (part.get s)
  rw [part.put_get] at same
  rw [congrArg Prod.snd same, part.get_put]

theorem pure (b : β) : Ignores part (pure b : ExceptT Failure (StateM σ) β) := fun _ _ => rfl

theorem throw (failure : Failure) :
    Ignores part (throw failure : ExceptT Failure (StateM σ) β) := fun _ _ => rfl

theorem modify {f : σ → σ} (h : ∀ s g, f (part.put g s) = part.put g (f s)) :
    Ignores part (modify f : ExceptT Failure (StateM σ) PUnit) :=
  fun s g => Prod.ext rfl (h s g)

theorem bind {action : ExceptT Failure (StateM σ) β} {next : β → ExceptT Failure (StateM σ) ε}
    (h : Ignores part action) (hnext : ∀ b, Ignores part (next b)) :
    Ignores part (action >>= next) := by
  intro s g
  rw [run_bind, run_bind, h s g]
  rcases action.run.run s with ⟨failure | b, t⟩
  · rfl
  · exact hnext b t g

/-- What follows a look at the state must not depend on the part. -/
theorem get_bind {next : σ → ExceptT Failure (StateM σ) β}
    (same : ∀ s g, next (part.put g s) = next s) (h : ∀ s, Ignores part (next s)) :
    Ignores part (MonadState.get >>= next) := by
  intro s g
  rw [run_get_bind, run_get_bind, same]
  exact h s s g

theorem map {action : ExceptT Failure (StateM σ) β} (h : Ignores part action) (f : β → ε) :
    Ignores part (f <$> action) := by
  rw [map_eq_pure_bind]
  exact h.bind fun b => .pure (f b)

/-- What ignores a part ignores what is only some of it. -/
theorem narrow {part' : Part σ δ} (f : δ → γ → γ)
    (h : ∀ g s, part'.put g s = part.put (f g (part.get s)) s)
    {action : ExceptT Failure (StateM σ) β} (ignores : Ignores part action) :
    Ignores part' action := by
  intro s g
  rw [h, h, ignores.get_eq]
  exact ignores s _

end Ignores

end Ignores

/-! ## Saved registers and transforms -/

namespace Typesetter

variable {α β : Type}

/-- The saved registers and the saved transforms. -/
def savedState : Part (Typesetter α) (List (Position α) × List (Matrix α)) where
  get t := (t.core.stack, t.core.saved)
  put g t := { t with core := { t.core with stack := g.1, saved := g.2 } }
  get_put _ _ := rfl
  put_put _ _ _ := rfl
  put_get _ := rfl

/-- The saved registers. -/
def positionStack : Part (Typesetter α) (List (Position α)) where
  get t := t.core.stack
  put stack t := { t with core := { t.core with stack } }
  get_put _ _ := rfl
  put_put _ _ _ := rfl
  put_get _ := rfl

/-- The saved transforms. -/
def savedTransforms : Part (Typesetter α) (List (Matrix α)) where
  get t := t.core.saved
  put saved t := { t with core := { t.core with saved } }
  get_put _ _ := rfl
  put_put _ _ _ := rfl
  put_get _ := rfl

theorem ignores_positionStack {action : Action α β} (h : Ignores savedState action) :
    Ignores positionStack action :=
  h.narrow (fun stack saved => (stack, saved.2)) fun _ _ => rfl

theorem ignores_savedTransforms {action : Action α β} (h : Ignores savedState action) :
    Ignores savedTransforms action :=
  h.narrow (fun saved stack => (stack.1, saved)) fun _ _ => rfl

/-! ## Actions -/

theorem ignores_modifyCore {f : Core α → Core α}
    (h : ∀ c stack saved, f { c with stack, saved } = { f c with stack, saved }) :
    Ignores savedState (modifyCore f) :=
  .modify fun t g => congrArg (Typesetter.mk · t.output) (h t.core g.1 g.2)

theorem ignores_modifyMarkup {f : Core α → Markup α → Markup α}
    (h : ∀ c m stack saved, f { c with stack, saved } m = f c m) :
    Ignores savedState (modifyMarkup f) := by
  refine .modify fun t g => ?_
  obtain ⟨core, output⟩ := t
  cases output with
  | markup m => exact congrArg (fun m => Typesetter.mk _ (.markup m)) (h core m g.1 g.2)
  | _ => rfl

theorem ignores_modifyPlain {f : Core α → Plain α → Plain α}
    (h : ∀ c p stack saved, f { c with stack, saved } p = f c p) :
    Ignores savedState (modifyPlain f) := by
  refine .modify fun t g => ?_
  obtain ⟨core, output⟩ := t
  cases output with
  | plain p => exact congrArg (fun p => Typesetter.mk _ (.plain p)) (h core p g.1 g.2)
  | _ => rfl

theorem ignores_currentFont : Ignores savedState (currentFont : Action α Font) := by
  refine .get_bind (fun _ _ => rfl) fun t => ?_
  split
  · exact .throw _
  · exact .pure _

theorem ignores_enableFont (number : UInt32) :
    Ignores savedState (enableFont number : Action α Unit) := by
  refine .get_bind (fun _ _ => rfl) fun t => ?_
  split
  · exact .throw _
  · exact ignores_modifyCore fun _ _ _ => rfl

theorem ignores_loadMetrics (font : String) :
    Ignores savedState (loadMetrics font : Action α Metrics) := by
  refine .get_bind (fun _ _ => rfl) fun t => ?_
  dsimp only
  split
  · exact .pure _
  · refine Ignores.bind (ignores_modifyCore fun _ _ _ => rfl) fun _ => ?_
    split
    · exact .throw _
    · exact (ignores_modifyCore fun _ _ _ => rfl).bind fun _ => .pure _

theorem ignores_defineFont (number : UInt32) (definition : FontDefinition) :
    Ignores savedState (defineFont number definition : Action α Unit) := by
  refine .get_bind (fun _ _ => rfl) fun t => ?_
  split
  · exact .pure _
  · exact (ignores_loadMetrics _).bind fun _ => ignores_modifyCore fun _ _ _ => rfl

theorem ignores_popColor : Ignores savedState (popColor : Action α Unit) := by
  refine .get_bind (fun _ _ => rfl) fun t => ?_
  split
  · split
    · exact .throw _
    · exact ignores_modifyMarkup fun _ _ _ _ => rfl
  · exact .pure _

theorem ignores_saveTransform : Ignores positionStack (saveTransform : Action α Unit) :=
  .modify fun _ _ => rfl

theorem ignores_restoreTransform : Ignores positionStack (restoreTransform : Action α Unit) := by
  refine .get_bind (fun _ _ => rfl) fun t => ?_
  split
  · exact .throw _
  · exact .modify fun _ _ => rfl

variable [Scalar α]

theorem ignores_setCurrentPoint (x y : α) : Ignores savedState (setCurrentPoint x y) := by
  refine .get_bind (fun _ _ => rfl) fun t => ?_
  split <;> exact ignores_modifyCore fun _ _ _ => rfl

theorem ignores_measure (font : Font) (mode : Strictness) (text : List UInt8) :
    Ignores savedState (measure font mode text : Action α (Extent α)) := by
  unfold measure
  split
  · exact .pure _
  · exact .throw _

theorem ignores_putText (text : List UInt8) : Ignores savedState (putText text : Action α α) := by
  refine .get_bind (fun _ _ => rfl) fun t => ?_
  split
  · refine ignores_currentFont.bind fun font => (ignores_measure font _ text).bind fun extent => ?_
    split
    · exact .throw _
    · exact (ignores_modifyMarkup fun _ _ _ _ => rfl).bind fun _ => .pure _
  · refine ignores_currentFont.bind fun font => (ignores_measure font _ text).bind fun extent => ?_
    exact (ignores_modifyPlain fun _ _ _ _ => rfl).bind fun _ => .pure _
  · exact .pure _

theorem ignores_putRule (height width : Int32) :
    Ignores savedState (putRule height width : Action α Unit) :=
  .get_bind (fun _ _ => rfl) fun _ => ignores_modifyMarkup fun _ _ _ _ => rfl

theorem ignores_putSvg (fragment : String) : Ignores savedState (putSvg fragment : Action α Unit) := by
  refine .get_bind (fun _ _ => rfl) fun t => .get_bind (fun _ _ => rfl) fun u => ?_
  split
  · exact .modify fun _ _ => rfl
  · exact ignores_modifyMarkup fun _ _ _ _ => rfl

theorem ignores_draw [Escaping] (description : String) :
    Ignores savedState (Image.draw description : Action α Unit) := by
  unfold Image.draw
  dsimp only
  split
  · exact .pure ()
  · exact .get_bind (fun _ _ => rfl) fun t => ignores_putSvg _

end Typesetter

open Typesetter

/-! ## Code -/

namespace PostScript

open Session

variable {α β γ : Type}

/-- A part of the typesetter, where there are operands too. -/
def sessionPart (part : Part (Typesetter α) γ) : Part (Session α) γ where
  get s := part.get s.typesetter
  put g s := { s with typesetter := part.put g s.typesetter }
  get_put g s := part.get_put g s.typesetter
  put_put g g' s := congrArg (Session.mk s.stack) (part.put_put g g' s.typesetter)
  put_get s := congrArg (Session.mk s.stack) (part.put_get s.typesetter)

variable {part : Part (Typesetter α) γ}

theorem OnOperands.ignores {action : Session.Action α β} (h : OnOperands action) :
    Ignores (sessionPart part) action := by
  intro s g
  obtain ⟨result, stack, run, run', -, -⟩ := h s ((sessionPart part).put g s) rfl trivial
  rw [run, run']
  rfl

theorem ignores_onTypesetter {action : DviMarkup.Action α β} (h : Ignores part action) :
    Ignores (sessionPart part) (onTypesetter action) := by
  intro s g
  rw [run_onTypesetter, run_onTypesetter]
  dsimp only [sessionPart]
  rw [h s.typesetter g]

variable [Scalar α]

/-- Only `gsave` and `grestore` have to do with what is saved. -/
theorem ignores_operator {name : String} (gsave : name ≠ "gsave") (grestore : name ≠ "grestore") :
    Ignores (sessionPart savedState) (operator name : Session.Action α Unit) := by
  rcases operator_kinds (α := α) name with h | ⟨operands, h, heq⟩ | rfl | rfl | rfl | rfl
  · exact h.ignores
  · rw [heq]
    exact h.ignores.bind fun f => ignores_onTypesetter (ignores_modifyCore fun _ _ _ => rfl)
  · exact absurd rfl gsave
  · exact absurd rfl grestore
  · exact .get_bind (fun _ _ => rfl) fun _ =>
      (onOperands_push _).ignores.bind fun _ => (onOperands_push _).ignores
  · exact (onOperands_popPair "moveto").ignores.bind fun _ =>
      ignores_onTypesetter (ignores_setCurrentPoint _ _)

/-- Tokens that are no operators have to do with operands only. -/
theorem onOperands_token {t : Token} (h : ∀ name, t ≠ .operator name) :
    OnOperands (token t : Session.Action α Unit) := by
  cases t with
  | arrayEnd => exact onOperands_closeArray
  | operator name => exact absurd rfl (h name)
  | _ => exact onOperands_push _

/-- Code has nothing to do with saved registers. -/
theorem ignores_positionStack_runTokens (ts : List (Except Fault Token)) :
    Ignores (sessionPart positionStack) (runTokens ts : Session.Action α Unit) := by
  induction ts with
  | nil => exact .pure ()
  | cons t ts ih =>
    cases t with
    | error fault => exact .throw _
    | ok t =>
      refine Ignores.bind ?_ fun _ => ih
      by_cases h : ∃ name, t = .operator name
      · obtain ⟨name, rfl⟩ := h
        by_cases gsave : name = "gsave"
        · subst gsave
          exact ignores_onTypesetter ignores_saveTransform
        by_cases grestore : name = "grestore"
        · subst grestore
          exact ignores_onTypesetter ignores_restoreTransform
        exact (ignores_operator gsave grestore).narrow (fun stack saved => (stack, saved.2))
          fun _ _ => rfl
      · exact (onOperands_token fun name heq => h ⟨name, heq⟩).ignores

theorem ignores_positionStack_execute (code : String) :
    Ignores positionStack (execute code : DviMarkup.Action α Unit) := by
  intro t stack
  rw [run_execute, run_execute]
  have same := ignores_positionStack_runTokens (tokens code) { stack := [], typesetter := t } stack
  dsimp only [sessionPart] at same
  rw [same]

end PostScript

/-! ## Commands -/

section Commands

variable {α : Type} [Scalar α]

/-- Whether a command can have to do with saved registers or transforms. -/
def Command.usesSaved : Command → Bool
  | .push | .pop | .beginPage _ | .postScript _ => true
  | _ => false

/-- **All other commands have nothing to do with what is saved.** -/
theorem Command.ignores_savedState [Escaping] {command : Command} (h : command.usesSaved = false) :
    Ignores savedState (command.execute : Action α Unit) := by
  unfold Command.execute
  cases command with
  | preamble => exact ignores_modifyMarkup fun _ _ _ _ => rfl
  | endPage => exact ignores_modifyPlain fun _ _ _ _ => rfl
  | setText text => exact (ignores_putText text).bind fun _ => ignores_modifyCore fun _ _ _ => rfl
  | putText text => exact (ignores_putText text).map _
  | setRule height width =>
    exact (ignores_putRule height width).bind fun _ => ignores_modifyCore fun _ _ _ => rfl
  | putRule height width => exact ignores_putRule height width
  | moveRight => exact ignores_modifyCore fun _ _ _ => rfl
  | moveDown => exact ignores_modifyCore fun _ _ _ => rfl
  | moveBy register amount =>
    refine ignores_modifyCore fun c stack saved => ?_
    unfold Core.moveBy
    cases amount <;> cases register.isHorizontal <;> rfl
  | defineFont number definition => exact ignores_defineFont number definition
  | enableFont number => exact ignores_enableFont number
  | special => exact .pure ()
  | beginPostamble => exact .pure ()
  | endPostamble => exact .pure ()
  | pushColor => exact ignores_modifyMarkup fun _ _ _ _ => rfl
  | popColor => exact ignores_popColor
  | setPaper => exact ignores_modifyMarkup fun _ _ _ _ => rfl
  | rawSvg fragment => exact ignores_putSvg fragment
  | image description => exact ignores_draw description
  | push | pop | beginPage | postScript => cases h

/-- Commands ignore saved registers, unless they save or restore some or begin a page. -/
theorem Command.ignores_positionStack [Escaping] {command : Command} (push : command ≠ .push)
    (pop : command ≠ .pop) (page : ∀ parameters, command ≠ .beginPage parameters) :
    Ignores positionStack (command.execute : Action α Unit) := by
  by_cases h : command.usesSaved = true
  · cases command with
    | push => exact absurd rfl push
    | pop => exact absurd rfl pop
    | beginPage parameters => exact absurd rfl (page parameters)
    | postScript code => exact PostScript.ignores_positionStack_execute code
    | _ => cases h
  · exact Typesetter.ignores_positionStack (Command.ignores_savedState (eq_false_of_ne_true h))

/-- Commands without code ignore saved transforms. -/
theorem Command.ignores_savedTransforms [Escaping] {command : Command}
    (code : ∀ code, command ≠ .postScript code) :
    Ignores savedTransforms (command.execute : Action α Unit) := by
  by_cases h : command.usesSaved = true
  · cases command with
    | push => exact .modify fun _ _ => rfl
    | pop =>
      refine .get_bind (fun _ _ => rfl) fun t => ?_
      split
      · exact .throw _
      · exact .modify fun _ _ => rfl
    | beginPage =>
      refine Ignores.bind (Typesetter.ignores_savedTransforms
        (ignores_modifyPlain fun _ _ _ _ => rfl)) fun _ => ?_
      exact .modify fun _ _ => rfl
    | postScript source => exact absurd rfl (code source)
    | _ => cases h
  · exact Typesetter.ignores_savedTransforms (Command.ignores_savedState (eq_false_of_ne_true h))

end Commands

end DviMarkup
