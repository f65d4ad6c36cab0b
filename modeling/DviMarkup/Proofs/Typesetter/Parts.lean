/-
  Actions on a part of the state.

  Most commands look only at what all typesetters share and change nothing else,
  and most steps of code look only at the operands.  Two such actions come to the
  same wherever that part is the same, whatever is around it.

  * `run_bind_eq_ok` and `run_bind_eq_error` take the run of two actions apart;
  * `Part` is a part of a state that can be replaced for itself;
  * `OnPart` holds of the actions on a part that keep an invariant of it and fail
    only for certain causes; what is put together from such actions is one
    (`OnPart.bind`);
  * `OnCore` is this for what typesetters share, where the library stays and no
    failure is about a missing character unless the library gives it;
  * `PostScript.OnOperands` is this for the operands of code;
  * `Command.onCore_execute`: the commands for which `Command.isShared` holds are
    actions on what typesetters share;
  * `PostScript.operator_kinds` and `PostScript.operator_cases`: what an operator can be.
-/
import DviMarkup.Typesetter.Execute

namespace DviMarkup

/-! ## Runs of actions -/

section Runs

variable {σ β ε : Type}

/-- Looking at the state first is starting from it. -/
theorem run_get_bind (next : σ → ExceptT Failure (StateM σ) β) (s : σ) :
    (MonadState.get >>= next).run.run s = (next s).run.run s := rfl

/-- What follows starts where the action ends, unless it fails. -/
theorem run_bind (action : ExceptT Failure (StateM σ) β)
    (next : β → ExceptT Failure (StateM σ) ε) (s : σ) :
    (action >>= next).run.run s = match action.run.run s with
      | (.ok b, s') => (next b).run.run s'
      | (.error failure, s') => (.error failure, s') := by
  rw [ExceptT.run_bind, StateT.run_bind]
  rcases action.run.run s with ⟨failure | b, s'⟩
  · rfl
  · rfl

/-- What succeeds in the end has succeeded so far. -/
theorem run_bind_eq_ok {action : ExceptT Failure (StateM σ) β}
    {next : β → ExceptT Failure (StateM σ) ε} {s s' : σ} {c : ε} :
    (action >>= next).run.run s = (.ok c, s') ↔
      ∃ b t, action.run.run s = (.ok b, t) ∧ (next b).run.run t = (.ok c, s') := by
  rw [run_bind]
  rcases action.run.run s with ⟨failure | b, t⟩
  · constructor
    · rintro ⟨⟩
    · rintro ⟨_, _, ⟨⟩, _⟩
  · constructor
    · intro later
      exact ⟨b, t, rfl, later⟩
    · rintro ⟨_, _, ⟨⟩, later⟩
      exact later

/-- What fails has failed so far, or fails after it has succeeded so far. -/
theorem run_bind_eq_error {action : ExceptT Failure (StateM σ) β}
    {next : β → ExceptT Failure (StateM σ) ε} {s s' : σ} {failure : Failure} :
    (action >>= next).run.run s = (.error failure, s') ↔
      action.run.run s = (.error failure, s') ∨
        ∃ b t, action.run.run s = (.ok b, t) ∧ (next b).run.run t = (.error failure, s') := by
  rw [run_bind]
  rcases action.run.run s with ⟨failure' | b, t⟩
  · constructor
    · rintro ⟨⟩
      exact .inl rfl
    · rintro (⟨⟨⟩⟩ | ⟨_, _, ⟨⟩, _⟩)
      rfl
  · constructor
    · intro later
      exact .inr ⟨b, t, rfl, later⟩
    · rintro (⟨⟨⟩⟩ | ⟨_, _, ⟨⟩, later⟩)
      exact later

end Runs

/-- Commands can be executed in two goes. -/
theorem executeAll_append {α : Type} [Scalar α] [Escaping] (a b : List Item) :
    (executeAll (a ++ b) : Action α Unit) = executeAll a >>= fun _ => executeAll b := by
  induction a with
  | nil => rfl
  | cons item a ih =>
    cases item with
    | error failure => rfl
    | ok command =>
      rw [List.cons_append, executeAll, executeAll, ih, bind_assoc]

/-! ## Parts of a state -/

/-- A part of a state that can be replaced for itself. -/
structure Part (σ γ : Type) where
  get : σ → γ
  put : γ → σ → σ
  get_put : ∀ g s, get (put g s) = g
  put_put : ∀ g g' s, put g (put g' s) = put g s
  put_get : ∀ s, put (get s) s = s

/-- Whether an action looks at a part of the state only and changes nothing else: where
    the part is the same, so are the result and the part afterwards.  The action
    keeps an invariant of the part and fails only for certain causes. -/
def OnPart {σ γ β : Type} (part : Part σ γ) (invariant : γ → Prop) (cause : Failure → Prop)
    (action : ExceptT Failure (StateM σ) β) : Prop :=
  ∀ s s', part.get s = part.get s' → invariant (part.get s) →
    ∃ result g, action.run.run s = (result, part.put g s) ∧
      action.run.run s' = (result, part.put g s') ∧
      invariant g ∧ ∀ failure, result = .error failure → cause failure

namespace OnPart

variable {σ γ β ε : Type} {part : Part σ γ} {invariant : γ → Prop} {cause : Failure → Prop}

theorem pure (b : β) :
    OnPart part invariant cause (pure b : ExceptT Failure (StateM σ) β) := by
  intro s s' same hs
  refine ⟨.ok b, part.get s, ?_, ?_, hs, nofun⟩
  · rw [part.put_get]
    rfl
  · rw [same, part.put_get]
    rfl

theorem throw {failure : Failure} (h : cause failure) :
    OnPart part invariant cause (throw failure : ExceptT Failure (StateM σ) β) := by
  intro s s' same hs
  refine ⟨.error failure, part.get s, ?_, ?_, hs, ?_⟩
  · rw [part.put_get]
    rfl
  · rw [same, part.put_get]
    rfl
  · rintro _ ⟨⟩
    exact h

theorem bind {action : ExceptT Failure (StateM σ) β} {next : β → ExceptT Failure (StateM σ) ε}
    (h : OnPart part invariant cause action) (hnext : ∀ b, OnPart part invariant cause (next b)) :
    OnPart part invariant cause (action >>= next) := by
  intro s s' same hs
  obtain ⟨result, g, run, run', hg, hfail⟩ := h s s' same hs
  rw [run_bind, run_bind, run, run']
  cases result with
  | error failure =>
    refine ⟨.error failure, g, rfl, rfl, hg, ?_⟩
    rintro _ ⟨⟩
    exact hfail failure rfl
  | ok b =>
    have same : part.get (part.put g s) = part.get (part.put g s') := by
      rw [part.get_put, part.get_put]
    have hput : invariant (part.get (part.put g s)) := by rwa [part.get_put]
    obtain ⟨result, g', run, run', hg', hfail⟩ := hnext b _ _ same hput
    rw [part.put_put] at run run'
    exact ⟨result, g', run, run', hg', hfail⟩

/-- What follows a look at the state must not depend on more than the part. -/
theorem get_bind {next : σ → ExceptT Failure (StateM σ) β}
    (same : ∀ s s', part.get s = part.get s' → next s = next s')
    (h : ∀ s, invariant (part.get s) → OnPart part invariant cause (next s)) :
    OnPart part invariant cause (MonadState.get >>= next) := by
  intro s s' hsame hs
  rw [run_get_bind, run_get_bind, ← same s s' hsame]
  exact h s hs s s' hsame hs

/-- What is done with the result does not matter. -/
theorem map {action : ExceptT Failure (StateM σ) β} (h : OnPart part invariant cause action)
    (f : β → ε) : OnPart part invariant cause (f <$> action) := by
  rw [map_eq_pure_bind]
  exact h.bind fun b => .pure (f b)

end OnPart

/-! ## What typesetters share -/

/-- Whether a failure is about a character that a table lacks. -/
def Failure.isMissing : Failure → Bool
  | missingGlyph _ _ | missingEncoding _ _ => true
  | _ => false

/-- Whether a library can fail with a failure. -/
def Library.Gives (library : Library) (failure : Failure) : Prop :=
  ∃ before font, library.load before font = .error failure

/-- What all typesetters share, as a part of the state. -/
def Typesetter.corePart {α : Type} : Part (Typesetter α) (Core α) where
  get t := t.core
  put core t := { t with core }
  get_put _ _ := rfl
  put_put _ _ _ := rfl
  put_get _ := rfl

/-- Whether an action looks only at what typesetters share and changes nothing else and
    not the library, and fails for a missing character only if the library does. -/
def OnCore {α β : Type} (library : Library) (action : Action α β) : Prop :=
  OnPart Typesetter.corePart (·.library = library)
    (fun failure => failure.isMissing = true → library.Gives failure) action

namespace Typesetter

variable {α : Type} {library : Library}

theorem onCore_modifyCore {f : Core α → Core α} (h : ∀ c, (f c).library = c.library) :
    OnCore library (modifyCore f) := by
  intro t t' same ht
  refine ⟨.ok (), f t.core, rfl, ?_, (h t.core).trans ht, nofun⟩
  rw [show t.core = t'.core from same]
  rfl

theorem onCore_throw {β : Type} {failure : Failure} (h : failure.isMissing = false) :
    OnCore library (throw failure : Action α β) :=
  .throw fun missing => by rw [h] at missing; cases missing

theorem onCore_transform (f : Matrix α → Matrix α) : OnCore library (transform f) :=
  onCore_modifyCore fun _ => rfl

theorem onCore_saveTransform : OnCore library (saveTransform : Action α Unit) :=
  onCore_modifyCore fun _ => rfl

theorem onCore_restoreTransform : OnCore library (restoreTransform : Action α Unit) := by
  refine OnPart.get_bind (fun t t' same => ?_) fun t _ => ?_
  · rw [show t.core = t'.core from same]
  · split
    · exact onCore_throw rfl
    · exact onCore_modifyCore fun _ => rfl

theorem onCore_pop : OnCore library (pop : Action α Unit) := by
  refine OnPart.get_bind (fun t t' same => ?_) fun t _ => ?_
  · rw [show t.core = t'.core from same]
  · split
    · exact onCore_throw rfl
    · exact onCore_modifyCore fun _ => rfl

theorem onCore_loadMetrics (font : String) :
    OnCore library (loadMetrics font : Action α Metrics) := by
  refine OnPart.get_bind (fun t t' same => ?_) fun t ht => ?_
  · rw [show t.core = t'.core from same]
  · dsimp only
    split
    · exact .pure _
    · refine OnPart.bind (onCore_modifyCore fun _ => rfl) fun _ => ?_
      split
      next failure load =>
        refine .throw fun _ => ⟨t.core.asked, font, ?_⟩
        rwa [← show t.core.library = library from ht]
      · exact OnPart.bind (onCore_modifyCore fun _ => rfl) fun _ => .pure _

theorem onCore_defineFont (number : UInt32) (definition : FontDefinition) :
    OnCore library (defineFont number definition : Action α Unit) := by
  refine OnPart.get_bind (fun t t' same => ?_) fun t _ => ?_
  · rw [definedFont, definedFont, show t.core = t'.core from same]
  · split
    · exact .pure _
    · exact OnPart.bind (onCore_loadMetrics _) fun _ => onCore_modifyCore fun _ => rfl

theorem onCore_enableFont (number : UInt32) :
    OnCore library (enableFont number : Action α Unit) := by
  refine OnPart.get_bind (fun t t' same => ?_) fun t _ => ?_
  · rw [definedFont, definedFont, show t.core = t'.core from same]
  · split
    · exact onCore_throw rfl
    · exact onCore_modifyCore fun _ => rfl

theorem onCore_currentFont : OnCore library (currentFont : Action α Font) := by
  refine OnPart.get_bind (fun t t' same => ?_) fun t _ => ?_
  · rw [show t.core = t'.core from same]
  · split
    · exact onCore_throw rfl
    · exact .pure _

end Typesetter

theorem Core.library_moveBy {α : Type} [Scalar α] (c : Core α) (r : Dvi.Register)
    (amount : Option α) : (c.moveBy r amount).library = c.library := by
  unfold Core.moveBy
  cases amount <;> cases r.isHorizontal <;> rfl

/-- Whether a command does nothing to what is kept for the output, and does not look
    at it. -/
def Command.isShared : Command → Bool
  | .push | .pop | .moveRight _ | .moveDown _ | .moveBy _ _ | .defineFont _ _ | .enableFont _
  | .special _ | .beginPostamble | .endPostamble => true
  | _ => false

open Typesetter in
/-- **The commands without output are actions on what typesetters share.** -/
theorem Command.onCore_execute {α : Type} [Scalar α] [Escaping] {library : Library}
    {command : Command} (h : command.isShared = true) :
    OnCore library (command.execute : Action α Unit) := by
  unfold Command.execute
  cases command with
  | push => exact onCore_modifyCore fun _ => rfl
  | pop => exact onCore_pop
  | moveRight => exact onCore_modifyCore fun _ => rfl
  | moveDown => exact onCore_modifyCore fun _ => rfl
  | moveBy => exact onCore_modifyCore fun c => c.library_moveBy _ _
  | defineFont number definition => exact onCore_defineFont number definition
  | enableFont number => exact onCore_enableFont number
  | special => exact .pure ()
  | beginPostamble => exact .pure ()
  | endPostamble => exact .pure ()
  | _ => cases h

/-! ## Operands of code -/

namespace PostScript

open Session

variable {α β : Type}

/-- The operands, as a part of the state in which code runs. -/
def operandPart : Part (Session α) (List (Object α)) where
  get s := s.stack
  put stack s := { s with stack }
  get_put _ _ := rfl
  put_put _ _ _ := rfl
  put_get _ := rfl

/-- Whether an action looks only at the operands and changes nothing else, and fails only
    for the reasons that code has. -/
def OnOperands (action : Session.Action α β) : Prop :=
  OnPart operandPart (fun _ => True) (fun failure => ∃ fault, failure = .postScript fault) action

theorem onOperands_fail (fault : Fault) : OnOperands (fail fault : Session.Action α β) :=
  .throw ⟨fault, rfl⟩

theorem onOperands_modify (f : List (Object α) → List (Object α)) :
    OnOperands (modify fun s => { s with stack := f s.stack } : Session.Action α Unit) := by
  intro s s' same _
  refine ⟨.ok (), f s.stack, rfl, ?_, trivial, nofun⟩
  rw [show s.stack = s'.stack from same]
  rfl

theorem onOperands_push (o : Object α) : OnOperands (Session.push o) :=
  onOperands_modify _

theorem onOperands_pop (operator : String) :
    OnOperands (Session.pop operator : Session.Action α (Object α)) := by
  refine OnPart.get_bind (fun s s' same => ?_) fun s _ => ?_
  · rw [show s.stack = s'.stack from same]
  · split
    · exact onOperands_fail _
    · exact OnPart.bind (onOperands_modify fun _ => _) fun _ => .pure _

theorem onOperands_popNumber (operator : String) :
    OnOperands (popNumber operator : Session.Action α α) := by
  refine OnPart.bind (onOperands_pop operator) fun o => ?_
  split
  · exact .pure _
  · exact onOperands_fail _

theorem onOperands_popPair (operator : String) :
    OnOperands (popPair operator : Session.Action α (α × α)) :=
  OnPart.bind (onOperands_popNumber operator) fun _ =>
    OnPart.bind (onOperands_popNumber operator) fun _ => .pure _

theorem onOperands_closeArray : OnOperands (closeArray : Session.Action α Unit) := by
  refine OnPart.get_bind (fun s s' same => ?_) fun s _ => ?_
  · rw [show s.stack = s'.stack from same]
  · dsimp only
    split
    · exact onOperands_fail _
    · exact onOperands_modify fun _ => _

theorem onOperands_arithmetic (operator : String) (f : α → α → α) :
    OnOperands (arithmetic operator f : Session.Action α Unit) :=
  OnPart.bind (onOperands_popPair operator) fun _ => onOperands_push _

/-! ## Operators -/

/-- What is done with the typesetter leaves the operands as they are. -/
theorem run_onTypesetter (action : DviMarkup.Action α β) (s : Session α) :
    (onTypesetter action).run.run s =
      ((action.run.run s.typesetter).1, { s with typesetter := (action.run.run s.typesetter).2 }) :=
  rfl

/-- Code starts without operands, and leaves none. -/
theorem run_execute [Scalar α] (code : String) (t : Typesetter α) :
    (execute code).run.run t =
      (((runTokens (tokens code)).run.run { stack := [], typesetter := t }).1,
        ((runTokens (tokens code)).run.run { stack := [], typesetter := t }).2.typesetter) :=
  rfl

/-- What an operator does: something with the operands, perhaps followed by a transform that
    depends on them; only two operators have to do with saved transforms, and two with
    places. -/
theorem operator_kinds [Scalar α] (name : String) :
    OnOperands (operator name : Session.Action α Unit) ∨
      (∃ operands : Session.Action α (Matrix α → Matrix α), OnOperands operands ∧
        operator name = operands >>= fun f => onTypesetter (Typesetter.transform f)) ∨
      name = "gsave" ∨ name = "grestore" ∨ name = "currentpoint" ∨ name = "moveto" := by
  -- an operator that changes the transform by numbers
  have transform {β : Type} {operands : Session.Action α β} (h : OnOperands operands)
      (f : β → Matrix α → Matrix α) :
      ∃ operands' : Session.Action α (Matrix α → Matrix α), OnOperands operands' ∧
        (operands >>= fun b => onTypesetter (Typesetter.transform (f b))) =
          operands' >>= fun f => onTypesetter (Typesetter.transform f) := by
    refine ⟨f <$> operands, OnPart.map h f, ?_⟩
    rw [map_eq_pure_bind, bind_assoc]
    simp only [pure_bind]
  unfold operator
  split
  · exact .inl (OnPart.map (onOperands_pop _) _)
  · exact .inl (OnPart.bind (onOperands_pop _) fun _ => OnPart.bind (onOperands_pop _) fun _ =>
      OnPart.bind (onOperands_push _) fun _ => onOperands_push _)
  · refine .inl (OnPart.get_bind (fun s s' same => ?_) fun s _ => ?_)
    · rw [show s.stack = s'.stack from same]
    · split
      · exact onOperands_fail _
      · exact onOperands_push _
  · exact .inl (onOperands_push _)
  · exact .inl (OnPart.bind (onOperands_popNumber _) fun _ => onOperands_push _)
  · exact .inl (onOperands_arithmetic _ _)
  · exact .inl (onOperands_arithmetic _ _)
  · exact .inl (onOperands_arithmetic _ _)
  · exact .inl (onOperands_arithmetic _ _)
  · exact .inr (.inr (.inl rfl))
  · exact .inr (.inr (.inr (.inl rfl)))
  · exact .inr (.inr (.inr (.inr (.inl rfl))))
  · exact .inr (.inr (.inr (.inr (.inr rfl))))
  · exact .inr (.inl (transform (onOperands_popPair _) fun p m => m.scale p.1 p.2))
  · exact .inr (.inl (transform (onOperands_popPair _) fun p m => m.translate p.1 p.2))
  · exact .inr (.inl (transform (onOperands_popNumber _) fun degrees m => m.rotate degrees))
  · exact .inl (onOperands_fail _)

/-- What an operator can do to a typesetter, besides going to a place. -/
inductive Change (α : Type) where
  | save
  | restore
  | transform (f : Matrix α → Matrix α)

/-- What is done for a change. -/
def Change.run : Change α → DviMarkup.Action α Unit
  | save => Typesetter.saveTransform
  | restore => Typesetter.restoreTransform
  | transform f => Typesetter.transform f

theorem Change.onCore_run {library : Library} (change : Change α) : OnCore library change.run := by
  cases change with
  | save => exact Typesetter.onCore_saveTransform
  | restore => exact Typesetter.onCore_restoreTransform
  | transform f => exact Typesetter.onCore_transform f

/-- What an operator does, if all changes of a typesetter are taken together: something with
    the operands, perhaps followed by a change that depends on them. -/
theorem operator_cases [Scalar α] (name : String) :
    OnOperands (operator name : Session.Action α Unit) ∨
      (∃ change : Session.Action α (Change α), OnOperands change ∧
        operator name = change >>= fun change => onTypesetter change.run) ∨
      name = "currentpoint" ∨ name = "moveto" := by
  rcases operator_kinds (α := α) name with h | ⟨operands, h, heq⟩ | rfl | rfl | h
  · exact .inl h
  · refine .inr (.inl ⟨Change.transform <$> operands, OnPart.map h _, ?_⟩)
    rw [heq, map_eq_pure_bind, bind_assoc]
    simp only [pure_bind, Change.run]
  · exact .inr (.inl ⟨pure .save, .pure _, rfl⟩)
  · exact .inr (.inl ⟨pure .restore, .pure _, rfl⟩)
  · exact .inr (.inr h)

end PostScript

end DviMarkup
