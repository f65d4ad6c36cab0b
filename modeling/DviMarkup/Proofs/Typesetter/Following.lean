/-
  Actions that follow others.

  Two typesetters that share everything but what is kept for the output come to
  the same, as long as the difference does not matter.  What is done on the first
  is then done on the second too, if it succeeds on the first.

  * `Follows`: wherever an action succeeds, another gives the same result and leaves
    related states related; wherever it fails, the cause is of a certain kind;
  * `Alike` relates typesetters that share everything but their output;
  * `OnCore.follows`: actions on what typesetters share follow themselves;
  * `Output.unit?` is all that places have to do with the output;
  * `PostScript.follows_execute`: code follows itself if its operators do, and
    `PostScript.follows_code`: they do where the unit is the same;
  * `follows_executeAll`: so do commands in order, if each of them does.
-/
import DviMarkup.Proofs.Typesetter.Parts

namespace DviMarkup

/-! ## Following -/

section Follows

variable {σ β ε : Type}

/-- Whether an action follows another one: in related states, where the first action
    succeeds, the second succeeds with the same result and related states; where the first
    fails, the cause is one of those given. -/
def Follows (R : σ → σ → Prop) (cause : Failure → Prop) (action : ExceptT Failure (StateM σ) β)
    (action' : ExceptT Failure (StateM σ) β) : Prop :=
  ∀ s s', R s s' →
    (∀ b t, action.run.run s = (.ok b, t) → ∃ t', action'.run.run s' = (.ok b, t') ∧ R t t') ∧
      ∀ failure t, action.run.run s = (.error failure, t) → cause failure

namespace Follows

variable {R : σ → σ → Prop} {cause : Failure → Prop}

theorem pure (b : β) : Follows R cause (pure b) (pure b) := by
  refine fun s s' hs => ⟨?_, ?_⟩
  · rintro _ _ ⟨⟩
    exact ⟨s', rfl, hs⟩
  · rintro _ _ ⟨⟩

theorem throw {failure : Failure} (h : cause failure)
    (action' : ExceptT Failure (StateM σ) β) : Follows R cause (throw failure) action' := by
  refine fun s s' hs => ⟨?_, ?_⟩
  · rintro _ _ ⟨⟩
  · rintro _ _ ⟨⟩
    exact h

/-- A change without a counterpart leaves related states related. -/
theorem modify_pure {f : σ → σ} (h : ∀ s s', R s s' → R (f s) s') :
    Follows R cause (modify f) (Pure.pure ()) := by
  refine fun s s' hs => ⟨?_, ?_⟩
  · rintro _ _ ⟨⟩
    exact ⟨s', rfl, h s s' hs⟩
  · rintro _ _ ⟨⟩

theorem modify {f : σ → σ} {f' : σ → σ} (h : ∀ s s', R s s' → R (f s) (f' s')) :
    Follows R cause (modify f) (modify f') := by
  refine fun s s' hs => ⟨?_, ?_⟩
  · rintro _ _ ⟨⟩
    exact ⟨f' s', rfl, h s s' hs⟩
  · rintro _ _ ⟨⟩

/-- What comes afterwards starts in related states and with the same result. -/
theorem bind {action : ExceptT Failure (StateM σ) β} {action' : ExceptT Failure (StateM σ) β}
    {next : β → ExceptT Failure (StateM σ) ε} {next' : β → ExceptT Failure (StateM σ) ε}
    (h : Follows R cause action action') (hnext : ∀ b, Follows R cause (next b) (next' b)) :
    Follows R cause (action >>= next) (action' >>= next') := by
  intro s s' hs
  obtain ⟨succeeds, fails⟩ := h s s' hs
  rw [run_bind, run_bind]
  rcases run : action.run.run s with ⟨failure | b, t⟩
  · refine ⟨?_, ?_⟩
    · rintro _ _ ⟨⟩
    · rintro _ _ ⟨⟩
      exact fails failure t run
  · obtain ⟨t', run', ht⟩ := succeeds b t run
    rw [run']
    exact hnext b t t' ht

/-- What follows a look at the state may depend on it, as long as it follows in related
    states. -/
theorem get_bind {next : σ → ExceptT Failure (StateM σ) β}
    {next' : σ → ExceptT Failure (StateM σ) β}
    (h : ∀ s s', R s s' → Follows R cause (next s) (next' s')) :
    Follows R cause (MonadState.get >>= next) (MonadState.get >>= next') := by
  intro s s' hs
  rw [run_get_bind, run_get_bind]
  exact h s s' hs s s' hs

theorem map {action : ExceptT Failure (StateM σ) β} {action' : ExceptT Failure (StateM σ) β}
    (h : Follows R cause action action') (f : β → ε) :
    Follows R cause (f <$> action) (f <$> action') := by
  rw [map_eq_pure_bind, map_eq_pure_bind]
  exact h.bind fun b => .pure (f b)

end Follows

/-- Actions on a part follow themselves if the relation says of this part that it is the
    same. -/
theorem OnPart.follows {γ : Type} {part : Part σ γ} {invariant : γ → Prop}
    {cause cause' : Failure → Prop} {R : σ → σ → Prop} {action : ExceptT Failure (StateM σ) β}
    (h : OnPart part invariant cause' action)
    (same : ∀ s s', R s s' → part.get s = part.get s' ∧ invariant (part.get s))
    (put : ∀ s s' g, R s s' → invariant g → R (part.put g s) (part.put g s'))
    (causes : ∀ failure, cause' failure → cause failure) : Follows R cause action action := by
  intro s s' hs
  obtain ⟨result, g, run, run', hg, hfail⟩ := h s s' (same s s' hs).1 (same s s' hs).2
  rw [run, run']
  refine ⟨?_, ?_⟩
  · rintro b _ ⟨⟩
    exact ⟨_, rfl, put s s' g hs hg⟩
  · rintro failure _ ⟨⟩
    exact causes failure (hfail failure rfl)

end Follows

/-! ## Typesetters -/

variable {α : Type}

/-- Whether typesetters with a library share everything but what is kept for the output,
    which is related. -/
structure Alike (library : Library) (Q : Output α → Output α → Prop) (t t' : Typesetter α) :
    Prop where
  core : t.core = t'.core
  library : t.core.library = library
  output : Q t.output t'.output

section Typesetter

variable {β : Type} {library : Library} {Q : Output α → Output α → Prop}
  {cause : Failure → Prop}
  (given : ∀ failure, (failure.isMissing = true → library.Gives failure) → cause failure)

include given

/-- Actions on what typesetters share follow themselves. -/
theorem OnCore.follows {action : Action α β} (h : OnCore library action) :
    Follows (Alike library Q) cause action action :=
  OnPart.follows h (fun _ _ ht => ⟨ht.core, ht.library⟩)
    (fun _ _ _ ht hlibrary => ⟨rfl, hlibrary, ht.output⟩) given

end Typesetter

namespace Output

/-- What is kept after a change of what is kept for markup. -/
def onMarkup (f : Markup α → Markup α) : Output α → Output α
  | .markup m => .markup (f m)
  | o => o

/-- What is kept after a change of what is kept for plain text. -/
def onPlain (f : Plain α → Plain α) : Output α → Output α
  | .plain p => .plain (f p)
  | o => o

end Output

namespace Typesetter

variable {library : Library} {Q : Output α → Output α → Prop} {cause : Failure → Prop}

theorem modifyMarkup_eq (f : Core α → Markup α → Markup α) :
    modifyMarkup f = modify fun t => { t with output := t.output.onMarkup (f t.core) } := by
  refine congrArg modify (funext fun t => ?_)
  obtain ⟨core, output⟩ := t
  cases output <;> rfl

theorem modifyPlain_eq (f : Core α → Plain α → Plain α) :
    modifyPlain f = modify fun t => { t with output := t.output.onPlain (f t.core) } := by
  refine congrArg modify (funext fun t => ?_)
  obtain ⟨core, output⟩ := t
  cases output <;> rfl

theorem follows_modifyMarkup {f : Core α → Markup α → Markup α}
    (h : ∀ core o o', Q o o' → Q (o.onMarkup (f core)) (o'.onMarkup (f core))) :
    Follows (Alike library Q) cause (modifyMarkup f) (modifyMarkup f) := by
  rw [modifyMarkup_eq]
  refine .modify fun t t' ht => ⟨ht.core, ht.library, ?_⟩
  rw [← ht.core]
  exact h t.core _ _ ht.output

theorem follows_modifyPlain {f : Core α → Plain α → Plain α}
    (h : ∀ core o o', Q o o' → Q (o.onPlain (f core)) (o'.onPlain (f core))) :
    Follows (Alike library Q) cause (modifyPlain f) (modifyPlain f) := by
  rw [modifyPlain_eq]
  refine .modify fun t t' ht => ⟨ht.core, ht.library, ?_⟩
  rw [← ht.core]
  exact h t.core _ _ ht.output

end Typesetter

/-! ## Places -/

/-- The size of a DVI unit in the units of the output, if it has units of its own. -/
def Output.unit? : Output α → Option α
  | .markup m => some m.pointsPerUnit
  | _ => none

namespace Typesetter

variable [Scalar α]

theorem currentPoint_eq (t : Typesetter α) :
    t.currentPoint = match t.output.unit? with
      | some unit => (t.core.position.h * unit, t.core.position.v * unit)
      | none => (t.core.position.h, t.core.position.v) := by
  obtain ⟨core, output⟩ := t
  cases output <;> rfl

theorem setCurrentPoint_eq (x y : α) :
    setCurrentPoint x y = get >>= fun t => modifyCore (match t.output.unit? with
      | some unit => (·.moveTo (x / unit) (y / unit))
      | none => (·.moveTo x y)) := by
  refine congrArg (get >>= ·) (funext fun t => ?_)
  obtain ⟨core, output⟩ := t
  cases output <;> rfl

variable {library : Library} {Q : Output α → Output α → Prop} {cause : Failure → Prop}
  (units : ∀ o o', Q o o' → o.unit? = o'.unit?)

include units

/-- Where the unit is the same, the place is. -/
theorem currentPoint_alike {t t' : Typesetter α} (ht : Alike library Q t t') :
    t.currentPoint = t'.currentPoint := by
  rw [currentPoint_eq, currentPoint_eq, ht.core, units _ _ ht.output]

theorem follows_setCurrentPoint
    (given : ∀ failure, (failure.isMissing = true → library.Gives failure) → cause failure)
    (x y : α) :
    Follows (Alike library Q) cause (setCurrentPoint x y) (setCurrentPoint x y) := by
  rw [setCurrentPoint_eq]
  refine Follows.get_bind fun t t' ht => ?_
  rw [units _ _ ht.output]
  split
  · exact OnCore.follows given (onCore_modifyCore fun _ => rfl)
  · exact OnCore.follows given (onCore_modifyCore fun _ => rfl)

/-- What is written for a rule does not depend on more than the place. -/
theorem follows_putRule
    (rule : ∀ x y transform height width o o', Q o o' →
      Q (o.onMarkup (·.putRule x y transform height width))
        (o'.onMarkup (·.putRule x y transform height width)))
    (height width : Int32) :
    Follows (Alike library Q) cause (putRule height width) (putRule height width) := by
  refine Follows.get_bind fun t t' ht => ?_
  rw [currentPoint_alike units ht]
  exact follows_modifyMarkup fun core o o' => rule _ _ core.matrix height width o o'

/-- An image follows if its fragment does. -/
theorem follows_draw [Escaping]
    (svg : ∀ fragment,
      Follows (Alike library Q) cause (putSvg fragment : Action α Unit) (putSvg fragment))
    (description : String) :
    Follows (Alike library Q) cause (Image.draw description : Action α Unit)
      (Image.draw description) := by
  unfold Image.draw
  dsimp only
  split
  · exact .pure ()
  · refine Follows.get_bind fun t t' ht => ?_
    rw [currentPoint_alike units ht, ht.core]
    exact svg _

end Typesetter

/-! ## Code -/

namespace PostScript

open Session

/-- Whether code goes on with the same operands on related typesetters. -/
structure SameOperands (R : Typesetter α → Typesetter α → Prop) (s s' : Session α) : Prop where
  stack : s.stack = s'.stack
  typesetter : R s.typesetter s'.typesetter

variable {β : Type} {R : Typesetter α → Typesetter α → Prop} {cause : Failure → Prop}

/-- What is done with the typesetter follows as it does without operands. -/
theorem follows_onTypesetter {action : DviMarkup.Action α β} (h : Follows R cause action action) :
    Follows (SameOperands R) cause (onTypesetter action) (onTypesetter action) := by
  intro s s' hs
  obtain ⟨succeeds, fails⟩ := h s.typesetter s'.typesetter hs.typesetter
  rw [run_onTypesetter, run_onTypesetter]
  rcases run : action.run.run s.typesetter with ⟨failure | b, t⟩
  · refine ⟨?_, ?_⟩
    · rintro _ _ ⟨⟩
    · rintro _ _ ⟨⟩
      exact fails failure t run
  · obtain ⟨t', run', ht⟩ := succeeds b t run
    rw [run']
    refine ⟨?_, ?_⟩
    · rintro _ _ ⟨⟩
      exact ⟨_, rfl, hs.stack, ht⟩
    · rintro _ _ ⟨⟩

section Operators

variable (faults : ∀ fault, cause (.postScript fault))

include faults

/-- Actions on the operands follow themselves. -/
theorem OnOperands.follows {action : Session.Action α β} (h : OnOperands action) :
    Follows (SameOperands R) cause action action :=
  OnPart.follows h (fun _ _ hs => ⟨hs.stack, trivial⟩) (fun _ _ _ hs _ => ⟨rfl, hs.typesetter⟩)
    fun _ ⟨fault, hfault⟩ => hfault ▸ faults fault

variable [Scalar α]

/-- An operator that has nothing to do with places follows itself if the changes do. -/
theorem follows_operator {name : String}
    (change : ∀ change : Change α, Follows R cause change.run change.run)
    (currentpoint : name ≠ "currentpoint") (moveto : name ≠ "moveto") :
    Follows (SameOperands R) cause (operator name) (operator name) := by
  rcases operator_cases (α := α) name with h | ⟨operands, h, heq⟩ | rfl | rfl
  · exact OnOperands.follows faults h
  · rw [heq]
    exact (OnOperands.follows faults h).bind fun c => follows_onTypesetter (change c)
  · exact absurd rfl currentpoint
  · exact absurd rfl moveto

/-- The place is the same operand if it is the same place. -/
theorem follows_currentpoint (same : ∀ t t', R t t' → t.currentPoint = t'.currentPoint) :
    Follows (SameOperands R) cause (operator "currentpoint") (operator "currentpoint") := by
  refine Follows.get_bind fun s s' hs => ?_
  rw [same _ _ hs.typesetter]
  exact (OnOperands.follows faults (onOperands_push _)).bind fun _ =>
    OnOperands.follows faults (onOperands_push _)

theorem follows_moveto
    (move : ∀ x y, Follows R cause (Typesetter.setCurrentPoint x y)
      (Typesetter.setCurrentPoint x y)) :
    Follows (SameOperands R) cause (operator "moveto") (operator "moveto") :=
  (OnOperands.follows faults (onOperands_popPair "moveto")).bind fun _ =>
    follows_onTypesetter (move _ _)

theorem follows_runTokens {ts : List (Except Fault Token)}
    (h : ∀ name, .ok (.operator name) ∈ ts →
      Follows (SameOperands R) cause (operator name) (operator name)) :
    Follows (SameOperands R) cause (runTokens ts) (runTokens ts) := by
  induction ts with
  | nil => exact .pure ()
  | cons t ts ih =>
    cases t with
    | error fault => exact .throw (faults fault) _
    | ok t =>
      refine Follows.bind ?_ fun _ => ih fun name hname => h name (List.mem_cons_of_mem _ hname)
      cases t with
      | operator name => exact h name List.mem_cons_self
      | arrayEnd => exact OnOperands.follows faults onOperands_closeArray
      | _ => exact OnOperands.follows faults (onOperands_push _)

/-- **Code follows itself if its operators do.** -/
theorem follows_execute {code : String}
    (h : ∀ name, .ok (.operator name) ∈ tokens code →
      Follows (SameOperands R) cause (operator name) (operator name)) :
    Follows R cause (execute code) (execute code) := by
  intro t t' ht
  obtain ⟨succeeds, fails⟩ :=
    follows_runTokens faults h { stack := [], typesetter := t } { stack := [], typesetter := t' }
      ⟨rfl, ht⟩
  rw [run_execute, run_execute]
  rcases run : (runTokens (tokens code)).run.run { stack := [], typesetter := t }
    with ⟨failure | b, s⟩
  · refine ⟨?_, ?_⟩
    · rintro _ _ ⟨⟩
    · rintro _ _ ⟨⟩
      exact fails failure s run
  · obtain ⟨s', run', hs⟩ := succeeds b s run
    rw [run']
    refine ⟨?_, ?_⟩
    · rintro _ _ ⟨⟩
      exact ⟨_, rfl, hs.typesetter⟩
    · rintro _ _ ⟨⟩

/-- **Code follows itself where the unit is the same**, since it has no more to do with the
    output than places. -/
theorem follows_code {library : Library} {Q : Output α → Output α → Prop}
    (given : ∀ failure, (failure.isMissing = true → library.Gives failure) → cause failure)
    (units : ∀ o o', Q o o' → o.unit? = o'.unit?) (code : String) :
    Follows (Alike library Q) cause (execute code) (execute code) := by
  refine follows_execute faults fun name _ => ?_
  by_cases currentpoint : name = "currentpoint"
  · subst currentpoint
    exact follows_currentpoint faults fun t t' ht => Typesetter.currentPoint_alike units ht
  by_cases moveto : name = "moveto"
  · subst moveto
    exact follows_moveto faults (Typesetter.follows_setCurrentPoint units given)
  exact follows_operator faults (fun change => OnCore.follows given change.onCore_run)
    currentpoint moveto

end Operators

end PostScript

/-! ## Commands in order -/

/-- **Commands in order follow themselves if each of them does.** -/
theorem follows_executeAll [Scalar α] [Escaping] {R : Typesetter α → Typesetter α → Prop}
    {cause : Failure → Prop} {items : List Item}
    (commands : ∀ command, .ok command ∈ items → Follows R cause command.execute command.execute)
    (failures : ∀ failure, .error failure ∈ items → cause failure) :
    Follows R cause (executeAll items) (executeAll items) := by
  induction items with
  | nil => exact .pure ()
  | cons item items ih =>
    cases item with
    | error failure => exact .throw (failures failure List.mem_cons_self) _
    | ok command =>
      refine (commands command List.mem_cons_self).bind fun _ => ih ?_ ?_
      · exact fun command h => commands command (List.mem_cons_of_mem _ h)
      · exact fun failure h => failures failure (List.mem_cons_of_mem _ h)

end DviMarkup
