/-
  Code that fails.

  An operator takes its operands and looks at what they are before it does anything to the
  typesetter, and what it then does fails only if it changes nothing.  So code that fails
  leaves the typesetter as it was before the token at which it fails.

  * `FailsEarly` holds of the actions that change no typesetter if they fail;
  * `failsEarly_operator` and `failsEarly_runToken`: single steps are such actions;
  * `exists_failing`: tokens that fail do so at one of them, after those before it;
  * `exists_run_typesetter`: what code can change at all;
  * `run_typesetter`: code that fails can be cut before the token at which it fails, and this
    token does nothing to the typesetter.
-/
import DviMarkup.Proofs.PostScript.Scanning
import DviMarkup.Proofs.Typesetter.Failing

namespace DviMarkup.PostScript

open Session

variable {α β γ : Type}

/-- Whether an action that fails has a reason that code has, and left the typesetter as it
    was. -/
def FailsEarly (action : Session.Action α β) : Prop :=
  ∀ s failure s', action.run.run s = (.error failure, s') →
    s'.typesetter = s.typesetter ∧ ∃ fault, failure = .postScript fault

theorem OnOperands.failsEarly {action : Session.Action α β} (h : OnOperands action) :
    FailsEarly action := by
  intro s failure s' run
  obtain ⟨result, stack, hrun, -, -, cause⟩ := h s s rfl trivial
  rw [run, Prod.mk.injEq] at hrun
  obtain ⟨rfl, rfl⟩ := hrun
  exact ⟨rfl, cause failure rfl⟩

namespace FailsEarly

theorem of_succeeds {action : Session.Action α β} (h : Succeeds action) : FailsEarly action := by
  intro s failure s' run
  obtain ⟨b, s'', ok⟩ := h s
  rw [ok] at run
  cases run

/-- What is done with operands first does not matter to the typesetter. -/
theorem operands_bind {action : Session.Action α β} {next : β → Session.Action α γ}
    (h : OnOperands action) (hnext : ∀ b, FailsEarly (next b)) : FailsEarly (action >>= next) := by
  intro s failure s' run
  have same : (action.run.run s).2.typesetter = s.typesetter :=
    OnPart.view_eq h Session.typesetter (fun _ _ => rfl) trivial
  rcases run_bind_eq_error.mp run with first | ⟨b, t, first, later⟩
  · exact h.failsEarly s failure s' first
  · rw [first] at same
    obtain ⟨kept, reason⟩ := hnext b t failure s' later
    exact ⟨kept.trans same, reason⟩

end FailsEarly

theorem succeeds_onTypesetter {action : DviMarkup.Action α β} (h : Succeeds action) :
    Succeeds (onTypesetter action) := by
  intro s
  obtain ⟨b, t, run⟩ := h s.typesetter
  refine ⟨b, { s with typesetter := t }, ?_⟩
  rw [run_onTypesetter, run]

/-! ## Steps -/

/-- A change fails only if there is nothing to restore. -/
theorem failsEarly_change (change : Change α) : FailsEarly (onTypesetter change.run) := by
  cases change with
  | save => exact .of_succeeds fun s => ⟨(), _, rfl⟩
  | transform f => exact .of_succeeds fun s => ⟨(), _, rfl⟩
  | restore =>
    intro s failure s' run
    rw [run_onTypesetter, Prod.mk.injEq] at run
    obtain ⟨result, rfl⟩ := run
    obtain ⟨same, reason⟩ := Typesetter.eq_of_run_restoreTransform (Prod.ext result rfl)
    exact ⟨same, _, reason⟩

variable [Scalar α]

theorem failsEarly_operator (name : String) :
    FailsEarly (operator name : Session.Action α Unit) := by
  rcases operator_cases (α := α) name with h | ⟨operands, h, heq⟩ | rfl | rfl
  · exact h.failsEarly
  · rw [heq]
    exact .operands_bind h failsEarly_change
  · exact .of_succeeds fun s => ⟨(), _, rfl⟩
  · exact .operands_bind (onOperands_popPair "moveto") fun _ =>
      .of_succeeds (succeeds_onTypesetter (Typesetter.succeeds_setCurrentPoint _ _))

theorem failsEarly_token (t : Token) : FailsEarly (token t : Session.Action α Unit) := by
  cases t with
  | arrayEnd => exact onOperands_closeArray.failsEarly
  | operator name => exact failsEarly_operator name
  | _ => exact (onOperands_push _).failsEarly

theorem failsEarly_runToken (t : Except Fault Token) :
    FailsEarly (runTokens [t] : Session.Action α Unit) := by
  cases t with
  | error fault => exact (onOperands_fail fault).failsEarly
  | ok t =>
    have single : (runTokens [.ok t] : Session.Action α Unit) = token t := bind_pure_unit
    rw [single]
    exact failsEarly_token t

/-! ## Runs -/

/-- Tokens that fail do so at one of them, and those before it succeed. -/
theorem exists_failing {ts : List (Except Fault Token)} {s s' : Session α} {failure : Failure}
    (run : (runTokens ts).run.run s = (.error failure, s')) :
    ∃ (before : List Token) (t : Except Fault Token) (later : List (Except Fault Token))
      (s₀ : Session α), ts = before.map .ok ++ t :: later ∧
      (runTokens (before.map .ok)).run.run s = (.ok (), s₀) ∧
      (runTokens [t]).run.run s₀ = (.error failure, s') := by
  induction ts generalizing s with
  | nil => cases run
  | cons t ts ih =>
    cases t with
    | error fault => exact ⟨[], _, ts, s, rfl, rfl, run⟩
    | ok t =>
      rcases run_bind_eq_error.mp run with first | ⟨_, s₁, first, rest⟩
      · exact ⟨[], .ok t, ts, s, rfl, rfl, run_bind_eq_error.mpr (.inl first)⟩
      · obtain ⟨before, u, later, s₀, rfl, ok, fails⟩ := ih rest
        exact ⟨t :: before, u, later, s₀, rfl, run_bind_eq_ok.mpr ⟨(), s₁, first, ok⟩, fails⟩

/-- What code can change. -/
theorem exists_run_typesetter (code : String) (s : Session α) :
    ∃ h v matrix saved, ((Session.run code).run.run s).2.typesetter =
      { s.typesetter with core := { s.typesetter.core with
        position := { s.typesetter.core.position with h, v }, matrix, saved } } := by
  -- all of the typesetter besides what code can change
  let around (t : Typesetter α) (h v : α) (matrix : Matrix α) (saved : List (Matrix α)) :=
    { t with core := { t.core with position := { t.core.position with h, v }, matrix, saved } }
  have blind : Typesetter.BlindToCode around := fun _ _ _ _ _ => rfl
  have same := keeps_runTokens blind (tokens code) s
  let core := ((Session.run code).run.run s).2.typesetter.core
  exact ⟨core.position.h, core.position.v, core.matrix, core.saved,
    congrFun (congrFun (congrFun (congrFun same _) _) _) _⟩

/-- **Code that fails leaves the typesetter as it was before the token at which it fails.**
    It can be cut before this token: what comes before succeeds, and then the token fails for
    a reason that code has and does nothing to the typesetter.  **No code changes more than
    the place, the transform and the saved transforms**, whether it fails or not. -/
theorem run_typesetter (code : String) (s : Session α) :
    (∀ failure s', (Session.run code).run.run s = (.error failure, s') →
      ∃ before after t later s₀, code = before ++ after ∧
        tokens code = tokens before ++ tokens after ∧ tokens after = t :: later ∧
        (Session.run before).run.run s = (.ok (), s₀) ∧
        (runTokens [t]).run.run s₀ = (.error failure, s') ∧
        s'.typesetter = s₀.typesetter ∧ ∃ fault, failure = .postScript fault) ∧
    ∃ h v matrix saved, ((Session.run code).run.run s).2.typesetter =
      { s.typesetter with core := { s.typesetter.core with
        position := { s.typesetter.core.position with h, v }, matrix, saved } } := by
  refine ⟨fun failure s' run => ?_, exists_run_typesetter code s⟩
  obtain ⟨ts, t, later, s₀, scanned, ok, fails⟩ := exists_failing run
  obtain ⟨before, after, split, hbefore, hafter⟩ := exists_cut scanned
  have whole : tokens code = tokens before ++ tokens after := by
    rw [scanned, hbefore, hafter]
  obtain ⟨kept, reason⟩ := failsEarly_runToken t s₀ failure s' fails
  rw [← hbefore] at ok
  exact ⟨before, after, t, later, s₀, split, whole, hafter, ok, fails, kept, reason⟩

/-- Code that goes to a place which is no place, after it has changed the transform. -/
def misplaced : Except Failure Unit × Session Binary64 :=
  (Session.run "gsave 2 3 scale 4 (a) moveto 5 5 translate").run.run
    ⟨[.mark], .markup (.ofList []) {} .strict⟩

/-- The transform stays as it was when the place was found to be none. -/
theorem run_typesetter_misplaced :
    misplaced.1 = .error (.postScript (.notANumber "moveto")) ∧
      misplaced.2.typesetter.core.saved.length = 1 ∧
      ∃ before after t later s₀,
        "gsave 2 3 scale 4 (a) moveto 5 5 translate" = before ++ after ∧
        tokens after = t :: later ∧
        (Session.run before).run.run ⟨[.mark], .markup (.ofList []) {} .strict⟩ = (.ok (), s₀) ∧
        misplaced.2.typesetter = s₀.typesetter := by
  have fails : misplaced.1 = .error (.postScript (.notANumber "moveto")) := by
    decide +kernel
  obtain ⟨before, after, t, later, s₀, split, -, first, ok, -, kept, -⟩ :=
    (run_typesetter "gsave 2 3 scale 4 (a) moveto 5 5 translate"
      ⟨[.mark], .markup (.ofList []) {} .strict⟩).1 _ _ (Prod.ext fails rfl)
  exact ⟨fails, by decide +kernel, before, after, t, later, s₀, split, first, ok, kept⟩

end DviMarkup.PostScript
