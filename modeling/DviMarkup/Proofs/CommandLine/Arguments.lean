/-
  Arguments without the option for the output.

  * `Draft.withoutOutput` is what is known apart from where the output goes;
  * `addValue_withoutOutput` and its companions: all other arguments add to it the same;
  * `exists_addAll_withoutOutput`: so the option can be left out;
  * `exists_parse_printed`: what is asked for then is the same, printed.
-/
import DviMarkup.CommandLine.Arguments

namespace DviMarkup.CommandLine

namespace Draft

/-- What is known apart from where the output goes. -/
def withoutOutput (d : Draft) : Draft :=
  { d with output := none }

end Draft

/-- An option that awaits its value, unless this is where the output goes. -/
def exceptOutput (awaiting : Option Switch) : Option Switch :=
  awaiting.filter (· ≠ .output)

/-- What succeeds in two steps succeeds in both. -/
theorem bind_eq_ok {ε β γ : Type} {x : Except ε β} {next : β → Except ε γ} {c : γ}
    (h : x >>= next = .ok c) : ∃ b, x = .ok b ∧ next b = .ok c := by
  cases x with
  | error _ => cases h
  | ok b => exact ⟨b, rfl, h⟩

variable {d d' : Draft} {scope : Scope} {awaiting : Option Switch}

theorem addInput_withoutOutput {path : String} (h : d.addInput path = .ok d') :
    d.withoutOutput.addInput path = .ok d'.withoutOutput := by
  unfold Draft.addInput at h ⊢
  split at h
  · cases h
  next free =>
    cases h
    exact if_neg free

theorem addInputs_withoutOutput {paths : List String}
    (h : paths.foldlM Draft.addInput d = .ok d') :
    paths.foldlM Draft.addInput d.withoutOutput = .ok d'.withoutOutput := by
  induction paths generalizing d with
  | nil =>
    cases h
    rfl
  | cons path paths ih =>
    rw [List.foldlM_cons] at h ⊢
    rcases first : d.addInput path with stop | d₁
    · rw [first] at h
      cases h
    · rw [first] at h
      rw [addInput_withoutOutput first]
      exact ih h

theorem addFlag_withoutOutput {switch : Switch} (h : d.addFlag switch = .ok d') :
    d.withoutOutput.addFlag switch = .ok d'.withoutOutput := by
  unfold Draft.addFlag at h ⊢
  split at h
  · split at h
    · cases h
    next free =>
      cases h
      exact if_neg free
  · split at h
    · cases h
    next free =>
      cases h
      exact if_neg free
  · cases h
    rfl
  · cases h
  · cases h
  · cases h

/-- The value of the option for the output adds nothing else. -/
theorem withoutOutput_addValue_output {value : String} (h : d.addValue .output value = .ok d') :
    d'.withoutOutput = d.withoutOutput := by
  unfold Draft.addValue at h
  split at h
  · cases h
  · dsimp only at h
    split at h
    · cases h
    · cases h
      rfl

theorem addValue_withoutOutput {switch : Switch} (other : switch ≠ .output) {value : String}
    (h : d.addValue switch value = .ok d') :
    d.withoutOutput.addValue switch value = .ok d'.withoutOutput := by
  unfold Draft.addValue at h ⊢
  split at h
  · cases h
  next full =>
    rw [if_neg full]
    cases switch with
    | output => exact absurd rfl other
    | encodings =>
      dsimp only at h ⊢
      split at h
      · cases h
      next free =>
        cases h
        exact if_neg free
    | fonts =>
      cases h
      rfl
    | _ => cases h

theorem ofShort?_eq_some {c : Char} {switch : Switch} (h : Switch.ofShort? c = some switch) :
    switch = .output ∨ switch = .verbose ∨ switch = .help ∨ switch = .version := by
  unfold Switch.ofShort? at h
  split at h
  · cases h
    exact .inl rfl
  · cases h
    exact .inr (.inl rfl)
  · cases h
    exact .inr (.inr (.inl rfl))
  · cases h
    exact .inr (.inr (.inr rfl))
  · cases h

/-- Short options add nothing but where the output goes. -/
theorem withoutOutput_addShort {names : List Char}
    (h : addShort scope d names = .ok (d', awaiting)) :
    d'.withoutOutput = d.withoutOutput ∧ exceptOutput awaiting = none := by
  induction names generalizing d with
  | nil =>
    cases h
    exact ⟨rfl, rfl⟩
  | cons c rest ih =>
    rw [addShort] at h
    cases known : Switch.ofShort? c with
    | none =>
      rw [known] at h
      cases h
    | some switch =>
      rw [known] at h
      dsimp only at h
      split at h
      · cases h
      rcases ofShort?_eq_some known with rfl | rfl | rfl | rfl
      · rw [if_pos (show Switch.output.hasValue = true from rfl)] at h
        split at h
        · cases h
          exact ⟨rfl, rfl⟩
        all_goals
          obtain ⟨d₁, value, h⟩ := bind_eq_ok h
          cases h
          exact ⟨withoutOutput_addValue_output value, rfl⟩
      · exact ih h
      · cases h
      · cases h

/-- A long option adds the same apart from the output, or nothing else. -/
theorem addLong_withoutOutput {name : List Char} {value : Option (List Char)}
    (h : addLong scope d name value = .ok (d', awaiting)) :
    d'.withoutOutput = d.withoutOutput ∧ exceptOutput awaiting = none ∨
      addLong scope d.withoutOutput name value = .ok (d'.withoutOutput, awaiting) ∧
        exceptOutput awaiting = awaiting := by
  unfold addLong at h ⊢
  cases known : Switch.ofLong? name with
  | none =>
    rw [known] at h
    cases h
  | some switch =>
    rw [known] at h
    dsimp only at h ⊢
    split at h
    · cases h
    next allowed =>
    rw [if_neg allowed]
    split at h
    next value _ =>
      obtain ⟨d₁, hd₁, h⟩ := bind_eq_ok h
      cases h
      by_cases output : switch = .output
      · subst output
        exact .inl ⟨withoutOutput_addValue_output hd₁, rfl⟩
      · refine .inr ⟨?_, rfl⟩
        rw [addValue_withoutOutput output hd₁]
        rfl
    · cases h
      by_cases output : switch = .output
      · subst output
        exact .inl ⟨rfl, rfl⟩
      · exact .inr ⟨rfl, if_pos (decide_eq_true output)⟩
    · cases h
    · obtain ⟨d₁, hd₁, h⟩ := bind_eq_ok h
      cases h
      refine .inr ⟨?_, rfl⟩
      rw [addFlag_withoutOutput hd₁]
      rfl

/-! ## All arguments -/

/-- **The option for the output can be left out**: without some of the arguments, the rest is
    known. -/
theorem exists_addAll_withoutOutput {args : List String}
    (h : addAll scope d awaiting args = .ok d') :
    ∃ args', args'.Sublist args ∧
      addAll scope d.withoutOutput (exceptOutput awaiting) args' = .ok d'.withoutOutput := by
  induction args generalizing d awaiting with
  | nil =>
    cases awaiting with
    | none =>
      cases h
      exact ⟨[], .slnil, rfl⟩
    | some _ => cases h
  | cons arg rest ih =>
    cases awaiting with
    | some switch =>
      rw [addAll] at h
      split at h
      next isValue =>
        obtain ⟨d₁, hd₁, h⟩ := bind_eq_ok h
        obtain ⟨args', sub, hargs'⟩ := ih h
        by_cases output : switch = .output
        · subst output
          rw [withoutOutput_addValue_output hd₁] at hargs'
          exact ⟨args', sub.cons arg, hargs'⟩
        · have awaits : exceptOutput (some switch) = some switch := if_pos (decide_eq_true output)
          refine ⟨arg :: args', sub.cons_cons arg, ?_⟩
          rw [awaits, addAll, if_pos isValue, addValue_withoutOutput output hd₁]
          exact hargs'
      · cases h
    | none =>
      rw [addAll] at h
      split at h
      next form =>
        refine ⟨arg :: rest, .refl _, ?_⟩
        rw [show exceptOutput none = none from rfl, addAll, form]
        exact addInputs_withoutOutput h
      next form =>
        obtain ⟨d₁, hd₁, h⟩ := bind_eq_ok h
        obtain ⟨args', sub, hargs'⟩ := ih h
        refine ⟨arg :: args', sub.cons_cons arg, ?_⟩
        rw [show exceptOutput none = none from rfl, addAll, form, addInput_withoutOutput hd₁]
        exact hargs'
      next names form =>
        obtain ⟨⟨d₁, awaiting⟩, hd₁, h⟩ := bind_eq_ok h
        obtain ⟨args', sub, hargs'⟩ := ih h
        obtain ⟨same, none⟩ := withoutOutput_addShort hd₁
        rw [same, none] at hargs'
        exact ⟨args', sub.cons arg, hargs'⟩
      next name value form =>
        obtain ⟨⟨d₁, awaiting⟩, hd₁, h⟩ := bind_eq_ok h
        obtain ⟨args', sub, hargs'⟩ := ih h
        rcases addLong_withoutOutput hd₁ with ⟨same, none⟩ | ⟨long, awaits⟩
        · rw [same, none] at hargs'
          exact ⟨args', sub.cons arg, hargs'⟩
        · refine ⟨arg :: args', sub.cons_cons arg, ?_⟩
          rw [awaits] at hargs'
          rw [show exceptOutput none = none from rfl, addAll, form]
          dsimp only
          rw [long]
          exact hargs'

/-- What is asked for, printed instead of written to a file. -/
def Request.printed : Request → Request
  | .convert format standalone input _ options => .convert format standalone input none options
  | .inspect input => .inspect input

theorem finish_withoutOutput {request : Request} (h : d.finish scope = .ok request) :
    d.withoutOutput.finish scope = .ok request.printed := by
  obtain ⟨input, output, fonts, encodings, lenient, standalone⟩ := d
  cases input with
  | none => cases h
  | some input =>
    cases h
    cases scope <;> rfl

/-- **Without some of the arguments the same is asked for, to be printed.** -/
theorem exists_parse_printed {args : List String} {request : Request}
    (h : Request.parse args = .ok request) :
    ∃ args', args'.Sublist args ∧ Request.parse args' = .ok request.printed := by
  induction args with
  | nil => cases h
  | cons arg rest ih =>
    rw [Request.parse.eq_def] at h
    dsimp only at h
    split at h
    · cases h
    next names form =>
      obtain ⟨_, front, h⟩ := bind_eq_ok h
      obtain ⟨args', sub, hargs'⟩ := ih h
      refine ⟨arg :: args', sub.cons_cons arg, ?_⟩
      rw [Request.parse.eq_def]
      dsimp only
      rw [form]
      dsimp only
      rw [front]
      exact hargs'
    next name value form =>
      split at h
      next long =>
        obtain ⟨args', sub, hargs'⟩ := ih h
        refine ⟨arg :: args', sub.cons_cons arg, ?_⟩
        rw [Request.parse.eq_def]
        dsimp only
        rw [form]
        dsimp only
        rw [long]
        exact hargs'
      all_goals cases h
    next form =>
      cases known : Scope.ofName? arg with
      | none =>
        -- nothing is asked for but help
        rw [known] at h
        split at h
        · cases ‹none = some _›
        · cases h
        · split at h <;> cases h
        · cases h
      | some scope =>
        rw [known] at h
        dsimp only at h
        obtain ⟨d, hd, h⟩ := bind_eq_ok h
        obtain ⟨args', sub, hargs'⟩ := exists_addAll_withoutOutput hd
        refine ⟨arg :: args', sub.cons_cons arg, ?_⟩
        rw [Request.parse.eq_def]
        dsimp only
        rw [form]
        dsimp only
        rw [known]
        dsimp only
        rw [show addAll scope {} none args' = _ from hargs']
        exact finish_withoutOutput h

end DviMarkup.CommandLine
