/-
  Operands that code does not reach.

  Code takes its operands from the top of the stack, and the end of an array looks no further
  than for the last mark.  So code that succeeds has not seen how the stack goes on.

  * `Session.above` is a session with more operands below those that are there;
  * `Framed` holds of the actions that, if they succeed, do the same there; what is put
    together from such actions is one (`Framed.bind`);
  * `run_closeArray`: the end of an array takes what is above the last mark;
  * `framed_operator` and `framed_token`: single steps are such actions;
  * `run_above`: so is code.
-/
import Mathlib.Data.List.TakeWhile
import DviMarkup.Number.Binary64
import DviMarkup.Proofs.Typesetter.Parts

namespace DviMarkup.PostScript

open Session

variable {α β γ : Type}

/-- A session with more operands below those that are there. -/
def Session.above (s : Session α) (below : List (Object α)) : Session α :=
  { s with stack := s.stack ++ below }

/-- Whether an action that succeeds does the same with more operands below, and leaves them
    where they are. -/
def Framed (action : Session.Action α β) : Prop :=
  ∀ s b s', action.run.run s = (.ok b, s') →
    ∀ below, action.run.run (s.above below) = (.ok b, s'.above below)

namespace Framed

theorem pure (b : β) : Framed (pure b : Session.Action α β) := by
  rintro s _ _ ⟨⟩ below
  rfl

theorem fail (fault : Fault) : Framed (fail fault : Session.Action α β) := by
  rintro s _ _ ⟨⟩

theorem bind {action : Session.Action α β} {next : β → Session.Action α γ} (h : Framed action)
    (hnext : ∀ b, Framed (next b)) : Framed (action >>= next) := by
  intro s c s' run below
  obtain ⟨b, t, first, later⟩ := run_bind_eq_ok.mp run
  exact run_bind_eq_ok.mpr ⟨b, t.above below, h s b t first below, hnext b t c s' later below⟩

theorem map {action : Session.Action α β} (h : Framed action) (f : β → γ) :
    Framed (f <$> action) := by
  rw [map_eq_pure_bind]
  exact h.bind fun b => .pure (f b)

end Framed

/-! ## Operands -/

theorem framed_push (o : Object α) : Framed (push o) := by
  rintro s _ _ ⟨⟩ below
  rfl

theorem framed_pop (operator : String) : Framed (Session.pop operator : Session.Action α _) := by
  rintro ⟨_ | ⟨o, stack⟩, t⟩ b s' run below
  · cases run
  · cases run
    rfl

theorem framed_popNumber (operator : String) :
    Framed (popNumber operator : Session.Action α α) := by
  refine (framed_pop operator).bind fun o => ?_
  split
  · exact .pure _
  · exact .fail _

theorem framed_popPair (operator : String) :
    Framed (popPair operator : Session.Action α (α × α)) :=
  (framed_popNumber operator).bind fun _ => (framed_popNumber operator).bind fun _ => .pure _

theorem framed_arithmetic (operator : String) (f : α → α → α) :
    Framed (arithmetic operator f : Session.Action α Unit) :=
  (framed_popPair operator).bind fun _ => framed_push _

/-! ## The last mark -/

theorem not_isMark_of_notMem {os : List (Object α)} (h : .mark ∉ os) :
    ∀ o ∈ os, (!o.isMark) = true := by
  intro o ho
  cases o with
  | mark => exact absurd ho h
  | _ => rfl

/-- The end of an array takes what is above the last mark, and the mark. -/
theorem run_closeArray {above : List (Object α)} (h : .mark ∉ above) (below : List (Object α))
    (t : Typesetter α) :
    (closeArray : Session.Action α Unit).run.run ⟨above ++ .mark :: below, t⟩ =
      (.ok (), ⟨.array above.reverse :: below, t⟩) := by
  have unmarked := not_isMark_of_notMem h
  have elements : (above ++ .mark :: below).takeWhile (!·.isMark) = above := by
    rw [List.takeWhile_append_of_pos unmarked]
    exact List.append_nil above
  have rest : (above ++ .mark :: below).dropWhile (!·.isMark) = .mark :: below := by
    rw [List.dropWhile_append_of_pos unmarked]
    rfl
  unfold closeArray
  rw [run_get_bind]
  dsimp only
  rw [elements, rest]
  rfl

/-- An array does not end where none begins. -/
theorem run_closeArray_of_notMem {s : Session α} (h : .mark ∉ s.stack) :
    (closeArray : Session.Action α Unit).run.run s =
      (.error (.postScript .unmatchedArrayEnd), s) := by
  have none : s.stack.dropWhile (!·.isMark) = [] :=
    List.dropWhile_eq_nil_iff.mpr (not_isMark_of_notMem h)
  unfold closeArray
  rw [run_get_bind]
  dsimp only
  rw [none]
  rfl

theorem mark_mem_of_closeArray {s s' : Session α}
    (h : (closeArray : Session.Action α Unit).run.run s = (.ok (), s')) : .mark ∈ s.stack := by
  refine Classical.byContradiction fun unmarked => ?_
  rw [run_closeArray_of_notMem unmarked] at h
  cases h

/-- The last mark is the same with more operands below. -/
theorem framed_closeArray : Framed (closeArray : Session.Action α Unit) := by
  rintro ⟨stack, t⟩ _ s' run below
  obtain ⟨above, rest, rfl, unmarked⟩ := List.eq_append_cons_of_mem (mark_mem_of_closeArray run)
  rw [run_closeArray unmarked] at run
  cases run
  refine Eq.trans ?_ (run_closeArray unmarked (rest ++ below) t)
  rw [Session.above, List.append_assoc, List.cons_append]

/-! ## Steps -/

theorem framed_onTypesetter (action : DviMarkup.Action α β) : Framed (onTypesetter action) := by
  intro s b s' run below
  rw [run_onTypesetter, Prod.mk.injEq] at run
  obtain ⟨result, rfl⟩ := run
  rw [run_onTypesetter]
  exact Prod.ext result rfl

variable [Scalar α]

theorem framed_operator (name : String) : Framed (operator name : Session.Action α Unit) := by
  unfold operator
  split
  · exact (framed_pop _).map _
  · exact (framed_pop _).bind fun _ => (framed_pop _).bind fun _ =>
      (framed_push _).bind fun _ => framed_push _
  · -- a copy of the last operand
    rintro ⟨_ | ⟨o, stack⟩, t⟩ b s' run below
    · cases run
    · cases run
      rfl
  · exact framed_push _
  · exact (framed_popNumber _).bind fun _ => framed_push _
  · exact framed_arithmetic _ _
  · exact framed_arithmetic _ _
  · exact framed_arithmetic _ _
  · exact framed_arithmetic _ _
  · exact framed_onTypesetter _
  · exact framed_onTypesetter _
  · -- the place does not depend on operands
    rintro s _ _ ⟨⟩ below
    rfl
  · exact (framed_popPair _).bind fun _ => framed_onTypesetter _
  · exact (framed_popPair _).bind fun _ => framed_onTypesetter _
  · exact (framed_popPair _).bind fun _ => framed_onTypesetter _
  · exact (framed_popNumber _).bind fun _ => framed_onTypesetter _
  · exact .fail _

theorem framed_token (t : Token) : Framed (token t : Session.Action α Unit) := by
  cases t with
  | arrayEnd => exact framed_closeArray
  | operator name => exact framed_operator name
  | _ => exact framed_push _

theorem framed_runTokens (ts : List (Except Fault Token)) :
    Framed (runTokens ts : Session.Action α Unit) := by
  induction ts with
  | nil => exact .pure ()
  | cons t ts ih =>
    cases t with
    | error fault => exact .fail fault
    | ok t => exact (framed_token t).bind fun _ => ih

/-- **Code only sees the top of the stack that it uses.**  Code that succeeds comes to the
    same with more operands below, marks too, and they stay where they are. -/
theorem run_above {code : String} {s s' : Session α}
    (h : (Session.run code).run.run s = (.ok (), s')) (below : List (Object α)) :
    (Session.run code).run.run { s with stack := s.stack ++ below } =
      (.ok (), { s' with stack := s'.stack ++ below }) :=
  framed_runTokens (tokens code) s () s' h below

/-- Operands with a mark, and what becomes of them by code that ends the array there, goes to
    a place and saves a transform. -/
def gathered : Except Failure Unit × Session Binary64 :=
  (Session.run "(a) exch ] 3 4 moveto dup gsave").run.run
    ⟨[.name "b", .mark], .silent (.ofList [])⟩

/-- The same comes of them above other marks. -/
theorem run_above_gathered :
    gathered.1 = .ok () ∧ gathered.2.stack.length = 2 ∧
      (Session.run "(a) exch ] 3 4 moveto dup gsave").run.run
          ⟨[.name "b", .mark] ++ [.procedure "c", .mark, .mark], .silent (.ofList [])⟩ =
        (.ok (), ⟨gathered.2.stack ++ [.procedure "c", .mark, .mark], gathered.2.typesetter⟩) := by
  have succeeds : gathered.1 = .ok () := by
    decide +kernel
  have run : (Session.run "(a) exch ] 3 4 moveto dup gsave").run.run
      ⟨[.name "b", .mark], .silent (.ofList [])⟩ = (.ok (), gathered.2) := Prod.ext succeeds rfl
  exact ⟨succeeds, by decide +kernel, run_above run [.procedure "c", .mark, .mark]⟩

end DviMarkup.PostScript
