/-
  Brackets: what is saved at the opening one comes back at the closing one.

  Saved values form a stack.  Between an opening bracket and its closing one there may be
  others, so what is in between changes the stack, but never what was on it at the opening
  bracket.  Hence it comes to the same whatever was saved before.

  * `Balanced` is about a list of events: each closing one has an opening one before it, and
    all are closed;
  * `Nests` holds of the actions that do to a stack what a list of events says, and have
    nothing else to do with it; such actions can be put one after another (`Nests.bind`);
  * `Nests.eq_of_balanced`: if the events are balanced, the stack is left as it is and does
    not matter;
  * `Brackets` are two actions that save a value and restore it, and `Brackets.nests_event`:
    they do what an opening and a closing event say;
  * `Brackets.run_bracketed`: what is done between both comes to the same as without them,
    and then the value comes back;
  * `nests_executeAll`: commands nest if each of them does.
-/
import Mathlib.Data.List.Infix
import DviMarkup.Proofs.Typesetter.Apart

namespace DviMarkup

/-! ## Balanced events -/

section Balanced

variable {τ : Type} [DecidableEq τ] {opening closing : τ}

/-- Whether every beginning of a list has at least as many opening as closing events, and
    the whole list as many. -/
def Balanced (opening closing : τ) (events : List τ) : Prop :=
  (∀ v, v <+: events → v.count closing ≤ v.count opening) ∧
    events.count closing = events.count opening

instance (opening closing : τ) (events : List τ) : Decidable (Balanced opening closing events) :=
  decidable_of_iff ((∀ v ∈ events.inits, v.count closing ≤ v.count opening) ∧
    events.count closing = events.count opening) (by simp only [List.mem_inits, Balanced])

namespace Balanced

theorem nil : Balanced opening closing [] := by
  refine ⟨fun v hv => ?_, rfl⟩
  rw [List.prefix_nil.mp hv]
  exact Nat.le_refl _

theorem append {a b : List τ} (ha : Balanced opening closing a)
    (hb : Balanced opening closing b) : Balanced opening closing (a ++ b) := by
  refine ⟨fun v hv => ?_, ?_⟩
  · rcases List.prefix_or_prefix_of_prefix hv (List.prefix_append a b) with h | ⟨w, rfl⟩
    · exact ha.1 v h
    · have first := ha.2
      have second := hb.1 w ((List.prefix_append_right_inj a).mp hv)
      rw [List.count_append, List.count_append]
      omega
  · rw [List.count_append, List.count_append, ha.2, hb.2]

/-- What is balanced stays so between an opening and a closing event. -/
theorem enclosed (ne : closing ≠ opening) {a : List τ} (ha : Balanced opening closing a) :
    Balanced opening closing (opening :: (a ++ [closing])) := by
  have counts := ha.2
  refine ⟨fun v hv => ?_, ?_⟩
  · rcases List.prefix_cons_iff.mp hv with rfl | ⟨w, rfl, hw⟩
    · exact Nat.le_refl _
    rcases List.prefix_concat_iff.mp hw with rfl | hw
    · simp [counts, ne, ne.symm]
    · have := ha.1 w hw
      simp [ne.symm]
      omega
  · simp [counts, ne, ne.symm]

end Balanced

end Balanced

/-! ## Actions that nest -/

section Nests

variable {σ δ β ε τ : Type} [DecidableEq τ]

/-- Whether an action does to a stack what events say: if enough is on the stack above some
    base, the base stays as it is, the number of values above it changes by the number of
    events, and it makes no difference if the base is another one. -/
def Nests (part : Part σ (List δ)) (opening closing : τ) (events : List τ)
    (action : ExceptT Failure (StateM σ) β) : Prop :=
  ∀ s inner base base', part.get s = inner ++ base →
    (∀ v, v <+: events → v.count closing ≤ inner.length + v.count opening) →
      ∀ b t, action.run.run s = (.ok b, t) →
        ∃ inner', part.get t = inner' ++ base ∧
          inner'.length + events.count closing = inner.length + events.count opening ∧
          action.run.run (part.put (inner ++ base') s) = (.ok b, part.put (inner' ++ base') t)

variable {part : Part σ (List δ)} {opening closing : τ} {events : List τ}

/-- What has nothing to do with the stack is done in between. -/
theorem Ignores.nests {action : ExceptT Failure (StateM σ) β} (h : Ignores part action)
    (opened : events.count opening = 0) (closed : events.count closing = 0) :
    Nests part opening closing events action := by
  intro s inner base base' hs _ b t run
  have same := h.get_eq s
  rw [run] at same
  refine ⟨inner, same.trans hs, by rw [opened, closed], ?_⟩
  rw [h s, run]

namespace Nests

theorem bind {action : ExceptT Failure (StateM σ) β}
    {next : β → ExceptT Failure (StateM σ) ε} {events' : List τ}
    (h : Nests part opening closing events action)
    (hnext : ∀ b, Nests part opening closing events' (next b)) :
    Nests part opening closing (events ++ events') (action >>= next) := by
  intro s inner base base' hs enough c u run
  obtain ⟨b, t, first, later⟩ := run_bind_eq_ok.mp run
  have before (v) (hv : v <+: events) : v.count closing ≤ inner.length + v.count opening :=
    enough v (hv.trans (List.prefix_append _ _))
  obtain ⟨inner', ht, count, run'⟩ := h s inner base base' hs before b t first
  -- what was opened before may be closed afterwards
  have after (v) (hv : v <+: events') : v.count closing ≤ inner'.length + v.count opening := by
    have both := enough (events ++ v) ((List.prefix_append_right_inj events).mpr hv)
    rw [List.count_append, List.count_append] at both
    omega
  obtain ⟨inner'', hu, count', run''⟩ := hnext b t inner' base base' ht after c u later
  refine ⟨inner'', hu, ?_, run_bind_eq_ok.mpr ⟨b, _, run', run''⟩⟩
  rw [List.count_append, List.count_append]
  omega

/-- **What is balanced leaves the stack as it is and does not depend on it.** -/
theorem eq_of_balanced {action : ExceptT Failure (StateM σ) β}
    (h : Nests part opening closing events action) (balanced : Balanced opening closing events)
    {s t : σ} {b : β} (run : action.run.run s = (.ok b, t)) (stack : List δ) :
    part.get t = part.get s ∧ action.run.run (part.put stack s) = (.ok b, part.put stack t) := by
  obtain ⟨inner, ht, count, run'⟩ := h s [] (part.get s) stack rfl
    (fun v hv => (balanced.1 v hv).trans (Nat.le_add_left _ _)) b t run
  have none : inner = [] := by
    rw [← List.length_eq_zero_iff]
    have := balanced.2
    rw [List.length_nil] at count
    omega
  subst none
  exact ⟨ht, run'⟩

end Nests

end Nests

/-! ## Brackets -/

/-- Two actions that save a value on a stack and restore it. -/
structure Brackets {σ δ : Type} (part : Part σ (List δ))
    (save restore : ExceptT Failure (StateM σ) Unit) where
  /-- The value that is saved. -/
  current : σ → δ
  /-- Gives the value that was saved. -/
  reinstate : δ → σ → σ
  current_put : ∀ stack s, current (part.put stack s) = current s
  run_save : ∀ s, save.run.run s = (.ok (), part.put (current s :: part.get s) s)
  run_restore : ∀ x stack s,
    restore.run.run (part.put (x :: stack) s) = (.ok (), part.put stack (reinstate x s))

namespace Brackets

variable {σ δ τ : Type} [DecidableEq τ] {part : Part σ (List δ)}
  {save restore : ExceptT Failure (StateM σ) Unit} {opening closing : τ} {events : List τ}

theorem nests_save (brackets : Brackets part save restore) (ne : closing ≠ opening) :
    Nests part opening closing [opening] save := by
  intro s inner base base' hs _ b t run
  rw [brackets.run_save, hs] at run
  cases run
  refine ⟨brackets.current s :: inner, part.get_put _ _, ?_, ?_⟩
  · rw [List.count_singleton_self, List.count_singleton, if_neg (by simpa using ne.symm),
      List.length_cons, Nat.add_zero]
  · rw [brackets.run_save, brackets.current_put, part.get_put, part.put_put, part.put_put]
    rfl

theorem nests_restore (brackets : Brackets part save restore) (ne : closing ≠ opening) :
    Nests part opening closing [closing] restore := by
  intro s inner base base' hs enough b t run
  have some := enough [closing] (List.prefix_refl _)
  rw [List.count_singleton_self, List.count_singleton, if_neg (by simpa using ne)] at some
  cases inner with
  | nil => cases some
  | cons x inner =>
    have hput : s = part.put (x :: (inner ++ base)) s := by
      rw [← List.cons_append, ← hs, part.put_get]
    rw [hput, brackets.run_restore] at run
    cases run
    refine ⟨inner, part.get_put _ _, ?_, ?_⟩
    · rw [List.count_singleton_self, List.count_singleton, if_neg (by simpa using ne),
        List.length_cons, Nat.add_zero]
    · rw [List.cons_append, brackets.run_restore, part.put_put]

/-- If one event stands for each of both actions and the others for actions that have nothing
    to do with the stack, every action does what its event says. -/
theorem nests_event (brackets : Brackets part save restore) (ne : closing ≠ opening) {event : τ}
    {action : ExceptT Failure (StateM σ) Unit} (opens : event = opening → action = save)
    (closes : event = closing → action = restore)
    (ignores : event ≠ opening → event ≠ closing → Ignores part action) :
    Nests part opening closing [event] action := by
  by_cases opened : event = opening
  · rw [opens opened, opened]
    exact brackets.nests_save ne
  by_cases closed : event = closing
  · rw [closes closed, closed]
    exact brackets.nests_restore ne
  refine (ignores opened closed).nests ?_ ?_
  · exact List.count_eq_zero_of_not_mem fun h => opened (List.mem_singleton.mp h).symm
  · exact List.count_eq_zero_of_not_mem fun h => closed (List.mem_singleton.mp h).symm

/-- After an opening bracket, what is balanced comes to the same as without it, with one more
    value on the stack. -/
theorem run_opened (brackets : Brackets part save restore)
    {action : ExceptT Failure (StateM σ) Unit} (h : Nests part opening closing events action)
    (balanced : Balanced opening closing events) (s s' : σ) :
    (save >>= fun _ => action).run.run s = (.ok (), s') ↔
      ∃ t, action.run.run s = (.ok (), t) ∧
        s' = part.put (brackets.current s :: part.get s) t := by
  rw [run_bind, brackets.run_save]
  constructor
  · intro run
    obtain ⟨hs', run'⟩ := h.eq_of_balanced balanced run (part.get s)
    rw [part.put_put, part.put_get] at run'
    rw [part.get_put] at hs'
    refine ⟨_, run', ?_⟩
    rw [part.put_put, ← hs', part.put_get]
  · rintro ⟨t, run, rfl⟩
    exact (h.eq_of_balanced balanced run _).2

/-- **What is done between brackets comes to the same as without them, and then the value
    comes back** that was saved. -/
theorem run_bracketed (brackets : Brackets part save restore)
    {action : ExceptT Failure (StateM σ) Unit} (h : Nests part opening closing events action)
    (balanced : Balanced opening closing events) (s s' : σ) :
    (save >>= fun _ => action >>= fun _ => restore).run.run s = (.ok (), s') ↔
      ∃ t, action.run.run s = (.ok (), t) ∧
        s' = part.put (part.get s) (brackets.reinstate (brackets.current s) t) := by
  have opened := brackets.run_opened h balanced s
  rw [← bind_assoc, run_bind]
  constructor
  · intro run
    rcases inside : (save >>= fun _ => action).run.run s with ⟨failure | b, s₁⟩
    · rw [inside] at run
      cases run
    · obtain ⟨t, run', rfl⟩ := (opened s₁).mp inside
      rw [inside] at run
      dsimp only at run
      rw [brackets.run_restore] at run
      cases run
      exact ⟨t, run', rfl⟩
  · rintro ⟨t, run, rfl⟩
    rw [(opened _).mpr ⟨t, run, rfl⟩]
    exact brackets.run_restore _ _ _

end Brackets

/-! ## Commands in order -/

/-- Commands between two others. -/
theorem executeAll_enclosed {α : Type} [Scalar α] [Escaping] (opening closing : Command)
    (commands : List Command) :
    (executeAll ((opening :: commands ++ [closing]).map .ok) : Action α Unit) =
      opening.execute >>= fun _ => executeAll (commands.map .ok) >>= fun _ => closing.execute := by
  have last : (executeAll [.ok closing] : Action α Unit) = closing.execute := bind_pure_unit
  rw [List.cons_append, List.map_cons, executeAll, List.map_append, executeAll_append,
    List.map_singleton, last]

/-- Commands do to a stack what their events say, one after the other. -/
theorem nests_executeAll {α δ τ : Type} [Scalar α] [Escaping] [DecidableEq τ]
    {part : Part (Typesetter α) (List δ)} {opening closing : τ} {events : Command → List τ}
    {commands : List Command}
    (h : ∀ command ∈ commands, Nests part opening closing (events command)
      (command.execute : Action α Unit)) :
    Nests part opening closing (commands.flatMap events)
      (executeAll (commands.map .ok) : Action α Unit) := by
  induction commands with
  | nil => exact Ignores.nests (.pure ()) rfl rfl
  | cons command commands ih =>
    rw [List.flatMap_cons]
    refine Nests.bind (h command List.mem_cons_self) fun _ => ih fun c hc => ?_
    exact h c (List.mem_cons_of_mem _ hc)

end DviMarkup
