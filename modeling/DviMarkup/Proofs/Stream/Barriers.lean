/-
  Items at which a stage starts over.

  A stage that takes such an item settles all that it kept back, hands on one item in
  its place and is as it was at the start.  So what comes before the item and what comes
  after it have nothing to do with each other, and nothing waits for a later item.

  * `Stage.Barrier` holds of such an item and the item in its place;
  * `Stage.Barrier.andThen`: if there is one for each of two stages, there is one for
    both, one after the other;
  * `Stage.Barrier.trace_append_cons`: what is handed on for the items before a barrier
    and for itself is handed on once it was taken, and the rest is as if the stage had
    just started.
-/
import DviMarkup.Proofs.Stream.Runs

namespace DviMarkup.Stage

variable {ι ο κ : Type}

/-! ## Traces -/

/-- The results of a trace are what the stage makes of the list. -/
theorem map_fst_traceFrom (s : Stage ι ο) (st : s.State) (taken : Nat) (xs : List ι) :
    (s.traceFrom st taken xs).map Prod.fst = s.runFrom st xs := by
  induction xs generalizing st taken with
  | nil => simp [traceFrom, runFrom, Function.comp_def]
  | cons x xs ih => simp [traceFrom, runFrom, ih, Function.comp_def]

theorem map_fst_trace (s : Stage ι ο) (xs : List ι) : (s.trace xs).map Prod.fst = s.run xs :=
  s.map_fst_traceFrom s.start 0 xs

/-- Items that were taken before are counted everywhere. -/
theorem traceFrom_add (s : Stage ι ο) (st : s.State) (before taken : Nat) (xs : List ι) :
    s.traceFrom st (before + taken) xs =
      (s.traceFrom st taken xs).map fun result => (result.1, before + result.2) := by
  induction xs generalizing st taken with
  | nil => simp [traceFrom]
  | cons x xs ih => simp [traceFrom, ← ih, Function.comp_def, Nat.add_assoc]

/-! ## Feeding -/

theorem feed_append (s : Stage ι ο) (st : s.State) (xs ys : List ι) :
    s.feed st (xs ++ ys) =
      ((s.feed (s.feed st xs).1 ys).1, (s.feed st xs).2 ++ (s.feed (s.feed st xs).1 ys).2) := by
  induction xs generalizing st with
  | nil => rfl
  | cons x xs ih => simp only [List.cons_append, feed, ih, List.append_assoc]

/-- What is handed on in the end is what was handed on before and what was kept. -/
theorem runFrom_eq_feed (s : Stage ι ο) (st : s.State) (xs : List ι) :
    s.runFrom st xs = (s.feed st xs).2 ++ s.finish (s.feed st xs).1 := by
  have h := s.runFrom_append st xs []
  rwa [List.append_nil] at h

/-! ## Barriers -/

/-- Whether a stage that takes an item settles all that it kept, hands on one item for
    it and is then as at the start. -/
def Barrier (s : Stage ι ο) (x : ι) (y : ο) : Prop :=
  ∀ st, s.push st x = (s.start, s.finish st ++ [y])

namespace Barrier

theorem filterMap {f : ι → Option ο} {x : ι} {y : ο} (h : f x = some y) :
    (Stage.filterMap f).Barrier x y := by
  intro st
  simp [Stage.filterMap, h]

theorem mergeRuns {candidate : ι → Bool} (reduce : List ι → List ι) {x : ι}
    (h : candidate x = false) : (Stage.mergeRuns candidate reduce).Barrier x x := by
  intro run
  simp [Stage.mergeRuns, h]

/-- What the first stage settles and hands on makes the second one settle, too. -/
theorem andThen {s : Stage ι ο} {t : Stage ο κ} {x : ι} {y : ο} {z : κ} (hs : s.Barrier x y)
    (ht : t.Barrier y z) : (s.andThen t).Barrier x z := by
  rintro ⟨sst, tst⟩
  have last := ht (t.feed tst (s.finish sst)).1
  have fed : t.feed tst (s.finish sst ++ [y]) =
      (t.start, t.runFrom tst (s.finish sst) ++ [z]) := by
    rw [feed_append, runFrom_eq_feed]
    simp [feed, last]
  simp only [Stage.andThen, hs sst, fed]

variable {s : Stage ι ο} {x : ι} {y : ο}

theorem traceFrom_append_cons (h : s.Barrier x y) (st : s.State) (taken : Nat) (a b : List ι) :
    ∃ front, s.traceFrom st taken (a ++ x :: b) =
        front ++ s.traceFrom s.start (taken + a.length + 1) b ∧
      front.map Prod.fst = s.runFrom st a ++ [y] ∧
      ∀ result ∈ front, result.2 ≤ taken + a.length + 1 := by
  induction a generalizing st taken with
  | nil =>
    refine ⟨(s.finish st ++ [y]).map (·, taken + 1), ?_, ?_, ?_⟩
    · simp [traceFrom, h st]
    · simp [runFrom, Function.comp_def]
    · rintro _ hmem
      obtain ⟨_, -, rfl⟩ := List.mem_map.mp hmem
      exact le_rfl
  | cons c a ih =>
    obtain ⟨front, trace, results, bound⟩ := ih (s.push st c).1 (taken + 1)
    have count : taken + 1 + a.length = taken + (c :: a).length := by
      rw [List.length_cons]
      omega
    rw [count] at trace bound
    refine ⟨(s.push st c).2.map (·, taken + 1) ++ front, ?_, ?_, ?_⟩
    · simp only [List.cons_append, traceFrom, trace, List.append_assoc]
    · simp [results, runFrom, Function.comp_def]
    · intro result hmem
      rcases List.mem_append.mp hmem with hmem | hmem
      · obtain ⟨_, -, rfl⟩ := List.mem_map.mp hmem
        omega
      · exact bound result hmem

/-- **A barrier holds nothing up and lets nothing through**: what is handed on for the items
    before it and for itself is handed on by the time it was taken, and what comes after it
    is treated as from the start. -/
theorem trace_append_cons (h : s.Barrier x y) (a b : List ι) :
    ∃ front, s.trace (a ++ x :: b) =
        front ++ (s.trace b).map (fun result => (result.1, a.length + 1 + result.2)) ∧
      front.map Prod.fst = s.run a ++ [y] ∧ ∀ result ∈ front, result.2 ≤ a.length + 1 := by
  obtain ⟨front, trace, results, bound⟩ := h.traceFrom_append_cons s.start 0 a b
  rw [Nat.zero_add] at trace bound
  refine ⟨front, ?_, results, bound⟩
  exact trace.trans (congrArg (front ++ ·) (s.traceFrom_add s.start (a.length + 1) 0 b))

/-- What is made of the two sides of a barrier has nothing to do with each other. -/
theorem run_append_cons (h : s.Barrier x y) (a b : List ι) :
    s.run (a ++ x :: b) = s.run a ++ y :: s.run b := by
  obtain ⟨front, trace, results, -⟩ := h.trace_append_cons a b
  calc s.run (a ++ x :: b)
    _ = (front ++ (s.trace b).map fun result => (result.1, a.length + 1 + result.2)).map Prod.fst := by
        rw [← map_fst_trace, trace]
    _ = s.run a ++ [y] ++ s.run b := by
        rw [List.map_append, results, List.map_map, ← map_fst_trace s b]
        rfl
    _ = s.run a ++ y :: s.run b := by rw [List.append_assoc, List.singleton_append]

end Barrier

end DviMarkup.Stage
