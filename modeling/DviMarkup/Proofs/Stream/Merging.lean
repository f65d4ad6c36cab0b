/-
  A run is replaced as soon as it is over, and once.

  What replaces a run may depend on the runs before it, if it is made by something that
  remembers them.  So it can be told how often and of what it is made.

  * `Stage.mergeRunsWith` is `Stage.mergeRuns` with a memory, `Stage.memoryAfter` what is
    remembered in the end;
  * `runsOf` are the longest runs of adjacent candidates in a list;
  * `replacements` is the list with each of them replaced, each result with the number of
    items after which it is known;
  * `Stage.traceFrom_mergeRunsWith` and `Stage.memoryFrom_eq`: what is handed on and remembered
    from any state on;
  * `Stage.trace_mergeRunsWith`: each run is replaced once, as a whole, and no later than it
    must be.
-/
import DviMarkup.Proofs.Stream.Runs

namespace DviMarkup

variable {ι σ : Type}

namespace Stage

/-! ## Merging with a memory -/

/-- What a run, given newest item first, is replaced by, with what is remembered afterwards;
    no run leaves nothing and is not remembered. -/
def settleWith (reduce : σ → List ι → σ × List ι) (memory : σ) : List ι → σ × List ι
  | [] => (memory, [])
  | run => reduce memory run.reverse

theorem settleWith_reverse {reduce : σ → List ι → σ × List ι} {memory : σ} {run : List ι} (h : run ≠ []) :
    settleWith reduce memory run.reverse = reduce memory run := by
  cases hrun : run.reverse with
  | nil => exact absurd (List.reverse_eq_nil_iff.1 hrun) h
  | cons x xs => rw [settleWith, ← hrun, List.reverse_reverse]; simp

/-- Replaces each longest run of adjacent candidates by what `reduce` makes of it and of what
    it remembers. -/
def mergeRunsWith (candidate : ι → Bool) (reduce : σ → List ι → σ × List ι) (memory : σ) :
    Stage ι ι where
  State := σ × List ι
  start := (memory, [])
  push st x :=
    if candidate x then ((st.1, x :: st.2), [])
    else
      let (memory, out) := settleWith reduce st.1 st.2
      ((memory, []), out ++ [x])
  finish st := (settleWith reduce st.1 st.2).2

/-- What is remembered after a list, from a state on. -/
def memoryFrom (candidate : ι → Bool) (reduce : σ → List ι → σ × List ι) (start : σ)
    (st : σ × List ι) (xs : List ι) : σ :=
  let (memory, run) := ((mergeRunsWith candidate reduce start).feed st xs).1
  (settleWith reduce memory run).1

/-- What is remembered after a list. -/
def memoryAfter (candidate : ι → Bool) (reduce : σ → List ι → σ × List ι) (memory : σ)
    (xs : List ι) : σ :=
  memoryFrom candidate reduce memory (memory, []) xs

end Stage

/-! ## Runs and what replaces them -/

section Replacements

variable (candidate : ι → Bool) (reduce : σ → List ι → σ × List ι)

/-- The longest runs of adjacent candidates, in order. -/
def runsOf : List ι → List (List ι)
  | [] => []
  | x :: xs =>
    if candidate x then (x :: xs.takeWhile candidate) :: runsOf (xs.dropWhile candidate)
    else runsOf xs
termination_by xs => xs.length
decreasing_by
  · exact Nat.lt_succ_of_le (List.dropWhile_sublist candidate).length_le
  · exact Nat.lt_succ_self xs.length

/-- The list with each longest run of adjacent candidates replaced by what `reduce` makes of
    it and of what it remembers.  With each result goes the number of items up to the one
    after which it is known, given that some came before: for an item that is no candidate
    the item itself; for what replaces a run the first item after the run, or the last of
    all if there is none. -/
def replacements : (memory : σ) → (before : Nat) → List ι → List (ι × Nat)
  | _, _, [] => []
  | memory, before, x :: xs =>
    if candidate x then
      let run := x :: xs.takeWhile candidate
      let rest := xs.dropWhile candidate
      let (memory', out) := reduce memory run
      out.map (·, before + run.length + min 1 rest.length) ++
        replacements memory' (before + run.length) rest
    else (x, before + 1) :: replacements memory (before + 1) xs
termination_by _ _ xs => xs.length
decreasing_by
  · exact Nat.lt_succ_of_le (List.dropWhile_sublist candidate).length_le
  · exact Nat.lt_succ_self xs.length

variable {candidate} {x : ι}

@[simp] theorem runsOf_nil : runsOf candidate [] = [] := by
  rw [runsOf]

theorem runsOf_cons (hx : candidate x = true) (xs : List ι) :
    runsOf candidate (x :: xs) = (x :: xs.takeWhile candidate) :: runsOf candidate (xs.dropWhile candidate) := by
  rw [runsOf, if_pos hx]

theorem runsOf_cons_of_not (hx : candidate x = false) (xs : List ι) :
    runsOf candidate (x :: xs) = runsOf candidate xs := by
  rw [runsOf, if_neg (by simp [hx])]

@[simp] theorem replacements_nil (memory : σ) (before : Nat) :
    replacements candidate reduce memory before [] = [] := by
  rw [replacements]

theorem replacements_cons (memory : σ) (before : Nat) (hx : candidate x = true) (xs : List ι) :
    replacements candidate reduce memory before (x :: xs) =
      (reduce memory (x :: xs.takeWhile candidate)).2.map
          (·, before + ((xs.takeWhile candidate).length + 1) + min 1 (xs.dropWhile candidate).length) ++
        replacements candidate reduce (reduce memory (x :: xs.takeWhile candidate)).1
          (before + ((xs.takeWhile candidate).length + 1)) (xs.dropWhile candidate) := by
  rw [replacements, if_pos hx]
  rfl

theorem replacements_cons_of_not (memory : σ) (before : Nat) (hx : candidate x = false) (xs : List ι) :
    replacements candidate reduce memory before (x :: xs) =
      (x, before + 1) :: replacements candidate reduce memory (before + 1) xs := by
  rw [replacements, if_neg (by simp [hx])]

/-- The candidates at the front are a run, if there are any. -/
theorem replacements_eq (memory : σ) (before : Nat) (xs : List ι) :
    replacements candidate reduce memory before xs =
      (Stage.settleWith reduce memory (xs.takeWhile candidate).reverse).2.map
          (·, before + (xs.takeWhile candidate).length + min 1 (xs.dropWhile candidate).length) ++
        replacements candidate reduce (Stage.settleWith reduce memory (xs.takeWhile candidate).reverse).1
          (before + (xs.takeWhile candidate).length) (xs.dropWhile candidate) := by
  cases xs with
  | nil => simp [Stage.settleWith]
  | cons x xs =>
    cases hx : candidate x with
    | true =>
      rw [List.takeWhile_cons_of_pos hx, List.dropWhile_cons_of_pos hx,
        Stage.settleWith_reverse (List.cons_ne_nil x _), replacements_cons reduce memory before hx]
      rfl
    | false => simp [hx, Stage.settleWith]

end Replacements

/-! ## What is handed on and what is remembered -/

namespace Stage

variable {candidate : ι → Bool} {reduce : σ → List ι → σ × List ι} {x : ι}

theorem traceFrom_mergeRunsWith_cons (start : σ) (hx : candidate x = true) (memory : σ)
    (run : List ι) (taken : Nat) (xs : List ι) :
    (mergeRunsWith candidate reduce start).traceFrom (memory, run) taken (x :: xs) =
      (mergeRunsWith candidate reduce start).traceFrom (memory, x :: run) (taken + 1) xs := by
  simp [traceFrom, mergeRunsWith, hx]

theorem traceFrom_mergeRunsWith_cons_of_not (start : σ) (hx : candidate x = false) (memory : σ)
    (run : List ι) (taken : Nat) (xs : List ι) :
    (mergeRunsWith candidate reduce start).traceFrom (memory, run) taken (x :: xs) =
      ((settleWith reduce memory run).2 ++ [x]).map (·, taken + 1) ++
        (mergeRunsWith candidate reduce start).traceFrom ((settleWith reduce memory run).1, [])
          (taken + 1) xs := by
  simp [traceFrom, mergeRunsWith, hx]

/-- A run that has begun goes on with the candidates at the front of the list, and the first
    item after them settles it. -/
theorem traceFrom_mergeRunsWith (start memory : σ) (run : List ι) (taken : Nat) (xs : List ι) :
    (mergeRunsWith candidate reduce start).traceFrom (memory, run) taken xs =
      (settleWith reduce memory ((xs.takeWhile candidate).reverse ++ run)).2.map
          (·, taken + (xs.takeWhile candidate).length + min 1 (xs.dropWhile candidate).length) ++
        replacements candidate reduce
          (settleWith reduce memory ((xs.takeWhile candidate).reverse ++ run)).1
          (taken + (xs.takeWhile candidate).length) (xs.dropWhile candidate) := by
  induction xs generalizing memory run taken with
  | nil => simp [traceFrom, mergeRunsWith]
  | cons x xs ih =>
    cases hx : candidate x with
    | true =>
      rw [traceFrom_mergeRunsWith_cons start hx, ih, List.takeWhile_cons_of_pos hx,
        List.dropWhile_cons_of_pos hx]
      simp [Nat.add_assoc, Nat.add_comm 1]
    | false =>
      have hnone : (x :: xs).takeWhile candidate = [] := List.takeWhile_cons_of_neg (by simp [hx])
      have hall : (x :: xs).dropWhile candidate = x :: xs := List.dropWhile_cons_of_neg (by simp [hx])
      rw [traceFrom_mergeRunsWith_cons_of_not start hx, ih, List.append_nil,
        ← replacements_eq reduce _ (taken + 1) xs, hnone, hall, replacements_cons_of_not reduce _ _ hx]
      simp

theorem memoryFrom_cons (start : σ) (hx : candidate x = true) (memory : σ) (run xs : List ι) :
    memoryFrom candidate reduce start (memory, run) (x :: xs) =
      memoryFrom candidate reduce start (memory, x :: run) xs := by
  simp [memoryFrom, feed, mergeRunsWith, hx]

theorem memoryFrom_cons_of_not (start : σ) (hx : candidate x = false) (memory : σ) (run xs : List ι) :
    memoryFrom candidate reduce start (memory, run) (x :: xs) =
      memoryFrom candidate reduce start ((settleWith reduce memory run).1, []) xs := by
  simp [memoryFrom, feed, mergeRunsWith, hx]

/-- What is remembered of a list is what is remembered of its runs. -/
theorem foldl_runsOf_eq (memory : σ) (xs : List ι) :
    (runsOf candidate xs).foldl (fun memory run => (reduce memory run).1) memory =
      (runsOf candidate (xs.dropWhile candidate)).foldl (fun memory run => (reduce memory run).1)
        (settleWith reduce memory (xs.takeWhile candidate).reverse).1 := by
  cases xs with
  | nil => simp [settleWith]
  | cons x xs =>
    cases hx : candidate x with
    | true =>
      rw [List.takeWhile_cons_of_pos hx, List.dropWhile_cons_of_pos hx,
        settleWith_reverse (List.cons_ne_nil x _), runsOf_cons hx, List.foldl_cons]
    | false => simp [hx, settleWith]

/-- A run that has begun is remembered with the candidates at the front of the list. -/
theorem memoryFrom_eq (start memory : σ) (run xs : List ι) :
    memoryFrom candidate reduce start (memory, run) xs =
      (runsOf candidate (xs.dropWhile candidate)).foldl (fun memory run => (reduce memory run).1)
        (settleWith reduce memory ((xs.takeWhile candidate).reverse ++ run)).1 := by
  induction xs generalizing memory run with
  | nil => simp [memoryFrom, feed]
  | cons x xs ih =>
    cases hx : candidate x with
    | true =>
      rw [memoryFrom_cons start hx, ih, List.takeWhile_cons_of_pos hx, List.dropWhile_cons_of_pos hx]
      simp
    | false =>
      rw [memoryFrom_cons_of_not start hx, ih, List.append_nil, ← foldl_runsOf_eq]
      simp [hx, runsOf_cons_of_not]

/-- Merging without a memory is merging with one that is not used. -/
theorem traceFrom_mergeRuns (plain : List ι → List ι) (start memory : σ) (run : List ι) (taken : Nat)
    (xs : List ι) :
    (mergeRuns candidate plain).traceFrom run taken xs =
      (mergeRunsWith candidate (fun memory run => (memory, plain run)) start).traceFrom (memory, run)
        taken xs := by
  have settled (run : List ι) :
      settleWith (fun memory run => (memory, plain run)) memory run = (memory, settle plain run) := by
    cases run <;> rfl
  induction xs generalizing run taken with
  | nil => simp [traceFrom, mergeRuns, mergeRunsWith, settled]
  | cons x xs ih =>
    cases hx : candidate x with
    | true =>
      rw [traceFrom_mergeRunsWith_cons start hx, ← ih]
      simp [traceFrom, mergeRuns, hx]
    | false =>
      rw [traceFrom_mergeRunsWith_cons_of_not start hx, settled, ← ih]
      simp [traceFrom, mergeRuns, hx]

/-- **Each run is replaced once, as a whole, and no later than it must be.**  Whatever `reduce`
    remembers, what is handed on and when is as `replacements` tells, and in the end it
    remembers that it was given each of the longest runs once and in order.  If it remembers
    nothing, this is `mergeRuns`, and the results are those of `replaceRuns`. -/
theorem trace_mergeRunsWith (candidate : ι → Bool) (reduce : σ → List ι → σ × List ι) (memory : σ)
    (xs : List ι) :
    (mergeRunsWith candidate reduce memory).trace xs = replacements candidate reduce memory 0 xs ∧
      memoryAfter candidate reduce memory xs =
        (runsOf candidate xs).foldl (fun memory run => (reduce memory run).1) memory ∧
      ∀ plain : List ι → List ι,
        (mergeRuns candidate plain).trace xs =
            replacements candidate (fun memory run => (memory, plain run)) memory 0 xs ∧
          (mergeRuns candidate plain).run xs = replaceRuns candidate plain xs := by
  have trace (reduce : σ → List ι → σ × List ι) :
      (mergeRunsWith candidate reduce memory).trace xs = replacements candidate reduce memory 0 xs := by
    have h : (mergeRunsWith candidate reduce memory).traceFrom (memory, []) 0 xs = _ :=
      traceFrom_mergeRunsWith memory memory [] 0 xs
    rw [List.append_nil, ← replacements_eq reduce memory 0 xs] at h
    exact h
  refine ⟨trace reduce, ?_, fun plain => ⟨?_, run_mergeRuns xs⟩⟩
  · rw [memoryAfter, memoryFrom_eq, List.append_nil, ← foldl_runsOf_eq]
  · exact (traceFrom_mergeRuns plain memory memory [] 0 xs).trans (trace _)

/-- The number of items in each run, with a run at the end of the list. -/
example :
    (mergeRuns (fun n => decide (n < 3)) fun run => [run.length]).trace [0, 1, 2, 3, 4, 1, 2] =
      [(3, 4), (3, 4), (4, 5), (2, 7)] := by
  decide

end Stage

end DviMarkup
