/-
  What stages make of lists.

  * `Stage.run_filterMap` and `Stage.run_andThen`: stages that treat each item for
    itself are functions on its items, and stages one after the other are functions
    one after the other;
  * `replaceRuns` is the list in which each longest run of adjacent candidates is
    replaced, and `Stage.run_mergeRuns`: this is what `Stage.mergeRuns` makes;
  * `map_replaceRuns` and `span_replaceRuns`: replacing runs does not meddle
    with what happens to the other items;
  * `replaceRuns_comm`: so runs of two kinds are replaced in either order;
  * `replaceRuns_append_congr`: nor does what stands inside of a run, if the run as a
    whole is replaced by the same;
  * `Stage.Yields`: what all items that a stage hands on have in common.
-/
import DviMarkup.Stream.Stage
import Mathlib.Data.List.TakeWhile

namespace DviMarkup

variable {ι ο κ : Type}

namespace Stage

/-! ## Each item for itself -/

theorem run_filterMap (f : ι → Option ο) (xs : List ι) :
    (filterMap f).run xs = xs.filterMap f := by
  induction xs with
  | nil => rfl
  | cons x xs ih =>
    have step : (filterMap f).run (x :: xs) = (f x).toList ++ (filterMap f).run xs := rfl
    rw [step, ih, List.filterMap_cons]
    cases f x with
    | none => rfl
    | some y => rfl

theorem run_map (f : ι → ο) (xs : List ι) : (map f).run xs = xs.map f := by
  rw [map, run_filterMap, List.filterMap_eq_map']

/-! ## One after another -/

/-- Items come to the same in one go and in two. -/
theorem runFrom_append (s : Stage ι ο) (st : s.State) (xs ys : List ι) :
    s.runFrom st (xs ++ ys) = (s.feed st xs).2 ++ s.runFrom (s.feed st xs).1 ys := by
  induction xs generalizing st with
  | nil => rfl
  | cons x xs ih => simp only [List.cons_append, runFrom, feed, ih, List.append_assoc]

theorem runFrom_andThen (s : Stage ι ο) (t : Stage ο κ) (st : s.State × t.State) (xs : List ι) :
    (s.andThen t).runFrom st xs = t.runFrom st.2 (s.runFrom st.1 xs) := by
  induction xs generalizing st with
  | nil => rfl
  | cons x xs ih =>
    simp only [runFrom]
    rw [runFrom_append]
    exact congrArg _ (ih _)

/-- Stages one after the other make of a list what the second makes of what the
    first makes of it. -/
theorem run_andThen (s : Stage ι ο) (t : Stage ο κ) (xs : List ι) :
    (s.andThen t).run xs = t.run (s.run xs) :=
  runFrom_andThen s t _ xs

end Stage

/-! ## Runs -/

section Runs

variable (candidate : ι → Bool) (reduce : List ι → List ι)

/-- The list with each longest run of adjacent candidates replaced by what `reduce`
    makes of it. -/
def replaceRuns : List ι → List ι
  | [] => []
  | x :: xs =>
    if candidate x then
      reduce (x :: xs.takeWhile candidate) ++ replaceRuns (xs.dropWhile candidate)
    else x :: replaceRuns xs
termination_by xs => xs.length
decreasing_by
  · exact Nat.lt_succ_of_le (List.dropWhile_sublist candidate).length_le
  · exact Nat.lt_succ_self xs.length

@[simp] theorem replaceRuns_nil : replaceRuns candidate reduce [] = [] := by
  rw [replaceRuns]

variable {candidate} {x : ι}

theorem replaceRuns_cons (hx : candidate x = true) (xs : List ι) :
    replaceRuns candidate reduce (x :: xs) =
      reduce (x :: xs.takeWhile candidate) ++
        replaceRuns candidate reduce (xs.dropWhile candidate) := by
  rw [replaceRuns, if_pos hx]

theorem replaceRuns_cons_of_not (hx : candidate x = false) (xs : List ι) :
    replaceRuns candidate reduce (x :: xs) = x :: replaceRuns candidate reduce xs := by
  rw [replaceRuns, if_neg (by simp [hx])]

variable {reduce}

/-- The candidates at the front are a run, if there are any. -/
theorem settle_append_replaceRuns (xs : List ι) :
    Stage.settle reduce (xs.takeWhile candidate).reverse ++
      replaceRuns candidate reduce (xs.dropWhile candidate) =
        replaceRuns candidate reduce xs := by
  cases xs with
  | nil => simp [Stage.settle]
  | cons x xs =>
    cases hx : candidate x with
    | true => simp [hx, replaceRuns_cons, Stage.settle]
    | false => simp [hx, Stage.settle]

/-- A run that has begun goes on with the candidates at the front of the list. -/
theorem Stage.runFrom_mergeRuns (run xs : List ι) :
    (mergeRuns candidate reduce).runFrom run xs =
      settle reduce ((xs.takeWhile candidate).reverse ++ run) ++
        replaceRuns candidate reduce (xs.dropWhile candidate) := by
  induction xs generalizing run with
  | nil => simp [runFrom, mergeRuns]
  | cons x xs ih =>
    cases hx : candidate x with
    | true =>
      have step : (mergeRuns candidate reduce).runFrom run (x :: xs) =
          (mergeRuns candidate reduce).runFrom (x :: run) xs := by
        simp [runFrom, mergeRuns, hx]
      rw [step, ih]
      simp [hx]
    | false =>
      have step : (mergeRuns candidate reduce).runFrom run (x :: xs) =
          settle reduce run ++ x :: (mergeRuns candidate reduce).runFrom [] xs := by
        simp [runFrom, mergeRuns, hx]
      rw [step, ih, List.append_nil, settle_append_replaceRuns]
      simp [hx, replaceRuns_cons_of_not]

/-- **Merging replaces each longest run**, whatever the rest of the list is. -/
theorem Stage.run_mergeRuns (xs : List ι) :
    (mergeRuns candidate reduce).run xs = replaceRuns candidate reduce xs := by
  have h : (mergeRuns candidate reduce).runFrom [] xs = _ := runFrom_mergeRuns [] xs
  rwa [List.append_nil, settle_append_replaceRuns] at h

/-- What stands inside of a run may be exchanged for what makes no difference to the whole
    run. -/
theorem replaceRuns_append_congr {xs ys : List ι} (hxs : ∀ x ∈ xs, candidate x = true)
    (hys : ∀ y ∈ ys, candidate y = true) (hxs' : xs ≠ []) (hys' : ys ≠ [])
    (same : ∀ a b, reduce (a ++ xs ++ b) = reduce (a ++ ys ++ b)) (a b : List ι) :
    replaceRuns candidate reduce (a ++ xs ++ b) = replaceRuns candidate reduce (a ++ ys ++ b) := by
  -- what has become of `a` is a run that goes on with `zs`
  have going {zs : List ι} (hzs : ∀ z ∈ zs, candidate z = true) (hzs' : zs ≠ []) (run : List ι) :
      (Stage.mergeRuns candidate reduce).runFrom run (zs ++ b) =
        reduce (run.reverse ++ zs ++ b.takeWhile candidate) ++
          replaceRuns candidate reduce (b.dropWhile candidate) := by
    have settled {run : List ι} (h : run ≠ []) : Stage.settle reduce run = reduce run.reverse := by
      cases run with
      | nil => exact absurd rfl h
      | cons x run => rfl
    rw [Stage.runFrom_mergeRuns, List.takeWhile_append_of_pos hzs, List.dropWhile_append_of_pos hzs,
      settled (by simp [hzs'])]
    simp
  obtain ⟨front, run, whole⟩ : ∃ front run : List ι, ∀ zs,
      replaceRuns candidate reduce (a ++ zs ++ b) =
        front ++ (Stage.mergeRuns candidate reduce).runFrom run (zs ++ b) := by
    let fed := (Stage.mergeRuns candidate reduce).feed (Stage.mergeRuns candidate reduce).start a
    refine ⟨fed.2, fed.1, fun zs => ?_⟩
    rw [← Stage.run_mergeRuns, List.append_assoc]
    exact Stage.runFrom_append _ _ a (zs ++ b)
  rw [whole, whole, going hxs hxs', going hys hys', same]

/-- Items may be changed for themselves before or after runs are replaced, if
    candidates and what replaces them stay as they are and no other item becomes
    a candidate. -/
theorem map_replaceRuns {f : ι → ι} (fixed : ∀ x, candidate x = true → f x = x)
    (same : ∀ x, candidate (f x) = candidate x)
    (settled : ∀ run, (reduce run).map f = reduce run) (xs : List ι) :
    (replaceRuns candidate reduce xs).map f = replaceRuns candidate reduce (xs.map f) := by
  have front (ys : List ι) :
      (ys.map f).takeWhile candidate = ys.takeWhile candidate ∧
        (ys.map f).dropWhile candidate = (ys.dropWhile candidate).map f := by
    rw [List.takeWhile_map, List.dropWhile_map, show candidate ∘ f = candidate from funext same]
    refine ⟨?_, rfl⟩
    conv => rhs; rw [← List.map_id (ys.takeWhile candidate)]
    exact List.map_congr_left fun y hy => fixed y (List.mem_takeWhile_imp hy)
  induction xs using replaceRuns.induct candidate with
  | case1 => simp
  | case2 x xs hx ih =>
    rw [replaceRuns_cons reduce hx, List.map_append, settled, ih, List.map_cons, fixed x hx,
      replaceRuns_cons reduce hx, (front xs).1, (front xs).2]
  | case3 x xs hx ih =>
    have hx : candidate x = false := by simpa using hx
    rw [replaceRuns_cons_of_not reduce hx, List.map_cons, ih, List.map_cons,
      replaceRuns_cons_of_not reduce ((same x).trans hx)]

/-- Replacing runs leaves the other items at the front as they are, if no run is
    replaced by nothing or by more of them. -/
theorem span_replaceRuns {other : ι → Bool} (apart : ∀ x, other x = true → candidate x = false)
    (settled : ∀ x run, ∃ y ys, reduce (x :: run) = y :: ys ∧ other y = false) (xs : List ι) :
    (replaceRuns candidate reduce xs).takeWhile other = xs.takeWhile other ∧
      (replaceRuns candidate reduce xs).dropWhile other =
        replaceRuns candidate reduce (xs.dropWhile other) := by
  induction xs with
  | nil => simp
  | cons x xs ih =>
    cases hx : candidate x with
    | true =>
      have hother : other x = false := by
        cases h : other x with
        | false => rfl
        | true => simp [apart x h] at hx
      obtain ⟨y, ys, hreduce, hy⟩ := settled x (xs.takeWhile candidate)
      simp [replaceRuns_cons, hx, hreduce, hy, hother]
    | false =>
      rw [replaceRuns_cons_of_not reduce hx]
      cases hother : other x with
      | true => simp [hother, ih.1, ih.2]
      | false => simp [hother, replaceRuns_cons_of_not, hx]

/-- A run at the front is replaced before or after runs of other candidates. -/
theorem replaceRuns_replaceRuns_cons {other : ι → Bool} {reduce' : List ι → List ι}
    (apart : ∀ x, candidate x = true → other x = false)
    (settled : ∀ x run, ∃ y, reduce (x :: run) = [y] ∧ candidate y = true)
    (settled' : ∀ x run, ∃ y, reduce' (x :: run) = [y] ∧ other y = true)
    (hx : candidate x = true) (xs : List ι) :
    replaceRuns candidate reduce (replaceRuns other reduce' (x :: xs)) =
        reduce (x :: xs.takeWhile candidate) ++
          replaceRuns candidate reduce (replaceRuns other reduce' (xs.dropWhile candidate)) ∧
      replaceRuns other reduce' (replaceRuns candidate reduce (x :: xs)) =
        reduce (x :: xs.takeWhile candidate) ++
          replaceRuns other reduce' (replaceRuns candidate reduce (xs.dropWhile candidate)) := by
  constructor
  · have kept : ∀ x run, ∃ y ys, reduce' (x :: run) = y :: ys ∧ candidate y = false := by
      intro x run
      obtain ⟨y, hy, hother⟩ := settled' x run
      refine ⟨y, [], hy, ?_⟩
      cases hcandidate : candidate y with
      | false => rfl
      | true => rw [apart y hcandidate] at hother; cases hother
    obtain ⟨htake, hdrop⟩ := span_replaceRuns apart kept xs
    rw [replaceRuns_cons_of_not reduce' (apart x hx), replaceRuns_cons reduce hx, htake, hdrop]
  · obtain ⟨y, hy, hcandidate⟩ := settled x (xs.takeWhile candidate)
    rw [replaceRuns_cons reduce hx, hy, List.singleton_append,
      replaceRuns_cons_of_not reduce' (apart y hcandidate)]
    rfl

/-- **Runs of two kinds are replaced in either order**, if each is replaced by one item of
    its kind. -/
theorem replaceRuns_comm {other : ι → Bool} {reduce' : List ι → List ι}
    (apart : ∀ x, candidate x = true → other x = false)
    (settled : ∀ x run, ∃ y, reduce (x :: run) = [y] ∧ candidate y = true)
    (settled' : ∀ x run, ∃ y, reduce' (x :: run) = [y] ∧ other y = true) (xs : List ι) :
    replaceRuns candidate reduce (replaceRuns other reduce' xs) =
      replaceRuns other reduce' (replaceRuns candidate reduce xs) := by
  have apart' : ∀ x, other x = true → candidate x = false := by
    intro x hother
    cases hcandidate : candidate x with
    | false => rfl
    | true => rw [apart x hcandidate] at hother; cases hother
  -- a run at the front is settled at once, and what is left is shorter by the whole run
  induction hn : xs.length using Nat.strongRecOn generalizing xs with
  | ind n ih =>
    cases xs with
    | nil => simp
    | cons x xs =>
      rw [List.length_cons] at hn
      have shorter (front : ι → Bool) : (xs.dropWhile front).length < n := by
        have := (List.dropWhile_sublist front (l := xs)).length_le
        omega
      cases hcandidate : candidate x with
      | true =>
        obtain ⟨inner, outer⟩ := replaceRuns_replaceRuns_cons apart settled settled' hcandidate xs
        rw [inner, outer, ih _ (shorter candidate) _ rfl]
      | false =>
        cases hother : other x with
        | true =>
          obtain ⟨inner, outer⟩ := replaceRuns_replaceRuns_cons apart' settled' settled hother xs
          rw [inner, outer, ih _ (shorter other) _ rfl]
        | false =>
          rw [replaceRuns_cons_of_not reduce' hother, replaceRuns_cons_of_not reduce hcandidate,
            replaceRuns_cons_of_not reduce hcandidate, replaceRuns_cons_of_not reduce' hother,
            ih xs.length (by omega) xs rfl]

/-- What replaces runs, and the items that are left, have a property if all of them
    do. -/
theorem forall_mem_replaceRuns {P : ι → Prop} (settled : ∀ run, ∀ y ∈ reduce run, P y)
    {xs : List ι} (h : ∀ x ∈ xs, P x) : ∀ y ∈ replaceRuns candidate reduce xs, P y := by
  induction xs using replaceRuns.induct candidate with
  | case1 => simp
  | case2 x xs hx ih =>
    intro y hy
    rw [replaceRuns_cons reduce hx, List.mem_append] at hy
    rcases hy with hy | hy
    · exact settled _ y hy
    · refine ih (fun x' hx' => ?_) y hy
      exact h x' (List.mem_cons_of_mem _ ((List.dropWhile_sublist candidate).mem hx'))
  | case3 x xs hx ih =>
    intro y hy
    rw [replaceRuns_cons_of_not reduce (by simpa using hx), List.mem_cons] at hy
    rcases hy with rfl | hy
    · exact h y List.mem_cons_self
    · exact ih (fun x' hx' => h x' (List.mem_cons_of_mem _ hx')) y hy

end Runs

/-! ## Properties of items -/

/-- Whether a stage hands on only items with a property if it is given only items with
    a property. -/
def Stage.Yields (s : Stage ι ο) (P : ι → Prop) (Q : ο → Prop) : Prop :=
  ∀ xs, (∀ x ∈ xs, P x) → ∀ y ∈ s.run xs, Q y

namespace Stage.Yields

variable {P : ι → Prop} {Q : ο → Prop} {R : κ → Prop}

theorem filterMap {f : ι → Option ο} (h : ∀ x y, P x → f x = some y → Q y) :
    (Stage.filterMap f).Yields P Q := by
  intro xs hxs y hy
  rw [run_filterMap] at hy
  obtain ⟨x, hx, hxy⟩ := List.mem_filterMap.mp hy
  exact h x y (hxs x hx) hxy

theorem mergeRuns {candidate : ι → Bool} {reduce : List ι → List ι}
    (h : ∀ run, ∀ y ∈ reduce run, P y) : (Stage.mergeRuns candidate reduce).Yields P P := by
  intro xs hxs
  rw [run_mergeRuns]
  exact forall_mem_replaceRuns h hxs

theorem andThen {s : Stage ι ο} {t : Stage ο κ} (hs : s.Yields P Q) (ht : t.Yields Q R) :
    (s.andThen t).Yields P R := by
  intro xs hxs
  rw [run_andThen]
  exact ht _ (hs xs hxs)

end Stage.Yields

end DviMarkup
