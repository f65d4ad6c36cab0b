/-
  Stages of a stream: each takes items one by one and hands on the items that
  it can settle.

  A stage sees no further ahead than the item it was given, so what it hands on
  depends only on the items so far, and how early it does so can be told.

  * `Stage` is a stage with its state; `Stage.run` is what it makes of a list
    and `Stage.trace` tells with each result how many items it took;
  * `Stage.filterMap` treats each item for itself;
  * `Stage.mergeRuns` replaces each longest run of adjacent candidates by what
    a function makes of the whole run;
  * `Stage.andThen` is one stage after another.
-/

namespace DviMarkup

/-- A stage from items of one type to items of another. -/
structure Stage (ι ο : Type) where
  /-- What the stage keeps from one item to the next. -/
  State : Type
  start : State
  /-- Takes an item: the state afterwards and the items handed on. -/
  push : State → ι → State × List ο
  /-- The items handed on when no more items come. -/
  finish : State → List ο

namespace Stage

variable {ι ο κ : Type}

/-- What is handed on from a state on. -/
def runFrom (s : Stage ι ο) : s.State → List ι → List ο
  | st, [] => s.finish st
  | st, x :: xs =>
    let (st', out) := s.push st x
    out ++ runFrom s st' xs

/-- What a stage makes of a list. -/
def run (s : Stage ι ο) (xs : List ι) : List ο :=
  s.runFrom s.start xs

/-- What is handed on from a state on, with the number of items taken by then,
    given that some were taken before. -/
def traceFrom (s : Stage ι ο) : s.State → (taken : Nat) → List ι → List (ο × Nat)
  | st, taken, [] => (s.finish st).map (·, taken)
  | st, taken, x :: xs =>
    let (st', out) := s.push st x
    out.map (·, taken + 1) ++ traceFrom s st' (taken + 1) xs

/-- What a stage makes of a list, each result with the number of items that the
    stage took before it handed the result on. -/
def trace (s : Stage ι ο) (xs : List ι) : List (ο × Nat) :=
  s.traceFrom s.start 0 xs

/-- Replaces or drops each item for itself. -/
def filterMap (f : ι → Option ο) : Stage ι ο where
  State := Unit
  start := ()
  push _ x := ((), (f x).toList)
  finish _ := []

/-- Replaces each item for itself. -/
def map (f : ι → ο) : Stage ι ο :=
  filterMap fun x => some (f x)

/-- What a run, given newest item first, is replaced by; no run leaves nothing. -/
def settle (reduce : List ι → List ι) : List ι → List ι
  | [] => []
  | run => reduce run.reverse

/-- Replaces each longest run of adjacent candidates by what `reduce` makes of
    it.  A run is settled by the first item after it. -/
def mergeRuns (candidate : ι → Bool) (reduce : List ι → List ι) : Stage ι ι where
  State := List ι
  start := []
  push run x := if candidate x then (x :: run, []) else ([], settle reduce run ++ [x])
  finish run := settle reduce run

/-- Gives items to a stage that is in some state: the state afterwards and the
    items handed on. -/
def feed (s : Stage ι ο) : s.State → List ι → s.State × List ο
  | st, [] => (st, [])
  | st, x :: xs =>
    let (st₁, out₁) := s.push st x
    let (st₂, out₂) := feed s st₁ xs
    (st₂, out₁ ++ out₂)

/-- One stage after another. -/
def andThen (s : Stage ι ο) (t : Stage ο κ) : Stage ι κ where
  State := s.State × t.State
  start := (s.start, t.start)
  push st x :=
    let (sst, out) := s.push st.1 x
    let (tst, out') := t.feed st.2 out
    ((sst, tst), out')
  finish st := t.runFrom st.2 (s.finish st.1)

end Stage

end DviMarkup
