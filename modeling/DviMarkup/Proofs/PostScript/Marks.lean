/-
  Marks on the stack.

  The end of an array takes what is above the last mark, so that no mark is an element of the
  array.  What is copied or exchanged stays as it is, and a token that fails has only taken
  operands.

  * `Object.Inside` says that an object is in an array, at any depth, and `Clean` that no mark
    is in an operand;
  * `marks` is the number of marks on a stack, `Step` is a token with the operands that it
    finds, and `Tallies` says that steps account for the marks;
  * `Does` says what an action does to the operands if it succeeds, and that it leaves the
    lowest of them if it fails;
  * `Turns` is what a token does to the operands (`does_token`);
  * `Turns.clean` and `Turns.tallies`: it keeps the stack clean and accounts for the marks;
  * `clean_runEach`: pieces of code keep the stack clean, also after one that fails;
  * `tallies_steps`: tokens that succeed account for the marks;
  * `marks_of_run`: both for pieces of code that start without operands.
-/
import DviMarkup.Number.Binary64
import DviMarkup.Proofs.PostScript.Literals

namespace DviMarkup.PostScript

open Session

variable {α β γ : Type}

/-! ## Marks in arrays -/

/-- Whether an object is an element of an array, or in one of its elements. -/
inductive Object.Inside (p : Object α) : Object α → Prop
  | element {elements} : p ∈ elements → Inside p (.array elements)
  | deeper {o elements} : Inside p o → o ∈ elements → Inside p (.array elements)

/-- Whether no mark is in an operand. -/
def Clean (stack : List (Object α)) : Prop :=
  ∀ o ∈ stack, ¬Object.mark.Inside o

namespace Clean

variable {a b : List (Object α)} {o : Object α}

theorem of_subset (h : Clean b) (sub : a ⊆ b) : Clean a :=
  fun o ho => h o (sub ho)

theorem cons (ho : ¬Object.mark.Inside o) (h : Clean a) : Clean (o :: a) :=
  List.forall_mem_cons.mpr ⟨ho, h⟩

theorem append (ha : Clean a) (hb : Clean b) : Clean (a ++ b) :=
  List.forall_mem_append.mpr ⟨ha, hb⟩

theorem numbers (ns : List α) : Clean (ns.map .number) := by
  intro o ho
  obtain ⟨n, -, rfl⟩ := List.mem_map.mp ho
  rintro ⟨⟩

/-- An array of operands that are clean and no marks has no mark in it. -/
theorem array (h : Clean a) (unmarked : .mark ∉ a) : ¬Object.mark.Inside (.array a) := by
  rintro (⟨element⟩ | ⟨deeper, ho⟩)
  · exact unmarked element
  · exact h _ ho deeper

end Clean

/-! ## The number of marks -/

/-- The number of marks on a stack. -/
def marks (stack : List (Object α)) : Nat :=
  stack.countP (·.isMark)

@[simp]
theorem marks_cons (o : Object α) (a : List (Object α)) :
    marks (o :: a) = marks a + if o.isMark then 1 else 0 :=
  List.countP_cons

@[simp]
theorem marks_append (a b : List (Object α)) : marks (a ++ b) = marks a + marks b :=
  List.countP_append

theorem marks_of_notMem {a : List (Object α)} (h : .mark ∉ a) : marks a = 0 := by
  refine List.countP_eq_zero.mpr fun o ho => ?_
  cases o with
  | mark => exact absurd ho h
  | _ => nofun

@[simp]
theorem marks_numbers (ns : List α) : marks (ns.map .number) = 0 := by
  refine marks_of_notMem fun h => ?_
  obtain ⟨n, -, ⟨⟩⟩ := List.mem_map.mp h

/-- A token that was executed, and the operands that it found. -/
structure Step (α : Type) where
  token : Token
  operands : List (Object α)

/-- Whether the token puts a mark. -/
def Step.begins (x : Step α) : Bool :=
  x.token = .arrayStart || x.token = .operator "mark"

/-- Whether the token copies a mark. -/
def Step.copies (x : Step α) : Bool :=
  x.token = .operator "dup" && x.operands.head?.any (·.isMark)

/-- Whether the token takes a mark away. -/
def Step.drops (x : Step α) : Bool :=
  x.token = .operator "pop" && x.operands.head?.any (·.isMark)

/-- Whether the token ends an array. -/
def Step.ends (x : Step α) : Bool :=
  x.token = .arrayEnd

/-- Whether what was executed accounts for the marks on the stack. -/
def Tallies (xs : List (Step α)) (before after : List (Object α)) : Prop :=
  marks after + xs.countP (·.drops) + xs.countP (·.ends) =
    marks before + xs.countP (·.begins) + xs.countP (·.copies)

theorem tallies_singleton {t : Token} {a b : List (Object α)} :
    Tallies [⟨t, a⟩] a b ↔
      marks b + (if t = .operator "pop" ∧ a.head?.any (·.isMark) then 1 else 0) +
          (if t = .arrayEnd then 1 else 0) =
        marks a + (if t = .arrayStart ∨ t = .operator "mark" then 1 else 0) +
          (if t = .operator "dup" ∧ a.head?.any (·.isMark) then 1 else 0) := by
  simp [Tallies, Step.begins, Step.copies, Step.drops, Step.ends]

theorem Tallies.cons {x : Step α} {xs : List (Step α)} {a b c : List (Object α)}
    (first : Tallies [x] a b) (later : Tallies xs b c) : Tallies (x :: xs) a c := by
  simp only [Tallies, List.countP_cons, List.countP_nil] at *
  omega

/-! ## Actions on operands -/

/-- Whether an action does to the operands what is told, or fails and leaves the lowest. -/
def Does (told : List (Object α) → List (Object α) → Prop) (action : Session.Action α β) : Prop :=
  ∀ s, match action.run.run s with
    | (.ok _, s') => told s.stack s'.stack
    | (.error _, s') => s'.stack <:+ s.stack

/-- Whether numbers have been taken. -/
def TakesNumbers (before after : List (Object α)) : Prop :=
  ∃ ns : List α, before = ns.map .number ++ after

/-- Whether numbers have been put. -/
def PutsNumbers (before after : List (Object α)) : Prop :=
  ∃ ns : List α, after = ns.map .number ++ before

namespace Does

variable {told : List (Object α) → List (Object α) → Prop} {action : Session.Action α β}

theorem turned (h : Does told action) {s s' : Session α} {b : β}
    (run : action.run.run s = (.ok b, s')) : told s.stack s'.stack := by
  have does := h s
  rwa [run] at does

theorem left (h : Does told action) {s s' : Session α} {failure : Failure}
    (run : action.run.run s = (.error failure, s')) : s'.stack <:+ s.stack := by
  have does := h s
  rwa [run] at does

theorem pure (b : β) : Does TakesNumbers (pure b : Session.Action α β) :=
  fun _ => ⟨[], rfl⟩

/-- Numbers are taken, and then something is done to the operands below. -/
theorem bind {whole : List (Object α) → List (Object α) → Prop} {next : β → Session.Action α γ}
    (h : Does TakesNumbers action) (hnext : ∀ b, Does told (next b))
    (join : ∀ (ns : List α) a b, told a b → whole (ns.map .number ++ a) b) :
    Does whole (action >>= next) := by
  intro s
  rw [run_bind]
  rcases first : action.run.run s with ⟨failure | b, t⟩
  · exact h.left first
  · obtain ⟨ns, taken⟩ := h.turned first
    dsimp only
    rcases later : (next b).run.run t with ⟨failure | c, s'⟩
    · exact ((hnext b).left later).trans ⟨_, taken.symm⟩
    · rw [taken]
      exact join ns _ _ ((hnext b).turned later)

end Does

theorem does_popNumber (operator : String) :
    Does TakesNumbers (popNumber operator : Session.Action α α) := by
  rintro ⟨_ | ⟨o, stack⟩, t⟩
  · exact List.suffix_rfl
  · cases o with
    | number n => exact ⟨[n], rfl⟩
    | _ => exact List.suffix_cons _ _

theorem does_popPair (operator : String) :
    Does TakesNumbers (popPair operator : Session.Action α (α × α)) := by
  have join (ns : List α) (a b : List (Object α)) (h : TakesNumbers a b) :
      TakesNumbers (ns.map .number ++ a) b := by
    obtain ⟨ms, rfl⟩ := h
    exact ⟨ns ++ ms, by rw [List.map_append, List.append_assoc]⟩
  exact (does_popNumber operator).bind
    (fun _ => (does_popNumber operator).bind (fun _ => .pure _) join) join

theorem does_push (n : α) : Does PutsNumbers (push (.number n)) :=
  fun _ => ⟨[n], rfl⟩

theorem does_onTypesetter (action : DviMarkup.Action α β) :
    Does PutsNumbers (onTypesetter action) := by
  intro s
  rw [run_onTypesetter]
  rcases (action.run.run s.typesetter).1 with failure | b
  · exact List.suffix_rfl
  · exact ⟨[], rfl⟩

/-! ## Steps -/

/-- The operators that put marks or have to do with operands of any kind. -/
def ofAnyKind : List String := ["mark", "pop", "exch", "dup"]

variable [Scalar α]

/-- What a token that succeeds does to the operands. -/
inductive Turns : Token → List (Object α) → List (Object α) → Prop
  | literal {t o below} : t.object? = some o → Turns t below (o :: below)
  | arrayStart {below} : Turns .arrayStart below (.mark :: below)
  | arrayEnd {above below} : .mark ∉ above →
      Turns .arrayEnd (above ++ .mark :: below) (.array above.reverse :: below)
  | mark {below} : Turns (.operator "mark") below (.mark :: below)
  | pop {o below} : Turns (.operator "pop") (o :: below) below
  | exch {x y below} : Turns (.operator "exch") (x :: y :: below) (y :: x :: below)
  | dup {o below} : Turns (.operator "dup") (o :: below) (o :: o :: below)
  /-- Any other operator takes numbers and puts numbers. -/
  | numbers {name below} (before after : List α) : name ∉ ofAnyKind →
      Turns (.operator name) (before.map .number ++ below) (after.map .number ++ below)

namespace Does

variable {action : Session.Action α β} {name : String}

theorem of_takes_puts (other : name ∉ ofAnyKind)
    {next : β → Session.Action α γ} (h : Does TakesNumbers action)
    (hnext : ∀ b, Does PutsNumbers (next b)) :
    Does (Turns (.operator name)) (action >>= next) := by
  refine h.bind hnext ?_
  rintro before a _ ⟨after, rfl⟩
  exact .numbers before after other

theorem of_puts (other : name ∉ ofAnyKind) (h : Does PutsNumbers action) :
    Does (Turns (.operator name)) action :=
  of_takes_puts other (.pure ()) fun _ => h

end Does

theorem does_closeArray : Does (Turns .arrayEnd) (closeArray : Session.Action α Unit) := by
  rintro ⟨stack, t⟩
  by_cases marked : .mark ∈ stack
  · obtain ⟨above, below, rfl, unmarked⟩ := List.eq_append_cons_of_mem marked
    rw [run_closeArray unmarked]
    exact .arrayEnd unmarked
  · rw [run_closeArray_of_notMem marked]

theorem does_operator (name : String) :
    Does (Turns (.operator name)) (operator name : Session.Action α Unit) := by
  unfold operator
  split
  · rintro ⟨_ | ⟨o, stack⟩, t⟩
    · exact List.suffix_rfl
    · exact .pop
  · rintro ⟨_ | ⟨x, _ | ⟨y, stack⟩⟩, t⟩
    · exact List.suffix_rfl
    · -- the only operand is lost
      exact List.suffix_cons _ _
    · exact .exch
  · rintro ⟨_ | ⟨o, stack⟩, t⟩
    · exact List.suffix_rfl
    · exact .dup
  · exact fun _ => .mark
  · -- arithmetic takes one or two numbers and puts one
    exact .of_takes_puts (by decide) (does_popNumber _) fun _ => does_push _
  · exact .of_takes_puts (by decide) (does_popPair _) fun _ => does_push _
  · exact .of_takes_puts (by decide) (does_popPair _) fun _ => does_push _
  · exact .of_takes_puts (by decide) (does_popPair _) fun _ => does_push _
  · exact .of_takes_puts (by decide) (does_popPair _) fun _ => does_push _
  · exact .of_puts (by decide) (does_onTypesetter _)
  · exact .of_puts (by decide) (does_onTypesetter _)
  · -- the place is put as two numbers
    exact .of_puts (by decide) fun _ => ⟨[_, _], rfl⟩
  · exact .of_takes_puts (by decide) (does_popPair _) fun _ => does_onTypesetter _
  · exact .of_takes_puts (by decide) (does_popPair _) fun _ => does_onTypesetter _
  · exact .of_takes_puts (by decide) (does_popPair _) fun _ => does_onTypesetter _
  · exact .of_takes_puts (by decide) (does_popNumber _) fun _ => does_onTypesetter _
  · exact fun _ => List.suffix_rfl

/-- A token turns the operands, or fails and leaves the lowest of them. -/
theorem does_token (t : Token) : Does (Turns t) (token t : Session.Action α Unit) := by
  cases t with
  | arrayStart => exact fun _ => .arrayStart
  | arrayEnd => exact does_closeArray
  | operator name => exact does_operator name
  | _ => exact fun _ => .literal rfl

theorem not_inside_of_object? {t : Token} {o : Object α} (h : t.object? = some o) :
    ¬Object.mark.Inside o := by
  cases t <;> cases h <;> rintro ⟨⟩

namespace Turns

variable {t : Token} {a b : List (Object α)}

theorem clean (h : Turns t a b) (ha : Clean a) : Clean b := by
  cases h with
  | literal object => exact .cons (not_inside_of_object? object) ha
  | arrayStart => exact .cons (by rintro ⟨⟩) ha
  | @arrayEnd above below unmarked =>
    obtain ⟨cleanAbove, cleanBelow⟩ := List.forall_mem_append.mp ha
    have cleanReverse : Clean above.reverse := .of_subset cleanAbove fun _ => List.mem_reverse.mp
    have unmarkedReverse : .mark ∉ above.reverse := fun h => unmarked (List.mem_reverse.mp h)
    exact .cons (cleanReverse.array unmarkedReverse) (List.forall_mem_cons.mp cleanBelow).2
  | mark => exact .cons (by rintro ⟨⟩) ha
  | pop => exact (List.forall_mem_cons.mp ha).2
  | exch =>
    obtain ⟨hx, hrest⟩ := List.forall_mem_cons.mp ha
    obtain ⟨hy, hbelow⟩ := List.forall_mem_cons.mp hrest
    exact .cons hy (.cons hx hbelow)
  | dup => exact .cons (List.forall_mem_cons.mp ha).1 ha
  | numbers before after other => exact .append (.numbers after) (List.forall_mem_append.mp ha).2

theorem tallies (h : Turns t a b) : Tallies [⟨t, a⟩] a b := by
  rw [tallies_singleton]
  cases h with
  | literal object => cases t <;> cases object <;> simp [Object.isMark]
  | arrayStart => simp [Object.isMark]
  | arrayEnd unmarked => simp [Object.isMark, marks_of_notMem unmarked]
  | mark => simp [Object.isMark]
  | pop => simp
  | exch => simp [Nat.add_right_comm]
  | dup => simp
  | numbers before after other =>
    obtain ⟨notMark, notPop, -, notDup⟩ : _ ∧ _ ∧ _ ∧ _ := by simpa [ofAnyKind] using other
    simp [notMark, notPop, notDup]

end Turns

/-! ## Runs -/

/-- A token keeps the stack clean, whether it fails or not. -/
theorem clean_token (t : Token) {s : Session α} (h : Clean s.stack) :
    Clean ((token t).run.run s).2.stack := by
  rcases step : (token t).run.run s with ⟨failure | ⟨⟩, s'⟩
  · exact h.of_subset ((does_token t).left step).subset
  · exact ((does_token t).turned step).clean h

theorem clean_runTokens (ts : List (Except Fault Token)) {s : Session α} (h : Clean s.stack) :
    Clean ((runTokens ts).run.run s).2.stack := by
  induction ts generalizing s with
  | nil => exact h
  | cons t ts ih =>
    cases t with
    | error fault => exact h
    | ok t =>
      have first := clean_token t h
      rw [runTokens, run_bind]
      rcases step : (token t).run.run s with ⟨failure | ⟨⟩, s'⟩ <;> rw [step] at first
      · exact first
      · exact ih first

/-- Runs pieces of code one after the other, also after one that fails. -/
def Session.runEach (codes : List String) (s : Session α) : Session α :=
  codes.foldl (fun s code => ((run code).run.run s).2) s

theorem clean_runEach (codes : List String) {s : Session α} (h : Clean s.stack) :
    Clean (runEach codes s).stack := by
  induction codes generalizing s with
  | nil => exact h
  | cons code codes ih => exact ih (clean_runTokens (tokens code) h)

/-- The tokens that succeed, up to the first that fails, each with the operands that it finds. -/
def steps : List (Except Fault Token) → Session α → List (Step α)
  | .ok t :: ts, s =>
    match (token t).run.run s with
    | (.ok (), s') => ⟨t, s.stack⟩ :: steps ts s'
    | (.error _, _) => []
  | _, _ => []

/-- Tokens that succeed account for the marks, and all of them have been executed. -/
theorem tallies_steps {ts : List (Except Fault Token)} {s s' : Session α}
    (run : (runTokens ts).run.run s = (.ok (), s')) :
    Tallies (steps ts s) s.stack s'.stack ∧ (steps ts s).map (fun x => .ok x.token) = ts := by
  induction ts generalizing s with
  | nil =>
    cases run
    exact ⟨rfl, rfl⟩
  | cons t ts ih =>
    cases t with
    | error fault => cases run
    | ok t =>
      obtain ⟨⟨⟩, s₁, first, later⟩ := run_bind_eq_ok.mp run
      obtain ⟨tallies, all⟩ := ih later
      rw [steps, first]
      dsimp only
      rw [List.map_cons, all]
      exact ⟨((does_token t).turned first).tallies.cons tallies, rfl⟩

/-- Pieces of code are run like their tokens. -/
theorem forM_run (codes : List String) :
    (codes.forM run : Session.Action α Unit) = runTokens (codes.flatMap tokens) := by
  induction codes with
  | nil => rfl
  | cons code codes ih =>
    rw [List.flatMap_cons, runTokens_append, ← ih]
    rfl

/-- If none fails, pieces of code are run up to the last. -/
theorem runEach_of_forM {codes : List String} {s s' : Session α}
    (run : (codes.forM Session.run).run.run s = (.ok (), s')) : runEach codes s = s' := by
  induction codes generalizing s with
  | nil =>
    cases run
    rfl
  | cons code codes ih =>
    obtain ⟨⟨⟩, s₁, first, later⟩ := run_bind_eq_ok.mp run
    refine Eq.trans ?_ (ih later)
    rw [runEach, List.foldl_cons, first]
    rfl

/-- **No mark gets into an array**, whatever pieces of code are run one after the other and
    whether some of them fail.  As long as none fails, **the marks on the stack are those that
    were put or copied, less those that were taken away or ended an array**, over all tokens of
    the pieces. -/
theorem marks_of_run (codes : List String) (t : Typesetter α) :
    (∀ o ∈ (runEach codes ⟨[], t⟩).stack, ¬Object.mark.Inside o) ∧
      ∀ s', (codes.forM Session.run).run.run ⟨[], t⟩ = (.ok (), s') →
        let xs := steps (codes.flatMap tokens) ⟨[], t⟩
        runEach codes ⟨[], t⟩ = s' ∧ xs.map (fun x => .ok x.token) = codes.flatMap tokens ∧
          (marks s'.stack : ℤ) = xs.countP (·.begins) + xs.countP (·.copies) -
            xs.countP (·.drops) - xs.countP (·.ends) := by
  refine ⟨clean_runEach codes (s := ⟨[], t⟩) nofun, fun s' run => ?_⟩
  have same := runEach_of_forM run
  rw [forM_run] at run
  obtain ⟨tallies, all⟩ := tallies_steps run
  have none : marks ([] : List (Object α)) = 0 := rfl
  rw [Tallies, none] at tallies
  exact ⟨same, all, by omega⟩

/-- Pieces that put marks, copy one, take one away and end arrays at others. -/
def markedCodes : List String :=
  ["[ mark dup 1 [ (a) /b ]", "exch pop ] dup 2 exch", "% none\n", "[ 3 ] pop mark pop"]

/-- What comes of them. -/
def marked : Except Failure Unit × Session Binary64 :=
  (markedCodes.forM Session.run).run.run ⟨[], .silent (.ofList [])⟩

/-- Two marks are left, below arrays.  Code that fails after it has exchanged one with a
    number does not bring it into an array either. -/
theorem marks_of_run_left :
    marked.1 = .ok () ∧ (marks marked.2.stack : ℤ) = 5 + 1 - 1 - 3 ∧
      ((Session.run "pop exch pop exch ] neg").run.run marked.2).1 =
        .error (.postScript (.notANumber "neg")) ∧
      ∀ o ∈ (runEach (markedCodes ++ ["pop exch pop exch ] neg", "dup ]"])
        ⟨[], .silent (.ofList [])⟩ : Session Binary64).stack, ¬Object.mark.Inside o := by
  have succeeds : marked.1 = .ok () := by
    decide +kernel
  have run : (markedCodes.forM Session.run).run.run ⟨[], .silent (.ofList [])⟩ =
      (.ok (), marked.2) := Prod.ext succeeds rfl
  obtain ⟨-, -, count⟩ := (marks_of_run markedCodes (.silent (.ofList []))).2 _ run
  refine ⟨succeeds, count.trans ?_, by decide +kernel, (marks_of_run _ _).1⟩
  decide +kernel

end DviMarkup.PostScript
