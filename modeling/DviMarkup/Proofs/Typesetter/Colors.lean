/-
  Colours.

  The current colour is kept apart from the colours to come back to.  Both together are a
  stack which only two commands have to do with, and which is never empty.

  * `Typesetter.palette?` is this stack, the current colour first;
  * `Command.repaint` is what a command makes of it, and `palette_of_execute`: a command that
    succeeds does so;
  * `palette_executeAll` and `exists_executeAll_repaint`: so do commands in order, and those
    that change colours succeed if it can be done;
  * `last_unpopped`: the current colour is that of the last change that was not taken back;
  * `colors_of_run`: so it is after whatever commands, and a change cannot be taken back if
    there is none that was not.
-/
import DviMarkup.Number.Binary64
import DviMarkup.Proofs.Typesetter.Brackets
import DviMarkup.Proofs.Typesetter.Footprint

namespace DviMarkup

open Typesetter

variable {α : Type}

/-! ## Colours of commands -/

/-- The current colour and the colours to come back to, if markup is kept. -/
def Typesetter.palette? (t : Typesetter α) : Option (List String) :=
  markup? (fun m => m.color :: m.colors) t

/-- What a command can do to colours. -/
inductive ColorChange where
  /-- Another colour becomes the current one. -/
  | push
  /-- The last change is taken back. -/
  | pop
deriving DecidableEq

def Command.colorChange? : Command → Option ColorChange
  | .pushColor _ => some .push
  | .popColor => some .pop
  | _ => none

/-- What commands do to colours, one after the other. -/
def colorChanges (commands : List Command) : List ColorChange :=
  commands.filterMap Command.colorChange?

/-- The colours after a command, the current one first; there must be one to come back to. -/
def Command.repaint (colors : List String) : Command → Option (List String)
  | .pushColor color => some (color :: colors)
  | .popColor => if colors.tail.isEmpty then none else some colors.tail
  | _ => some colors

/-- The colours after commands in order. -/
def repaintAll (colors : List String) (commands : List Command) : Option (List String) :=
  commands.foldlM Command.repaint colors

theorem repaintAll_cons (colors : List String) (command : Command) (commands : List Command) :
    repaintAll colors (command :: commands) =
      (command.repaint colors).bind fun colors => repaintAll colors commands := rfl

theorem repaintAll_append (colors : List String) (a b : List Command) :
    repaintAll colors (a ++ b) = (repaintAll colors a).bind fun colors => repaintAll colors b :=
  List.foldlM_append

theorem Command.repaint_other {command : Command} (h : command.colorChange? = none)
    (colors : List String) : command.repaint colors = some colors := by
  cases command <;> first | rfl | cases h

/-- Commands without a change of colours may be left out. -/
theorem repaintAll_filter (colors : List String) (commands : List Command) :
    repaintAll colors (commands.filter (·.colorChange?.isSome)) = repaintAll colors commands := by
  induction commands generalizing colors with
  | nil => rfl
  | cons command commands ih =>
    cases h : command.colorChange? with
    | none =>
      rw [List.filter_cons_of_neg (by simp [h]), ih, repaintAll_cons, command.repaint_other h]
      rfl
    | some change =>
      rw [List.filter_cons_of_pos (by simp [h]), repaintAll_cons, repaintAll_cons]
      exact congrArg _ (funext ih)

/-! ## The last change -/

theorem colorChanges_append (a b : List Command) :
    colorChanges (a ++ b) = colorChanges a ++ colorChanges b :=
  List.filterMap_append

/-- There is a colour for each change that was not taken back, and the one at the beginning. -/
theorem length_of_repaintAll {commands : List Command} {colors colors' : List String}
    (h : repaintAll colors commands = some colors') :
    colors'.length + (colorChanges commands).count .pop =
      colors.length + (colorChanges commands).count .push := by
  induction commands generalizing colors with
  | nil =>
    obtain rfl := Option.some.inj h
    rfl
  | cons command commands ih =>
    rw [repaintAll_cons, Option.bind_eq_some_iff] at h
    obtain ⟨between, first, rest⟩ := h
    have counts := ih rest
    cases command with
    | pushColor color =>
      obtain rfl := Option.some.inj first
      simp [colorChanges, Command.colorChange?] at counts ⊢
      omega
    | popColor =>
      rw [Command.repaint] at first
      split at first
      · cases first
      · rename_i left
        obtain rfl := Option.some.inj first
        simp [colorChanges, Command.colorChange?] at counts ⊢
        have : 0 < colors.length := by
          cases colors with
          | nil => exact absurd rfl left
          | cons => exact Nat.succ_pos _
        omega
    | _ =>
      obtain rfl := Option.some.inj first
      exact counts

/-- **The current colour is that of the last change that was not taken back**: all changes
    after it were.  Below it are the colours from before that change.  If there is no such
    change, there is only the colour from the beginning. -/
theorem last_unpopped {start : String} {commands : List Command} {colors : List String}
    (h : repaintAll [start] commands = some colors) :
    (Balanced .push .pop (colorChanges commands) ∧ colors = [start]) ∨
      ∃ before color after below, commands = before ++ .pushColor color :: after ∧
        Balanced .push .pop (colorChanges after) ∧ repaintAll [start] before = some below ∧
        colors = color :: below := by
  -- a colour that is taken back had a change before it, so all earlier lists are needed
  induction hn : commands.length using Nat.strong_induction_on generalizing commands colors with
  | _ n ih =>
  rcases List.eq_nil_or_concat commands with rfl | ⟨front, last, rfl⟩
  · exact .inl ⟨.nil, (Option.some.inj h).symm⟩
  rw [List.concat_eq_append] at h hn ⊢
  rw [repaintAll_append, Option.bind_eq_some_iff] at h
  obtain ⟨between, hfront, hlast⟩ := h
  have shorter : front.length < n := by
    rw [← hn, List.length_append]
    exact Nat.lt_succ_self _
  rw [repaintAll_cons, Option.bind_eq_some_iff] at hlast
  obtain ⟨_, hlast, ⟨⟩⟩ := hlast
  by_cases other : last.colorChange? = none
  · rw [last.repaint_other other] at hlast
    obtain rfl := Option.some.inj hlast
    have same (commands) : colorChanges (commands ++ [last]) = colorChanges commands := by
      rw [colorChanges_append, colorChanges, colorChanges, List.filterMap_cons_none other,
        List.filterMap_nil, List.append_nil]
    rcases ih _ shorter hfront rfl with ⟨balanced, rfl⟩ |
      ⟨before, color, after, below, rfl, balanced, hbefore, rfl⟩
    · exact .inl ⟨by rwa [same], rfl⟩
    · refine .inr ⟨before, color, after ++ [last], below, by simp, ?_, hbefore, rfl⟩
      rwa [same]
  cases last with
  | pushColor color =>
    obtain rfl := Option.some.inj hlast
    exact .inr ⟨front, color, [], between, rfl, .nil, hfront, rfl⟩
  | popColor =>
    rw [Command.repaint] at hlast
    split at hlast
    · cases hlast
    rename_i left
    obtain rfl := Option.some.inj hlast
    rcases ih _ shorter hfront rfl with ⟨-, rfl⟩ |
      ⟨before, color, after, below, rfl, balanced, hbefore, rfl⟩
    · exact absurd rfl left
    -- the colours from before the change that is taken back
    have enclosed : colorChanges (.pushColor color :: after ++ [.popColor]) =
        .push :: (colorChanges after ++ [.pop]) := by
      simp [colorChanges, Command.colorChange?]
    have taken : Balanced .push .pop (colorChanges (.pushColor color :: after ++ [.popColor])) := by
      rw [enclosed]
      exact balanced.enclosed (by decide)
    rw [List.append_assoc]
    have earlier : before.length < n := by
      rw [List.length_append] at shorter
      omega
    rcases ih _ earlier hbefore rfl with ⟨balanced', rfl⟩ |
      ⟨before', color', after', below', rfl, balanced', hbefore', rfl⟩
    · refine .inl ⟨?_, rfl⟩
      rw [colorChanges_append]
      exact balanced'.append taken
    · refine .inr ⟨before', color', after' ++ (.pushColor color :: after ++ [.popColor]), below',
        by simp, ?_, hbefore', rfl⟩
      rw [colorChanges_append]
      exact balanced'.append taken
  | _ => exact absurd rfl other

/-! ## Commands -/

theorem Typesetter.run_popColor {t : Typesetter α} {m : Markup α} (hm : t.output = .markup m) :
    popColor.run.run t = match m.colors with
      | [] => (.error .colorStackUnderflow, t)
      | color :: colors => (.ok (), { t with output := .markup { m with color, colors } }) := by
  obtain ⟨core, output⟩ := t
  obtain rfl : output = .markup m := hm
  refine (run_get_bind _ _).trans ?_
  cases hcolors : m.colors <;> simp only [hcolors] <;> rfl

variable [Scalar α] {t t' : Typesetter α} {colors : List String}

/-- Only the two commands for colours have to do with colours. -/
theorem palette_after_other [Escaping] {command : Command} (h : command.colorChange? = none) :
    Keeps palette? (command.execute : Action α Unit) := by
  refine Command.keeps_field fun m => ?_
  cases command <;> first | rfl | cases h

/-- A command that succeeds does to colours what it is for. -/
theorem palette_of_execute [Escaping] (ht : t.palette? = some colors) {command : Command}
    (run : command.execute.run.run t = (.ok (), t')) :
    ∃ colors', command.repaint colors = some colors' ∧ t'.palette? = some colors' := by
  obtain ⟨m, hm, rfl⟩ := markup?_eq_some.mp ht
  by_cases other : command.colorChange? = none
  · refine ⟨_, command.repaint_other other _, ?_⟩
    have keeps := palette_after_other other t
    rw [run] at keeps
    exact keeps.trans ht
  cases command with
  | pushColor color =>
    obtain ⟨core, output⟩ := t
    obtain rfl : output = .markup m := hm
    cases run
    exact ⟨_, rfl, rfl⟩
  | popColor =>
    rw [Command.execute, run_popColor hm] at run
    rw [Command.repaint]
    cases hcolors : m.colors with
    | nil =>
      rw [hcolors] at run
      cases run
    | cons color colors =>
      rw [hcolors] at run
      cases run
      exact ⟨_, rfl, rfl⟩
  | _ => exact absurd rfl other

/-- A change of colours that can be made succeeds. -/
theorem exists_execute_repaint [Escaping] (ht : t.palette? = some colors) {command : Command}
    (change : command.colorChange? ≠ none) {colors' : List String}
    (h : command.repaint colors = some colors') :
    ∃ t', command.execute.run.run t = (.ok (), t') ∧ t'.palette? = some colors' := by
  obtain ⟨m, hm, rfl⟩ := markup?_eq_some.mp ht
  cases command with
  | pushColor color =>
    obtain ⟨core, output⟩ := t
    obtain rfl : output = .markup m := hm
    obtain rfl := Option.some.inj h
    exact ⟨_, rfl, rfl⟩
  | popColor =>
    rw [Command.execute, run_popColor hm]
    rw [Command.repaint] at h
    cases hcolors : m.colors with
    | nil =>
      rw [hcolors] at h
      cases h
    | cons color colors =>
      rw [hcolors] at h
      obtain rfl := Option.some.inj h
      exact ⟨_, rfl, rfl⟩
  | _ => exact absurd rfl change

/-! ## Commands in order -/

/-- Commands that succeed do to colours what each of them is for. -/
theorem palette_executeAll [Escaping] (ht : t.palette? = some colors) {commands : List Command}
    (run : (executeAll (commands.map .ok)).run.run t = (.ok (), t')) :
    ∃ colors', repaintAll colors commands = some colors' ∧ t'.palette? = some colors' := by
  induction commands generalizing t colors with
  | nil =>
    cases run
    exact ⟨colors, rfl, ht⟩
  | cons command commands ih =>
    obtain ⟨_, t₁, first, later⟩ := run_bind_eq_ok.mp run
    obtain ⟨colors₁, hfirst, ht₁⟩ := palette_of_execute ht first
    rw [repaintAll_cons, hfirst]
    exact ih ht₁ later

/-- Changes of colours that can be made one after the other succeed. -/
theorem exists_executeAll_repaint [Escaping] (ht : t.palette? = some colors)
    {commands : List Command} (changes : ∀ command ∈ commands, command.colorChange? ≠ none)
    {colors' : List String} (h : repaintAll colors commands = some colors') :
    ∃ t', (executeAll (commands.map .ok)).run.run t = (.ok (), t') ∧
      t'.palette? = some colors' := by
  induction commands generalizing t colors with
  | nil =>
    obtain rfl := Option.some.inj h
    exact ⟨t, rfl, ht⟩
  | cons command commands ih =>
    obtain ⟨change, rest⟩ := List.forall_mem_cons.mp changes
    rw [repaintAll_cons, Option.bind_eq_some_iff] at h
    obtain ⟨colors₁, hfirst, hrest⟩ := h
    obtain ⟨t₁, run, ht₁⟩ := exists_execute_repaint ht change hfirst
    rw [List.map_cons, executeAll, run_bind, run]
    exact ih ht₁ rest hrest

/-- **Colours depend on nothing but the commands for colours.**  After whatever commands, the
    colours are those that these commands alone lead to; the current one is that of the last
    change that was not taken back, with the colours from before it to come back to, and black
    if there is none; and taking back a change fails exactly if more changes would be taken
    back than were made. -/
theorem colors_of_run [Escaping] (library : Library) (encodings : Encodings) (mode : Strictness)
    {commands : List Command} {t : Typesetter α}
    (run : (executeAll (commands.map .ok)).run.run (.markup library encodings mode) = (.ok (), t)) :
    (∃ t' : Typesetter α, (executeAll ((commands.filter (·.colorChange?.isSome)).map .ok)).run.run
        (.markup library encodings mode) = (.ok (), t') ∧ t'.palette? = t.palette?) ∧
      ((Balanced .push .pop (colorChanges commands) ∧ t.palette? = some ["black"]) ∨
        ∃ before color after, ∃ t₁ : Typesetter α, ∃ below,
          commands = before ++ .pushColor color :: after ∧
          Balanced .push .pop (colorChanges after) ∧
          (executeAll (before.map .ok)).run.run (.markup library encodings mode) = (.ok (), t₁) ∧
          t₁.palette? = some below ∧ t.palette? = some (color :: below)) ∧
      (Command.popColor.execute.run.run t = (.error .colorStackUnderflow, t) ↔
        (colorChanges commands).count .push <
          (colorChanges (commands ++ [.popColor])).count .pop) := by
  have new : (Typesetter.markup library encodings mode : Typesetter α).palette? =
      some ["black"] := rfl
  obtain ⟨colors, hcolors, ht⟩ := palette_executeAll new run
  refine ⟨?_, ?_, ?_⟩
  · rw [← repaintAll_filter] at hcolors
    obtain ⟨t', run', ht'⟩ := exists_executeAll_repaint new (fun command h => by
      simpa [Option.isSome_iff_ne_none] using (List.mem_filter.mp h).2) hcolors
    exact ⟨t', run', ht'.trans ht.symm⟩
  · rcases last_unpopped hcolors with ⟨balanced, rfl⟩ |
      ⟨before, color, after, below, rfl, balanced, hbefore, rfl⟩
    · exact .inl ⟨balanced, ht⟩
    · -- what comes before the change succeeds too, since it comes first
      rw [List.map_append, executeAll_append, run_bind] at run
      rcases first : (executeAll (before.map .ok)).run.run
        (.markup library encodings mode : Typesetter α) with ⟨failure | b, t₁⟩
      · rw [first] at run
        cases run
      · obtain ⟨below', hbefore', ht₁⟩ := palette_executeAll new first
        rw [hbefore] at hbefore'
        obtain rfl := Option.some.inj hbefore'
        exact .inr ⟨before, color, after, t₁, below, rfl, balanced, first, ht₁, ht⟩
  · obtain ⟨m, hm, rfl⟩ := markup?_eq_some.mp ht
    have length := length_of_repaintAll hcolors
    have one : (colorChanges (commands ++ [.popColor])).count .pop =
        (colorChanges commands).count .pop + 1 := by
      rw [colorChanges_append, List.count_append]
      rfl
    rw [List.length_cons, List.length_singleton] at length
    rw [Command.execute, run_popColor hm, one]
    cases hm' : m.colors with
    | nil =>
      rw [hm', List.length_nil] at length
      exact iff_of_true rfl (by omega)
    | cons color colors =>
      rw [hm', List.length_cons] at length
      refine iff_of_false (fun h => ?_) (by omega)
      cases h

/-- Colours that are changed on one page and partly taken back on the next, between saved
    registers and transforms. -/
def repainting : List Command :=
  [.beginPage (.replicate 10 0), .pushColor "white", .push, .postScript "gsave",
    .pushColor "#ff0000", .rawSvg "<svg>", .endPage, .beginPage (.replicate 10 1),
    .postScript "grestore", .popColor]

/-- What a new typesetter comes to. -/
def repainted : Except Failure Unit × Typesetter Binary64 :=
  (executeAll (repainting.map .ok)).run.run (.markup (.ofList []) {} .strict)

/-- White is the colour that was not taken back, and it can be taken back. -/
theorem colors_of_run_repainting :
    repainted.1 = .ok () ∧ repainted.2.palette? = some ["white", "black"] ∧
      (∃ t' : Typesetter Binary64,
        (executeAll ([.pushColor "white", .pushColor "#ff0000", .popColor].map .ok)).run.run
          (.markup (.ofList []) {} .strict) = (.ok (), t') ∧
        t'.palette? = repainted.2.palette?) ∧
      ¬ Command.popColor.execute.run.run repainted.2 =
        (.error .colorStackUnderflow, repainted.2) := by
  have succeeds : repainted.1 = .ok () := by
    decide +kernel
  have run : (executeAll (repainting.map .ok)).run.run (.markup (.ofList []) {} .strict) =
      (.ok (), repainted.2) := Prod.ext succeeds rfl
  obtain ⟨alone, -, fails⟩ := colors_of_run _ _ _ run
  refine ⟨succeeds, by decide +kernel, alone, fun h => ?_⟩
  exact absurd (fails.mp h) (by decide)

end DviMarkup
