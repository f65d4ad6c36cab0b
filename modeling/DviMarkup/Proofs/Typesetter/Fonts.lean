/-
  Fonts.

  Three tables are kept: the fonts with numbers, the current font, and the metrics that were
  loaded.  They only grow, and they fit together at all times, also if the library answers
  otherwise when it is asked again.

  * `FontTables` is what is kept of fonts, and `FontTables.Step` what a command can do to it:
    `fontTables_after`;
  * `FontTables.Fit` holds at all times: fonts with numbers have the metrics that were loaded
    for their names, and the current font is one of them (`fit_foldl_after`);
  * `FontTables.Grows`: what is in the tables stays, and the library is asked only for metrics
    that are not there (`grows_foldl_after`);
  * `fonts_grow`: what follows for a typesetter that was new before some commands.
-/
import DviMarkup.Proofs.Typesetter.Failing
import DviMarkup.Proofs.Typesetter.Fragments

namespace DviMarkup

open Typesetter

/-! ## Tables -/

/-- What is kept of fonts: the fonts with numbers, the current font, the library with the
    fonts that it was asked for, and the metrics that were loaded. -/
structure FontTables where
  fonts : List (UInt32 × Font)
  current : Option Font
  library : Library
  asked : List String
  metrics : List (String × Metrics)

def Core.fontTables {α : Type} (c : Core α) : FontTables :=
  ⟨c.fonts, c.font, c.library, c.asked, c.metrics⟩

namespace FontTables

/-- What a command can do to the tables. -/
inductive Step (f : FontTables) : FontTables → Prop where
  /-- Nothing. -/
  | same : Step f f
  /-- A number is given to a font with metrics that were loaded before. -/
  | shared {number : UInt32} {definition : FontDefinition} {metrics : Metrics}
      (fresh : f.fonts.lookup number = none)
      (loaded : f.metrics.lookup definition.name = some metrics) :
      Step f { f with fonts := (number, { definition with metrics }) :: f.fonts }
  /-- The library is asked in vain. -/
  | refused {name : String} {failure : Failure} (fresh : f.metrics.lookup name = none)
      (refuse : f.library.load f.asked name = .error failure) :
      Step f { f with asked := name :: f.asked }
  /-- A number is given to a font with metrics that the library has. -/
  | loaded {number : UInt32} {definition : FontDefinition} {metrics : Metrics}
      (fresh : f.fonts.lookup number = none)
      (absent : f.metrics.lookup definition.name = none)
      (load : f.library.load f.asked definition.name = .ok metrics) :
      Step f { f with
        asked := definition.name :: f.asked
        metrics := (definition.name, metrics) :: f.metrics
        fonts := (number, { definition with metrics }) :: f.fonts }
  /-- A font with a number becomes the current one. -/
  | enabled {number : UInt32} {font : Font} (defined : f.fonts.lookup number = some font) :
      Step f { f with current := some font }

/-- What holds of the tables at all times. -/
structure Fit (f : FontTables) : Prop where
  /-- Fonts with numbers have the metrics that were loaded for their names. -/
  shared : ∀ number font, f.fonts.lookup number = some font →
    f.metrics.lookup font.name = some font.metrics
  /-- What the library gave is kept, and it is not asked for it again. -/
  loaded : ∀ later name before metrics, f.asked = later ++ name :: before →
    f.library.load before name = .ok metrics →
      f.metrics.lookup name = some metrics ∧ name ∉ later
  /-- The current font has a number. -/
  current : ∀ font, f.current = some font → ∃ number, f.fonts.lookup number = some font

/-- What can become of the tables later: all that is there stays, and the library is asked
    only for what is not. -/
structure Grows (f f' : FontTables) : Prop where
  fonts : ∀ number font, f.fonts.lookup number = some font → f'.fonts.lookup number = some font
  metrics : ∀ name metrics, f.metrics.lookup name = some metrics →
    f'.metrics.lookup name = some metrics
  asked : ∃ asked, f'.asked = asked ++ f.asked ∧ ∀ name ∈ asked, f.metrics.lookup name = none
  current : f.current.isSome = true → f'.current.isSome = true
  library : f'.library = f.library

theorem fit_empty (library : Library) : Fit ⟨[], none, library, [], []⟩ :=
  ⟨by rintro _ _ ⟨⟩, by rintro (_ | _) _ _ _ ⟨⟩, by rintro _ ⟨⟩⟩

/-- What is in a table stays there if something comes in for a fresh key. -/
theorem lookup_cons_of_fresh {κ β : Type} [BEq κ] [LawfulBEq κ] {table : List (κ × β)}
    {fresh key : κ} {value entry : β} (hfresh : table.lookup fresh = none)
    (h : table.lookup key = some entry) : ((fresh, value) :: table).lookup key = some entry := by
  have ne : (key == fresh) = false := by
    rw [beq_eq_false_iff_ne]
    rintro rfl
    rw [hfresh] at h
    cases h
  rw [List.lookup_cons, ne]
  exact h

/-- What is found behind a new entry was there before. -/
theorem lookup_cons_eq_some {κ β : Type} [BEq κ] [LawfulBEq κ] {table : List (κ × β)}
    {new key : κ} {value entry : β} (h : ((new, value) :: table).lookup key = some entry) :
    value = entry ∨ table.lookup key = some entry := by
  rw [List.lookup_cons] at h
  split at h
  · exact .inl (Option.some.inj h)
  · exact .inr h

namespace Grows

theorem refl (f : FontTables) : f.Grows f :=
  ⟨fun _ _ h => h, fun _ _ h => h, ⟨[], rfl, nofun⟩, id, rfl⟩

theorem trans {f g k : FontTables} (first : f.Grows g) (second : g.Grows k) : f.Grows k where
  fonts number font h := second.fonts number font (first.fonts number font h)
  metrics name metrics h := second.metrics name metrics (first.metrics name metrics h)
  asked := by
    obtain ⟨asked, hasked, absent⟩ := first.asked
    obtain ⟨asked', hasked', absent'⟩ := second.asked
    refine ⟨asked' ++ asked, by rw [hasked', hasked, List.append_assoc], fun name h => ?_⟩
    rcases List.mem_append.mp h with h | h
    · -- what was loaded first would still be there
      cases loaded : f.metrics.lookup name with
      | none => rfl
      | some metrics =>
        have later := first.metrics name metrics loaded
        rw [absent' name h] at later
        cases later
    · exact absent name h
  current h := second.current (first.current h)
  library := second.library.trans first.library

end Grows

namespace Step

variable {f f' : FontTables}

theorem grows (step : f.Step f') : f.Grows f' := by
  cases step with
  | same => exact .refl f
  | shared fresh _ => exact { Grows.refl f with fonts := fun _ _ => lookup_cons_of_fresh fresh }
  | refused fresh _ =>
    exact { Grows.refl f with asked := ⟨[_], rfl, by rintro _ (_ | ⟨_, ⟨⟩⟩); exact fresh⟩ }
  | loaded fresh absent _ =>
    exact { Grows.refl f with
      fonts := fun _ _ => lookup_cons_of_fresh fresh
      metrics := fun _ _ => lookup_cons_of_fresh absent
      asked := ⟨[_], rfl, by rintro _ (_ | ⟨_, ⟨⟩⟩); exact absent⟩ }
  | enabled => exact { Grows.refl f with current := fun _ => rfl }

/-- The library is asked once more, for metrics that are not there. -/
theorem loaded_cons (h : f.Fit) {asked : String} {entries : List (String × Metrics)}
    (fresh : f.metrics.lookup asked = none)
    (kept : ∀ name metrics, f.metrics.lookup name = some metrics →
      entries.lookup name = some metrics)
    (answer : ∀ metrics, f.library.load f.asked asked = .ok metrics →
      entries.lookup asked = some metrics) :
    ∀ later name before metrics, asked :: f.asked = later ++ name :: before →
      f.library.load before name = .ok metrics →
        entries.lookup name = some metrics ∧ name ∉ later := by
  intro later name before metrics hasked load
  cases later with
  | nil =>
    cases hasked
    exact ⟨answer metrics load, List.not_mem_nil⟩
  | cons latest later =>
    obtain ⟨rfl, earlier⟩ := List.cons.inj hasked
    obtain ⟨there, absent⟩ := h.loaded later name before metrics earlier load
    refine ⟨kept name metrics there, ?_⟩
    rintro (_ | ⟨_, again⟩)
    · rw [fresh] at there
      cases there
    · exact absent again

theorem fit (step : f.Step f') (h : f.Fit) : f'.Fit := by
  -- the current font keeps its number
  have current (same : f'.current = f.current) :
      ∀ font, f'.current = some font → ∃ number, f'.fonts.lookup number = some font := by
    intro font hfont
    obtain ⟨number, hnumber⟩ := h.current font (same ▸ hfont)
    exact ⟨number, step.grows.fonts number font hnumber⟩
  cases step with
  | same => exact h
  | shared fresh hloaded =>
    refine ⟨fun number font hfont => ?_, h.loaded, current rfl⟩
    rcases lookup_cons_eq_some hfont with rfl | hfont
    · exact hloaded
    · exact h.shared number font hfont
  | refused fresh refuse =>
    refine ⟨h.shared, loaded_cons h fresh (fun _ _ => id) fun metrics load => ?_, h.current⟩
    rw [refuse] at load
    cases load
  | loaded fresh absent hload =>
    refine ⟨fun number font hfont => ?_, loaded_cons h absent
      (fun _ _ => lookup_cons_of_fresh absent) fun metrics load => ?_, current rfl⟩
    · rcases lookup_cons_eq_some hfont with rfl | hfont
      · exact List.lookup_cons_self
      · exact lookup_cons_of_fresh absent (h.shared number font hfont)
    · rw [hload] at load
      cases load
      exact List.lookup_cons_self
  | enabled defined =>
    refine ⟨h.shared, h.loaded, ?_⟩
    rintro font ⟨⟩
    exact ⟨_, defined⟩

end Step

end FontTables

/-! ## Commands -/

section Commands

variable {α : Type}

theorem Typesetter.run_enableFont (number : UInt32) (t : Typesetter α) :
    (enableFont number).run.run t = match t.definedFont number with
      | none => (.error (.undefinedFont number), t)
      | some font => (.ok (), { t with core := { t.core with font := some font } }) := by
  refine (run_get_bind _ t).trans ?_
  cases t.definedFont number <;> rfl

variable [Scalar α]

/-- **Of all commands, only two do anything to the tables of fonts**, whether they succeed or
    fail. -/
theorem fontTables_after [Escaping] (t : Typesetter α) (command : Command) :
    t.core.fontTables.Step (t.after command).core.fontTables := by
  by_cases other : (∀ number definition, command ≠ .defineFont number definition) ∧
      ∀ number, command ≠ .enableFont number
  · have keeps : Keeps (shared Core.fontTables) (command.execute : Action α Unit) := by
      refine Command.keeps_coreField fun c => ?_
      cases command with
      | defineFont => exact absurd rfl (other.1 _ _)
      | enableFont => exact absurd rfl (other.2 _)
      | _ => rfl
    have same : (t.after command).core.fontTables = t.core.fontTables := keeps t
    rw [same]
    exact .same
  cases command with
  | defineFont number definition =>
    rw [after, Command.execute, run_defineFont]
    split
    · exact .same
    · exact .shared ‹_› ‹_›
    · split
      · exact .refused ‹_› ‹_›
      · exact .loaded ‹_› ‹_› ‹_›
  | enableFont number =>
    rw [after, Command.execute, run_enableFont]
    split
    · exact .same
    · exact .enabled ‹_›
  | _ => exact absurd ⟨fun _ _ => Command.noConfusion, fun _ => Command.noConfusion⟩ other

theorem fit_foldl_after [Escaping] {t : Typesetter α} (h : t.core.fontTables.Fit)
    (commands : List Command) : (commands.foldl after t).core.fontTables.Fit := by
  induction commands generalizing t with
  | nil => exact h
  | cons command commands ih => exact ih ((fontTables_after t command).fit h)

theorem grows_foldl_after [Escaping] (t : Typesetter α) (commands : List Command) :
    t.core.fontTables.Grows (commands.foldl after t).core.fontTables := by
  induction commands generalizing t with
  | nil => exact .refl _
  | cons command commands ih => exact (fontTables_after t command).grows.trans (ih _)

omit [Scalar α] in
/-- The definition of a font fails only if the library does, and then nothing is kept of
    it. -/
theorem run_defineFont_error {number : UInt32} {definition : FontDefinition}
    {t t' : Typesetter α} {failure : Failure}
    (run : (Typesetter.defineFont number definition).run.run t = (.error failure, t')) :
    t.definedFont number = none ∧ t.core.metrics.lookup definition.name = none ∧
      t.core.library.load t.core.asked definition.name = .error failure ∧
      t' = { t with core := { t.core with asked := definition.name :: t.core.asked } } := by
  rw [run_defineFont] at run
  split at run
  · cases run
  · cases run
  · split at run
    · cases run
      exact ⟨‹_›, ‹_›, ‹_›, rfl⟩
    · cases run

omit [Scalar α] in
/-- The same definition succeeds as soon as the library has the metrics. -/
theorem exists_run_defineFont {number : UInt32} {definition : FontDefinition}
    {t : Typesetter α} (fresh : t.definedFont number = none)
    (absent : t.core.metrics.lookup definition.name = none) {metrics : Metrics}
    (load : t.core.library.load t.core.asked definition.name = .ok metrics) :
    ∃ t', (Typesetter.defineFont number definition).run.run t = (.ok (), t') ∧
      t'.definedFont number = some { definition with metrics } := by
  rw [run_defineFont, fresh, absent, load]
  exact ⟨_, rfl, List.lookup_cons_self⟩

/-- A font that was made the current one has a number, and so has the current one later. -/
theorem font_foldl_after_of_enableFont [Escaping] {number : UInt32} {t t' : Typesetter α}
    (fit : t.core.fontTables.Fit)
    (run : (Typesetter.enableFont number).run.run t = (.ok (), t')) (more : List Command) :
    t'.core.font = t.definedFont number ∧
      ∃ number' font, (more.foldl after t').core.font = some font ∧
        (more.foldl after t').definedFont number' = some font := by
  rw [run_enableFont] at run
  split at run
  · cases run
  next font defined =>
    cases run
    have enabled : FontTables.Fit { t.core.fontTables with current := some font } :=
      (FontTables.Step.enabled (f := t.core.fontTables) defined).fit fit
    have current := (grows_foldl_after { t with core := { t.core with font := some font } }
      more).current rfl
    obtain ⟨font', hfont'⟩ := Option.isSome_iff_exists.mp current
    obtain ⟨number', hnumber'⟩ := (fit_foldl_after enabled more).current font' hfont'
    exact ⟨defined.symm, number', font', hfont', hnumber'⟩

/-- **Tables of fonts only grow, and metrics are shared.**  After some commands on a new
    typesetter, and still after any more, whatever the library answers and whether commands
    fail or not:
    * a number keeps its font, which has the metrics that were loaded for its name, and a
      further definition of the number does nothing;
    * the metrics that the library gave are kept, and loaded metrics stay, without that the
      library is asked for them again;
    * if the definition of a font fails, then the library has failed, neither the number nor
      the metrics are there, and as soon as the library has the metrics the same definition
      succeeds;
    * when a font was made the current one, the current font is one of those with numbers. -/
theorem fonts_grow [Escaping] (library : Library) (output : Output α)
    (history more : List Command) :
    let t := history.foldl after { core := .start library, output }
    let t' := more.foldl after t
    (∀ number font, t.definedFont number = some font →
      t'.definedFont number = some font ∧
        t'.core.metrics.lookup font.name = some font.metrics ∧
        ∀ definition, (Command.defineFont number definition).execute.run.run t' = (.ok (), t')) ∧
      (∀ later name before metrics, t.core.asked = later ++ name :: before →
        library.load before name = .ok metrics →
          t.core.metrics.lookup name = some metrics ∧ name ∉ later) ∧
      (∃ asked, t'.core.asked = asked ++ t.core.asked ∧
        ∀ name metrics, t.core.metrics.lookup name = some metrics →
          t'.core.metrics.lookup name = some metrics ∧ name ∉ asked) ∧
      (∀ number definition failure t₁,
        (Command.defineFont number definition).execute.run.run t = (.error failure, t₁) →
          library.load t.core.asked definition.name = .error failure ∧
            t₁ = { t with core := { t.core with asked := definition.name :: t.core.asked } } ∧
            t₁.definedFont number = none ∧ t₁.core.metrics.lookup definition.name = none ∧
            ∀ metrics, library.load t₁.core.asked definition.name = .ok metrics →
              ∃ t₂, (Command.defineFont number definition).execute.run.run t₁ = (.ok (), t₂) ∧
                t₂.definedFont number = some { definition with metrics }) ∧
      ∀ number t₁, (Command.enableFont number).execute.run.run t = (.ok (), t₁) →
        t₁.core.font = t.definedFont number ∧
          ∃ number' font, (more.foldl after t₁).core.font = some font ∧
            (more.foldl after t₁).definedFont number' = some font := by
  intro t t'
  have new : ({ core := .start library, output } : Typesetter α).core.fontTables.Fit :=
    FontTables.fit_empty library
  have fit : t.core.fontTables.Fit := fit_foldl_after new history
  have grows : t.core.fontTables.Grows t'.core.fontTables := grows_foldl_after t more
  have sameLibrary : t.core.library = library := (grows_foldl_after _ history).library
  refine ⟨fun number font h => ?_, fun later name before metrics hasked load => ?_, ?_,
    fun number definition failure t₁ run => ?_, fun number t₁ run => ?_⟩
  · have later : t'.definedFont number = some font := grows.fonts number font h
    refine ⟨later, grows.metrics _ _ (fit.shared number font h), fun definition => ?_⟩
    rw [Command.execute, run_defineFont, later]
  · rw [← sameLibrary] at load
    exact fit.loaded later name before metrics hasked load
  · obtain ⟨asked, hasked, absent⟩ := grows.asked
    refine ⟨asked, hasked, fun name metrics h => ⟨grows.metrics name metrics h, fun hmem => ?_⟩⟩
    have none : t.core.metrics.lookup name = none := absent name hmem
    rw [h] at none
    cases none
  · obtain ⟨fresh, absent, load, rfl⟩ := run_defineFont_error run
    rw [sameLibrary] at load
    refine ⟨load, rfl, fresh, absent, fun metrics hmetrics => ?_⟩
    rw [← sameLibrary] at hmetrics
    exact exists_run_defineFont
      (t := { t with core := { t.core with asked := definition.name :: t.core.asked } })
      fresh absent hmetrics
  · exact font_foldl_after_of_enableFont fit run more

end Commands

/-- A library that has a font only when it is asked for it again. -/
def reluctant : Library where
  load before font :=
    if font ∈ before then .ok (.empty 0 0xA00000) else .error (.fontNotFound font [])

/-- A typesetter that needed two attempts to define a font, and then gave it a second
    number for another size. -/
def retried : Typesetter Binary64 :=
  [Command.defineFont 0 ⟨"cmr10", 0, 0xA0000, 0xA0000⟩,
    .defineFont 0 ⟨"cmr10", 0, 0xA0000, 0xA0000⟩,
    .defineFont 1 ⟨"cmr10", 0, 0x140000, 0xA0000⟩].foldl after (.markup reluctant {} .strict)

/-- What it goes on with: among others, a font that is not there comes in place of one that
    is. -/
def redefining : List Command :=
  [.beginPage (.replicate 10 0), .defineFont 0 ⟨"cmr7", 0, 0x70000, 0x70000⟩, .enableFont 9,
    .endPage]

/-- Both sizes share the metrics and stay, one of them can be made the current font, and
    another font that is refused is there when it is asked for again. -/
theorem fonts_grow_retried :
    (∃ font, retried.definedFont 1 = some font ∧
      (redefining.foldl after retried).definedFont 1 = some font ∧
        (redefining.foldl after retried).core.metrics.lookup font.name = some font.metrics ∧
        (Command.defineFont 1 ⟨"cmr7", 0, 0x70000, 0x70000⟩).execute.run.run
          (redefining.foldl after retried) = (.ok (), redefining.foldl after retried)) ∧
      (retried.core.metrics.lookup "cmr10" = some (.empty 0 0xA00000) ∧ "cmr10" ∉ []) ∧
      (∃ asked, (redefining.foldl after retried).core.asked = asked ++ ["cmr10", "cmr10"] ∧
        "cmr10" ∉ asked) ∧
      (∃ t₁ t₂, (Command.defineFont 2 ⟨"cmr7", 0, 0x70000, 0x70000⟩).execute.run.run retried =
          (.error (.fontNotFound "cmr7" []), t₁) ∧
        (Command.defineFont 2 ⟨"cmr7", 0, 0x70000, 0x70000⟩).execute.run.run t₁ = (.ok (), t₂)) ∧
      ∃ t₁, (Command.enableFont 1).execute.run.run retried = (.ok (), t₁) ∧
        ∃ number font, (redefining.foldl after t₁).core.font = some font ∧
          (redefining.foldl after t₁).definedFont number = some font := by
  obtain ⟨numbers, answers, names, failed, current⟩ := fonts_grow (α := Binary64) reluctant
    (.markup (.start {} .strict)) _ redefining
  refine ⟨?_, ?_, ?_, ?_, ?_⟩
  · have defined : retried.definedFont 1 =
        some { name := "cmr10", checksum := 0, scaleFactor := 0x140000, designSize := 0xA0000
               metrics := .empty 0 0xA00000 } := by
      decide +kernel
    obtain ⟨later, shared, redefined⟩ := numbers 1 _ defined
    exact ⟨_, defined, later, shared, redefined _⟩
  · have asked : retried.core.asked = [] ++ "cmr10" :: ["cmr10"] := by
      decide +kernel
    exact answers [] "cmr10" ["cmr10"] (.empty 0 0xA00000) asked (by decide +kernel)
  · have asked : retried.core.asked = ["cmr10", "cmr10"] := by
      decide +kernel
    obtain ⟨more, hmore, absent⟩ := names
    have loaded : retried.core.metrics.lookup "cmr10" = some (.empty 0 0xA00000) := by
      decide +kernel
    exact ⟨more, asked ▸ hmore, (absent _ _ loaded).2⟩
  · have fails : ((Command.defineFont 2 ⟨"cmr7", 0, 0x70000, 0x70000⟩).execute.run.run
        retried).1 = .error (.fontNotFound "cmr7" []) := by
      decide +kernel
    obtain ⟨-, state, -, -, retry⟩ := failed 2 _ _ _ (Prod.ext fails rfl)
    obtain ⟨t₂, run, -⟩ := retry (.empty 0 0xA00000) (by rw [state]; decide +kernel)
    exact ⟨_, t₂, Prod.ext fails rfl, run⟩
  · have succeeds : ((Command.enableFont 1).execute.run.run retried).1 = .ok () := by
      decide +kernel
    obtain ⟨-, number, font, hfont, defined⟩ := current 1 _ (Prod.ext succeeds rfl)
    exact ⟨_, Prod.ext succeeds rfl, number, font, hfont, defined⟩

end DviMarkup
