/-
  What a command can change of what is kept for markup and of what all typesetters share.

  * `Command.spared` is what is kept for markup without what the command can change, and
    `Command.sparedCore` is this for what all typesetters share;
  * `Command.keeps_spared` and `Command.keeps_sparedCore`: all of this stays as it is, whether
    the command succeeds or fails;
  * `Command.keeps_field` and `Command.keeps_coreField`: so a part of it stays if the command
    is not one of those that change it, and `keeps_executeAll`: it stays over many commands.
-/
import DviMarkup.Proofs.Typesetter.Frame

namespace DviMarkup

open Typesetter

variable {α γ : Type}

/-- What a view shows of what is kept for markup, if markup is kept. -/
def Typesetter.markup? (view : Markup α → γ) (t : Typesetter α) : Option γ :=
  match t.output with
  | .markup m => some (view m)
  | _ => none

theorem Typesetter.markup?_eq_some {view : Markup α → γ} {t : Typesetter α} {c : γ} :
    markup? view t = some c ↔ ∃ m, t.output = .markup m ∧ view m = c := by
  obtain ⟨core, output⟩ := t
  cases output <;> simp [markup?]

variable [Scalar α]

/-! ## Actions -/

namespace Typesetter

variable {view : Typesetter α → γ}

/-- A view that shows neither pieces nor snippets shows nothing of texts. -/
theorem keeps_putText
    (write : ∀ core (m : Markup α) piece,
      view { core, output := .markup (m.write piece) } = view { core, output := .markup m })
    (snippet : ∀ core (p : Plain α) snippets,
      view { core, output := .plain { p with snippets } } = view { core, output := .plain p })
    (text : List UInt8) : Keeps view (putText text : Action α α) := by
  refine Keeps.get.bind fun t => ?_
  split
  · refine keeps_currentFont.bind fun font => (keeps_measure font _ text).bind fun extent => ?_
    split
    · exact .throw _
    · refine Keeps.bind (keeps_modifyMarkup fun core m => ?_) fun _ => .pure _
      unfold Markup.putText
      split <;> exact write core m _
  · refine keeps_currentFont.bind fun font => (keeps_measure font _ text).bind fun extent => ?_
    exact Keeps.bind (keeps_modifyPlain fun core p => snippet core p _) fun _ => .pure _
  · exact .pure _

theorem keeps_putRule
    (write : ∀ core (m : Markup α) piece,
      view { core, output := .markup (m.write piece) } = view { core, output := .markup m })
    (height width : Int32) : Keeps view (putRule height width : Action α Unit) := by
  refine Keeps.get.bind fun t => keeps_modifyMarkup fun core m => ?_
  unfold Markup.putRule
  split
  · rfl
  · exact write core m _

theorem keeps_putSvg
    (svg : ∀ core (m : Markup α) x y fragment,
      view { core, output := .markup (m.putSvg x y fragment) } = view { core, output := .markup m })
    (fragments : ∀ core written written',
      view { core, output := .fragments written' } = view { core, output := .fragments written })
    (fragment : String) : Keeps view (putSvg fragment : Action α Unit) := by
  rintro ⟨core, output⟩
  cases output with
  | markup m => exact svg core m _ _ fragment
  | fragments written => exact fragments core written _
  | _ => rfl

theorem keeps_draw [Escaping]
    (svg : ∀ core (m : Markup α) x y fragment,
      view { core, output := .markup (m.putSvg x y fragment) } = view { core, output := .markup m })
    (fragments : ∀ core written written',
      view { core, output := .fragments written' } = view { core, output := .fragments written })
    (description : String) : Keeps view (Image.draw description : Action α Unit) := by
  unfold Image.draw
  dsimp only
  split
  · exact .pure ()
  · exact Keeps.get.bind fun t => keeps_putSvg svg fragments _

omit [Scalar α] in
theorem keeps_popColor
    (paint : ∀ core (m : Markup α) color colors,
      view { core, output := .markup { m with color, colors } } =
        view { core, output := .markup m }) :
    Keeps view (popColor : Action α Unit) := by
  refine Keeps.get.bind fun t => ?_
  split
  · split
    · exact .throw _
    · exact keeps_modifyMarkup fun core m => paint core m _ _
  · exact .pure _

end Typesetter

/-! ## What is kept for markup -/

/-- What is kept for markup without what a command can change of it. -/
def Command.spared (m : Markup α) : Command → Markup α
  | .preamble .. => { m with pointsPerUnit := Scalar.zero }
  | .setPaper .. => { m with paperWidth := Scalar.zero, paperHeight := Scalar.zero }
  | .pushColor _ | .popColor => { m with color := "", colors := [] }
  | .setText _ | .putText _ | .setRule .. | .putRule .. => { m with pieces := #[] }
  | .rawSvg _ | .image _ => { m with depth := 0, pieces := #[] }
  | _ => m

omit [Scalar α] in
theorem Typesetter.blindToCore_markup? (view : Markup α → γ) : BlindToCore (markup? view) :=
  fun _ _ => rfl

/-- **What a command cannot change stays as it is**, whether the command succeeds or
    fails. -/
theorem Command.keeps_spared [Escaping] (command : Command) :
    Keeps (markup? command.spared) (command.execute : Action α Unit) := by
  have core (f : Core α → Core α) : Keeps (markup? command.spared) (modifyCore f) :=
    keeps_modifyCore (blindToCore_markup? _) f
  by_cases shared : command.isShared = true
  · exact OnCore.keeps (blindToCore_markup? _) fun _ => Command.onCore_execute shared
  cases command with
  | preamble => exact keeps_modifyMarkup fun _ _ => rfl
  | beginPage => exact Keeps.bind (keeps_modifyPlain fun _ _ => rfl) fun _ => core _
  | endPage => exact keeps_modifyPlain fun _ _ => rfl
  | setText text =>
    exact (keeps_putText (fun _ _ _ => rfl) (fun _ _ _ => rfl) text).bind fun _ => core _
  | putText text => exact (keeps_putText (fun _ _ _ => rfl) (fun _ _ _ => rfl) text).map _
  | setRule height width =>
    exact (keeps_putRule (fun _ _ _ => rfl) height width).bind fun _ => core _
  | putRule height width => exact keeps_putRule (fun _ _ _ => rfl) height width
  | pushColor => exact keeps_modifyMarkup fun _ _ => rfl
  | popColor => exact keeps_popColor fun _ _ _ _ => rfl
  | setPaper => exact keeps_modifyMarkup fun _ _ => rfl
  | rawSvg fragment => exact keeps_putSvg (fun _ _ _ _ _ => rfl) (fun _ _ _ => rfl) fragment
  | postScript code => exact PostScript.keeps_execute (blindToCore_markup? _) code
  | image description => exact keeps_draw (fun _ _ _ _ _ => rfl) (fun _ _ _ => rfl) description
  | _ => exact absurd rfl shared

/-- A field stays as it is if it is not among what the command can change. -/
theorem Command.keeps_field [Escaping] {command : Command} {field : Markup α → γ}
    (h : ∀ m, field (command.spared m) = field m) :
    Keeps (markup? field) (command.execute : Action α Unit) := by
  have through (t : Typesetter α) : markup? field t = (markup? command.spared t).map field := by
    obtain ⟨core, output⟩ := t
    cases output with
    | markup m => exact congrArg some (h m).symm
    | _ => rfl
  intro t
  rw [through, through, command.keeps_spared t]

/-! ## What all typesetters share -/

/-- What a view shows of what all typesetters share. -/
def Typesetter.shared (view : Core α → γ) (t : Typesetter α) : γ :=
  view t.core

/-- What all typesetters share without what a command can change of it. -/
def Command.sparedCore (c : Core α) : Command → Core α
  | .beginPage _ | .push | .pop => { c with position := .origin, stack := [] }
  | .setText _ | .setRule _ _ | .moveRight _ | .moveDown _ | .moveBy _ _ =>
    { c with position := .origin }
  | .defineFont _ _ => { c with fonts := [], asked := [], metrics := [] }
  | .enableFont _ => { c with font := none }
  | .postScript _ =>
    { c with
      position := { c.position with h := Scalar.zero, v := Scalar.zero }
      matrix := .identity, saved := [] }
  | _ => c

namespace Typesetter

variable {view : Core α → γ}

omit [Scalar α] in
theorem keeps_core_modifyCore {f : Core α → Core α} (h : ∀ c, view (f c) = view c) :
    Keeps (shared view) (modifyCore f) :=
  .modify fun t => h t.core

omit [Scalar α] in
theorem keeps_core_defineFont
    (h : ∀ c fonts asked metrics, view { c with fonts, asked, metrics } = view c)
    (number : UInt32) (definition : FontDefinition) :
    Keeps (shared view) (defineFont number definition : Action α Unit) := by
  have loads : Keeps (shared view) (loadMetrics definition.name : Action α Metrics) := by
    refine Keeps.get.bind fun t => ?_
    dsimp only
    split
    · exact .pure _
    · refine (keeps_core_modifyCore fun c => h c c.fonts _ c.metrics).bind fun _ => ?_
      split
      · exact .throw _
      · exact (keeps_core_modifyCore fun c => h c c.fonts c.asked _).bind fun _ => .pure _
  refine Keeps.get.bind fun t => ?_
  split
  · exact .pure _
  · exact loads.bind fun _ => keeps_core_modifyCore fun c => h c _ c.asked c.metrics

omit [Scalar α] in
theorem keeps_core_enableFont (h : ∀ c font, view { c with font } = view c) (number : UInt32) :
    Keeps (shared view) (enableFont number : Action α Unit) := by
  refine Keeps.get.bind fun t => ?_
  split
  · exact .throw _
  · exact keeps_core_modifyCore fun c => h c _

omit [Scalar α] in
theorem keeps_core_pop (h : ∀ c position stack, view { c with position, stack } = view c) :
    Keeps (shared view) (pop : Action α Unit) := by
  refine Keeps.get.bind fun t => ?_
  split
  · exact .throw _
  · exact keeps_core_modifyCore fun c => h c _ _

end Typesetter

/-- **What a command cannot change of what all typesetters share stays as it is**, whether
    the command succeeds or fails. -/
theorem Command.keeps_sparedCore [Escaping] (command : Command) :
    Keeps (shared command.sparedCore) (command.execute : Action α Unit) := by
  cases command with
  | preamble => exact keeps_modifyMarkup fun _ _ => rfl
  | beginPage =>
    exact Keeps.bind (keeps_modifyPlain fun _ _ => rfl) fun _ => keeps_core_modifyCore fun _ => rfl
  | endPage => exact keeps_modifyPlain fun _ _ => rfl
  | push => exact keeps_core_modifyCore fun _ => rfl
  | pop => exact keeps_core_pop fun _ _ _ => rfl
  | setText text =>
    exact (keeps_putText (fun _ _ _ => rfl) (fun _ _ _ => rfl) text).bind fun _ =>
      keeps_core_modifyCore fun _ => rfl
  | putText text => exact (keeps_putText (fun _ _ _ => rfl) (fun _ _ _ => rfl) text).map _
  | setRule height width =>
    exact (keeps_putRule (fun _ _ _ => rfl) height width).bind fun _ =>
      keeps_core_modifyCore fun _ => rfl
  | putRule height width => exact keeps_putRule (fun _ _ _ => rfl) height width
  | moveRight => exact keeps_core_modifyCore fun _ => rfl
  | moveDown => exact keeps_core_modifyCore fun _ => rfl
  | moveBy register amount =>
    refine keeps_core_modifyCore fun c => ?_
    unfold Core.moveBy
    cases amount <;> cases register.isHorizontal <;> rfl
  | defineFont number definition =>
    exact keeps_core_defineFont (fun _ _ _ _ => rfl) number definition
  | enableFont number => exact keeps_core_enableFont (fun _ _ => rfl) number
  | special => exact .pure ()
  | beginPostamble => exact .pure ()
  | endPostamble => exact .pure ()
  | pushColor => exact keeps_modifyMarkup fun _ _ => rfl
  | popColor => exact keeps_popColor fun _ _ _ _ => rfl
  | setPaper => exact keeps_modifyMarkup fun _ _ => rfl
  | rawSvg fragment => exact keeps_putSvg (fun _ _ _ _ _ => rfl) (fun _ _ _ => rfl) fragment
  | postScript code => exact PostScript.keeps_code (fun _ _ _ _ _ => rfl) code
  | image description => exact keeps_draw (fun _ _ _ _ _ => rfl) (fun _ _ _ => rfl) description

/-- What can be told from what a command cannot change stays as it is. -/
theorem Command.keeps_coreField [Escaping] {command : Command} {field : Core α → γ}
    (h : ∀ c, field (command.sparedCore c) = field c) :
    Keeps (shared field) (command.execute : Action α Unit) := by
  intro t
  have spared := congrArg field (command.keeps_sparedCore t)
  rwa [shared, shared, h, h] at spared

/-! ## Commands in order -/

/-- Commands in order keep what each of them keeps, up to the first failure. -/
theorem keeps_executeAll [Escaping] {view : Typesetter α → γ} {items : List Item}
    (h : ∀ command, .ok command ∈ items → Keeps view (command.execute : Action α Unit)) :
    Keeps view (executeAll items : Action α Unit) := by
  induction items with
  | nil => exact .pure ()
  | cons item items ih =>
    cases item with
    | error failure => exact .throw failure
    | ok command =>
      refine (h command List.mem_cons_self).bind fun _ => ih fun command hmem => ?_
      exact h command (List.mem_cons_of_mem _ hmem)

end DviMarkup
