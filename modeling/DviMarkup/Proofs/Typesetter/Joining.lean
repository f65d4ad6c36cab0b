/-
  Texts that are put together.

  The characters of a text come one by one, and adjacent ones are put together to a text.
  In exact numbers, a document comes to the same in both ways, apart from what is
  written for its texts.

  * `SameState` relates what is kept for the output if it differs only in what was
    written;
  * `Unaware` holds of the actions that do not depend on what was written, and
    `unaware_execute`: it holds of all commands;
  * `Agrees`: two actions can be done in the same states, and come to the same state;
  * `Sets`: an action does what a text does, and `sets_executeAll`: adjacent texts do what
    the text does that they are put together to;
  * `executeAll_textStage`: commands come to the same if their texts are put together.
-/
import DviMarkup.Proofs.Command.Specials
import DviMarkup.Proofs.Typesetter.Following
import DviMarkup.Proofs.Typesetter.Texts

namespace DviMarkup

open Typesetter

/-! ## States apart from what was written -/

section SameState

variable {α : Type}

/-- Whether what is kept for the output is the same, besides what was written. -/
def SameState (o o' : Output α) : Prop :=
  o.unwritten = o'.unwritten

namespace SameState

variable {o o' : Output α}

theorem unit?_eq (h : SameState o o') : o.unit? = o'.unit? := by
  have unwritten (o : Output α) : o.unwritten.unit? = o.unit? := by cases o <;> rfl
  rw [← unwritten o, h, unwritten]

/-- What is kept is of the same kind on both sides. -/
theorem kinds (h : SameState o o') :
    (o = .silent ∧ o' = .silent) ∨
      (∃ written written', o = .fragments written ∧ o' = .fragments written') ∨
      (∃ m pieces, o = .markup m ∧ o' = .markup { m with pieces }) ∨
      ∃ p snippets written, o = .plain p ∧ o' = .plain { p with snippets, written } := by
  cases o with
  | silent => cases o' <;> first | exact .inl ⟨rfl, rfl⟩ | cases h
  | fragments written => cases o' <;> first | exact .inr (.inl ⟨_, _, rfl, rfl⟩) | cases h
  | markup m =>
    cases o' with
    | markup m' =>
      refine .inr (.inr (.inl ⟨m, m'.pieces, rfl, ?_⟩))
      obtain ⟨encodings, mode, unit, depth, color, colors, width, height, pieces⟩ := m
      cases h
      rfl
    | _ => cases h
  | plain p =>
    cases o' with
    | plain p' =>
      refine .inr (.inr (.inr ⟨p, p'.snippets, p'.written, rfl, ?_⟩))
      obtain ⟨encodings, mode, snippets, pages, written⟩ := p
      cases h
      rfl
    | _ => cases h

/-- Changes of what is kept for markup that do not depend on what was written. -/
theorem onMarkup {f : Markup α → Markup α}
    (h : ∀ m pieces, SameState (.markup (f m)) (.markup (f { m with pieces })))
    (ho : SameState o o') : SameState (o.onMarkup f) (o'.onMarkup f) := by
  obtain ⟨rfl, rfl⟩ | ⟨_, _, rfl, rfl⟩ | ⟨m, pieces, rfl, rfl⟩ | ⟨_, _, _, rfl, rfl⟩ := ho.kinds
  · exact ho
  · exact ho
  · exact h m pieces
  · exact ho

theorem onPlain {f : Plain α → Plain α}
    (h : ∀ p snippets written, SameState (.plain (f p)) (.plain (f { p with snippets, written })))
    (ho : SameState o o') : SameState (o.onPlain f) (o'.onPlain f) := by
  obtain ⟨rfl, rfl⟩ | ⟨_, _, rfl, rfl⟩ | ⟨_, _, rfl, rfl⟩ | ⟨p, snippets, written, rfl, rfl⟩ :=
    ho.kinds
  · exact ho
  · exact ho
  · exact ho
  · exact h p snippets written

end SameState

/-! ## Commands -/

/-- Whether an action comes to the same whatever was written before. -/
def Unaware {β : Type} (library : Library) (action : Action α β) : Prop :=
  Follows (Alike library SameState) (fun _ => True) action action

variable {library : Library}

theorem unaware_modifyCore {f : Core α → Core α} (h : ∀ c, (f c).library = c.library) :
    Unaware library (modifyCore f) :=
  OnCore.follows (fun _ _ => trivial) (onCore_modifyCore h)

theorem unaware_modifyMarkup {f : Core α → Markup α → Markup α}
    (h : ∀ core m pieces, SameState (.markup (f core m)) (.markup (f core { m with pieces }))) :
    Unaware library (modifyMarkup f) :=
  follows_modifyMarkup fun core _ _ ho => ho.onMarkup (h core)

theorem unaware_modifyPlain {f : Core α → Plain α → Plain α}
    (h : ∀ core p snippets written,
      SameState (.plain (f core p)) (.plain (f core { p with snippets, written }))) :
    Unaware library (modifyPlain f) :=
  follows_modifyPlain fun core _ _ ho => ho.onPlain (h core)

theorem unaware_popColor : Unaware library (popColor : Action α Unit) := by
  refine Follows.get_bind fun t t' ht => ?_
  obtain ⟨ho, ho'⟩ | ⟨_, _, ho, ho'⟩ | ⟨m, pieces, ho, ho'⟩ | ⟨_, _, _, ho, ho'⟩ := ht.output.kinds
  · rw [ho, ho']
    exact .pure ()
  · rw [ho, ho']
    exact .pure ()
  · rw [ho, ho']
    dsimp only
    split
    · exact .throw trivial _
    · exact unaware_modifyMarkup fun _ _ _ => rfl
  · rw [ho, ho']
    exact .pure ()

variable [Scalar α]

/-- By how much a text moves the place does not depend on what was written. -/
theorem SameState.advance?_eq {o o' : Output α} (h : SameState o o') (font? : Option Font)
    (text : List UInt8) : o.advance? font? text = o'.advance? font? text := by
  rw [← o.advance?_unwritten, h, o'.advance?_unwritten]

theorem unaware_putText (text : List UInt8) : Unaware library (putText text : Action α α) := by
  intro t t' ht
  obtain ⟨result, o, run, hresult, ho⟩ := run_putText t text
  obtain ⟨result', o', run', hresult', ho'⟩ := run_putText t' text
  have same : result.toOption = result'.toOption := by
    rw [hresult, hresult', ht.core, ht.output.advance?_eq]
  rw [run, run']
  refine ⟨?_, fun _ _ _ => trivial⟩
  rintro b _ ⟨⟩
  cases result' with
  | error failure => cases same
  | ok b' =>
    obtain rfl : b = b' := Option.some.inj same
    exact ⟨_, rfl, ht.core, ht.library, ho.trans (ht.output.trans ho'.symm)⟩

theorem unaware_putRule (height width : Int32) :
    Unaware library (putRule height width : Action α Unit) := by
  refine follows_putRule (fun _ _ => SameState.unit?_eq) ?_ height width
  refine fun x y transform height width o o' ho => ho.onMarkup fun m pieces => ?_
  unfold Markup.putRule
  split <;> rfl

theorem unaware_putSvg (fragment : String) : Unaware library (putSvg fragment : Action α Unit) := by
  refine Follows.get_bind fun t t' ht => ?_
  rw [currentPoint_alike (fun _ _ => SameState.unit?_eq) ht]
  have markup (x y : α) : Unaware library (modifyMarkup fun _ m => m.putSvg x y fragment) :=
    unaware_modifyMarkup fun _ _ _ => rfl
  refine Follows.get_bind fun u u' hu => ?_
  obtain ⟨ho, ho'⟩ | ⟨_, _, ho, ho'⟩ | ⟨_, _, ho, ho'⟩ | ⟨_, _, _, ho, ho'⟩ := hu.output.kinds
  · rw [ho, ho']
    exact markup _ _
  · rw [ho, ho']
    exact .modify fun v v' hv => ⟨hv.core, hv.library, rfl⟩
  · rw [ho, ho']
    exact markup _ _
  · rw [ho, ho']
    exact markup _ _

/-- **No command depends on what was written.** -/
theorem unaware_execute [Escaping] (command : Command) :
    Unaware library (command.execute : Action α Unit) := by
  by_cases shared : command.isShared = true
  · exact OnCore.follows (fun _ _ => trivial) (Command.onCore_execute shared)
  unfold Command.execute
  cases command with
  | preamble => exact unaware_modifyMarkup fun _ _ _ => rfl
  | beginPage =>
    exact Follows.bind (unaware_modifyPlain fun _ _ _ _ => rfl) fun _ =>
      unaware_modifyCore fun _ => rfl
  | endPage => exact unaware_modifyPlain fun _ _ _ _ => rfl
  | setText text => exact (unaware_putText text).bind fun _ => unaware_modifyCore fun _ => rfl
  | putText text => exact (unaware_putText text).map _
  | setRule height width =>
    exact (unaware_putRule height width).bind fun _ => unaware_modifyCore fun _ => rfl
  | putRule height width => exact unaware_putRule height width
  | pushColor => exact unaware_modifyMarkup fun _ _ _ => rfl
  | popColor => exact unaware_popColor
  | setPaper => exact unaware_modifyMarkup fun _ _ _ => rfl
  | rawSvg fragment => exact unaware_putSvg fragment
  | postScript code =>
    exact PostScript.follows_code (fun _ => trivial) (fun _ _ => trivial)
      (fun _ _ => SameState.unit?_eq) code
  | image description =>
    exact follows_draw (fun _ _ => SameState.unit?_eq) unaware_putSvg description
  | _ => exact absurd rfl shared

/-! ## Actions that come to the same -/

/-- Whether two actions can be done on the same typesetters, and come to the same besides
    what is written. -/
structure Agrees {β : Type} (library : Library) (action action' : Action α β) : Prop where
  forth : Follows (Alike library SameState) (fun _ => True) action action'
  back : Follows (Alike library SameState) (fun _ => True) action' action

omit [Scalar α] in
theorem Agrees.bind {β γ : Type} {action action' : Action α β} {next next' : β → Action α γ}
    (h : Agrees library action action') (hnext : ∀ b, Agrees library (next b) (next' b)) :
    Agrees library (action >>= next) (action' >>= next') where
  forth := h.forth.bind fun b => (hnext b).forth
  back := h.back.bind fun b => (hnext b).back

theorem agrees_execute [Escaping] (command : Command) :
    Agrees library (command.execute : Action α Unit) command.execute where
  forth := unaware_execute command
  back := unaware_execute command

omit [Scalar α] in
theorem agrees_throw {β : Type} (failure : Failure) :
    Agrees library (throw failure : Action α β) (throw failure) where
  forth := .throw trivial _
  back := .throw trivial _

/-! ## Actions that do what a text does -/

/-- Whether an action does what a text does: it can be done if the text can be typeset, and
    then the place moves on and nothing else changes besides what is written. -/
def Sets (text : List UInt8) (action : Action α Unit) : Prop :=
  ∀ t : Typesetter α, match t.output.advance? t.core.font text with
    | some d => ∃ o, action.run.run t = (.ok (), { core := t.core.moveRight d, output := o }) ∧
        SameState o t.output
    | none => ∃ failure t', action.run.run t = (.error failure, t')

theorem sets_setText [Escaping] (text : List UInt8) :
    Sets text ((Command.setText text).execute : Action α Unit) := by
  intro t
  obtain ⟨result, o, run, hresult, ho⟩ := run_putText t text
  rw [← hresult, Command.execute, run_bind, run]
  cases result with
  | error failure => exact ⟨failure, _, rfl⟩
  | ok d => exact ⟨o, rfl, ho⟩

theorem Sets.follows {text : List UInt8} {action action' : Action α Unit} (h : Sets text action)
    (h' : Sets text action') :
    Follows (Alike library SameState) (fun _ => True) action action' := by
  intro t t' ht
  have hs := h t
  have hs' := h' t'
  rw [← ht.core, ← ht.output.advance?_eq] at hs'
  refine ⟨fun b s run => ?_, fun _ _ _ => trivial⟩
  cases hd : t.output.advance? t.core.font text with
  | none =>
    rw [hd] at hs
    obtain ⟨failure, t₁, hrun⟩ := hs
    rw [run] at hrun
    cases hrun
  | some d =>
    rw [hd] at hs hs'
    obtain ⟨o, hrun, ho⟩ := hs
    obtain ⟨o', hrun', ho'⟩ := hs'
    rw [run] at hrun
    cases hrun
    exact ⟨_, hrun', rfl, ht.library, ho.trans (ht.output.trans ho'.symm)⟩

/-- Actions that do what the same text does come to the same. -/
theorem Sets.agrees {text : List UInt8} {action action' : Action α Unit} (h : Sets text action)
    (h' : Sets text action') : Agrees library action action' where
  forth := h.follows h'
  back := h'.follows h

end SameState

/-! ## Putting texts together -/

section Joining

variable [Completion] {library : Library}

/-- Two texts one after the other do what both do together. -/
theorem Sets.bind {a b : List UInt8} {action action' : Action ℚ Unit} (h : Sets a action)
    (h' : Sets b action') : Sets (a ++ b) (action >>= fun _ => action') := by
  intro t
  have first := h t
  rw [Output.advance?_append, run_bind]
  cases ha : t.output.advance? t.core.font a with
  | none =>
    rw [ha] at first
    obtain ⟨failure, t', run⟩ := first
    rw [run]
    exact ⟨failure, t', rfl⟩
  | some x =>
    rw [ha] at first
    obtain ⟨o, run, ho⟩ := first
    rw [run]
    have second := h' { core := t.core.moveRight x, output := o }
    -- the font is the same, and so is all that the second text may depend on
    have same : o.advance? (t.core.moveRight x).font b = t.output.advance? t.core.font b :=
      ho.advance?_eq t.core.font b
    dsimp only at second
    rw [same] at second
    cases hb : t.output.advance? t.core.font b with
    | none =>
      rw [hb] at second
      exact second
    | some y =>
      rw [hb] at second
      obtain ⟨o', run', ho'⟩ := second
      refine ⟨o', ?_, ho'.trans ho⟩
      dsimp only
      rw [run']
      simp only [Core.moveRight, add_assoc]

theorem sets_singleton [Escaping] {item : Item} {text : List UInt8} (h : text? item = some text) :
    Sets text (executeAll [item] : Action ℚ Unit) := by
  rcases item with failure | command
  · cases h
  · cases command with
    | setText text' =>
      obtain rfl : text' = text := Option.some.inj h
      have alone : (executeAll [.ok (.setText text')] : Action ℚ Unit) =
          (Command.setText text').execute := bind_pure_unit
      rw [alone]
      exact sets_setText text'
    | _ => cases h

/-- **Adjacent texts do what the text does that they are put together to.** -/
theorem sets_executeAll [Escaping] {item : Item} {items : List Item}
    (h : ∀ x ∈ item :: items, isText x = true) :
    Sets ((item :: items).filterMap text?).flatten (executeAll (item :: items) : Action ℚ Unit) := by
  induction items generalizing item with
  | nil =>
    obtain ⟨text, htext⟩ := Option.isSome_iff_exists.mp (h item List.mem_cons_self)
    rw [List.filterMap_cons_some htext, List.filterMap_nil, List.flatten_singleton]
    exact sets_singleton htext
  | cons next items ih =>
    obtain ⟨hitem, hrest⟩ := List.forall_mem_cons.mp h
    obtain ⟨text, htext⟩ := Option.isSome_iff_exists.mp hitem
    have cut : (executeAll (item :: next :: items) : Action ℚ Unit) =
        executeAll [item] >>= fun _ => executeAll (next :: items) := executeAll_append [item] _
    rw [List.filterMap_cons_some htext, List.flatten_cons, cut]
    exact (sets_singleton htext).bind (ih hrest)

/-- Texts may be put together, whatever stands between the runs of them. -/
theorem agrees_textJoined [Escaping] (items : List Item) :
    Agrees library (executeAll (textJoined items) : Action ℚ Unit) (executeAll items) := by
  unfold textJoined
  induction items using replaceRuns.induct isText with
  | case1 =>
    rw [replaceRuns_nil]
    exact ⟨.pure (), .pure ()⟩
  | case2 item items hitem ih =>
    have run : ∀ x ∈ item :: items.takeWhile isText, isText x = true :=
      List.forall_mem_cons.mpr ⟨hitem, fun x hx => List.mem_takeWhile_imp hx⟩
    have cut : item :: items = (item :: items.takeWhile isText) ++ items.dropWhile isText := by
      rw [List.cons_append, List.takeWhile_append_dropWhile]
    -- the run is replaced by one text, and what comes after it is shorter
    rw [replaceRuns_cons _ hitem, executeAll_append, cut, executeAll_append]
    exact ((sets_singleton rfl).agrees (sets_executeAll run)).bind fun _ => ih
  | case3 item items hitem ih =>
    rw [replaceRuns_cons_of_not _ (eq_false_of_ne_true hitem)]
    cases item with
    | error failure => exact agrees_throw failure
    | ok command => exact (agrees_execute command).bind fun _ => ih

/-- **It makes no difference to a document whether its texts are put together**, as long as
    nothing is rounded: from whatever state, what comes in their places can be executed
    exactly if the texts can, and then registers and their stack, fonts, transforms, colours
    and open elements are the same, and all else that is kept besides what was written. -/
theorem executeAll_textStage [Escaping] (t : Typesetter ℚ) (items : List Item) :
    ((∃ t₁, (executeAll (textStage.run items)).run.run t = (.ok (), t₁)) ↔
      ∃ t₂, (executeAll items).run.run t = (.ok (), t₂)) ∧
      ∀ t₁ t₂, (executeAll (textStage.run items)).run.run t = (.ok (), t₁) →
        (executeAll items).run.run t = (.ok (), t₂) →
          t₁.core = t₂.core ∧ t₁.output.unwritten = t₂.output.unwritten := by
  obtain ⟨forth, back⟩ : Agrees t.core.library (executeAll (textStage.run items) : Action ℚ Unit)
      (executeAll items) := by
    rw [run_textStage]
    exact agrees_textJoined items
  have alike : Alike t.core.library SameState t t := ⟨rfl, rfl, rfl⟩
  refine ⟨⟨?_, ?_⟩, fun t₁ t₂ run₁ run₂ => ?_⟩
  · rintro ⟨t₁, run₁⟩
    obtain ⟨t₂, run₂, -⟩ := (forth t t alike).1 () t₁ run₁
    exact ⟨t₂, run₂⟩
  · rintro ⟨t₂, run₂⟩
    obtain ⟨t₁, run₁, -⟩ := (back t t alike).1 () t₂ run₂
    exact ⟨t₁, run₁⟩
  · obtain ⟨t₂', run₂', same⟩ := (forth t t alike).1 () t₁ run₁
    rw [run₂] at run₂'
    cases run₂'
    exact ⟨same.core, same.output⟩

end Joining

end DviMarkup
