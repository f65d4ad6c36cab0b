/-
  Markup and plain text agree on the document.

  What is written differs, but registers, fonts and transforms come to the same, as
  long as no code asks for the place or goes to one: these are points in markup and
  DVI units in plain text.

  * `Counterparts` relates what is kept for markup to what is kept for plain text;
  * `Command.Placeless` holds of the commands without code that asks for the place or
    goes to one;
  * `followsInPlain_execute`: such a command on a typesetter of markup is followed by
    the same command on one of plain text;
  * `core_plain_eq`: after such commands both share the same.
-/
import Mathlib.Tactic.FinCases
import DviMarkup.Number.Binary64
import DviMarkup.Proofs.Typesetter.Following

namespace DviMarkup

variable {α : Type}

/-- Whether markup is kept on one side and plain text in the same mode on the other. -/
def Counterparts (o o' : Output α) : Prop :=
  ∃ m p, o = .markup m ∧ o' = .plain p ∧ m.mode = p.mode

/-- Whether no code of a command asks for the place or goes to one. -/
def Command.Placeless : Command → Prop
  | .postScript code => ∀ name, .ok (.operator name) ∈ PostScript.tokens code →
    name ≠ "currentpoint" ∧ name ≠ "moveto"
  | _ => True

/-! ## Commands -/

/-- Whether an action on a typesetter of markup is followed by the same action on one of
    plain text.  The first may fail for whatever cause. -/
def FollowsInPlain {β : Type} (library : Library) (action action' : Action α β) : Prop :=
  Follows (Alike library Counterparts) (fun _ => True) action action'

section Commands

variable {library : Library}

theorem OnCore.followsInPlain {β : Type} {action : Action α β} (h : OnCore library action) :
    FollowsInPlain library action action :=
  h.follows fun _ _ => trivial

theorem followsInPlain_modifyCore {f : Core α → Core α} (h : ∀ c, (f c).library = c.library) :
    FollowsInPlain library (Typesetter.modifyCore f) (Typesetter.modifyCore f) :=
  (Typesetter.onCore_modifyCore h).followsInPlain

/-- What changes for markup only has no counterpart. -/
theorem followsInPlain_modifyMarkup {f f' : Core α → Markup α → Markup α}
    (h : ∀ core m, (f core m).mode = m.mode) :
    FollowsInPlain library (Typesetter.modifyMarkup f) (Typesetter.modifyMarkup f') := by
  rw [Typesetter.modifyMarkup_eq, Typesetter.modifyMarkup_eq]
  refine Follows.modify fun t t' ht => ⟨ht.core, ht.library, ?_⟩
  obtain ⟨m, p, hm, hp, hmode⟩ := ht.output
  rw [hm, hp]
  exact ⟨_, p, rfl, rfl, (h t.core m).trans hmode⟩

theorem followsInPlain_modifyPlain {f : Core α → Plain α → Plain α}
    (h : ∀ core p, (f core p).mode = p.mode) :
    FollowsInPlain library (Typesetter.modifyPlain f) (Typesetter.modifyPlain f) := by
  refine Typesetter.follows_modifyPlain ?_
  rintro core _ _ ⟨m, p, rfl, rfl, hmode⟩
  exact ⟨m, f core p, rfl, rfl, hmode.trans (h core p).symm⟩

/-- Texts are written at once as markup, and are kept for the end of the page as plain
    text. -/
theorem followsInPlain_modify {f : Core α → Markup α → Markup α} {g : Core α → Plain α → Plain α}
    (hf : ∀ core m, (f core m).mode = m.mode) (hg : ∀ core p, (g core p).mode = p.mode) :
    FollowsInPlain library (Typesetter.modifyMarkup f) (Typesetter.modifyPlain g) := by
  rw [Typesetter.modifyMarkup_eq, Typesetter.modifyPlain_eq]
  refine Follows.modify fun t t' ht => ⟨ht.core, ht.library, ?_⟩
  obtain ⟨m, p, hm, hp, hmode⟩ := ht.output
  rw [hm, hp]
  exact ⟨_, _, rfl, rfl, (hf t.core m).trans (hmode.trans (hg t'.core p).symm)⟩

/-- Plain text has no colours to come back to. -/
theorem followsInPlain_popColor :
    FollowsInPlain library (Typesetter.popColor : Action α Unit) Typesetter.popColor := by
  refine Follows.get_bind fun t t' ht => ?_
  obtain ⟨m, p, hm, hp, -⟩ := ht.output
  rw [hm, hp]
  dsimp only
  split
  · exact .throw trivial _
  · rw [Typesetter.modifyMarkup_eq]
    refine Follows.modify_pure fun u u' hu => ⟨hu.core, hu.library, ?_⟩
    obtain ⟨m, p, hm, hp, hmode⟩ := hu.output
    rw [hm, hp]
    exact ⟨_, p, rfl, rfl, hmode⟩

variable [Scalar α]

theorem followsInPlain_putText (text : List UInt8) :
    FollowsInPlain library (Typesetter.putText text : Action α α) (Typesetter.putText text) := by
  refine Follows.get_bind fun t t' ht => ?_
  obtain ⟨m, p, hm, hp, hmode⟩ := ht.output
  rw [hm, hp]
  refine (Typesetter.onCore_currentFont.followsInPlain).bind fun font => ?_
  rw [hmode]
  have measured : FollowsInPlain library (Typesetter.measure font p.mode text : Action α (Extent α))
      (Typesetter.measure font p.mode text) := by
    unfold Typesetter.measure
    split
    · exact .pure _
    · exact .throw trivial _
  refine Follows.bind measured fun extent => ?_
  split
  · exact .throw trivial _
  · refine Follows.bind (followsInPlain_modify (fun core m => ?_) fun _ _ => rfl) fun _ => .pure _
    unfold Markup.putText
    split <;> rfl

theorem followsInPlain_putRule (height width : Int32) :
    FollowsInPlain library (Typesetter.putRule height width : Action α Unit)
      (Typesetter.putRule height width) := by
  refine Follows.get_bind fun t t' _ => followsInPlain_modifyMarkup fun core m => ?_
  unfold Markup.putRule
  split <;> rfl

/-- The fragments need not be the same, since none is written in plain text. -/
theorem followsInPlain_putSvg (fragment fragment' : String) :
    FollowsInPlain library (Typesetter.putSvg fragment : Action α Unit)
      (Typesetter.putSvg fragment') := by
  refine Follows.get_bind fun t t' _ => Follows.get_bind fun u u' hu => ?_
  obtain ⟨m, p, hm, hp, -⟩ := hu.output
  rw [hm, hp]
  exact followsInPlain_modifyMarkup fun _ _ => rfl

theorem followsInPlain_draw [Escaping] (description : String) :
    FollowsInPlain library (Image.draw description : Action α Unit) (Image.draw description) := by
  unfold Image.draw
  dsimp only
  split
  · exact .pure ()
  · exact Follows.get_bind fun t t' _ => followsInPlain_putSvg _ _

theorem followsInPlain_code {code : String} (h : Command.Placeless (.postScript code)) :
    FollowsInPlain library (PostScript.execute code : Action α Unit) (PostScript.execute code) :=
  PostScript.follows_execute (fun _ => trivial) fun name hname =>
    PostScript.follows_operator (fun _ => trivial)
      (fun change => change.onCore_run.followsInPlain) (h name hname).1 (h name hname).2

/-- **Each command on a typesetter of markup is followed by the same command on one of
    plain text**, unless its code has to do with places. -/
theorem followsInPlain_execute [Escaping] {command : Command} (h : command.Placeless) :
    FollowsInPlain library (command.execute : Action α Unit) command.execute := by
  by_cases shared : command.isShared = true
  · exact (Command.onCore_execute shared).followsInPlain
  unfold Command.execute
  cases command with
  | preamble => exact followsInPlain_modifyMarkup fun _ _ => rfl
  | beginPage =>
    exact Follows.bind (followsInPlain_modifyPlain fun _ _ => rfl) fun _ =>
      followsInPlain_modifyCore fun _ => rfl
  | endPage => exact followsInPlain_modifyPlain fun _ _ => rfl
  | setText text =>
    exact (followsInPlain_putText text).bind fun _ => followsInPlain_modifyCore fun _ => rfl
  | putText text => exact (followsInPlain_putText text).map _
  | setRule height width =>
    exact (followsInPlain_putRule height width).bind fun _ =>
      followsInPlain_modifyCore fun _ => rfl
  | putRule height width => exact followsInPlain_putRule height width
  | pushColor => exact followsInPlain_modifyMarkup fun _ _ => rfl
  | popColor => exact followsInPlain_popColor
  | setPaper => exact followsInPlain_modifyMarkup fun _ _ => rfl
  | rawSvg fragment => exact followsInPlain_putSvg fragment fragment
  | postScript code => exact followsInPlain_code h
  | image description => exact followsInPlain_draw description
  | _ => exact absurd rfl shared

end Commands

/-! ## Documents -/

variable [Scalar α]

/-- **Markup and plain text agree on the document**: if commands can be executed on a new
    typesetter of markup, so they can on one of plain text, and registers and their stack,
    fonts, transform and its stack are the same afterwards. -/
theorem core_plain_eq [Escaping] (library : Library) (encodings : Encodings) (mode : Strictness)
    {commands : List Command} (placeless : ∀ command ∈ commands, command.Placeless)
    {t : Typesetter α}
    (run : (executeAll (commands.map .ok)).run.run (.markup library encodings mode) = (.ok (), t)) :
    ∃ t', (executeAll (commands.map .ok)).run.run (.plain library encodings mode) = (.ok (), t') ∧
      t'.core = t.core := by
  have follows : FollowsInPlain library (executeAll (commands.map .ok) : Action α Unit)
      (executeAll (commands.map .ok)) := by
    refine follows_executeAll (fun command h => ?_) fun failure h => ?_
    · obtain ⟨_, hmem, ⟨⟩⟩ := List.mem_map.mp h
      exact followsInPlain_execute (placeless command hmem)
    · obtain ⟨_, -, ⟨⟩⟩ := List.mem_map.mp h
  obtain ⟨succeeds, -⟩ := follows (.markup library encodings mode) (.plain library encodings mode)
    ⟨rfl, rfl, _, _, rfl, rfl, rfl⟩
  obtain ⟨t', run', ht⟩ := succeeds () t run
  exact ⟨t', run', ht.core.symm⟩

/-- A font with one character. -/
def smallFont : Metrics :=
  (Metrics.empty 0 0xA00000).insert 104 ⟨0x80000, 0x70000, 0, 0, none⟩

/-- A page with a text, a rule, code, a colour and markup. -/
def smallPage : List Command :=
  [.defineFont 0 ⟨"cmr10", 0, 0xA0000, 0xA0000⟩, .enableFont 0, .beginPage (.replicate 10 0), .push,
    .setText [104, 104], .setRule 5 7, .pop, .postScript "gsave 2 3 scale", .pushColor "white",
    .rawSvg "<svg>\x7b?x\x7d", .endPage]

/-- What a new typesetter of markup comes to on the page. -/
def smallRun : Except Failure Unit × Typesetter Binary64 :=
  (executeAll (smallPage.map .ok)).run.run
    (.markup (.ofList [("cmr10", smallFont)]) (.insert {} "cmr10" 104 'h') .strict)

/-- The page comes to the same as plain text. -/
theorem core_plain_eq_smallPage :
    (∀ command ∈ smallPage, command.Placeless) ∧ smallRun.1.isOk = true ∧
      ∃ t', (executeAll (smallPage.map .ok)).run.run
        (.plain (.ofList [("cmr10", smallFont)]) (.insert {} "cmr10" 104 'h') .strict) =
          (.ok (), t') ∧ t'.core = smallRun.2.core := by
  have code : (PostScript.tokens "gsave 2 3 scale").map Except.toOption =
      [some (.operator "gsave"), some (.number (.finite false 2 0)),
        some (.number (.finite false 3 0)), some (.operator "scale")] := by
    decide +kernel
  have placeless : ∀ command ∈ smallPage, command.Placeless := by
    intro command h
    fin_cases h <;> try trivial
    intro name hname
    have hname : some (.operator name) ∈
        (PostScript.tokens "gsave 2 3 scale").map Except.toOption := List.mem_map_of_mem hname
    rw [code] at hname
    obtain rfl | rfl : name = "gsave" ∨ name = "scale" := by simpa using hname
    · decide
    · decide
  have succeeds : smallRun.1.isOk = true := by
    decide +kernel
  refine ⟨placeless, succeeds, core_plain_eq _ _ _ placeless ?_⟩
  rcases h : smallRun with ⟨failure | _, t⟩
  · rw [h] at succeeds
    cases succeeds
  · exact h

end DviMarkup
