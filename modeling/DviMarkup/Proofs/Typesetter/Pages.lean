/-
  Pages of plain text.

  A page begins with registers at zero, without saved registers and without texts, so what is
  written for it depends on fonts and transforms only, and not on the pages before it.

  * `Typesetter.blankPage` is a typesetter at the beginning of a page, as if nothing was
    written before;
  * `Output.Continues` relates plain text to the same text with something before it, and
    `later_execute`: every command matches itself then;
  * `executeAll_beginPage`: what is done from the beginning of a page on is done as on the
    blank page;
  * `pageTexts` are the texts that pages have of their own, and `written_pages`: they are
    written one after the other;
  * `pages_isolated`: both for typesetters that differ in what a page does not depend on.
-/
import Mathlib.Control.Monad.Basic
import DviMarkup.Number.Binary64
import DviMarkup.Proofs.Typesetter.Footprint
import DviMarkup.Proofs.Typesetter.Matching

namespace DviMarkup

open Typesetter

variable {α : Type}

/-- Whether plain text is kept, on one side after pages and text that are not there on the
    other.  A page was begun on both sides. -/
def Output.Continues (pages : Nat) (written : String) (o o' : Output α) : Prop :=
  ∃ p, 0 < p.pages ∧ o' = .plain p ∧
    o = .plain { p with pages := pages + p.pages, written := written ++ p.written }

variable [Scalar α]

/-! ## Commands -/

section Commands

variable {library : Library} {pages : Nat} {written : String}

/-- Whether an action matches another one if there is something before what is written. -/
def MatchesLater {β : Type} (library : Library) (pages : Nat) (written : String)
    (action action' : Action α β) : Prop :=
  Matches (Alike library (Output.Continues pages written)) action action'

omit [Scalar α] in
/-- Changes of what is kept for markup do nothing. -/
theorem later_modifyMarkup (f f' : Core α → Markup α → Markup α) :
    MatchesLater library pages written (modifyMarkup f) (modifyMarkup f') := by
  rw [modifyMarkup_eq, modifyMarkup_eq]
  refine Matches.modify fun t t' ht => ⟨ht.core, ht.library, ?_⟩
  obtain ⟨p, begun, hp', hp⟩ := ht.output
  rw [hp, hp']
  exact ⟨p, begun, rfl, rfl⟩

/-- A page can be begun, since another one was begun on both sides. -/
theorem later_beginPage :
    MatchesLater library pages written (beginPage : Action α Unit) beginPage := by
  refine Matches.bind (matches_modifyPlain ?_) fun _ =>
    OnCore.matches (onCore_modifyCore fun _ => rfl)
  rintro core _ _ ⟨p, begun, rfl, rfl⟩
  refine ⟨p.beginPage, Nat.succ_pos _, rfl, ?_⟩
  simp only [Output.onPlain, Plain.beginPage, begun, Nat.add_pos_right, if_true,
    String.append_assoc, Nat.add_assoc]

theorem later_endPage :
    MatchesLater library pages written (endPage : Action α Unit) endPage := by
  refine matches_modifyPlain ?_
  rintro core _ _ ⟨p, begun, rfl, rfl⟩
  refine ⟨p.endPage, begun, rfl, ?_⟩
  simp only [Output.onPlain, Plain.endPage, String.append_assoc]

theorem later_putText (text : List UInt8) :
    MatchesLater library pages written (putText text : Action α α) (putText text) := by
  refine Matches.get_bind fun t t' ht => ?_
  obtain ⟨p, -, hp', hp⟩ := ht.output
  rw [hp, hp']
  refine onCore_currentFont.matches.bind fun font => ?_
  have measured : MatchesLater library pages written
      (measure font p.mode text : Action α (Extent α)) (measure font p.mode text) := by
    unfold Typesetter.measure
    split
    · exact .pure _
    · exact .throw _
  refine Matches.bind measured fun extent => ?_
  refine Matches.bind (matches_modifyPlain ?_) fun _ => .pure _
  rintro core _ _ ⟨q, begun, rfl, rfl⟩
  exact ⟨q.putText core.position.h core.position.v font extent.width text, begun, rfl, rfl⟩

omit [Scalar α] in
/-- Plain text has no colours. -/
theorem later_popColor :
    MatchesLater library pages written (popColor : Action α Unit) popColor := by
  refine Matches.get_bind fun t t' ht => ?_
  obtain ⟨p, -, hp', hp⟩ := ht.output
  rw [hp, hp']
  exact .pure ()

omit [Scalar α] in
theorem unit?_continues {o o' : Output α} (h : o.Continues pages written o') :
    o.unit? = o'.unit? := by
  obtain ⟨p, -, rfl, rfl⟩ := h
  rfl

theorem later_putRule (height width : Int32) :
    MatchesLater library pages written (putRule height width : Action α Unit)
      (putRule height width) :=
  Matches.get_bind fun _ _ _ => later_modifyMarkup _ _

/-- The fragments need not be the same, since none is written. -/
theorem later_putSvg (fragment fragment' : String) :
    MatchesLater library pages written (putSvg fragment : Action α Unit) (putSvg fragment') := by
  refine Matches.get_bind fun t t' _ => Matches.get_bind fun u u' hu => ?_
  obtain ⟨p, -, hp', hp⟩ := hu.output
  rw [hp, hp']
  exact later_modifyMarkup _ _

theorem later_draw [Escaping] (description : String) :
    MatchesLater library pages written (Image.draw description : Action α Unit)
      (Image.draw description) := by
  unfold Image.draw
  dsimp only
  split
  · exact .pure ()
  · exact Matches.get_bind fun _ _ _ => later_putSvg _ _

/-- **Each command matches itself if there is something before what is written.** -/
theorem later_execute [Escaping] (command : Command) :
    MatchesLater library pages written (command.execute : Action α Unit) (command.execute) := by
  by_cases shared : command.isShared = true
  · exact (Command.onCore_execute shared).matches
  unfold Command.execute
  cases command with
  | preamble => exact later_modifyMarkup _ _
  | beginPage => exact later_beginPage
  | endPage => exact later_endPage
  | setText text =>
    exact (later_putText text).bind fun _ => OnCore.matches (onCore_modifyCore fun _ => rfl)
  | putText text => exact (later_putText text).map _
  | setRule height width =>
    exact (later_putRule height width).bind fun _ =>
      OnCore.matches (onCore_modifyCore fun _ => rfl)
  | putRule height width => exact later_putRule height width
  | pushColor => exact later_modifyMarkup _ _
  | popColor => exact later_popColor
  | setPaper => exact later_modifyMarkup _ _
  | rawSvg fragment => exact later_putSvg fragment fragment
  | postScript code => exact PostScript.matches_code (fun _ _ => unit?_continues) code
  | image description => exact later_draw description
  | _ => exact absurd rfl shared

end Commands

/-! ## Beginnings of pages -/

/-- A typesetter at the beginning of a page, as if no page was begun and nothing written
    before. -/
def Typesetter.blankPage (t : Typesetter α) : Typesetter α :=
  { core := t.core.beginPage
    output := t.output.onPlain fun p => { p with snippets := [], pages := 1, written := "" } }

/-- What comes between what was written and the next page. -/
def Plain.feed (p : Plain α) : String :=
  if 0 < p.pages then "\x0C" else ""

omit [Scalar α] in
theorem Plain.written_beginPage (p : Plain α) : p.beginPage.written = p.written ++ p.feed := by
  unfold Plain.beginPage Plain.feed
  split
  · rfl
  · rw [String.append_empty]

/-- **What is done from the beginning of a page on is done as on the blank page**, with the
    same failures, after what was written before and a form feed if there was a page. -/
theorem executeAll_beginPage [Escaping] {t : Typesetter α} {p : Plain α}
    (plain : t.output = .plain p) (parameters : Vector Int32 10) {items : List Item}
    {result : Except Failure Unit} {u : Typesetter α}
    (alone : (executeAll items).run.run t.blankPage = (result, u)) :
    ∃ t', (executeAll (.ok (.beginPage parameters) :: items)).run.run t = (result, t') ∧
      Alike t.core.library (Output.Continues p.pages (p.written ++ p.feed)) t' u := by
  have begun : (executeAll (.ok (.beginPage parameters) :: items)).run.run t =
      (executeAll items).run.run { core := t.core.beginPage, output := .plain p.beginPage } := by
    obtain ⟨core, output⟩ := t
    obtain rfl : output = .plain p := plain
    rfl
  have blank : t.blankPage =
      { core := t.core.beginPage
        output := .plain { p with snippets := [], pages := 1, written := "" } } := by
    rw [blankPage, plain]
    rfl
  have matched := matches_executeAll (R := Alike t.core.library
      (Output.Continues p.pages (p.written ++ p.feed))) later_execute items
    { core := t.core.beginPage, output := .plain p.beginPage } t.blankPage
  rcases run : (executeAll (.ok (.beginPage parameters) :: items)).run.run t with ⟨result', t'⟩
  rw [← begun, run, alone, blank] at matched
  obtain ⟨same, alike⟩ := matched ⟨rfl, rfl, _, Nat.one_pos, rfl, by
    rw [String.append_empty, ← Plain.written_beginPage]
    rfl⟩
  obtain rfl : result' = result := same
  exact ⟨t', rfl, alike⟩

theorem Alike.written [Escaping] {library : Library} {pages : Nat} {written : String}
    {t u : Typesetter α} (h : Alike library (Output.Continues pages written) t u) :
    t.written = written ++ u.written := by
  obtain ⟨p, -, hu, ht⟩ := h.output
  rw [Typesetter.written, Typesetter.written, ht, hu]

theorem Alike.blankPage_eq {library : Library} {pages : Nat} {written : String}
    {t u : Typesetter α} (h : Alike library (Output.Continues pages written) t u) :
    t.blankPage = u.blankPage := by
  obtain ⟨p, -, hu, ht⟩ := h.output
  rw [blankPage, blankPage, h.core, ht, hu]
  rfl

/-! ## Pages one after the other -/

/-- A page: how it begins and what is done on it. -/
structure Page where
  parameters : Vector Int32 10
  items : List Item

/-- What is done for pages. -/
def Page.allItems (pages : List Page) : List Item :=
  pages.flatMap fun page => .ok (.beginPage page.parameters) :: page.items

/-- What is written for each page on its own, up to the first failure.  The next page finds
    the fonts and transforms that this one leaves. -/
def pageTexts [Escaping] (t : Typesetter α) : List Page → List String
  | [] => []
  | page :: pages =>
    let run := (executeAll page.items).run.run t.blankPage
    run.2.written :: match run.1 with
      | .ok _ => pageTexts run.2 pages
      | .error _ => []

theorem pageTexts_congr [Escaping] {t u : Typesetter α} (h : t.blankPage = u.blankPage)
    (pages : List Page) : pageTexts t pages = pageTexts u pages := by
  cases pages with
  | nil => rfl
  | cons page pages => rw [pageTexts, pageTexts, h]

/-- **What is written for pages is their own texts, with form feeds between them**, after what
    was written before. -/
theorem written_pages [Escaping] {t : Typesetter α} {p : Plain α} (plain : t.output = .plain p)
    {pages : List Page} (nonempty : pages ≠ []) :
    ((executeAll (Page.allItems pages)).run.run t).2.written =
      p.written ++ p.feed ++ "\x0C".intercalate (pageTexts t pages) := by
  induction pages generalizing t p with
  | nil => exact absurd rfl nonempty
  | cons page pages ih =>
    rcases alone : (executeAll page.items).run.run t.blankPage with ⟨result, u⟩
    obtain ⟨t₁, run, alike⟩ := executeAll_beginPage plain page.parameters alone
    have split : (executeAll (Page.allItems (page :: pages)) : Action α Unit) =
        executeAll (.ok (.beginPage page.parameters) :: page.items) >>= fun _ =>
          executeAll (Page.allItems pages) := executeAll_append _ _
    rw [split, run_bind, pageTexts, run, alone]
    cases result with
    | error failure => exact alike.written.trans (by rw [String.intercalate_singleton])
    | ok _ =>
      cases pages with
      | nil => exact alike.written.trans (by rw [pageTexts, String.intercalate_singleton])
      | cons next pages =>
        obtain ⟨q, begun, hu, ht₁⟩ := alike.output
        have feed : Plain.feed { q with
            pages := p.pages + q.pages, written := p.written ++ p.feed ++ q.written } = "\x0C" :=
          if_pos (Nat.add_pos_right _ begun)
        have later := ih ht₁ (List.cons_ne_nil _ _)
        have more : pageTexts u (next :: pages) ≠ [] := List.cons_ne_nil _ _
        have text : u.written = q.written := by
          rw [Typesetter.written, hu]
        rw [feed, pageTexts_congr alike.blankPage_eq] at later
        rw [String.intercalate_cons_of_ne_nil more, text]
        refine later.trans ?_
        simp only [String.append_assoc]

/-! ## The first page -/

/-- What a view shows of what is kept for plain text, if plain text is kept. -/
def Typesetter.plain? {γ : Type} (view : Plain α → γ) (t : Typesetter α) : Option γ :=
  match t.output with
  | .plain p => some (view p)
  | _ => none

omit [Scalar α] in
theorem Typesetter.plain?_eq_some {γ : Type} {view : Plain α → γ} {t : Typesetter α} {c : γ} :
    t.plain? view = some c ↔ ∃ p, t.output = .plain p ∧ view p = c := by
  obtain ⟨core, output⟩ := t
  cases output <;> simp [plain?]

/-- The number of pages that were begun, if plain text is kept. -/
def Typesetter.pagesBegun? (t : Typesetter α) : Option Nat :=
  t.plain? Plain.pages

/-- Most commands keep all that is kept for plain text: those that neither begin nor end a page
    and typeset no text. -/
theorem Command.keeps_plain [Escaping] {γ : Type} (view : Plain α → γ) {command : Command}
    (begins : ∀ parameters, command ≠ .beginPage parameters) (ends : command ≠ .endPage)
    (set : ∀ text, command ≠ .setText text) (put : ∀ text, command ≠ .putText text) :
    Keeps (Typesetter.plain? view) (command.execute : Action α Unit) := by
  have core (f : Core α → Core α) : Keeps (Typesetter.plain? view) (modifyCore f) :=
    keeps_modifyCore (fun _ _ => rfl) f
  by_cases shared : command.isShared = true
  · exact OnCore.keeps (fun _ _ => rfl) fun _ => Command.onCore_execute shared
  cases command with
  | preamble => exact keeps_modifyMarkup fun _ _ => rfl
  | beginPage parameters => exact absurd rfl (begins parameters)
  | endPage => exact absurd rfl ends
  | setText text => exact absurd rfl (set text)
  | putText text => exact absurd rfl (put text)
  | setRule height width =>
    exact (keeps_putRule (fun _ _ _ => rfl) height width).bind fun _ => core _
  | putRule height width => exact keeps_putRule (fun _ _ _ => rfl) height width
  | pushColor => exact keeps_modifyMarkup fun _ _ => rfl
  | popColor => exact keeps_popColor fun _ _ _ _ => rfl
  | setPaper => exact keeps_modifyMarkup fun _ _ => rfl
  | rawSvg fragment => exact keeps_putSvg (fun _ _ _ _ _ => rfl) (fun _ _ _ => rfl) fragment
  | postScript code => exact PostScript.keeps_execute (fun _ _ => rfl) code
  | image description => exact keeps_draw (fun _ _ _ _ _ => rfl) (fun _ _ _ => rfl) description
  | _ => exact absurd rfl shared

/-- Only one command begins pages. -/
theorem Command.keeps_pagesBegun [Escaping] {command : Command}
    (h : ∀ parameters, command ≠ .beginPage parameters) :
    Keeps pagesBegun? (command.execute : Action α Unit) := by
  cases command with
  | endPage => exact keeps_modifyPlain fun _ _ => rfl
  | setText text =>
    exact (keeps_putText (fun _ _ _ => rfl) (fun _ _ _ => rfl) text).bind fun _ =>
      keeps_modifyCore (fun _ _ => rfl) _
  | putText text => exact (keeps_putText (fun _ _ _ => rfl) (fun _ _ _ => rfl) text).map _
  | _ =>
    exact Command.keeps_plain Plain.pages h Command.noConfusion (fun _ => Command.noConfusion)
      fun _ => Command.noConfusion

/-- What is done before the first page, and the pages. -/
def splitPages : List Item → List Item × List Page
  | [] => ([], [])
  | .ok (.beginPage parameters) :: items =>
    ([], { parameters, items := (splitPages items).1 } :: (splitPages items).2)
  | item :: items => (item :: (splitPages items).1, (splitPages items).2)

theorem splitPages_append (items : List Item) :
    (splitPages items).1 ++ Page.allItems (splitPages items).2 = items := by
  fun_induction splitPages items with
  | case1 => rfl
  | case2 parameters items ih =>
    rw [Page.allItems, List.flatMap_cons, List.nil_append, List.cons_append, ← Page.allItems, ih]
  | case3 item items _ ih => rw [List.cons_append, ih]

/-- No page begins before the first page, nor on a page. -/
theorem beginPage_notMem_splitPages (items : List Item) (parameters : Vector Int32 10) :
    ∀ part ∈ (splitPages items).1 :: (splitPages items).2.map Page.items,
      .ok (.beginPage parameters) ∉ part := by
  fun_induction splitPages items with
  | case1 => simp
  | case2 _ items ih =>
    rintro part (_ | ⟨_, h⟩)
    · exact List.not_mem_nil
    · exact ih part h
  | case3 item items other ih =>
    rintro part (_ | ⟨_, h⟩)
    · refine List.not_mem_cons_of_ne_of_not_mem ?_ (ih _ List.mem_cons_self)
      exact fun h => other parameters h.symm
    · exact ih part (List.mem_cons_of_mem _ h)

/-- What is written for pages on a new typesetter, after what is done before the first. -/
theorem written_splitPages [Escaping] (library : Library) (encodings : Encodings)
    (mode : Strictness) (items : List Item) :
    let first := (executeAll (splitPages items).1).run.run
      (.plain library encodings mode : Typesetter α)
    ((executeAll items).run.run (.plain library encodings mode : Typesetter α)).2.written =
      first.2.written ++ match first.1 with
        | .ok _ => "\x0C".intercalate (pageTexts first.2 (splitPages items).2)
        | .error _ => "" := by
  have begun : ((executeAll (splitPages items).1).run.run
      (.plain library encodings mode : Typesetter α)).2.pagesBegun? = some 0 := by
    refine keeps_executeAll (fun command h => ?_) (.plain library encodings mode : Typesetter α)
    refine Command.keeps_pagesBegun ?_
    rintro parameters rfl
    exact beginPage_notMem_splitPages items parameters _ List.mem_cons_self h
  have split : (executeAll items : Action α Unit) =
      executeAll (splitPages items).1 >>= fun _ =>
        executeAll (Page.allItems (splitPages items).2) := by
    rw [← executeAll_append, splitPages_append]
  rw [split, run_bind]
  generalize (executeAll (splitPages items).1).run.run
    (.plain library encodings mode : Typesetter α) = first at begun ⊢
  obtain ⟨failure | _, t₁⟩ := first
  · exact String.append_empty.symm
  · obtain ⟨p, plain, none⟩ := plain?_eq_some.mp begun
    cases h : (splitPages items).2 with
    | nil => exact String.append_empty.symm
    | cons page pages =>
      refine (written_pages plain (List.cons_ne_nil page pages)).trans ?_
      rw [Plain.feed, none, if_neg (Nat.lt_irrefl 0), String.append_empty, Typesetter.written,
        plain]

/-- **Pages of plain text are isolated from each other.**
    * Once a page was begun, what is done from the beginning of another one on depends on
      fonts and transforms, the library, the encodings and the mode: whatever the registers,
      the saved registers, the texts that were not written, the number of pages and the text
      so far, commands come to the same result, a failure or not, write the same text, and
      leave the same typesetter but for the number of pages, which grows by the same number.
    * So what a new typesetter writes is what it writes before the first page, and then the
      pages' own texts with form feeds between them. -/
theorem pages_isolated [Escaping] :
    (∀ (core : Core α) (p : Plain α) (parameters : Vector Int32 10) (items : List Item),
      ∃ (result : Except Failure Unit) (core' : Core α) (later : Plain α) (text : String),
        ∀ position stack snippets pages written, 0 < pages →
        (executeAll (.ok (.beginPage parameters) :: items)).run.run
          { core := { core with position, stack }
            output := .plain { p with snippets, pages, written } } =
          (result, { core := core', output := .plain { later with
            pages := pages + later.pages, written := written ++ text } })) ∧
      ∀ (library : Library) (encodings : Encodings) (mode : Strictness) (items : List Item),
        let first := (executeAll (splitPages items).1).run.run
          (.plain library encodings mode : Typesetter α)
        ((executeAll items).run.run (.plain library encodings mode : Typesetter α)).2.written =
          first.2.written ++ match first.1 with
            | .ok _ => "\x0C".intercalate (pageTexts first.2 (splitPages items).2)
            | .error _ => "" := by
  refine ⟨fun core p parameters items => ?_, written_splitPages⟩
  rcases alone : (executeAll items).run.run
    ({ core, output := .plain p } : Typesetter α).blankPage with ⟨result, u⟩
  obtain ⟨_, -, alike⟩ :=
    executeAll_beginPage (t := { core, output := .plain p }) rfl parameters alone
  obtain ⟨q, -, hq, -⟩ := alike.output
  refine ⟨result, u.core, q, "\x0C" ++ q.written, ?_⟩
  intro position stack snippets pages written begun
  -- this typesetter begins the same page
  obtain ⟨⟨_, _⟩, run, alike⟩ := executeAll_beginPage
    (t := { core := { core with position, stack }
            output := .plain { p with snippets, pages, written } }) rfl parameters alone
  obtain ⟨q', -, hq', output⟩ := alike.output
  obtain rfl : q = q' := Output.plain.inj (hq.symm.trans hq')
  rw [Plain.feed, if_pos begun, String.append_assoc] at output
  rw [run]
  exact congrArg (result, ·) (by rw [Typesetter.mk.injEq]; exact ⟨alike.core, output⟩)

/-- A font with two characters. -/
def narrowFont : Metrics :=
  ((Metrics.empty 0 0xA00000).insert 104 ⟨0x80000, 0x70000, 0, 0, none⟩).insert 105
    ⟨0x40000, 0x70000, 0, 0, none⟩

/-- A typesetter in the middle of its first page, with saved registers and a text that is not
    written yet. -/
def unfinished : Typesetter Binary64 :=
  ((executeAll [.ok (.defineFont 0 ⟨"cmr10", 0, 0xA0000, 0xA0000⟩), .ok (.enableFont 0),
    .ok (.beginPage (.replicate 10 0)), .ok .push, .ok (.setText [105])]).run.run
      (.plain (.ofList [("cmr10", narrowFont)])
        (.insert (.insert {} "cmr10" 104 'h') "cmr10" 105 'i') .strict)).2

/-- Two pages, the second of which fails in the end. -/
def nextPages : List Item :=
  [.ok (.beginPage (.replicate 10 0)), .ok (.setText [104]), .ok .endPage,
    .ok (.beginPage (.replicate 10 1)), .ok (.setText [105]), .ok .endPage, .ok .pop]

/-- What the typesetter in the middle of its first page comes to. -/
def interrupted : Except Failure Unit × Typesetter Binary64 :=
  (executeAll nextPages).run.run unfinished

/-- Neither the text that was not written nor the saved registers come to the next pages: the
    same is written by a typesetter that has begun seven pages and is at rest. -/
theorem pages_isolated_unfinished :
    unfinished.core.stack.length = 1 ∧ ∃ (p later : Plain Binary64) (core : Core Binary64),
      unfinished.output = .plain p ∧ p.snippets.length = 1 ∧
        interrupted =
          (.error .positionStackUnderflow, { core, output := .plain { later with
            pages := p.pages + later.pages, written := p.written ++ "\x0Ch\n\x0Ci\n" } }) ∧
        (executeAll nextPages).run.run
          { core := unfinished.core.beginPage
            output := .plain { p with snippets := [], pages := 7, written := "cover" } } =
          (.error .positionStackUnderflow, { core, output := .plain { later with
            pages := 7 + later.pages, written := "cover" ++ "\x0Ch\n\x0Ci\n" } }) := by
  have seen : unfinished.plain? (fun p => (p.pages, p.snippets.length)) = some (1, 1) := by
    decide +kernel
  obtain ⟨p, plain, counted⟩ := plain?_eq_some.mp seen
  obtain ⟨one, pending⟩ := Prod.mk.inj counted
  obtain ⟨result, core, later, text, run⟩ := pages_isolated.1 unfinished.core p
    (.replicate 10 0) nextPages.tail
  have first := run unfinished.core.position unfinished.core.stack p.snippets p.pages p.written
    (one ▸ Nat.one_pos)
  rw [show Output.plain p = unfinished.output from plain.symm] at first
  have first : interrupted = _ := first
  -- what is evaluated at the first typesetter holds of both
  have fails : interrupted.1 = .error .positionStackUnderflow := by
    decide +kernel
  have writes : interrupted.2.written = unfinished.written ++ "\x0Ch\n\x0Ci\n" := by
    decide +kernel
  have before : unfinished.written = p.written := by
    rw [Typesetter.written, plain]
  rw [first] at fails writes
  obtain rfl : result = .error .positionStackUnderflow := fails
  obtain rfl : text = "\x0Ch\n\x0Ci\n" := by
    rw [before] at writes
    exact String.append_right_inj _ |>.mp writes
  exact ⟨by decide +kernel, p, later, core, plain, pending, first,
    run .origin [] [] 7 "cover" (by decide)⟩

end DviMarkup
