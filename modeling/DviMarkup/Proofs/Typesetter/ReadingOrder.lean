/-
  The reading order of plain text.

  Texts are kept in the order in which they are typeset, and sorted when the page ends.  In
  the total order of numbers, texts at different places never compare as the same, so the
  order of typesetting decides between texts at the same place only.

  * `keptTexts` are the texts that commands leave to be written, and `texts_foldl_after`: they
    are what is kept;
  * `Closes` is what ends a page: it writes a text, and nothing more if it is done again;
  * `Arranged` relates a page to its texts in reading order, and `arranged_pageText`: pages are
    arranged like this;
  * `pageText_eq_of_perm`: texts at different places come out the same in whatever order they
    are typeset;
  * `page_in_reading_order`: all of this for what commands do to a typesetter.
-/
import Mathlib.Data.List.Pairwise
import DviMarkup.Proofs.Number.Order
import DviMarkup.Proofs.Typesetter.Fragments
import DviMarkup.Proofs.Typesetter.Pages
import DviMarkup.Proofs.Typesetter.Texts

namespace DviMarkup

open Typesetter Scalar

deriving instance DecidableEq for Snippet

/-! ## Texts that are kept -/

section Kept

variable {α : Type} [Scalar α]

/-- What is kept of a text. -/
def Plain.snippet (p : Plain α) (h v : α) (font : Font) (width : α) (text : List UInt8) :
    Snippet α :=
  { h, v, stop := h + width, fontSize := ofInt font.scaleFactor.toNat
    text := String.ofList (text.map (p.encodings.glyph font.name)) }

/-- What is kept of a text at the current place, if it can be typeset as plain text. -/
def Typesetter.snippet? (t : Typesetter α) (text : List UInt8) : Option (Snippet α) :=
  match t.output, t.core.font with
  | .plain p, some font =>
    (font.measure p.mode text : Except UInt8 (Extent α)).toOption.map fun extent =>
      p.snippet t.core.position.h t.core.position.v font extent.width text
  | _, _ => none

/-- What is kept of the text of a command, if there is a text and it can be typeset. -/
def Command.snippet? (t : Typesetter α) : Command → Option (Snippet α)
  | .setText text | .putText text => t.snippet? text
  | _ => none

/-- Whether a command begins or ends a page. -/
def Command.isPage : Command → Bool
  | .beginPage _ | .endPage => true
  | _ => false

/-- The texts that are still to be written after commands, in the order of typesetting, if
    some were before: a page that begins has none, and a page that ends leaves none. -/
def keptTexts [Escaping] (t : Typesetter α) (texts : List (Snippet α)) :
    List Command → List (Snippet α)
  | [] => texts
  | command :: commands =>
    keptTexts (t.after command)
      (if command.isPage then [] else texts ++ (command.snippet? t).toList) commands

/-- The texts that are kept, in the order of typesetting, if plain text is written. -/
def Typesetter.texts? (t : Typesetter α) : Option (List (Snippet α)) :=
  t.plain? fun p => p.snippets.reverse

theorem texts_putText {t : Typesetter α} {texts : List (Snippet α)} (kept : t.texts? = some texts)
    (text : List UInt8) :
    ((putText text).run.run t).2.texts? = some (texts ++ (t.snippet? text).toList) := by
  obtain ⟨p, plain, rfl⟩ := plain?_eq_some.mp kept
  rw [run_putText_plain plain, Typesetter.snippet?, plain]
  have unchanged : t.texts? = some (p.snippets.reverse ++ []) :=
    kept.trans (congrArg some (List.append_nil _).symm)
  cases t.core.font with
  | none => exact unchanged
  | some font =>
    dsimp only
    cases (font.measure p.mode text : Except UInt8 (Extent α)) with
    | error code => exact unchanged
    | ok extent => exact congrArg some List.reverse_cons

/-- What a command leaves of the texts that are kept. -/
theorem texts_after [Escaping] {t : Typesetter α} {texts : List (Snippet α)}
    (kept : t.texts? = some texts) (command : Command) :
    (t.after command).texts? =
      some (if command.isPage then [] else texts ++ (command.snippet? t).toList) := by
  cases command with
  | beginPage parameters =>
    obtain ⟨core, output⟩ := t
    obtain ⟨p, rfl, -⟩ := plain?_eq_some.mp kept
    rfl
  | endPage =>
    obtain ⟨core, output⟩ := t
    obtain ⟨p, rfl, -⟩ := plain?_eq_some.mp kept
    rfl
  | setText text =>
    have moved (d : α) : Keeps Typesetter.texts? (moveRight d) :=
      keeps_modifyCore (fun _ _ => rfl) _
    have put := texts_putText kept text
    rw [Typesetter.after, Command.execute, run_bind]
    generalize (putText text).run.run t = run at put ⊢
    obtain ⟨failure | d, t'⟩ := run
    · exact put
    · exact (moved d t').trans put
  | putText text =>
    have put := texts_putText kept text
    have forget : (discard (putText text) : Action α Unit) = (fun _ => ()) <$> putText text := rfl
    rw [Typesetter.after, Command.execute, forget, map_eq_pure_bind, run_bind]
    generalize (putText text).run.run t = run at put ⊢
    obtain ⟨failure | d, t'⟩ := run <;> exact put
  | _ =>
    refine (Command.keeps_plain _ (fun _ => Command.noConfusion) Command.noConfusion
      (fun _ => Command.noConfusion) (fun _ => Command.noConfusion) t).trans ?_
    exact kept.trans (congrArg some (List.append_nil texts).symm)

/-- **What is kept after commands are the texts that they typeset.** -/
theorem texts_foldl_after [Escaping] {t : Typesetter α} {texts : List (Snippet α)}
    (kept : t.texts? = some texts) (commands : List Command) :
    (commands.foldl Typesetter.after t).texts? = some (keptTexts t texts commands) := by
  induction commands generalizing t texts with
  | nil => exact kept
  | cons command commands ih => exact ih (texts_after kept command)

theorem pageText_nil : pageText ([] : List (Snippet α)) = "" := by
  rw [pageText, List.mergeSort_nil, laidOut]

/-- Whether ending the page writes a text, and ending it again does nothing. -/
def Typesetter.Closes [Escaping] (t : Typesetter α) (text : String) : Prop :=
  ∃ t', Command.endPage.execute.run.run t = (.ok (), t') ∧ t'.written = t.written ++ text ∧
    Command.endPage.execute.run.run t' = (.ok (), t')

theorem Typesetter.Closes.unique [Escaping] {t : Typesetter α} {text text' : String}
    (h : t.Closes text) (h' : t.Closes text') : text = text' := by
  obtain ⟨u, run, written, -⟩ := h
  obtain ⟨u', run', written', -⟩ := h'
  obtain rfl : u = u' := congrArg Prod.snd (run.symm.trans run')
  exact String.append_right_inj _ |>.mp (written.symm.trans written')

/-- **Ending a page writes its texts**, and nothing more if it is done again. -/
theorem closes_pageText [Escaping] {t : Typesetter α} {texts : List (Snippet α)}
    (kept : t.texts? = some texts) : t.Closes (pageText texts) := by
  obtain ⟨core, output⟩ := t
  obtain ⟨p, rfl, rfl⟩ := plain?_eq_some.mp kept
  refine ⟨{ core, output := .plain p.endPage }, rfl, rfl, ?_⟩
  have again : p.endPage.endPage = p.endPage := by
    have none : p.endPage.written ++ pageText ([] : List (Snippet α)) = p.endPage.written := by
      rw [pageText_nil, String.append_empty]
    rw [Plain.endPage, Plain.mk.injEq]
    exact ⟨rfl, rfl, rfl, rfl, none⟩
  exact congrArg (fun p : Plain α => (Except.ok (), Typesetter.mk core (.plain p))) again

end Kept

/-! ## Texts one after the other -/

/-- Whether a text is others one after the other, with a separator between two of them. -/
inductive Joined (separators : List String) : List String → String → Prop
  | single (text : String) : Joined separators [text] text
  | cons {separator : String} {texts : List String} {joined : String} (text : String)
      (allowed : separator ∈ separators) (rest : Joined separators texts joined) :
      Joined separators (text :: texts) (text ++ separator ++ joined)

theorem separator_mem {α : Type} [Scalar α] (s t : Snippet α) :
    separator s t ∈ ["", " ", "\n"] := by
  unfold separator
  split_ifs <;> simp

theorem joined_continued {α : Type} [Scalar α] {separators : List String} {s : Snippet α}
    {rest : List (Snippet α)}
    (allowed : (s :: rest).IsChain fun s t => separator s t ∈ separators) :
    Joined separators (s.text :: rest.map Snippet.text) (s.text ++ continued s rest) := by
  induction rest generalizing s with
  | nil =>
    rw [continued, String.append_empty]
    exact .single _
  | cons t rest ih =>
    obtain ⟨here, later⟩ := List.isChain_cons_cons.mp allowed
    have joined := Joined.cons s.text here (ih later)
    rw [continued]
    simp only [String.append_assoc] at joined ⊢
    exact joined

/-! ## The order of a page -/

namespace Snippet

variable {s t u : Snippet Binary64}

/-- Texts are compared by the ranks of their places. -/
theorem precedes_iff :
    s.precedes t = true ↔
      s.v.rank < t.v.rank ∨ s.v.rank = t.v.rank ∧ s.h.rank ≤ t.h.rank := by
  rw [precedes, Ordering.isLE_then_iff_or]
  refine or_congr compare_lt_iff_lt (and_congr compare_eq_iff_eq ?_)
  exact Ordering.isLE_iff_ne_gt.trans compare_le_iff_le

theorem precedes_trans (h : s.precedes t = true) (h' : t.precedes u = true) :
    s.precedes u = true := by
  rw [precedes_iff] at h h' ⊢
  omega

theorem precedes_total (s t : Snippet Binary64) : (s.precedes t || t.precedes s) = true := by
  rw [Bool.or_eq_true, precedes_iff, precedes_iff]
  omega

/-- Texts that precede each other are at the same place. -/
theorem place_eq (h : s.precedes t = true) (h' : t.precedes s = true) :
    (s.v, s.h) = (t.v, t.h) := by
  rw [precedes_iff] at h h'
  rw [Binary64.rank_injective (show s.v.rank = t.v.rank by omega),
    Binary64.rank_injective (show s.h.rank = t.h.rank by omega)]

end Snippet

theorem pairwise_sorted (texts : List (Snippet Binary64)) :
    (texts.mergeSort Snippet.precedes).Pairwise fun s t => s.precedes t = true :=
  @List.pairwise_mergeSort _ Snippet.precedes (fun _ _ _ => Snippet.precedes_trans)
    Snippet.precedes_total texts

/-- **Texts at different places come out the same in whatever order they are typeset.** -/
theorem pageText_eq_of_perm {texts texts' : List (Snippet Binary64)} (same : texts'.Perm texts)
    (apart : texts.Pairwise fun s t => (s.v, s.h) ≠ (t.v, t.h)) :
    pageText texts' = pageText texts := by
  have sorted := List.mergeSort_perm texts Snippet.precedes
  have sorted' := List.mergeSort_perm texts' Snippet.precedes
  refine congrArg laidOut ?_
  refine List.Perm.eq_of_pairwise ?_ (pairwise_sorted texts') (pairwise_sorted texts)
    (sorted'.trans (same.trans sorted.symm))
  intro s t hs ht h h'
  by_contra ne
  have : Std.Symm fun s t : Snippet Binary64 => (s.v, s.h) ≠ (t.v, t.h) := ⟨fun _ _ => Ne.symm⟩
  exact apart.forall (same.subset (sorted'.subset hs)) (sorted.subset ht) ne
    (Snippet.place_eq h h')

/-- So a page is known from its texts in reading order. -/
theorem pageText_eq_laidOut {texts ordered : List (Snippet Binary64)} (same : texts.Perm ordered)
    (apart : ordered.Pairwise fun s t => (s.v, s.h) ≠ (t.v, t.h))
    (sorted : ordered.Pairwise fun s t => s.precedes t = true) :
    pageText texts = laidOut ordered := by
  rw [pageText_eq_of_perm same apart, pageText, List.mergeSort_of_pairwise sorted]

/-- How two numbered texts are ordered on a page: by their places in the total order of
    numbers, from top to bottom and then from left to right, and else by their numbers. -/
def inReadingOrder (s t : Snippet Binary64 × Nat) : Ordering :=
  ((order s.1.v t.1.v).then (order s.1.h t.1.h)).then (compare s.2 t.2)

/-- Whether a text is what is to be written for texts: each of them once, in reading order, with
    nothing, a blank or a line end between two of them, and a line end after the last. -/
def Arranged (texts : List (Snippet Binary64)) (text : String) : Prop :=
  ∃ ordered : List (Snippet Binary64 × Nat), ordered.Perm texts.zipIdx ∧
    ordered.Pairwise (fun s t => inReadingOrder s t = .lt) ∧
    (texts = [] ∧ text = "" ∨
      ∃ body, Joined ["", " ", "\n"] (ordered.map fun s => s.1.text) body ∧ text = body ++ "\n")

theorem inReadingOrder_of_zipIdxLE {s t : Snippet Binary64 × Nat}
    (h : List.zipIdxLE Snippet.precedes s t = true) (ne : s.2 ≠ t.2) :
    inReadingOrder s t = .lt := by
  have ranks : inReadingOrder s t = .lt ↔
      (s.1.v.rank < t.1.v.rank ∨ s.1.v.rank = t.1.v.rank ∧ s.1.h.rank < t.1.h.rank) ∨
        (s.1.v.rank = t.1.v.rank ∧ s.1.h.rank = t.1.h.rank) ∧ s.2 < t.2 := by
    rw [inReadingOrder, Ordering.then_eq_lt, Ordering.then_eq_lt, Ordering.then_eq_eq]
    exact or_congr (or_congr compare_lt_iff_lt (and_congr compare_eq_iff_eq compare_lt_iff_lt))
      (and_congr (and_congr compare_eq_iff_eq compare_eq_iff_eq) compare_lt_iff_lt)
  rw [ranks]
  unfold List.zipIdxLE at h
  split_ifs at h with before after
  · rw [Snippet.precedes_iff] at before after
    have := of_decide_eq_true h
    omega
  · rw [Snippet.precedes_iff] at before after
    omega

/-- **The texts of a page are arranged in reading order.** -/
theorem arranged_pageText (texts : List (Snippet Binary64)) : Arranged texts (pageText texts) := by
  let ordered := texts.zipIdx.mergeSort (List.zipIdxLE Snippet.precedes)
  have perm : ordered.Perm texts.zipIdx := List.mergeSort_perm _ _
  have forget : ordered.map Prod.fst = texts.mergeSort Snippet.precedes := List.mergeSort_zipIdx
  refine ⟨ordered, perm, ?_, ?_⟩
  · have sorted : ordered.Pairwise fun s t => List.zipIdxLE Snippet.precedes s t = true :=
      @List.pairwise_mergeSort _ (List.zipIdxLE Snippet.precedes)
        (List.zipIdxLE_trans fun _ _ _ => Snippet.precedes_trans)
        (List.zipIdxLE_total Snippet.precedes_total) texts.zipIdx
    have numbered : (ordered.map Prod.snd).Nodup := by
      rw [(perm.map Prod.snd).nodup_iff, List.zipIdx_map_snd]
      exact List.nodup_range'
    refine (sorted.and (List.pairwise_map.mp numbered)).imp ?_
    rintro s t ⟨h, ne⟩
    exact inReadingOrder_of_zipIdxLE h ne
  · rw [pageText, ← forget]
    cases sorted : ordered with
    | nil =>
      rw [sorted, List.nil_perm, List.zipIdx_eq_nil_iff] at perm
      exact .inl ⟨perm, rfl⟩
    | cons s rest =>
      refine .inr ⟨_, ?_, rfl⟩
      have joined := joined_continued (List.pairwise_of_forall (l := s.1 :: rest.map Prod.fst)
        separator_mem).isChain
      rwa [List.map_map] at joined

/-- **No text of a page is lost, and the order of typesetting does not matter.**  Whatever
    commands do to a typesetter of plain text, ending the page writes each text that was typeset
    since the page began once and in reading order, and ending it again does nothing.  If no two
    of these texts are at the same place, any other typesetter that was made to typeset the same
    texts in some order writes the same. -/
theorem page_in_reading_order [Escaping] {t : Typesetter Binary64} {texts : List (Snippet Binary64)}
    (kept : t.texts? = some texts) (commands : List Command) :
    ∃ text, (commands.foldl Typesetter.after t).Closes text ∧
      Arranged (keptTexts t texts commands) text ∧
      ((keptTexts t texts commands).Pairwise (fun s s' => (s.v, s.h) ≠ (s'.v, s'.h)) →
        ∀ (t' : Typesetter Binary64) (texts' : List (Snippet Binary64))
          (commands' : List Command), t'.texts? = some texts' →
        (keptTexts t' texts' commands').Perm (keptTexts t texts commands) →
        (commands'.foldl Typesetter.after t').Closes text) := by
  refine ⟨pageText (keptTexts t texts commands), closes_pageText (texts_foldl_after kept commands),
    arranged_pageText _, ?_⟩
  intro apart t' texts' commands' kept' same
  rw [← pageText_eq_of_perm same apart]
  exact closes_pageText (texts_foldl_after kept' commands')

/-- A typesetter with a font, before its first page. -/
def beforePages : Typesetter Binary64 :=
  ((executeAll [.ok (.defineFont 0 ⟨"cmr10", 0, 0xA0000, 0xA0000⟩),
    .ok (.enableFont 0)]).run.run (.plain (.ofList [("cmr10", narrowFont)])
      (.insert (.insert {} "cmr10" 104 'h') "cmr10" 105 'i') .strict)).2

theorem texts_beforePages : beforePages.texts? = some [] := by
  decide +kernel

/-- Two lines of texts, from the first one on. -/
def downwards : List Command :=
  [.beginPage (.replicate 10 0), .moveDown 0x100000, .setText [104], .moveRight 0x30000,
    .putText [105], .moveDown 0x100000, .putText [104], .putText [106]]

/-- The same texts from the last one on. -/
def upwards : List Command :=
  [.beginPage (.replicate 10 1), .push, .moveRight 0x80000, .moveDown 0x200000, .setText [104],
    .pop, .moveDown 0x100000, .push, .moveRight 0x80000, .putText [105], .pop, .setText [104]]

/-- The typesetters are at different places, one of them with a text that is not written, and
    one of them also fails to typeset a text: both come to the same page. -/
theorem page_in_reading_order_unfinished :
    (downwards.foldl Typesetter.after beforePages).Closes "h i\nh\n" ∧
      (upwards.foldl Typesetter.after unfinished).Closes "h i\nh\n" := by
  obtain ⟨text, closes, -, others⟩ := page_in_reading_order texts_beforePages downwards
  have seen : unfinished.plain? Plain.pages = some 1 := by
    decide +kernel
  obtain ⟨p, plain, -⟩ := plain?_eq_some.mp seen
  have kept' : unfinished.texts? = some p.snippets.reverse :=
    plain?_eq_some.mpr ⟨p, plain, rfl⟩
  -- what is kept of the page before is dropped when a page begins
  have same : (keptTexts unfinished [] upwards).Perm (keptTexts beforePages [] downwards) := by
    decide +kernel
  have apart : (keptTexts beforePages [] downwards).Pairwise
      fun s t => (s.v, s.h) ≠ (t.v, t.h) := by
    decide +kernel
  have page : pageText (keptTexts beforePages [] downwards) =
      laidOut (keptTexts beforePages [] downwards) :=
    pageText_eq_laidOut (.refl _) apart (by decide +kernel)
  have written : laidOut (keptTexts beforePages [] downwards) = "h i\nh\n" := by
    decide +kernel
  obtain rfl : text = "h i\nh\n" := by
    rw [closes.unique (closes_pageText (texts_foldl_after texts_beforePages downwards)), page,
      written]
  exact ⟨closes, others apart unfinished p.snippets.reverse upwards kept' same⟩

end DviMarkup
