/-
  The lines of plain text.

  Texts are sorted in the total order of numbers, while a line ends where the next text is lower
  by value.  The two orders differ at the zeros only, so a line has the texts at one height by
  value, and lines come from top to bottom; but in a line, texts at the negative zero stand
  before those at the positive zero, whatever their places from left to right.

  * `linesOf` are the texts of a page in lines, and `laidOut_flatten`: the text of a page is the
    texts of its lines;
  * `isLine_laidOut`: the text of a line has its only line end at its end;
  * `pairwise_lower`: lines come from top to bottom;
  * `leftToRight_iff`: when a line is written from left to right;
  * `page_in_lines`: all of this for what commands do to a typesetter.
-/
import Mathlib.Data.List.SplitBy
import DviMarkup.Proofs.Typesetter.ReadingOrder

namespace DviMarkup

open Typesetter Scalar

/-! ## Texts of lines -/

section Lines

variable {α : Type} [Scalar α]

theorem continued_append (s t : Snippet α) (line rest : List (Snippet α)) :
    continued s (line ++ t :: rest) =
      continued s line ++ separator ((s :: line).getLast (List.cons_ne_nil _ _)) t ++ t.text ++
        continued t rest := by
  induction line generalizing s with
  | nil =>
    rw [List.nil_append, continued, continued, String.empty_append]
    rfl
  | cons u line ih =>
    rw [List.cons_append, continued, ih, continued, List.getLast_cons (List.cons_ne_nil _ _)]
    simp only [String.append_assoc]

/-- A text that is lower begins a line. -/
theorem laidOut_append {line rest : List (Snippet α)} (hline : line ≠ []) (hrest : rest ≠ [])
    (lower : lt (line.getLast hline).v (rest.head hrest).v = true) :
    laidOut (line ++ rest) = laidOut line ++ laidOut rest := by
  cases line with
  | nil => exact absurd rfl hline
  | cons s line =>
    cases rest with
    | nil => exact absurd rfl hrest
    | cons t rest =>
      have ends : separator ((s :: line).getLast hline) t = "\n" := if_pos lower
      rw [List.cons_append, laidOut, continued_append, ends, laidOut, laidOut]
      simp only [String.append_assoc]

/-- The texts of a page in lines: one begins wherever a text is lower than the one before. -/
def linesOf (texts : List (Snippet α)) : List (List (Snippet α)) :=
  (texts.mergeSort Snippet.precedes).splitBy fun s t => !lt s.v t.v

theorem flatten_linesOf (texts : List (Snippet α)) :
    (linesOf texts).flatten = texts.mergeSort Snippet.precedes :=
  List.flatten_splitBy _ _

theorem perm_linesOf (texts : List (Snippet α)) : (linesOf texts).flatten.Perm texts := by
  rw [flatten_linesOf]
  exact List.mergeSort_perm texts _

theorem mem_of_mem_linesOf {texts line : List (Snippet α)} (hline : line ∈ linesOf texts)
    {s : Snippet α} (hs : s ∈ line) : s ∈ texts :=
  (perm_linesOf texts).subset (List.mem_flatten_of_mem hline hs)

/-- In a line, no text is lower than the one before. -/
theorem isChain_of_mem_linesOf {texts line : List (Snippet α)} (hline : line ∈ linesOf texts) :
    line.IsChain fun s t => lt s.v t.v = false :=
  (List.isChain_of_mem_splitBy hline).imp fun _ _ => Bool.not_eq_true' _ |>.mp

/-- A line begins with a text that is lower than the last one of the line before. -/
theorem isChain_linesOf (texts : List (Snippet α)) :
    (linesOf texts).IsChain fun line next =>
      ∃ hline hnext, lt (line.getLast hline).v (next.head hnext).v = true := by
  refine (List.isChain_getLast_head_splitBy _ _).imp ?_
  rintro line next ⟨hline, hnext, h⟩
  exact ⟨hline, hnext, Bool.not_eq_false' _ |>.mp h⟩

/-- **The text of a page is the texts of its lines**, if each line is lower than the one
    before. -/
theorem laidOut_flatten {lines : List (List (Snippet α))} (nonempty : [] ∉ lines)
    (lower : lines.IsChain fun line next =>
      ∃ hline hnext, lt (line.getLast hline).v (next.head hnext).v = true) :
    laidOut lines.flatten = String.join (lines.map laidOut) := by
  induction lines with
  | nil => rfl
  | cons line lines ih =>
    rw [List.flatten_cons, List.map_cons, String.join_cons]
    rw [List.mem_cons, not_or] at nonempty
    rw [← ih nonempty.2 lower.tail]
    cases lines with
    | nil =>
      rw [List.flatten_nil, List.append_nil]
      exact String.append_empty.symm
    | cons next lines =>
      obtain ⟨hline, hnext, lower⟩ := (List.isChain_cons_cons.mp lower).1
      obtain ⟨s, next, rfl⟩ := List.exists_cons_of_ne_nil hnext
      exact laidOut_append hline (List.cons_ne_nil s _) lower

/-- A character of texts one after the other is in one of them or in a separator. -/
theorem Joined.notMem {c : Char} {separators texts : List String} {joined : String}
    (h : Joined separators texts joined) (between : ∀ s ∈ separators, c ∉ s.toList)
    (absent : ∀ s ∈ texts, c ∉ s.toList) : c ∉ joined.toList := by
  induction h with
  | single text => exact absent text List.mem_cons_self
  | cons text allowed rest ih =>
    have later := ih fun s hs => absent s (List.mem_cons_of_mem _ hs)
    have first := absent text List.mem_cons_self
    have separate := between _ allowed
    simp only [String.toList_append, List.mem_append]
    rintro ((h | h) | h)
    · exact first h
    · exact separate h
    · exact later h

/-- Whether a text is a line with texts: one after the other, with nothing or a blank between
    two of them, and with a line end after the last and nowhere else. -/
def IsLine (line : List (Snippet α)) (written : String) : Prop :=
  ∃ body, Joined ["", " "] (line.map Snippet.text) body ∧ '\n' ∉ body.toList ∧
    written = body ++ "\n"

/-- **Texts are on one line as long as none is lower than the one before.** -/
theorem isLine_laidOut {line : List (Snippet α)} (nonempty : line ≠ [])
    (level : line.IsChain fun s t => lt s.v t.v = false)
    (absent : ∀ s ∈ line, '\n' ∉ s.text.toList) : IsLine line (laidOut line) := by
  cases line with
  | nil => exact absurd rfl nonempty
  | cons s rest =>
    have allowed : (s :: rest).IsChain fun s t => separator s t ∈ ["", " "] := by
      refine level.imp fun s t h => ?_
      unfold separator
      rw [h, if_neg Bool.false_ne_true]
      split_ifs <;> simp
    have joined := joined_continued allowed
    refine ⟨_, joined, joined.notMem (by decide) ?_, rfl⟩
    exact List.forall_mem_map (l := s :: rest) |>.mpr absent

end Lines

/-! ## The order of lines -/

theorem Snippet.place_le {s t : Snippet Binary64} (h : s.precedes t = true) :
    s.v.place ≤ t.v.place := by
  rw [precedes_iff] at h
  exact Binary64.place_le_place (by omega)

/-- **Lines come from top to bottom**, if texts do and each line is lower than the one before. -/
theorem pairwise_lower {lines : List (List (Snippet Binary64))}
    (sorted : lines.flatten.Pairwise fun s t => s.v.place ≤ t.v.place)
    (lower : lines.IsChain fun line next =>
      ∃ hline hnext, (line.getLast hline).v.place < (next.head hnext).v.place) :
    lines.Pairwise fun line later => ∀ s ∈ line, ∀ t ∈ later, s.v.place < t.v.place := by
  have : Std.Refl fun s t : Snippet Binary64 => s.v.place ≤ t.v.place := ⟨fun _ => le_refl _⟩
  induction lines with
  | nil => exact .nil
  | cons line lines ih =>
    obtain ⟨inLine, inLines, -⟩ := List.pairwise_append.mp sorted
    refine .cons ?_ (ih inLines lower.tail)
    intro later hlater s hs t ht
    cases lines with
    | nil => cases hlater
    | cons next lines =>
      obtain ⟨hline, hnext, lower⟩ := (List.isChain_cons_cons.mp lower).1
      obtain ⟨u, next, rfl⟩ := List.exists_cons_of_ne_nil hnext
      have after : u.v.place ≤ t.v.place := inLines.rel_head (List.mem_flatten_of_mem hlater ht)
      exact ((inLine.rel_getLast hs).trans_lt lower).trans_le after

/-- Texts of which none is lower than the one before are at one height, if texts come from top
    to bottom. -/
theorem place_eq_of_level {line : List (Snippet Binary64)}
    (sorted : line.Pairwise fun s t => s.v.place ≤ t.v.place)
    (level : line.IsChain fun s t => t.v.place ≤ s.v.place) :
    ∀ s ∈ line, ∀ t ∈ line, s.v.place = t.v.place := by
  let NotLower (s t : Snippet Binary64) : Prop := t.v.place ≤ s.v.place
  let Same (s t : Snippet Binary64) : Prop := s.v.place = t.v.place
  have : Trans NotLower NotLower NotLower := ⟨fun h h' => h'.trans h⟩
  have : Std.Symm Same := ⟨fun _ _ => Eq.symm⟩
  have level : line.Pairwise NotLower := List.IsChain.pairwise level
  have same : line.Pairwise Same := (sorted.and level).imp fun h => le_antisymm h.1 h.2
  have self (s : Snippet Binary64) : Same s s := rfl
  intro s hs t ht
  exact same.forall_of_forall (fun s _ => self s) hs ht

/-- **A line is written from left to right if its texts at the negative zero do not stand to the
    right of those at the positive zero.** -/
theorem leftToRight_iff {line : List (Snippet Binary64)}
    (sorted : line.Pairwise fun s t => s.precedes t = true)
    (level : ∀ s ∈ line, ∀ t ∈ line, s.v.place = t.v.place) :
    (line.Pairwise fun s t => s.h.place ≤ t.h.place) ↔
      ∀ s ∈ line, ∀ t ∈ line, s.v = -zero → t.v = zero → s.h.place ≤ t.h.place := by
  have apart : Binary64.rank (-zero) < Binary64.rank zero := by
    decide +kernel
  constructor
  · intro leftToRight
    let R (s t : Snippet Binary64) : Prop := s.v = -zero → t.v = zero → s.h.place ≤ t.h.place
    have : Std.Symm fun s t => R s t ∧ R t s := ⟨fun _ _ => And.symm⟩
    have both : line.Pairwise fun s t => R s t ∧ R t s := by
      refine (sorted.and leftToRight).imp ?_
      rintro s t ⟨before, ordered⟩
      refine ⟨fun _ _ => ordered, fun ht hs => ?_⟩
      rw [Snippet.precedes_iff, ht, hs] at before
      exact absurd before (by omega)
    intro s hs t ht
    have self (u : Snippet Binary64) : R u u := fun _ _ => le_refl _
    exact (both.forall_of_forall (fun u _ => ⟨self u, self u⟩) hs ht).1
  · intro zeros
    refine sorted.imp_of_mem fun {s t} hs ht before => ?_
    rw [Snippet.precedes_iff] at before
    rcases before with lower | ⟨-, right⟩
    · -- texts of a line whose ranks differ are at the two zeros
      rcases Binary64.eq_or_zeros (level s hs t ht) lower.le with same | ⟨hs', ht'⟩
      · rw [same] at lower
        exact absurd lower (lt_irrefl _)
      · exact zeros s hs t ht hs' ht'
    · exact Binary64.place_le_place right

/-- Whether a text is what is to be written for texts, with the given lines.  Two texts are on
    one line if they are at one height and only then, and lines come from top to bottom.  A line
    is written from left to right, unless a text at the negative zero stands to the right of a
    text at the positive zero. -/
structure InLines (texts : List (Snippet Binary64)) (lines : List (List (Snippet Binary64)))
    (text : String) : Prop where
  all : lines.flatten.Perm texts
  written : text = String.join (lines.map laidOut)
  isLine : ∀ line ∈ lines, IsLine line (laidOut line)
  level : ∀ line ∈ lines, ∀ s ∈ line, ∀ t ∈ line, eq s.v t.v = true
  lower : lines.Pairwise fun line later =>
    ∀ s ∈ line, ∀ t ∈ later, lt s.v t.v = true ∧ eq s.v t.v = false
  leftToRight : ∀ line ∈ lines,
    (line.Pairwise fun s t => lt t.h s.h = false) ↔
      ∀ s ∈ line, ∀ t ∈ line, s.v = -zero → t.v = zero → lt t.h s.h = false

section Page

variable {texts : List (Snippet Binary64)}
  (defined : ∀ s ∈ texts, s.h.isDefined = true ∧ s.v.isDefined = true)

theorem pairwise_linesOf (texts : List (Snippet Binary64)) :
    (linesOf texts).flatten.Pairwise fun s t => s.precedes t = true := by
  rw [flatten_linesOf]
  exact pairwise_sorted texts

include defined

/-- The texts of a line are at one height. -/
theorem place_eq_of_mem_linesOf {line : List (Snippet Binary64)} (hline : line ∈ linesOf texts) :
    ∀ s ∈ line, ∀ t ∈ line, s.v.place = t.v.place := by
  have sorted := (List.pairwise_flatten.mp (pairwise_linesOf texts)).1 line hline
  refine place_eq_of_level (sorted.imp Snippet.place_le) ?_
  refine (isChain_of_mem_linesOf hline).imp_of_mem_imp fun s t hs ht h => ?_
  have ds := (defined s (mem_of_mem_linesOf hline hs)).2
  have dt := (defined t (mem_of_mem_linesOf hline ht)).2
  exact (Binary64.lt_eq_false_iff ds dt).mp h

/-- The texts of a line are lower than those of the lines before. -/
theorem place_lt_linesOf :
    (linesOf texts).Pairwise fun line later => ∀ s ∈ line, ∀ t ∈ later, s.v.place < t.v.place := by
  refine pairwise_lower ((pairwise_linesOf texts).imp Snippet.place_le) ?_
  refine (isChain_linesOf texts).imp_of_mem_imp ?_
  rintro line next hline hnext ⟨last, first, h⟩
  refine ⟨last, first, (Binary64.lt_iff ?_ ?_).mp h⟩
  · exact (defined _ (mem_of_mem_linesOf hline (List.getLast_mem last))).2
  · exact (defined _ (mem_of_mem_linesOf hnext (List.head_mem first))).2

/-- **The texts of a page are written in lines.** -/
theorem inLines_pageText (absent : ∀ s ∈ texts, '\n' ∉ s.text.toList) :
    InLines texts (linesOf texts) (pageText texts) := by
  have v {line s} (hline : line ∈ linesOf texts) (hs : s ∈ line) : s.v.isDefined = true :=
    (defined s (mem_of_mem_linesOf hline hs)).2
  refine ⟨perm_linesOf texts, ?_, ?_, ?_, ?_, ?_⟩
  · rw [pageText, ← flatten_linesOf]
    exact laidOut_flatten (List.nil_notMem_splitBy _ _) (isChain_linesOf texts)
  · intro line hline
    exact isLine_laidOut (List.ne_nil_of_mem_splitBy hline) (isChain_of_mem_linesOf hline)
      fun s hs => absent s (mem_of_mem_linesOf hline hs)
  · intro line hline s hs t ht
    exact (Binary64.eq_iff (v hline hs) (v hline ht)).mpr
      (place_eq_of_mem_linesOf defined hline s hs t ht)
  · refine (place_lt_linesOf defined).imp_of_mem fun {line later} hline hlater h s hs t ht => ?_
    refine ⟨(Binary64.lt_iff (v hline hs) (v hlater ht)).mpr (h s hs t ht), ?_⟩
    rw [← Bool.not_eq_true, Binary64.eq_iff (v hline hs) (v hlater ht)]
    exact (h s hs t ht).ne
  · intro line hline
    have right {s t} (hs : s ∈ line) (ht : t ∈ line) :
        lt t.h s.h = false ↔ s.h.place ≤ t.h.place :=
      Binary64.lt_eq_false_iff (defined t (mem_of_mem_linesOf hline ht)).1
        (defined s (mem_of_mem_linesOf hline hs)).1
    rw [List.Pairwise.iff_of_mem fun hs ht => right hs ht,
      leftToRight_iff ((List.pairwise_flatten.mp (pairwise_linesOf texts)).1 line hline)
        (place_eq_of_mem_linesOf defined hline)]
    refine forall₂_congr fun s hs => forall₂_congr fun t ht => ?_
    rw [right hs ht]

end Page

/-- **Pages come out in lines.**  Whatever commands do to a typesetter of plain text, if the
    texts that were typeset since the page began are at defined places and have no line ends,
    then ending the page writes them in lines: two of them on one line if they are at one height
    by value and only then, the lines from top to bottom, and each from left to right but for
    texts at the negative zero, which stand before those at the positive zero. -/
theorem page_in_lines [Escaping] {t : Typesetter Binary64} {texts : List (Snippet Binary64)}
    (kept : t.texts? = some texts) (commands : List Command)
    (defined : ∀ s ∈ keptTexts t texts commands, s.h.isDefined = true ∧ s.v.isDefined = true)
    (absent : ∀ s ∈ keptTexts t texts commands, '\n' ∉ s.text.toList) :
    ∃ lines text, (commands.foldl Typesetter.after t).Closes text ∧
      InLines (keptTexts t texts commands) lines text :=
  ⟨_, _, closes_pageText (texts_foldl_after kept commands), inLines_pageText defined absent⟩

/-- Three texts on two lines.  The first two are at height zero, the second with a sign and to
    the right of the first. -/
def zeroHeights : List Command :=
  [.beginPage (.replicate 10 0), .postScript "0 0 moveto", .putText [104],
    .postScript "100 -0 moveto", .putText [105], .postScript "0 8 moveto", .putText [104]]

/-- The text to the right is written before the text to the left. -/
theorem closes_zeroHeights :
    (zeroHeights.foldl Typesetter.after beforePages).Closes "ih\nh\n" := by
  let texts := keptTexts beforePages [] zeroHeights
  let swapped := (texts.drop 1).take 1 ++ (texts.take 1 ++ texts.drop 2)
  have page : pageText texts = laidOut swapped :=
    pageText_eq_laidOut (by decide +kernel) (by decide +kernel) (by decide +kernel)
  have written : laidOut swapped = "ih\nh\n" := by
    decide +kernel
  rw [← written, ← page]
  exact closes_pageText (texts_foldl_after texts_beforePages zeroHeights)

/-- The texts are on two lines, the first of which is not written from left to right. -/
theorem page_in_lines_zeroHeights :
    ∃ lines, InLines (keptTexts beforePages [] zeroHeights) lines "ih\nh\n" := by
  obtain ⟨lines, text, closes, inLines⟩ := page_in_lines texts_beforePages zeroHeights
    (by decide +kernel) (by decide +kernel)
  obtain rfl : text = "ih\nh\n" := closes.unique closes_zeroHeights
  exact ⟨lines, inLines⟩

/-- Texts at one height are not always written from left to right: the two zeros are one number,
    but a text at the negative one is written before a text at the positive one even if it stands
    to the right. -/
theorem page_not_leftToRight :
    (keptTexts beforePages [] zeroHeights).map (fun s => (s.v, s.h, s.text)) =
        [(zero, zero, "h"), (-zero, ofInt 100, "i"), (ofInt 8, zero, "h")] ∧
      eq (zero : Binary64) (-zero) = true ∧ lt (zero : Binary64) (ofInt 100) = true ∧
      (zeroHeights.foldl Typesetter.after beforePages).Closes "ih\nh\n" :=
  ⟨by decide +kernel, by decide +kernel, by decide +kernel, closes_zeroHeights⟩

end DviMarkup
