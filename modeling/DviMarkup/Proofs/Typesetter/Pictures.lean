/-
  Pictures in a run of commands.

  The fragments of a run may cut pictures anywhere, and other commands may stand
  between them.  If the pieces of all of them in order are well-nested, each piece
  is written for what it is nested in.

  * `marksFrom` are the pieces of the fragments that commands write;
  * `Written` says what is written for a fragment by what becomes of its pieces;
  * `depth_foldl_after`: after commands as many elements are open as their pieces
    leave open;
  * `written_of_nest`: in a well-nested run, what becomes of the pieces of each
    fragment is what `Svg.Nest.fates` says.
-/
import DviMarkup.Number.Binary64
import DviMarkup.Proofs.Typesetter.Fragments
import DviMarkup.Proofs.Typesetter.Nesting

namespace DviMarkup

open Scalar

variable {α : Type} [Scalar α]

/-! ## One fragment -/

/-- What is written for a fragment at a place, and what is kept afterwards, if its
    pieces become what is given. -/
structure Written (m : Markup α) (place : α × α) (fragment : String) (fates : List Svg.Fate)
    (m' : Markup α) : Prop where
  /-- Nothing of the fragment belongs to no piece. -/
  whole : (Svg.marks fragment.toList).flatMap Svg.Mark.text = fragment.toList
  /-- Each piece becomes something. -/
  each : fates.length = (Svg.marks fragment.toList).length
  /-- The number of open elements is not below zero after any of the pieces. -/
  nonneg : ∀ k, 0 ≤ (Svg.resolveMarks m.header.toList m.depth
    ((Svg.marks fragment.toList).take k)).2
  /-- The header of a picture is a start tag with the size of the paper. -/
  header : m.header = "<svg version=\"1.1\" xmlns=\"http://www.w3.org/2000/svg\" " ++
    "xmlns:xlink=\"http://www.w3.org/1999/xlink\" width=\"" ++ markup m.paperWidth ++
    "pt\" height=\"" ++ markup m.paperHeight ++ "pt\" viewBox=\"-72 -72 " ++
    markup m.paperWidth ++ " " ++ markup m.paperHeight ++ "\">"
  /-- What the pieces become is written in order, with the place in it. -/
  pieces : m'.pieces = m.pieces.push (.raw (String.ofList
    (Svg.placed (markup place.1).toList (markup place.2).toList
      (fates.flatMap (Svg.Fate.text m.header.toList)))))
  /-- Nothing else changes but the number of open elements. -/
  frame : m' = { m with depth := m'.depth, pieces := m'.pieces }

theorem Markup.putSvg_eq (m : Markup α) (x y : α) (fragment : String) :
    m.putSvg x y fragment =
      { m with
        depth := m.depth + Svg.change (Svg.marks fragment.toList)
        pieces := m.pieces.push (.raw (String.ofList
          (Svg.placed (markup x).toList (markup y).toList
            ((Svg.fates m.depth (Svg.marks fragment.toList)).flatMap
              (Svg.Fate.text m.header.toList))))) } := by
  simp only [Markup.putSvg, Svg.resolve, Svg.resolveMarks_eq, Markup.write]

/-! ## Many commands -/

/-- The pieces of the fragment that a command writes, if it writes one. -/
def Command.marks [Escaping] (t : Typesetter α) (command : Command) : List Svg.Mark :=
  match command.fragment? t with
  | some fragment => Svg.marks fragment.toList
  | none => []

/-- The pieces of the fragments that commands write, one after the other. -/
def marksFrom [Escaping] (t : Typesetter α) : List Command → List Svg.Mark
  | [] => []
  | command :: commands => command.marks t ++ marksFrom (t.after command) commands

theorem marksFrom_append [Escaping] (t : Typesetter α) (before rest : List Command) :
    marksFrom t (before ++ rest) =
      marksFrom t before ++ marksFrom (before.foldl Typesetter.after t) rest := by
  induction before generalizing t with
  | nil => rfl
  | cons command before ih =>
    simp only [List.cons_append, marksFrom, ih, List.append_assoc, List.foldl_cons]

/-- A command opens and closes what its pieces open and close. -/
theorem depth_after_marks [Escaping] {t : Typesetter α} {m : Markup α} (hm : t.output = .markup m)
    (command : Command) :
    ∃ m', (t.after command).output = .markup m' ∧
      m'.depth = m.depth + Svg.change (command.marks t) := by
  cases h : command.fragment? t with
  | some fragment =>
    refine ⟨_, by rw [after_fragment hm h], ?_⟩
    rw [Markup.putSvg_eq, Command.marks, h]
  | none =>
    have hdepth := depth_after h
    rw [Typesetter.depth?, Typesetter.depth?, hm] at hdepth
    cases hout : (t.after command).output with
    | markup m' =>
      rw [hout] at hdepth
      refine ⟨m', rfl, ?_⟩
      rw [Command.marks, h, Svg.change_nil, Int.add_zero]
      exact Option.some.inj hdepth
    | _ =>
      rw [hout] at hdepth
      cases hdepth

/-- After commands as many elements are open as their pieces leave open. -/
theorem depth_foldl_after [Escaping] {t : Typesetter α} {m : Markup α} (hm : t.output = .markup m)
    (commands : List Command) :
    ∃ m', (commands.foldl Typesetter.after t).output = .markup m' ∧
      m'.depth = m.depth + Svg.change (marksFrom t commands) := by
  induction commands generalizing t m with
  | nil => exact ⟨m, hm, by simp [marksFrom]⟩
  | cons command commands ih =>
    obtain ⟨m₁, hm₁, hdepth₁⟩ := depth_after_marks hm command
    obtain ⟨m₂, hm₂, hdepth₂⟩ := ih hm₁
    refine ⟨m₂, hm₂, ?_⟩
    rw [hdepth₂, hdepth₁, marksFrom, Svg.change_append, Int.add_assoc]

/-- What is written for a fragment whose pieces become what they become by the count
    of open elements. -/
theorem written_putSvg {m : Markup α} (place : α × α) (fragment : String)
    (nonneg : ∀ k, 0 ≤ m.depth + Svg.change ((Svg.marks fragment.toList).take k)) :
    Written m place fragment (Svg.fates m.depth (Svg.marks fragment.toList))
      (m.putSvg place.1 place.2 fragment) where
  header := rfl
  whole := Svg.flatMap_text_marks fragment.toList
  each := Svg.length_fates m.depth _
  nonneg k := by
    rw [Svg.resolveMarks_eq]
    exact nonneg k
  pieces := by rw [Markup.putSvg_eq]
  frame := by rw [Markup.putSvg_eq]

/-- **In a well-nested run, each piece is written for what it is nested in**: the
    number of open elements is never below zero and is zero at the end, and what
    becomes of the pieces of a fragment is what the nesting says: a picture that stands
    in no element begins with the header for the paper. -/
theorem written_of_nest [Escaping] {t : Typesetter α} {m : Markup α} (hm : t.output = .markup m)
    (hdepth : m.depth = 0) {commands : List Command} {n : Svg.Nest}
    (hn : marksFrom t commands = n.marks) :
    (∃ m', (commands.foldl Typesetter.after t).output = .markup m' ∧ m'.depth = 0) ∧
      ∀ before command rest, commands = before ++ command :: rest →
        ∃ s m₁ m₂, before.foldl Typesetter.after t = s ∧ s.output = .markup m₁ ∧
          (s.after command).output = .markup m₂ ∧ 0 ≤ m₁.depth ∧ 0 ≤ m₂.depth ∧
          ∀ fragment, command.fragment? s = some fragment →
            Written m₁ s.currentPoint fragment
              (((n.fates false).drop (marksFrom t before).length).take
                (Svg.marks fragment.toList).length) m₂ := by
  constructor
  · obtain ⟨m', hm', hdepth'⟩ := depth_foldl_after hm commands
    refine ⟨m', hm', ?_⟩
    rw [hdepth', hdepth, hn, n.change_marks, Int.add_zero]
  · intro before command rest hcommands
    rw [hcommands, marksFrom_append, marksFrom] at hn
    obtain ⟨m₁, hm₁, hdepth₁⟩ := depth_foldl_after hm before
    generalize before.foldl Typesetter.after t = s at hn hm₁ ⊢
    obtain ⟨m₂, hm₂, hdepth₂⟩ := depth_after_marks hm₁ command
    rw [hdepth, Int.zero_add] at hdepth₁
    -- the pieces before the command tell how many elements are open
    have nonneg (k : Nat) : 0 ≤ m₁.depth + Svg.change ((command.marks s).take k) := by
      rw [hdepth₁]
      exact Svg.Nest.change_part_nonneg hn k
    refine ⟨s, m₁, m₂, rfl, hm₁, hm₂, ?_, ?_, ?_⟩
    · simpa using nonneg 0
    · have := nonneg (command.marks s).length
      rwa [List.take_length, ← hdepth₂] at this
    · intro fragment h
      have hmarks : command.marks s = Svg.marks fragment.toList := by
        rw [Command.marks, h]
      have hout : m₂ = m₁.putSvg s.currentPoint.1 s.currentPoint.2 fragment := by
        rw [after_fragment hm₁ h] at hm₂
        exact (Output.markup.inj hm₂).symm
      rw [hmarks] at hn nonneg
      rw [hout, ← Svg.Nest.fates_part hn, ← hdepth₁]
      exact written_putSvg _ fragment nonneg

/-- A typesetter of markup before anything is written. -/
def emptyPage : Typesetter Binary64 := .markup (.ofList []) {} .strict

/-- Commands that cut a picture, with an element in it and a picture in that. -/
def cutPicture : List Command :=
  [.setPaper (.ofInt 100) (.ofInt 50), .rawSvg "<svg beginpicture>a<svg>", .push,
    .rawSvg "<svg beginpicture>b</svg endpicture>", .rawSvg "</svg></svg endpicture>"]

/-- The picture that is cut. -/
def wholePicture : Svg.Nest :=
  .picture (.char 'a' (.element (.char '>' (.picture (.char 'b' .nil) .nil)) (.char '>' .nil))) .nil

/-- The picture begins with the header for the paper, and of the picture in the element only what
    is in it is written. -/
theorem written_cutPicture :
    (∃ m', (cutPicture.foldl Typesetter.after emptyPage).output = .markup m' ∧ m'.depth = 0) ∧
      (∃ s m₁ m₂, (cutPicture.take 1).foldl Typesetter.after emptyPage = s ∧
        s.output = .markup m₁ ∧
        (s.after (.rawSvg "<svg beginpicture>a<svg>")).output = .markup m₂ ∧
        Written m₁ s.currentPoint "<svg beginpicture>a<svg>"
          [.header, .kept (.char 'a'), .kept .openTag, .kept (.char '>')] m₂ ∧
        m₁.header = "<svg version=\"1.1\" xmlns=\"http://www.w3.org/2000/svg\" " ++
          "xmlns:xlink=\"http://www.w3.org/1999/xlink\" width=\"100pt\" height=\"50pt\" " ++
          "viewBox=\"-72 -72 100 50\">") ∧
      ∃ s m₁ m₂, (cutPicture.take 3).foldl Typesetter.after emptyPage = s ∧
        s.output = .markup m₁ ∧
        (s.after (.rawSvg "<svg beginpicture>b</svg endpicture>")).output = .markup m₂ ∧
        Written m₁ s.currentPoint "<svg beginpicture>b</svg endpicture>"
          [.removed, .kept (.char 'b'), .removed] m₂ := by
  have hn : marksFrom emptyPage cutPicture = wholePicture.marks := by
    decide +kernel
  have paper : ((cutPicture.take 1).foldl Typesetter.after emptyPage).markup? (fun m =>
      (markup m.paperWidth, markup m.paperHeight)) = some ("100", "50") := by
    decide +kernel
  have outer : ((wholePicture.fates false).drop
      (marksFrom emptyPage (cutPicture.take 1)).length).take
        (Svg.marks "<svg beginpicture>a<svg>".toList).length =
          [.header, .kept (.char 'a'), .kept .openTag, .kept (.char '>')] := by
    decide +kernel
  have inner : ((wholePicture.fates false).drop
      (marksFrom emptyPage (cutPicture.take 3)).length).take
        (Svg.marks "<svg beginpicture>b</svg endpicture>".toList).length =
          [.removed, .kept (.char 'b'), .removed] := by
    decide +kernel
  obtain ⟨hend, hrun⟩ := written_of_nest rfl rfl hn
  refine ⟨hend, ?_, ?_⟩
  · obtain ⟨s, m₁, m₂, hs, hm₁, hm₂, -, -, hwritten⟩ :=
      hrun (cutPicture.take 1) _ (cutPicture.drop 2) rfl
    have h := hwritten _ rfl
    rw [outer] at h
    rw [hs, Typesetter.markup?_eq_some] at paper
    obtain ⟨m, hm, size⟩ := paper
    obtain rfl : m = m₁ := Output.markup.inj (hm.symm.trans hm₁)
    obtain ⟨width, height⟩ := Prod.mk.inj size
    refine ⟨s, m, m₂, hs, hm₁, hm₂, h, ?_⟩
    rw [h.header, width, height]
    rfl
  · obtain ⟨s, m₁, m₂, hs, hm₁, hm₂, -, -, hwritten⟩ :=
      hrun (cutPicture.take 3) _ (cutPicture.drop 4) rfl
    have h := hwritten _ rfl
    rw [inner] at h
    exact ⟨s, m₁, m₂, hs, hm₁, hm₂, h⟩

end DviMarkup
