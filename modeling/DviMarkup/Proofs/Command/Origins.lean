/-
  What the items of a document can be.

  * `IsColor` holds of two names and of six digits in base sixteen, and
    `isColor_cssColor`: every specification gives such a colour;
  * `Item.OfDocument` holds of the items that a document can give: its colours are
    such, and its failures are faults of the file, codes out of range and sizes of
    the paper that cannot be read;
  * `ofDocument_pipeline`: all items on the way from operations to commands are such.
-/
import DviMarkup.Command.Pipeline
import DviMarkup.Proofs.Stream.Runs

namespace DviMarkup

/-! ## Colours -/

/-- The digits in base sixteen, in small letters. -/
def hexDigitChars : List Char := "0123456789abcdef".toList

/-- Whether a text is the name of black or white, or six digits in base sixteen. -/
def IsColor (color : String) : Prop :=
  color = "black" ∨ color = "white" ∨
    ∃ digits : List Char, digits.length = 6 ∧ (∀ d ∈ digits, d ∈ hexDigitChars) ∧
      color = String.ofList ('#' :: digits)

theorem hexDigits_eq_singleton {n : Nat} (h : n < 16) :
    ∃ d ∈ hexDigitChars, Text.hexDigits n = [d] := by
  have digit : ∀ n < 16, (hexDigitChars.map fun d => [d]).contains (Text.hexDigits n) = true := by
    decide
  obtain ⟨d, hd, heq⟩ := List.mem_map.mp (List.contains_iff_mem.mp (digit n h))
  exact ⟨d, hd, heq.symm⟩

/-- A component has two digits. -/
theorem exists_colorDigits (component : Numeral) :
    ∃ d ∈ hexDigitChars, ∃ e ∈ hexDigitChars, colorDigits component = [d, e] := by
  have hbyte : (colorByte (Binary64.ofNumeral component)).toNat < 256 := UInt8.toNat_lt _
  obtain ⟨d, hd, high⟩ := hexDigits_eq_singleton
    (show (colorByte (Binary64.ofNumeral component)).toNat / 16 < 16 by omega)
  obtain ⟨e, he, low⟩ := hexDigits_eq_singleton
    (show (colorByte (Binary64.ofNumeral component)).toNat % 16 < 16 by omega)
  refine ⟨d, hd, e, he, ?_⟩
  rw [colorDigits, high, low]
  rfl

theorem isColor_mixture (red green blue : Numeral) : IsColor (mixture red green blue) := by
  obtain ⟨d₁, hd₁, d₂, hd₂, hred⟩ := exists_colorDigits red
  obtain ⟨d₃, hd₃, d₄, hd₄, hgreen⟩ := exists_colorDigits green
  obtain ⟨d₅, hd₅, d₆, hd₆, hblue⟩ := exists_colorDigits blue
  refine .inr (.inr ⟨[d₁, d₂, d₃, d₄, d₅, d₆], rfl, ?_, ?_⟩)
  · simp [hd₁, hd₂, hd₃, hd₄, hd₅, hd₆]
  · rw [mixture, hred, hgreen, hblue]
    rfl

/-- **Every specification gives a colour**, also one that is not understood. -/
theorem isColor_cssColor (spec : List Char) : IsColor (cssColor spec) := by
  unfold cssColor
  split
  · exact .inl rfl
  · split
    · exact .inr (.inl rfl)
    · split
      · exact isColor_mixture _ _ _
      · exact .inl rfl

/-! ## Items -/

/-- Whether a failure can stand in the place of a command. -/
def Failure.OfDocument : Failure → Prop
  | dvi _ | charOutOfRange _ | papersize _ => True
  | _ => False

/-- Whether an item can come out of a document. -/
def Item.OfDocument : Item → Prop
  | .ok (.pushColor color) => IsColor color
  | .ok _ => True
  | .error failure => failure.OfDocument

open Item (OfDocument)

/-! ## Stages -/

theorem ofDocument_ofOp {op : Dvi.Op} {item : Item} (h : Item.ofOp? (.ok op) = some item) :
    item.OfDocument := by
  cases op with
  | typesetChar code advance =>
    unfold Item.ofOp? Command.ofOp at h
    dsimp only at h
    by_cases hcode : code.toNat < 256
    · rw [if_pos hcode] at h
      cases advance <;> (cases h; trivial)
    · rw [if_neg hcode] at h
      cases h
      trivial
  | typesetRule height width advance => cases advance <;> (cases h; trivial)
  | noOp => cases h
  | _ =>
    cases h
    trivial

theorem yields_commandStage : commandStage.Yields (fun _ => True) OfDocument := by
  refine .filterMap fun x item _ h => ?_
  cases x with
  | error fault =>
    cases h
    trivial
  | ok op => exact ofDocument_ofOp h

theorem yields_joinAdjacent {τ : Type} {text? : Command → Option τ} {join : List τ → Command}
    (h : ∀ texts, OfDocument (.ok (join texts))) :
    (joinAdjacent text? join).Yields OfDocument OfDocument := by
  refine .mergeRuns fun run item hitem => ?_
  obtain rfl := List.mem_singleton.mp hitem
  exact h _

/-- The items that are not recognised stay. -/
theorem yields_recognise {beginning : String} {meaning : List Char → Option Item}
    (h : ∀ rest item, meaning rest = some item → item.OfDocument) :
    (recognise beginning meaning).Yields OfDocument OfDocument := by
  refine .filterMap fun item item' hitem heq => ?_
  split at heq
  · split at heq
    · exact h _ item' heq
    · obtain rfl := Option.some.inj heq
      trivial
  · obtain rfl := Option.some.inj heq
    exact hitem

theorem ofDocument_paper (sizes : List Char) : (paper sizes).OfDocument := by
  unfold paper
  split <;> trivial

theorem ofDocument_colorChange {directive : List Char} {item : Item}
    (h : colorChange directive = some item) : item.OfDocument := by
  unfold colorChange at h
  split at h
  · obtain rfl := Option.some.inj h
    exact isColor_cssColor _
  · split at h
    · obtain rfl := Option.some.inj h
      trivial
    · cases h

theorem yields_imageStage : imageStage.Yields OfDocument OfDocument := by
  refine .filterMap fun item item' hitem heq => ?_
  obtain rfl := Option.some.inj heq
  dsimp only
  split
  · split <;> trivial
  · exact hitem

theorem yields_specialStages : specialStages.Yields OfDocument OfDocument := by
  have colors : colorStage.Yields OfDocument OfDocument :=
    yields_recognise fun _ _ => ofDocument_colorChange
  have papers : paperStage.Yields OfDocument OfDocument :=
    yields_recognise fun sizes item h => by
      obtain rfl := Option.some.inj h
      exact ofDocument_paper sizes
  have code : postScriptStage.Yields OfDocument OfDocument := by
    refine .andThen (yields_recognise fun _ item h => ?_) (yields_joinAdjacent fun _ => trivial)
    obtain rfl := Option.some.inj h
    trivial
  have fragments : svgStage.Yields OfDocument OfDocument := by
    refine .andThen (yields_recognise fun _ item h => ?_) (yields_joinAdjacent fun _ => trivial)
    obtain rfl := Option.some.inj h
    trivial
  exact (((papers.andThen colors).andThen code).andThen yields_imageStage).andThen fragments

/-! ## All of them -/

/-- **Every item of a document is one that a document can give.** -/
theorem ofDocument_pipeline (ops : List (Except Dvi.Fault Dvi.Op)) :
    ∀ item ∈ pipeline.run ops, item.OfDocument := by
  have texts : textStage.Yields OfDocument OfDocument := yields_joinAdjacent fun _ => trivial
  exact (yields_commandStage.andThen texts).andThen yields_specialStages ops fun _ _ => trivial

end DviMarkup
