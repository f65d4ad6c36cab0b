/-
  The stages for specials are one pass over the items.

  * `recognised` is what becomes of a special by how its payload begins, and
    `reading` what becomes of an item;
  * `joined` is a list with its adjacent pieces of code and of markup put together;
  * `reading_eq`: an item is read by the stages for the kinds of specials, one after
    the other;
  * `fragmentsJoined_codeJoined`: joining code and then markup is one pass;
  * `run_specialStages`: all of the stages together read each item and join what
    then is adjacent, and nothing else.
-/
import DviMarkup.Command.Pipeline
import DviMarkup.Proofs.Stream.Runs
import Mathlib.Data.List.Basic

namespace DviMarkup

/-! ## One item -/

/-- What becomes of a special with a payload, if anything does. -/
def recognised (payload : String) : Option Item :=
  let text := payload.toList
  if let some sizes := "papersize=".toList.isPrefixOf? text then some (paper sizes)
  else if let some spec := "color push ".toList.isPrefixOf? text then
    some (.ok (.pushColor (cssColor spec)))
  else if "color pop".toList.isPrefixOf text then some (.ok .popColor)
  else if "color ".toList.isPrefixOf text then none
  else if let some code := "ps: ".toList.isPrefixOf? text then
    some (.ok (.postScript (String.ofList code)))
  else if isImage payload then some (.ok (.image payload))
  else if let some fragment := "dvisvgm:raw ".toList.isPrefixOf? text then
    some (.ok (.rawSvg (String.ofList fragment)))
  else some (.ok (.special payload))

/-- What becomes of an item, if anything does: only specials have a payload to be
    read. -/
def reading : Item → Option Item
  | .ok (.special payload) => recognised payload
  | item => some item

/-! ## Adjacent items -/

/-- The code of an item that is code. -/
def code? : Item → Option String
  | .ok (.postScript code) => some code
  | _ => none

/-- The markup of an item that is markup. -/
def fragment? : Item → Option String
  | .ok (.rawSvg fragment) => some fragment
  | _ => none

/-- The text of an item that typesets one and moves on. -/
def text? : Item → Option (List UInt8)
  | .ok (.setText text) => some text
  | _ => none

/-- Whether an item is code. -/
def isCode (item : Item) : Bool := (code? item).isSome

/-- Whether an item is markup. -/
def isFragment (item : Item) : Bool := (fragment? item).isSome

/-- Whether an item is a text with which the place moves on. -/
def isText (item : Item) : Bool := (text? item).isSome

/-- A text without its breaks, read once from left to right. -/
def unbroken : List Char → List Char
  | '\x7b' :: '?' :: 'n' :: 'l' :: '\x7d' :: text => unbroken text
  | c :: text => c :: unbroken text
  | [] => []

/-- Items with adjacent pieces of code as one, blanks between them, and adjacent
    pieces of markup as one, without its breaks. -/
def joined : List Item → List Item
  | [] => []
  | .ok (.postScript code) :: items =>
    let codes := code :: (items.takeWhile isCode).filterMap code?
    .ok (.postScript (" ".intercalate codes)) :: joined (items.dropWhile isCode)
  | .ok (.rawSvg fragment) :: items =>
    let fragments := fragment :: (items.takeWhile isFragment).filterMap fragment?
    .ok (.rawSvg (String.ofList (unbroken (String.join fragments).toList))) ::
      joined (items.dropWhile isFragment)
  | item :: items => item :: joined items
termination_by items => items.length
decreasing_by
  · exact Nat.lt_succ_of_le (List.dropWhile_sublist isCode).length_le
  · exact Nat.lt_succ_of_le (List.dropWhile_sublist isFragment).length_le
  · exact Nat.lt_succ_self _

/-! ## Stages on one item -/

/-- What `recognise` makes of an item. -/
def recognisedAs (beginning : String) (meaning : List Char → Option Item) : Item → Option Item
  | .ok (.special payload) =>
    match beginning.toList.isPrefixOf? payload.toList with
    | some rest => meaning rest
    | none => some (.ok (.special payload))
  | item => some item

theorem run_recognise (beginning : String) (meaning : List Char → Option Item)
    (items : List Item) :
    (recognise beginning meaning).run items = items.filterMap (recognisedAs beginning meaning) := by
  rw [recognise, Stage.run_filterMap]
  rfl

/-- What the stage for images makes of an item. -/
def imageItem : Item → Item
  | .ok (.special payload) =>
    if isImage payload then .ok (.image payload) else .ok (.special payload)
  | item => item

theorem run_imageStage (items : List Item) : imageStage.run items = items.map imageItem := by
  rw [imageStage, Stage.run_map]
  rfl

/-- What is made of an item before markup is joined. -/
def fragmentItem : Item → Item
  | .ok (.special payload) =>
    match "dvisvgm:raw ".toList.isPrefixOf? payload.toList with
    | some fragment => .ok (.rawSvg (String.ofList fragment))
    | none => .ok (.special payload)
  | item => item

/-- What the stages for images and markup make of an item before markup is joined. -/
def drawnItem (item : Item) : Item :=
  fragmentItem (imageItem item)

/-- What is made of an item before code is joined. -/
def codeItem? (item : Item) : Option Item :=
  (recognisedAs "papersize=" (fun sizes => some (paper sizes)) item).bind fun item =>
    (recognisedAs "color " colorChange item).bind
      (recognisedAs "ps: " fun code => some (.ok (.postScript (String.ofList code))))

theorem isPrefixOf?_append (a b s : List Char) :
    (a ++ b).isPrefixOf? s = (a.isPrefixOf? s).bind b.isPrefixOf? := by
  induction a generalizing s with
  | nil => rfl
  | cons c a ih =>
    cases s with
    | nil => rfl
    | cons d s =>
      simp only [List.cons_append, List.isPrefixOf?]
      split
      · exact ih s
      · rfl

theorem isPrefixOf_append (a b s : List Char) :
    (a ++ b).isPrefixOf s = ((a.isPrefixOf? s).map b.isPrefixOf).getD false := by
  rw [← List.isSome_isPrefixOf?_eq_isPrefixOf, isPrefixOf?_append]
  cases a.isPrefixOf? s with
  | none => rfl
  | some rest => exact List.isSome_isPrefixOf?_eq_isPrefixOf b rest

theorem isPrefixOf?_colorPush (text : List Char) :
    "color push ".toList.isPrefixOf? text =
      ("color ".toList.isPrefixOf? text).bind "push ".toList.isPrefixOf? :=
  isPrefixOf?_append "color ".toList "push ".toList text

theorem isPrefixOf_colorPop (text : List Char) :
    "color pop".toList.isPrefixOf text =
      (("color ".toList.isPrefixOf? text).map "pop".toList.isPrefixOf).getD false :=
  isPrefixOf_append "color ".toList "pop".toList text

theorem isPrefixOf_color (text : List Char) :
    "color ".toList.isPrefixOf text = ("color ".toList.isPrefixOf? text).isSome :=
  (List.isSome_isPrefixOf?_eq_isPrefixOf _ _).symm

theorem recognisedAs_some {beginning : String} {payload : String} {rest : List Char}
    (h : beginning.toList.isPrefixOf? payload.toList = some rest)
    (meaning : List Char → Option Item) :
    recognisedAs beginning meaning (.ok (.special payload)) = meaning rest := by
  simp only [recognisedAs, h]

theorem recognisedAs_none {beginning : String} {payload : String}
    (h : beginning.toList.isPrefixOf? payload.toList = none)
    (meaning : List Char → Option Item) :
    recognisedAs beginning meaning (.ok (.special payload)) = some (.ok (.special payload)) := by
  simp only [recognisedAs, h]

/-- What is read of the sizes of the paper is a size or a failure that names them. -/
theorem paper_setPaper_or_error (sizes : List Char) :
    (∃ width height, paper sizes = .ok (.setPaper width height)) ∨
      paper sizes = .error (.papersize (String.ofList sizes)) := by
  unfold paper
  split
  · exact .inl ⟨_, _, rfl⟩
  · exact .inr rfl

/-- What is no special any more is not looked at by the stages for code and after. -/
theorem codeItem?_paper {payload : String} {sizes : List Char}
    (h : "papersize=".toList.isPrefixOf? payload.toList = some sizes) :
    (codeItem? (.ok (.special payload))).map drawnItem =
      some (paper sizes) := by
  rw [codeItem?, recognisedAs_some h]
  obtain ⟨width, height, h⟩ | h := paper_setPaper_or_error sizes
  · rw [h]
    rfl
  · rw [h]
    rfl

section Color

variable {payload : String} {directive : List Char}
  (hpaper : "papersize=".toList.isPrefixOf? payload.toList = none)
  (hcolor : "color ".toList.isPrefixOf? payload.toList = some directive)

include hpaper hcolor

theorem recognised_color : recognised payload = colorChange directive := by
  simp only [recognised, colorChange, hpaper, isPrefixOf?_colorPush, isPrefixOf_colorPop,
    isPrefixOf_color, hcolor, Option.bind_some, Option.map_some, Option.getD_some,
    Option.isSome_some, if_true]
  cases "push ".toList.isPrefixOf? directive with
  | some spec => rfl
  | none => rfl

theorem codeItem?_color :
    (codeItem? (.ok (.special payload))).map drawnItem =
      colorChange directive := by
  rw [codeItem?, recognisedAs_none hpaper, Option.bind_some, recognisedAs_some hcolor, colorChange]
  split
  · rfl
  · split <;> rfl

end Color

/-- What is left for the stages after the colours. -/
theorem recognised_other {payload : String}
    (hpaper : "papersize=".toList.isPrefixOf? payload.toList = none)
    (hcolor : "color ".toList.isPrefixOf? payload.toList = none) :
    recognised payload =
      (recognisedAs "ps: " (fun code => some (.ok (.postScript (String.ofList code))))
        (.ok (.special payload))).map drawnItem := by
  simp only [recognised, hpaper, isPrefixOf?_colorPush, isPrefixOf_colorPop, isPrefixOf_color,
    hcolor, Option.bind_none, Option.map_none, Option.getD_none, Option.isSome_none]
  cases hcode : "ps: ".toList.isPrefixOf? payload.toList with
  | some code =>
    rw [recognisedAs_some hcode]
    rfl
  | none =>
    simp only [recognisedAs_none hcode, Option.map_some, drawnItem, imageItem]
    cases isImage payload with
    | true => rfl
    | false =>
      cases hmarkup : "dvisvgm:raw ".toList.isPrefixOf? payload.toList with
      | some fragment => simp only [fragmentItem, Bool.false_eq_true, if_false, hmarkup]
      | none => simp only [fragmentItem, Bool.false_eq_true, if_false, hmarkup]

theorem reading_special (payload : String) :
    reading (.ok (.special payload)) = (codeItem? (.ok (.special payload))).map drawnItem := by
  cases hpaper : "papersize=".toList.isPrefixOf? payload.toList with
  | some sizes =>
    rw [codeItem?_paper hpaper, reading, recognised]
    simp only [hpaper]
  | none =>
    cases hcolor : "color ".toList.isPrefixOf? payload.toList with
    | some directive =>
      rw [codeItem?_color hpaper hcolor]
      exact recognised_color hpaper hcolor
    | none =>
      rw [codeItem?, recognisedAs_none hpaper, Option.bind_some, recognisedAs_none hcolor,
        Option.bind_some]
      exact recognised_other hpaper hcolor

/-- **Each item is read by one stage after the other.** -/
theorem reading_eq (item : Item) : reading item = (codeItem? item).map drawnItem := by
  cases item with
  | error failure => rfl
  | ok command =>
    cases command with
    | special payload => exact reading_special payload
    | _ => rfl

/-! ## Stages on adjacent items -/

/-- Replacing breaks by nothing is leaving them out. -/
theorem withoutBreaks_eq (text : List Char) : withoutBreaks text = unbroken text := by
  unfold withoutBreaks
  induction text using unbroken.induct with
  | case1 text ih =>
    rw [unbroken, Text.replaceAll, if_pos ⟨rfl, rfl⟩]
    exact ih
  | case2 c text hbreak ih =>
    have here : ¬ (c = '\x7b' ∧ "?nl\x7d".toList.isPrefixOf text) := by
      rintro ⟨rfl, h⟩
      obtain ⟨rest, rfl⟩ := List.isPrefixOf_iff_prefix.mp h
      exact hbreak rest rfl rfl
    rw [unbroken, Text.replaceAll, if_neg here, ih]
    exact hbreak
  | case3 => rw [unbroken, Text.replaceAll]

/-- The text of an item, given the texts of commands. -/
def textOf? {τ : Type} (text? : Command → Option τ) : Item → Option τ
  | .ok command => text? command
  | .error _ => none

/-- Joining the adjacent texts of one kind replaces each run of items with such a
    text. -/
theorem run_joinAdjacent {τ : Type} {text? : Command → Option τ} {itemText? : Item → Option τ}
    (ok : ∀ command, itemText? (.ok command) = text? command)
    (error : ∀ failure, itemText? (.error failure) = none)
    (join : List τ → Command) (items : List Item) :
    (joinAdjacent text? join).run items =
      replaceRuns (fun item => (itemText? item).isSome)
        (fun run => [.ok (join (run.filterMap itemText?))]) items := by
  obtain rfl : itemText? = textOf? text? := by
    funext item
    cases item with
    | ok command => exact ok command
    | error failure => exact error failure
  exact Stage.run_mergeRuns items

/-- Items with adjacent pieces of code as one. -/
def codeJoined : List Item → List Item :=
  replaceRuns isCode fun run => [.ok (.postScript (" ".intercalate (run.filterMap code?)))]

/-- Items with adjacent pieces of markup as one. -/
def fragmentsJoined : List Item → List Item :=
  replaceRuns isFragment fun run =>
    [.ok (.rawSvg (String.ofList (unbroken (String.join (run.filterMap fragment?)).toList)))]

theorem run_postScriptStage (items : List Item) :
    postScriptStage.run items = codeJoined (items.filterMap (recognisedAs "ps: " fun code =>
      some (.ok (.postScript (String.ofList code))))) := by
  rw [postScriptStage, Stage.run_andThen, run_recognise]
  exact run_joinAdjacent (fun command => by cases command <;> rfl) (fun _ => rfl) _ _

theorem run_svgStage (items : List Item) :
    svgStage.run items = fragmentsJoined (items.map fragmentItem) := by
  have read : (recognisedAs "dvisvgm:raw " fun markup =>
      some (.ok (.rawSvg (String.ofList markup)))) = fun item => some (fragmentItem item) := by
    funext item
    rcases item with failure | command
    · rfl
    · cases command with
      | special payload =>
        simp only [recognisedAs, fragmentItem]
        split <;> rfl
      | _ => rfl
  rw [svgStage, Stage.run_andThen, run_recognise, read, List.filterMap_eq_map']
  simp only [withoutBreaks_eq]
  exact run_joinAdjacent (fun command => by cases command <;> rfl) (fun _ => rfl) _ _

/-- Items with adjacent texts as one. -/
def textJoined : List Item → List Item :=
  replaceRuns isText fun run => [.ok (.setText (run.filterMap text?).flatten)]

theorem run_textStage (items : List Item) : textStage.run items = textJoined items :=
  run_joinAdjacent (fun command => by cases command <;> rfl) (fun _ => rfl) _ items

/-- Code is joined before or after specials with images and markup are read. -/
theorem map_codeJoined (items : List Item) :
    (codeJoined items).map drawnItem = codeJoined (items.map drawnItem) := by
  refine map_replaceRuns ?fixed ?same (fun run => rfl) items
  case fixed =>
    rintro (failure | command) h
    · cases h
    · cases command with
      | postScript code => rfl
      | _ => cases h
  case same =>
    rintro (failure | command)
    · rfl
    · cases command with
      | special payload =>
        simp only [drawnItem, imageItem]
        split
        · rfl
        · simp only [fragmentItem]
          split <;> rfl
      | _ => rfl

/-- A run of markup at the front is the same before and after code is joined. -/
theorem span_codeJoined (items : List Item) :
    (codeJoined items).takeWhile isFragment = items.takeWhile isFragment ∧
      (codeJoined items).dropWhile isFragment = codeJoined (items.dropWhile isFragment) := by
  refine span_replaceRuns ?apart (fun x run => ⟨_, [], rfl, rfl⟩) items
  case apart =>
    rintro (failure | command) h
    · cases h
    · cases command with
      | rawSvg fragment => rfl
      | _ => cases h

/-- Joining code and then markup is one pass. -/
theorem fragmentsJoined_codeJoined (items : List Item) :
    fragmentsJoined (codeJoined items) = joined items := by
  induction items using joined.induct with
  | case1 => simp [joined, codeJoined, fragmentsJoined]
  | case2 code items ih =>
    rw [joined, ← ih, codeJoined, replaceRuns_cons _ rfl]
    exact replaceRuns_cons_of_not _ rfl _
  | case3 fragment items ih =>
    have front := span_codeJoined items
    rw [joined, ← ih, ← front.1, ← front.2, codeJoined, replaceRuns_cons_of_not _ rfl]
    exact replaceRuns_cons _ rfl _
  | case4 item items hcode hfragment ih =>
    have notCode : isCode item = false := by
      rw [isCode, code?.eq_def]
      split
      · exact absurd rfl (hcode _)
      · rfl
    have notFragment : isFragment item = false := by
      rw [isFragment, fragment?.eq_def]
      split
      · exact absurd rfl (hfragment _)
      · rfl
    rw [joined, ← ih, codeJoined, replaceRuns_cons_of_not _ notCode]
    · exact replaceRuns_cons_of_not _ notFragment _
    · exact hcode
    · exact hfragment

/-! ## All of the stages -/

/-- **The stages for specials are one pass**: each special is replaced by what its
    payload says, and then adjacent pieces of code and of markup are put together.
    Of the sizes of the paper a payload says a size or fails. -/
theorem run_specialStages (items : List Item) :
    specialStages.run items = joined (items.filterMap reading) ∧
      ∀ sizes, (∃ width height, paper sizes = .ok (.setPaper width height)) ∨
        paper sizes = .error (.papersize (String.ofList sizes)) := by
  refine ⟨?_, paper_setPaper_or_error⟩
  calc specialStages.run items
    _ = svgStage.run (imageStage.run (postScriptStage.run
          (colorStage.run (paperStage.run items)))) := by
        simp only [specialStages, Stage.run_andThen]
    _ = fragmentsJoined ((codeJoined (items.filterMap codeItem?)).map drawnItem) := by
        rw [run_svgStage, run_imageStage, run_postScriptStage, colorStage, run_recognise,
          paperStage, run_recognise, List.map_map, List.filterMap_filterMap,
          List.filterMap_filterMap]
        rfl
    _ = joined ((items.filterMap codeItem?).map drawnItem) := by
        rw [map_codeJoined, fragmentsJoined_codeJoined]
    _ = joined (items.filterMap reading) := by
        rw [List.map_filterMap]
        simp only [reading_eq]

end DviMarkup
