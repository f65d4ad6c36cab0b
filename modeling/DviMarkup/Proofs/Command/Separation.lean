/-
  Operations that separate what comes before them from what comes after them.

  Characters, code and markup are put together with what is adjacent, and what has no
  command is left out.  Every other operation, and every fault, is a barrier on the
  whole way from operations to commands.

  * `separates` holds of these operations and of faults;
  * `barrier_specialStages` and `barrier_pipeline`: an item is a barrier if what it is
    read as is not put together with others;
  * `exists_reading_of_separates`: so is what separates;
  * `pipeline_separated`: the commands of the operations on the two sides have nothing
    to do with each other, and nothing is held up.
-/
import DviMarkup.Proofs.Command.Specials
import DviMarkup.Proofs.Stream.Barriers

namespace DviMarkup

/-! ## Separating operations -/

/-- Whether a special is about colours, but is not understood. -/
def isIgnoredColor (text : List Char) : Bool :=
  "color ".toList.isPrefixOf text && !"color push ".toList.isPrefixOf text &&
    !"color pop".toList.isPrefixOf text

/-- Whether an operation, or a fault in its place, is something else than nothing, a
    character of a text, code, markup or a colour that is not understood. -/
def separates : Except Dvi.Fault Dvi.Op → Bool
  | .ok .noOp => false
  | .ok (.typesetChar code advance) => !(advance && code.toNat ≤ 255)
  | .ok (.special payload) =>
    let text := (Utf8.decode payload).toList
    !("ps: ".toList.isPrefixOf text || "dvisvgm:raw ".toList.isPrefixOf text ||
      isIgnoredColor text)
  | _ => true

/-! ## Barriers for items -/

theorem barrier_recognise {beginning : String} {meaning : List Char → Option Item} {x y : Item}
    (h : recognisedAs beginning meaning x = some y) : (recognise beginning meaning).Barrier x y :=
  .filterMap h

theorem barrier_joinAdjacent {τ : Type} {text? : Command → Option τ} (join : List τ → Command)
    {x : Item} (h : textOf? text? x = none) : (joinAdjacent text? join).Barrier x x := by
  refine .mergeRuns _ ?_
  cases x with
  | ok command => exact congrArg Option.isSome h
  | error failure => rfl

theorem barrier_textStage {x : Item} (h : isText x = false) : textStage.Barrier x x := by
  refine barrier_joinAdjacent _ ?_
  rcases x with failure | command
  · rfl
  · cases command with
    | setText text => cases h
    | _ => rfl

theorem barrier_imageStage (x : Item) : imageStage.Barrier x (imageItem x) :=
  .filterMap rfl

theorem barrier_svgStage {x : Item} (h : isFragment (fragmentItem x) = false) :
    svgStage.Barrier x (fragmentItem x) := by
  refine .andThen (y := fragmentItem x) (barrier_recognise ?_) (barrier_joinAdjacent _ ?_)
  · rcases x with failure | command
    · rfl
    · cases command with
      | special payload =>
        simp only [recognisedAs, fragmentItem]
        split <;> rfl
      | _ => rfl
  · generalize fragmentItem x = y at h
    rcases y with failure | command
    · rfl
    · cases command with
      | rawSvg fragment => cases h
      | _ => rfl

theorem barrier_postScriptStage {x y : Item}
    (h : recognisedAs "ps: " (fun code => some (.ok (.postScript (String.ofList code)))) x = some y)
    (hy : isCode y = false) : postScriptStage.Barrier x y := by
  refine (barrier_recognise h).andThen (barrier_joinAdjacent _ ?_)
  rcases y with failure | command
  · rfl
  · cases command with
    | postScript code => cases hy
    | _ => rfl

/-- Reading images and markup makes no code of anything and leaves code as it is. -/
theorem isCode_drawnItem (x : Item) : isCode (drawnItem x) = isCode x := by
  rcases x with failure | command
  · rfl
  · cases command with
    | special payload =>
      simp only [drawnItem, imageItem]
      split
      · rfl
      · simp only [fragmentItem]
        split <;> rfl
    | _ => rfl

/-- What is read as neither code nor markup is a barrier for the specials. -/
theorem barrier_specialStages {x y : Item} (h : reading x = some y) (hcode : isCode y = false)
    (hfragment : isFragment y = false) : specialStages.Barrier x y := by
  rw [reading_eq, Option.map_eq_some_iff] at h
  obtain ⟨z, hz, rfl⟩ := h
  rw [isCode_drawnItem] at hcode
  obtain ⟨paper, hpaper, hz⟩ := Option.bind_eq_some_iff.mp hz
  obtain ⟨color, hcolor, hz⟩ := Option.bind_eq_some_iff.mp hz
  exact (((barrier_recognise hpaper).andThen (barrier_recognise hcolor)).andThen
    (barrier_postScriptStage hz hcode)).andThen (barrier_imageStage z) |>.andThen
      (barrier_svgStage hfragment)

/-- What is read as neither a text nor code nor markup is a barrier. -/
theorem barrier_pipeline {x : Except Dvi.Fault Dvi.Op} {item y : Item}
    (hitem : Item.ofOp? x = some item) (htext : isText item = false) (h : reading item = some y)
    (hcode : isCode y = false) (hfragment : isFragment y = false) : pipeline.Barrier x y :=
  (Stage.Barrier.filterMap hitem).andThen (barrier_textStage htext) |>.andThen
    (barrier_specialStages h hcode hfragment)

/-! ## Barriers for operations -/

/-- A special that is neither code nor markup nor ignored is read as something else. -/
theorem exists_recognised {payload : String}
    (hcode : "ps: ".toList.isPrefixOf payload.toList = false)
    (hfragment : "dvisvgm:raw ".toList.isPrefixOf payload.toList = false)
    (hcolor : isIgnoredColor payload.toList = false) :
    ∃ y, recognised payload = some y ∧ isCode y = false ∧ isFragment y = false := by
  rw [← List.isSome_isPrefixOf?_eq_isPrefixOf, Option.isSome_eq_false_iff,
    Option.isNone_iff_eq_none] at hcode hfragment
  cases hpaper : "papersize=".toList.isPrefixOf? payload.toList with
  | some sizes =>
    refine ⟨paper sizes, by simp only [recognised, hpaper], ?_⟩
    obtain ⟨width, height, h⟩ | h := paper_setPaper_or_error sizes
    · rw [h]
      exact ⟨rfl, rfl⟩
    · rw [h]
      exact ⟨rfl, rfl⟩
  | none =>
    cases hpush : "color push ".toList.isPrefixOf? payload.toList with
    | some spec => exact ⟨_, by simp only [recognised, hpaper, hpush]; rfl, rfl, rfl⟩
    | none =>
      simp only [recognised, hpaper, hpush, hcode, hfragment]
      split
      · exact ⟨_, rfl, rfl, rfl⟩
      split
      case isTrue hpop hcolor' =>
        rw [← Option.isNone_iff_eq_none, ← Option.isSome_eq_false_iff,
          List.isSome_isPrefixOf?_eq_isPrefixOf] at hpush
        rw [isIgnoredColor, hcolor', hpush, eq_false_of_ne_true hpop] at hcolor
        cases hcolor
      split
      · exact ⟨_, rfl, rfl, rfl⟩
      · exact ⟨_, rfl, rfl, rfl⟩

/-- What separates is read as an item that is put together with no other. -/
theorem exists_reading_of_separates {x : Except Dvi.Fault Dvi.Op} (h : separates x = true) :
    ∃ item y, Item.ofOp? x = some item ∧ isText item = false ∧ reading item = some y ∧
      isCode y = false ∧ isFragment y = false := by
  rcases x with fault | op
  · exact ⟨_, _, rfl, rfl, rfl, rfl, rfl⟩
  cases op with
  | noOp => cases h
  | typesetChar code advance =>
    by_cases hcode : code.toNat < 256
    · obtain rfl : advance = false := by
        simpa [separates, Nat.le_of_lt_succ hcode] using h
      exact ⟨_, _, by simp only [Item.ofOp?, Command.ofOp, if_pos hcode]; rfl, rfl, rfl, rfl, rfl⟩
    · exact ⟨_, _, by simp only [Item.ofOp?, Command.ofOp, if_neg hcode]; rfl, rfl, rfl, rfl, rfl⟩
  | special payload =>
    simp only [separates, Bool.not_eq_true', Bool.or_eq_false_iff] at h
    obtain ⟨y, hy, hcode, hfragment⟩ := exists_recognised h.1.1 h.1.2 h.2
    exact ⟨_, y, rfl, rfl, hy, hcode, hfragment⟩
  | typesetRule height width advance =>
    cases advance with
    | true => exact ⟨_, _, rfl, rfl, rfl, rfl, rfl⟩
    | false => exact ⟨_, _, rfl, rfl, rfl, rfl, rfl⟩
  | _ => exact ⟨_, _, rfl, rfl, rfl, rfl, rfl⟩

/-- **Separating operations separate.**  The commands of the operations before one, one item
    that depends on itself alone, and the commands of the operations after it follow on
    each other; what comes first is handed on once this operation was taken, and no
    later one. -/
theorem pipeline_separated {x : Except Dvi.Fault Dvi.Op} (h : separates x = true) :
    ∃ y, (Item.ofOp? x).bind reading = some y ∧ ∀ before after,
      pipeline.run (before ++ x :: after) = pipeline.run before ++ y :: pipeline.run after ∧
      ∃ front, pipeline.trace (before ++ x :: after) =
          front ++ (pipeline.trace after).map (fun result =>
            (result.1, before.length + 1 + result.2)) ∧
        front.map Prod.fst = pipeline.run before ++ [y] ∧
        ∀ result ∈ front, result.2 ≤ before.length + 1 := by
  obtain ⟨item, y, hitem, htext, hy, hcode, hfragment⟩ := exists_reading_of_separates h
  have barrier := barrier_pipeline hitem htext hy hcode hfragment
  refine ⟨y, by rw [hitem, Option.bind_some, hy], fun before after => ?_⟩
  obtain ⟨front, trace, results, bound⟩ := barrier.trace_append_cons before after
  exact ⟨barrier.run_append_cons before after, front, trace, results, bound⟩

/-- A fault ends a text and is followed by another one. -/
theorem pipeline_separated_fault :
    separates (.error (.truncated 142)) = true ∧
      ∃ y, (Item.ofOp? (.error (.truncated 142))).bind reading = some y ∧
        pipeline.run [.ok (.typesetChar 104 true), .error (.truncated 142),
            .ok (.typesetChar 105 true)] = [.ok (.setText [104]), y, .ok (.setText [105])] ∧
        y = .error (.dvi (.truncated 142)) := by
  obtain ⟨y, hy, both⟩ := pipeline_separated (x := .error (.truncated 142)) rfl
  obtain ⟨run, -⟩ := both [.ok (.typesetChar 104 true)] [.ok (.typesetChar 105 true)]
  exact ⟨rfl, y, hy, run, (Option.some.inj hy).symm⟩

end DviMarkup
