/-
  Markup that is cut into several specials.

  Adjacent specials with markup are one command, so that it does not matter where the
  markup is cut, as long as no character is cut: the bytes of each special are decoded
  for themselves, before they are put together.

  * `markupOp` is a special with markup;
  * `run_unjoinedMarkup`: a special with markup stays where it is, and apart from what
    comes before and after it, until markup is put together;
  * `lost_fragmentsJoined`: no replacement character comes or goes when markup is put
    together;
  * `pipeline_markupOp_append_iff`: two adjacent specials are as good as one with the
    markup of both exactly if no sequence of bytes is cut.
-/
import DviMarkup.Command.Pipeline
import DviMarkup.Proofs.Command.Specials
import DviMarkup.Proofs.Command.Separation
import DviMarkup.Proofs.Text.Sequences

namespace DviMarkup

/-- A special with markup. -/
def markupOp (bytes : List UInt8) : Except Dvi.Fault Dvi.Op :=
  .ok (.special (Utf8.encode "dvisvgm:raw " ++ bytes))

/-- The markup of a special. -/
def markupItem (bytes : List UInt8) : Item :=
  .ok (.rawSvg (Utf8.decode bytes))

/-! ## Reading specials with markup -/

theorem toList_decode_markup (bytes : List UInt8) :
    (Utf8.decode (Utf8.encode "dvisvgm:raw " ++ bytes)).toList =
      "dvisvgm:raw ".toList ++ Utf8.decodeChars bytes := by
  rw [Utf8.decode, String.toList_ofList, Utf8.encode_eq_flatMap, Utf8.decodeChars_flatMap_append]

/-- All stages but the last. -/
def unjoinedMarkup : Stage (Except Dvi.Fault Dvi.Op) Item :=
  commandStage |>.andThen textStage |>.andThen
    (paperStage |>.andThen colorStage |>.andThen postScriptStage |>.andThen imageStage)

theorem run_pipeline_eq (ops : List (Except Dvi.Fault Dvi.Op)) :
    pipeline.run ops = fragmentsJoined ((unjoinedMarkup.run ops).map fragmentItem) := by
  rw [← run_svgStage]
  simp only [pipeline, specialStages, unjoinedMarkup, Stage.run_andThen]

/-- A special with markup passes all stages but the last as it is. -/
theorem barrier_markupOp (bytes : List UInt8) :
    unjoinedMarkup.Barrier (markupOp bytes)
      (.ok (.special (Utf8.decode (Utf8.encode "dvisvgm:raw " ++ bytes)))) := by
  have text := toList_decode_markup bytes
  refine ((Stage.Barrier.filterMap rfl).andThen (barrier_textStage rfl)).andThen
    ((((barrier_recognise (recognisedAs_none ?_ _)).andThen
      (barrier_recognise (recognisedAs_none ?_ _))).andThen
        (barrier_postScriptStage (recognisedAs_none ?_ _) rfl)).andThen ?_)
  · rw [text]; rfl
  · rw [text]; rfl
  · rw [text]; rfl
  · have image : imageItem (.ok (.special (Utf8.decode (Utf8.encode "dvisvgm:raw " ++ bytes)))) =
        .ok (.special (Utf8.decode (Utf8.encode "dvisvgm:raw " ++ bytes))) := by
      simp only [imageItem, isImage, text]
      rfl
    simpa only [image] using barrier_imageStage
      (.ok (.special (Utf8.decode (Utf8.encode "dvisvgm:raw " ++ bytes))))

theorem fragmentItem_markup (bytes : List UInt8) :
    fragmentItem (.ok (.special (Utf8.decode (Utf8.encode "dvisvgm:raw " ++ bytes)))) =
      markupItem bytes := by
  simp only [fragmentItem, toList_decode_markup]
  rfl

/-- What becomes of a special with markup, and of what stands before and after it. -/
theorem run_unjoinedMarkup (before after : List (Except Dvi.Fault Dvi.Op)) (bytes : List UInt8) :
    (unjoinedMarkup.run (before ++ markupOp bytes :: after)).map fragmentItem =
      (unjoinedMarkup.run before).map fragmentItem ++
        markupItem bytes :: (unjoinedMarkup.run after).map fragmentItem := by
  rw [(barrier_markupOp bytes).run_append_cons, List.map_append, List.map_cons,
    fragmentItem_markup]

/-! ## Replacement characters in markup -/

/-- The number of replacement characters in the markup of items. -/
def lost (items : List Item) : Nat :=
  ((items.filterMap fragment?).flatMap String.toList).count Utf8.replacement

theorem lost_append (a b : List Item) : lost (a ++ b) = lost a + lost b := by
  rw [lost, List.filterMap_append, List.flatMap_append, List.count_append, lost, lost]

theorem count_unbroken (text : List Char) :
    (unbroken text).count Utf8.replacement = text.count Utf8.replacement := by
  induction text using unbroken.induct with
  | case1 text ih =>
    rw [unbroken, ih]
    simp [Utf8.replacement]
  | case2 c text h ih =>
    rw [unbroken, List.count_cons, List.count_cons, ih]
    exact h
  | case3 => rw [unbroken]

/-- **Putting markup together loses no character**, and brings none back. -/
theorem lost_fragmentsJoined (items : List Item) : lost (fragmentsJoined items) = lost items := by
  unfold fragmentsJoined
  induction items using replaceRuns.induct isFragment with
  | case1 => rw [replaceRuns_nil]
  | case2 x items hx ih =>
    have run : lost (x :: items) =
        lost (x :: items.takeWhile isFragment) + lost (items.dropWhile isFragment) := by
      rw [← lost_append, List.cons_append, List.takeWhile_append_dropWhile]
    rw [replaceRuns_cons _ hx, lost_append, ih, run]
    simp [lost, fragment?, count_unbroken, List.count_flatMap, Function.comp_def]
  | case3 x items hx ih =>
    rw [replaceRuns_cons_of_not _ (by simpa using hx), ← List.singleton_append, lost_append, ih,
      ← lost_append, List.singleton_append]

theorem lost_markupItem_cons (bytes : List UInt8) (items : List Item) :
    lost (markupItem bytes :: items) =
      (Utf8.decodeChars bytes).count Utf8.replacement + lost items := by
  simp [lost, markupItem, fragment?, Utf8.decode]

/-! ## Cuts -/

/-- Pieces of markup that are decoded as what they are together are put together to that. -/
theorem fragmentsJoined_markupItem_append {a b : List UInt8}
    (h : Utf8.decodeChars (a ++ b) = Utf8.decodeChars a ++ Utf8.decodeChars b)
    (before after : List Item) :
    fragmentsJoined (before ++ [markupItem a, markupItem b] ++ after) =
      fragmentsJoined (before ++ [markupItem (a ++ b)] ++ after) := by
  have join (x y : List Item) :
      (String.join ((x ++ [markupItem a, markupItem b] ++ y).filterMap fragment?)).toList =
        (String.join ((x ++ [markupItem (a ++ b)] ++ y).filterMap fragment?)).toList := by
    simp [markupItem, fragment?, Utf8.decode, h]
  refine replaceRuns_append_congr ?_ ?_ (List.cons_ne_nil _ _) (List.cons_ne_nil _ _) ?_
    before after
  · simp [markupItem, isFragment, fragment?]
  · simp [markupItem, isFragment, fragment?]
  · intro x y
    rw [join]

/-- **Where markup is cut does not matter, unless a sequence of bytes is cut.**  Adjacent
    specials with two pieces of markup are as good as one with both, wherever they
    stand, exactly if the bytes of no character are in both pieces. -/
theorem pipeline_markupOp_append_iff (before after : List (Except Dvi.Fault Dvi.Op))
    (a b : List UInt8) :
    pipeline.run (before ++ markupOp a :: markupOp b :: after) =
        pipeline.run (before ++ markupOp (a ++ b) :: after) ↔
      Utf8.sequences (a ++ b) = Utf8.sequences a ++ Utf8.sequences b := by
  have second : (unjoinedMarkup.run (markupOp b :: after)).map fragmentItem =
      markupItem b :: (unjoinedMarkup.run after).map fragmentItem := run_unjoinedMarkup [] after b
  rw [run_pipeline_eq, run_pipeline_eq, run_unjoinedMarkup, run_unjoinedMarkup, second]
  generalize (unjoinedMarkup.run before).map fragmentItem = A
  generalize (unjoinedMarkup.run after).map fragmentItem = B
  constructor
  · intro h
    refine (Utf8.sequences_append_or a b).resolve_right fun hlt => ?_
    have count := congrArg lost h
    simp only [lost_fragmentsJoined, lost_append, lost_markupItem_cons] at count
    rw [List.count_append] at hlt
    omega
  · intro h
    rw [← Utf8.decodeChars_append_iff] at h
    simpa using fragmentsJoined_markupItem_append h A B

/-- The two bytes of an `é` in two specials are no `é`. -/
theorem pipeline_markupOp_append_ne :
    pipeline.run [markupOp [0xC3], markupOp [0xA9]] ≠ pipeline.run [markupOp [0xC3, 0xA9]] := by
  decide +kernel

end DviMarkup
