/-
  The order of the stages for specials does not matter.

  The stages look at specials of different kinds, and none makes a special or a piece of
  the kind that another one joins.  Only a stage that drops something could make items
  adjacent for a stage after it, and that happens with colours that mean nothing.

  * `SpecialKind` is a kind of specials, `SpecialKind.stage` the stage for it and
    `Stage.inTurn` a list of stages as one;
  * `SpecialKind.pass` is what a stage makes of a list if it drops nothing: it reads
    each item and joins what then is adjacent;
  * `SpecialKind.read_comm`, `SpecialKind.map_read_joins` and `SpecialKind.joins_comm`:
    reading and joining for different kinds do not meddle with each other, and so
    `SpecialKind.pass_comm`;
  * `run_inTurn_eq`: the stages make the same of a list in every order.
-/
import DviMarkup.Proofs.Command.Specials

namespace DviMarkup

/-- Stages one after the other, as one. -/
def Stage.inTurn {ι : Type} : List (Stage ι ι) → Stage ι ι
  | [] => Stage.map id
  | stage :: stages => stage.andThen (inTurn stages)

theorem Stage.run_inTurn {ι : Type} (stages : List (Stage ι ι)) (xs : List ι) :
    (inTurn stages).run xs = stages.foldl (fun xs stage => stage.run xs) xs := by
  induction stages generalizing xs with
  | nil => rw [inTurn, run_map, List.map_id, List.foldl_nil]
  | cons stage stages ih => rw [inTurn, run_andThen, ih, List.foldl_cons]

/-! ## Kinds of specials -/

/-- A kind of specials. -/
inductive SpecialKind where
  | paper | color | code | image | markup
deriving Repr, DecidableEq

namespace SpecialKind

/-- All kinds, in the order of their stages. -/
def all : List SpecialKind := [paper, color, code, image, markup]

/-- The stage for the specials of a kind. -/
def stage : SpecialKind → Stage Item Item
  | paper => paperStage
  | color => colorStage
  | code => postScriptStage
  | image => imageStage
  | markup => svgStage

/-- What the payload of a special of the kind means; nothing, if it is of another kind. -/
def meaning (kind : SpecialKind) (payload : String) : Option Item :=
  match kind with
  | paper => ("papersize=".toList.isPrefixOf? payload.toList).map DviMarkup.paper
  | color => ("color ".toList.isPrefixOf? payload.toList).bind colorChange
  | code =>
    ("ps: ".toList.isPrefixOf? payload.toList).map fun code => .ok (.postScript (String.ofList code))
  | image => if isImage payload then some (.ok (.image payload)) else none
  | markup =>
    ("dvisvgm:raw ".toList.isPrefixOf? payload.toList).map fun fragment =>
      .ok (.rawSvg (String.ofList fragment))

/-- What becomes of an item if specials of the kind are given their meaning. -/
def read (kind : SpecialKind) : Item → Item
  | .ok (.special payload) => (kind.meaning payload).getD (.ok (.special payload))
  | item => item

/-- What becomes of adjacent pieces of a kind. -/
def joins : SpecialKind → List Item → List Item
  | code => codeJoined
  | markup => fragmentsJoined
  | paper | color | image => id

/-- What the stage for a kind makes of a list of items of which it drops none. -/
def pass (kind : SpecialKind) (items : List Item) : List Item :=
  kind.joins (items.map kind.read)

/-! ## What the kinds have to do with each other -/

/-- How payloads of the kind begin, in small letters. -/
def beginning : SpecialKind → List Char
  | paper => "pap".toList
  | color => "col".toList
  | code => "ps:".toList
  | image => "psf".toList
  | markup => "dvi".toList

/-- The kind of specials that an item may be made of. -/
def of? : Item → Option SpecialKind
  | .ok (.setPaper _ _) | .error (.papersize _) => some paper
  | .ok (.pushColor _) | .ok .popColor => some color
  | .ok (.postScript _) => some code
  | .ok (.image _) => some image
  | .ok (.rawSvg _) => some markup
  | _ => none

theorem colorChange_eq_some {directive : List Char} {item : Item}
    (h : colorChange directive = some item) :
    (∃ c, item = .ok (.pushColor c)) ∨ item = .ok .popColor := by
  unfold colorChange at h
  split at h
  · exact .inl ⟨_, (Option.some.inj h).symm⟩
  · split at h
    · exact .inr (Option.some.inj h).symm
    · cases h

/-- The meaning of a special shows its kind. -/
theorem of?_of_meaning {kind : SpecialKind} {payload : String} {item : Item}
    (h : kind.meaning payload = some item) : of? item = some kind := by
  cases kind with
  | paper =>
    obtain ⟨sizes, -, rfl⟩ := Option.map_eq_some_iff.1 h
    rcases paper_setPaper_or_error sizes with ⟨width, height, h⟩ | h <;> rw [h] <;> rfl
  | color =>
    obtain ⟨directive, -, hchange⟩ := Option.bind_eq_some_iff.1 h
    rcases colorChange_eq_some hchange with ⟨c, rfl⟩ | rfl <;> rfl
  | code | markup =>
    obtain ⟨text, -, rfl⟩ := Option.map_eq_some_iff.1 h
    rfl
  | image =>
    obtain ⟨-, rfl⟩ : isImage payload = true ∧ .ok (.image payload) = item := by
      simpa [meaning] using h
    rfl

theorem take_of_isPrefixOf? {front text rest : List Char} (h : front.isPrefixOf? text = some rest)
    (hlen : 3 ≤ front.length) : text.take 3 = front.take 3 := by
  obtain rfl := List.append_eq_of_isPrefixOf?_eq_some h
  exact List.take_append_of_le_length hlen

/-- A special of the kind begins as the kind does. -/
theorem take_of_meaning {kind : SpecialKind} {payload : String} {item : Item}
    (h : kind.meaning payload = some item) :
    (payload.toList.take 3).map Char.toLower = kind.beginning := by
  cases kind with
  | paper | code | markup =>
    obtain ⟨rest, hrest, -⟩ := Option.map_eq_some_iff.1 h
    rw [take_of_isPrefixOf? hrest (by decide)]
    decide
  | color =>
    obtain ⟨directive, hdirective, -⟩ := Option.bind_eq_some_iff.1 h
    rw [take_of_isPrefixOf? hdirective (by decide)]
    decide
  | image =>
    have himage : (payload.toList.take 7).map Char.toLower = "psfile=".toList := by
      have hif : isImage payload = true := by
        by_contra hno
        simp [meaning, hno] at h
      simpa [isImage] using hif
    calc (payload.toList.take 3).map Char.toLower
        = ((payload.toList.take 7).map Char.toLower).take 3 := by
          rw [← List.map_take, List.take_take]
          rfl
      _ = beginning image := by rw [himage]; decide

/-- No special is of two kinds. -/
theorem eq_of_meaning {k l : SpecialKind} {payload : String} {item item' : Item}
    (hk : k.meaning payload = some item) (hl : l.meaning payload = some item') : k = l := by
  have h : k.beginning = l.beginning := (take_of_meaning hk).symm.trans (take_of_meaning hl)
  revert h
  cases k <;> cases l <;> decide

theorem read_of_of? {kind : SpecialKind} (k : SpecialKind) {item : Item} (h : of? item = some kind) :
    k.read item = item := by
  unfold read
  split
  · cases h
  · rfl

theorem read_special_of_some {kind : SpecialKind} {payload : String} {item : Item}
    (h : kind.meaning payload = some item) : kind.read (.ok (.special payload)) = item := by
  rw [read, h, Option.getD_some]

theorem read_special_of_none {kind : SpecialKind} {payload : String} (h : kind.meaning payload = none) :
    kind.read (.ok (.special payload)) = .ok (.special payload) := by
  rw [read, h, Option.getD_none]

/-- An item stays what it is when it is read, or it was a special of the kind. -/
theorem read_eq_or (kind : SpecialKind) (item : Item) :
    kind.read item = item ∨ of? (kind.read item) = some kind := by
  rcases item with failure | command
  · exact .inl rfl
  · cases command with
    | special payload =>
      cases h : kind.meaning payload with
      | none => exact .inl (read_special_of_none h)
      | some item => exact .inr (by rw [read_special_of_some h]; exact of?_of_meaning h)
    | _ => exact .inl rfl

/-- Items are read for one kind before or after they are read for another. -/
theorem read_comm {k l : SpecialKind} (hne : k ≠ l) (item : Item) :
    k.read (l.read item) = l.read (k.read item) := by
  rcases item with failure | command
  · rfl
  · cases command with
    | special payload =>
      cases hk : k.meaning payload with
      | some item =>
        have hl : l.meaning payload = none := by
          rw [Option.eq_none_iff_forall_ne_some]
          exact fun item' hl => hne (eq_of_meaning hk hl)
        rw [read_special_of_none hl, read_special_of_some hk, read_of_of? l (of?_of_meaning hk)]
      | none =>
        rw [read_special_of_none hk]
        rcases l.read_eq_or (.ok (.special payload)) with hl | hl
        · rw [hl, read_special_of_none hk]
        · exact read_of_of? k hl
    | _ => rfl

/-! ## Reading and joining -/

theorem isCode_iff {item : Item} : isCode item = true ↔ of? item = some code := by
  unfold isCode code? of?
  split <;> split <;> simp_all

theorem isFragment_iff {item : Item} : isFragment item = true ↔ of? item = some markup := by
  unfold isFragment fragment? of?
  split <;> split <;> simp_all

/-- Reading for another kind makes no pieces of this one and changes none. -/
theorem of?_read_eq_some_iff {k l : SpecialKind} (hne : k ≠ l) {item : Item} :
    of? (k.read item) = some l ↔ of? item = some l := by
  constructor
  · intro h
    rcases k.read_eq_or item with hread | hread
    · rwa [hread] at h
    · rw [hread] at h
      exact absurd (Option.some.inj h) hne
  · intro h
    rwa [read_of_of? k h]

theorem map_read_codeJoined {k : SpecialKind} (hne : k ≠ code) (items : List Item) :
    (codeJoined items).map k.read = codeJoined (items.map k.read) := by
  refine map_replaceRuns (fun item h => read_of_of? k (isCode_iff.1 h)) (fun item => ?_)
    (fun run => rfl) items
  rw [Bool.eq_iff_iff, isCode_iff, isCode_iff, of?_read_eq_some_iff hne]

theorem map_read_fragmentsJoined {k : SpecialKind} (hne : k ≠ markup) (items : List Item) :
    (fragmentsJoined items).map k.read = fragmentsJoined (items.map k.read) := by
  refine map_replaceRuns (fun item h => read_of_of? k (isFragment_iff.1 h)) (fun item => ?_)
    (fun run => rfl) items
  rw [Bool.eq_iff_iff, isFragment_iff, isFragment_iff, of?_read_eq_some_iff hne]

/-- Pieces of one kind are joined before or after items are read for another. -/
theorem map_read_joins {k l : SpecialKind} (hne : k ≠ l) (items : List Item) :
    (l.joins items).map k.read = l.joins (items.map k.read) := by
  cases l with
  | code => exact map_read_codeJoined hne items
  | markup => exact map_read_fragmentsJoined hne items
  | paper | color | image => rfl

/-- Code is joined before or after markup is. -/
theorem fragmentsJoined_codeJoined_comm (items : List Item) :
    fragmentsJoined (codeJoined items) = codeJoined (fragmentsJoined items) := by
  refine replaceRuns_comm (fun item h => ?_) (fun _ _ => ⟨_, rfl, rfl⟩) (fun _ _ => ⟨_, rfl, rfl⟩) items
  rw [isFragment_iff] at h
  rw [← Bool.not_eq_true, isCode_iff, h]
  decide

theorem joins_comm (k l : SpecialKind) (items : List Item) :
    k.joins (l.joins items) = l.joins (k.joins items) := by
  cases k <;> cases l <;>
    first
    | rfl
    | exact fragmentsJoined_codeJoined_comm items
    | exact (fragmentsJoined_codeJoined_comm items).symm

/-- **The stages for two kinds may change places**, if nothing is dropped. -/
theorem pass_comm (k l : SpecialKind) (items : List Item) :
    k.pass (l.pass items) = l.pass (k.pass items) := by
  by_cases hne : k = l
  · rw [hne]
  have swap : k.read ∘ l.read = l.read ∘ k.read := funext (read_comm hne)
  calc k.joins ((l.joins (items.map l.read)).map k.read)
    _ = k.joins (l.joins (items.map (k.read ∘ l.read))) := by rw [map_read_joins hne, List.map_map]
    _ = l.joins (k.joins (items.map (l.read ∘ k.read))) := by rw [joins_comm, swap]
    _ = l.joins ((k.joins (items.map k.read)).map l.read) := by
      rw [map_read_joins (Ne.symm hne), List.map_map]

/-! ## Stages -/

/-- Whether an item is no special about colours that mean nothing. -/
def Kept (item : Item) : Prop :=
  ∀ payload, item = .ok (.special payload) → "color ".toList <+: payload.toList →
    "color push ".toList <+: payload.toList ∨ "color pop".toList <+: payload.toList

theorem kept_of_of? {kind : SpecialKind} {item : Item} (h : of? item = some kind) : Kept item := by
  rintro payload rfl
  cases h

theorem kept_read (kind : SpecialKind) {item : Item} (h : Kept item) : Kept (kind.read item) := by
  rcases kind.read_eq_or item with hread | hread
  · rwa [hread]
  · exact kept_of_of? hread

theorem kept_joins (kind : SpecialKind) {items : List Item} (h : ∀ item ∈ items, Kept item) :
    ∀ item ∈ kind.joins items, Kept item := by
  cases kind with
  | code =>
    refine forall_mem_replaceRuns (fun run item hitem => ?_) h
    rw [List.mem_singleton.1 hitem]
    exact kept_of_of? (rfl : of? _ = some code)
  | markup =>
    refine forall_mem_replaceRuns (fun run item hitem => ?_) h
    rw [List.mem_singleton.1 hitem]
    exact kept_of_of? (rfl : of? _ = some markup)
  | paper | color | image => exact h

theorem kept_pass (kind : SpecialKind) {items : List Item} (h : ∀ item ∈ items, Kept item) :
    ∀ item ∈ kind.pass items, Kept item := by
  refine kept_joins kind fun item hitem => ?_
  obtain ⟨item', hitem', rfl⟩ := List.mem_map.1 hitem
  exact kept_read kind (h item' hitem')

/-- A special that is recognised by how it begins and never dropped is read for its kind. -/
theorem recognisedAs_eq_read {kind : SpecialKind} {beginning : String} {meaning : List Char → Item}
    (h : ∀ payload, kind.meaning payload = (beginning.toList.isPrefixOf? payload.toList).map meaning)
    (item : Item) : recognisedAs beginning (fun rest => some (meaning rest)) item = some (kind.read item) := by
  rcases item with failure | command
  · rfl
  · cases command with
    | special payload =>
      cases hrest : beginning.toList.isPrefixOf? payload.toList with
      | some rest =>
        rw [recognisedAs_some hrest, read_special_of_some (by rw [h, hrest, Option.map_some])]
      | none =>
        rw [recognisedAs_none hrest, read_special_of_none (by rw [h, hrest, Option.map_none])]
    | _ => rfl

theorem exists_colorChange {directive : List Char}
    (h : ("push ".toList.isPrefixOf? directive).isSome = true ∨ "pop".toList.isPrefixOf directive = true) :
    ∃ item, colorChange directive = some item := by
  unfold colorChange
  cases hpush : "push ".toList.isPrefixOf? directive with
  | some spec => exact ⟨_, rfl⟩
  | none =>
    rw [hpush] at h
    exact ⟨_, if_pos (h.resolve_left (by simp))⟩

/-- A special about colours that is kept has a meaning. -/
theorem recognisedAs_color {item : Item} (h : Kept item) :
    recognisedAs "color " colorChange item = some (color.read item) := by
  rcases item with failure | command
  · rfl
  · cases command with
    | special payload =>
      cases hdirective : "color ".toList.isPrefixOf? payload.toList with
      | none =>
        rw [recognisedAs_none hdirective,
          read_special_of_none (by rw [meaning, hdirective, Option.bind_none])]
      | some directive =>
        have hbegins : "color ".toList <+: payload.toList :=
          ⟨directive, List.append_eq_of_isPrefixOf?_eq_some hdirective⟩
        obtain ⟨item, hitem⟩ : ∃ item, colorChange directive = some item := by
          refine exists_colorChange ?_
          rcases h payload rfl hbegins with hpush | hpop
          · left
            rw [← List.isPrefixOf_iff_prefix, ← List.isSome_isPrefixOf?_eq_isPrefixOf,
              isPrefixOf?_colorPush, hdirective] at hpush
            exact hpush
          · right
            rw [← List.isPrefixOf_iff_prefix, isPrefixOf_colorPop, hdirective] at hpop
            exact hpop
        rw [recognisedAs_some hdirective, hitem,
          read_special_of_some (by rw [meaning, hdirective, Option.bind_some, hitem])]
    | _ => rfl

theorem imageItem_eq_read (item : Item) : imageItem item = image.read item := by
  rcases item with failure | command
  · rfl
  · cases command with
    | special payload =>
      simp only [imageItem, read, meaning]
      split <;> rfl
    | _ => rfl

theorem fragmentItem_eq_read (item : Item) : fragmentItem item = markup.read item := by
  rcases item with failure | command
  · rfl
  · cases command with
    | special payload =>
      simp only [fragmentItem, read, meaning]
      cases "dvisvgm:raw ".toList.isPrefixOf? payload.toList <;> rfl
    | _ => rfl

/-- **What a stage makes of items that are kept.** -/
theorem run_stage (kind : SpecialKind) {items : List Item} (h : ∀ item ∈ items, Kept item) :
    kind.stage.run items = kind.pass items := by
  have reads {f : Item → Option Item} (hf : ∀ item ∈ items, f item = some (kind.read item)) :
      items.filterMap f = items.map kind.read :=
    (List.filterMap_congr hf).trans (by rw [List.filterMap_eq_map'])
  cases kind with
  | paper =>
    rw [stage, paperStage, run_recognise]
    exact reads fun item _ => recognisedAs_eq_read (fun _ => rfl) item
  | color =>
    rw [stage, colorStage, run_recognise]
    exact reads fun item hitem => recognisedAs_color (h item hitem)
  | code =>
    rw [stage, run_postScriptStage]
    exact congrArg codeJoined (reads fun item _ => recognisedAs_eq_read (fun _ => rfl) item)
  | image =>
    rw [stage, run_imageStage]
    exact List.map_congr_left fun item _ => imageItem_eq_read item
  | markup =>
    rw [stage, run_svgStage]
    exact congrArg fragmentsJoined (List.map_congr_left fun item _ => fragmentItem_eq_read item)

/-- What the stages make of items that are kept, one after the other. -/
theorem foldl_stage (order : List SpecialKind) {items : List Item} (h : ∀ item ∈ items, Kept item) :
    (order.map stage).foldl (fun items stage => stage.run items) items =
      order.foldl (fun items kind => kind.pass items) items := by
  induction order generalizing items with
  | nil => rfl
  | cons kind order ih =>
    rw [List.map_cons, List.foldl_cons, List.foldl_cons, kind.run_stage h, ih (kept_pass kind h)]

end SpecialKind

/-- The stages for specials in the order of `SpecialKind.all`. -/
theorem run_specialStages_eq_foldl (items : List Item) :
    specialStages.run items =
      (SpecialKind.all.map SpecialKind.stage).foldl (fun items stage => stage.run items) items := by
  simp only [specialStages, Stage.run_andThen]
  rfl

/-- **The order of the stages for specials does not matter**, if no special is dropped:
    that is what happens to those about colours that are neither `push` nor `pop`. -/
theorem run_inTurn_eq {order : List SpecialKind} (horder : order.Perm SpecialKind.all) {items : List Item}
    (hkept : ∀ payload, .ok (.special payload) ∈ items → "color ".toList <+: payload.toList →
      "color push ".toList <+: payload.toList ∨ "color pop".toList <+: payload.toList) :
    (Stage.inTurn (order.map SpecialKind.stage)).run items = specialStages.run items := by
  have hitems : ∀ item ∈ items, SpecialKind.Kept item := by
    rintro item hitem payload rfl
    exact hkept payload hitem
  rw [Stage.run_inTurn, run_specialStages_eq_foldl, SpecialKind.foldl_stage order hitems,
    SpecialKind.foldl_stage _ hitems]
  exact horder.foldl_eq' (fun k _ l _ items => SpecialKind.pass_comm l k items) items

/-- The stages backwards, with code on both sides of a colour, code and markup that were there
    before, and a size that cannot be read. -/
theorem run_inTurn_eq_backwards :
    let order : List SpecialKind := [.markup, .image, .code, .color, .paper]
    let items : List Item := [.ok (.special "ps: 1 2"), .ok (.postScript "scale"),
      .ok (.special "color push gray 0"), .ok (.special "ps: 3"), .ok (.special "papersize=1in"),
      .ok (.special "dvisvgm:raw <g>\x7b?"), .ok (.rawSvg "nl\x7d</g>"), .ok (.special "PSFILE=a.eps"),
      .error .noActiveFont, .ok (.special "color pop")]
    order.Perm SpecialKind.all ∧
      (∀ payload, .ok (.special payload) ∈ items → "color ".toList <+: payload.toList →
        "color push ".toList <+: payload.toList ∨ "color pop".toList <+: payload.toList) ∧
      (Stage.inTurn (order.map SpecialKind.stage)).run items = specialStages.run items := by
  intro order items
  have horder : order.Perm SpecialKind.all := by decide
  have hkept : ∀ payload, .ok (.special payload) ∈ items → "color ".toList <+: payload.toList →
      "color push ".toList <+: payload.toList ∨ "color pop".toList <+: payload.toList := by
    intro payload hpayload
    simp only [items, List.mem_cons, Except.ok.injEq, Command.special.injEq, reduceCtorEq, false_or,
      List.not_mem_nil, or_false] at hpayload
    rcases hpayload with rfl | rfl | rfl | rfl | rfl | rfl | rfl <;> decide
  exact ⟨horder, hkept, run_inTurn_eq horder hkept⟩

/-- A colour that is dropped between two pieces of code: they become one only if it is dropped
    before they are joined. -/
example :
    let items : List Item := [.ok (.special "ps: 1"), .ok (.special "color Red"), .ok (.special "ps: 2")]
    (Stage.inTurn ([.paper, .code, .color, .image, .markup].map SpecialKind.stage)).run items =
        [.ok (.postScript "1"), .ok (.postScript "2")] ∧
      specialStages.run items = [.ok (.postScript "1 2")] := by
  decide +kernel

end DviMarkup
