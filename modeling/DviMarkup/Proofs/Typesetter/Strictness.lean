/-
  Lenient typesetting goes on where strict typesetting fails, and changes nothing else.

  * `Tolerant` holds of what is looked up in tables so that nothing found in strict
    mode is found otherwise in lenient mode, where something always is found;
  * `Strictness.choose?` is a lookup with a replacement in lenient mode;
  * `Typesetter.inMode` is a typesetter in another mode;
  * `follows_lenient_execute`: each command on a typesetter is followed by the same
    command on that typesetter in lenient mode;
  * `typeset_lenient`: a document that can be typeset comes to the same in lenient
    mode, and in lenient mode no document fails for a missing character, unless the
    library says so, as in `lenient_missingGlyph`;
  * `convert_lenient`: so do conversions, whose libraries never say so.
-/
import DviMarkup.Convert
import DviMarkup.Proofs.Command.Origins
import DviMarkup.Proofs.Typesetter.Following

namespace DviMarkup

variable {α : Type}

/-! ## Tables -/

/-- Whether what is looked up in one mode is the same in lenient mode, where it cannot
    be missing. -/
structure Tolerant {β : Type} (look : Strictness → Except UInt8 β) : Prop where
  same : ∀ mode b, look mode = .ok b → look .lenient = .ok b
  found : ∀ code, look .lenient ≠ .error code

namespace Strictness

variable {β : Type}

/-- What is found, or what replaces it in lenient mode. -/
def choose? (found : Option β) (replacement : β) : Strictness → Option β
  | strict => found
  | lenient => some (found.getD replacement)

theorem choose?_lenient {found : Option β} {replacement b : β} {mode : Strictness}
    (h : mode.choose? found replacement = some b) :
    lenient.choose? found replacement = some b := by
  cases mode with
  | lenient => exact h
  | strict =>
    obtain rfl : found = some b := h
    rfl

end Strictness

namespace Font

theorem charMetrics?_eq (f : Font) (mode : Strictness) (code : UInt8) :
    f.charMetrics? mode code = mode.choose? (f.metrics.character code)
      ((f.metrics.character substitute).getD .blank) := by
  unfold charMetrics?
  cases f.metrics.character code <;> cases mode <;> rfl

theorem tolerant_measureFrom [Scalar α] (f : Font) (text : List UInt8) (width : α)
    (height depth : Int32) :
    Tolerant fun mode => f.measureFrom mode width height depth text := by
  induction text generalizing width height depth with
  | nil => exact ⟨fun _ _ h => h, nofun⟩
  | cons code text ih =>
    refine ⟨fun mode b h => ?_, fun code' h => ?_⟩
    · rw [measureFrom] at h ⊢
      cases hc : f.charMetrics? mode code with
      | none =>
        rw [hc] at h
        cases h
      | some c =>
        rw [hc] at h
        rw [charMetrics?_eq, Strictness.choose?_lenient (f.charMetrics?_eq mode code ▸ hc)]
        exact (ih _ _ _).same mode b h
    · rw [measureFrom, charMetrics?_eq, Strictness.choose?] at h
      exact (ih _ _ _).found code' h

theorem tolerant_measure [Scalar α] (f : Font) (text : List UInt8) :
    Tolerant fun mode => (f.measure mode text : Except UInt8 (Extent α)) := by
  have tolerant := tolerant_measureFrom f text (Scalar.zero : α) 0 0
  refine ⟨fun mode b h => ?_, fun code h => ?_⟩
  · unfold measure at h ⊢
    cases hm : f.measureFrom mode (Scalar.zero : α) 0 0 text with
    | error code =>
      rw [hm] at h
      cases h
    | ok dimensions =>
      rw [hm] at h
      rwa [tolerant.same mode dimensions hm]
  · unfold measure at h
    cases hm : f.measureFrom .lenient (Scalar.zero : α) 0 0 text with
    | error code' => exact tolerant.found code' hm
    | ok dimensions =>
      rw [hm] at h
      cases h

end Font

namespace Encodings

theorem resolve?_eq (e : Encodings) (mode : Strictness) (font : String) (code : UInt8) :
    e.resolve? mode font code = mode.choose? (e.lookup font code) (legacyChar code) := by
  unfold resolve?
  cases e.lookup font code <;> cases mode <;> rfl

theorem tolerant_resolveAll (e : Encodings) (font : String) (text : List UInt8) :
    Tolerant fun mode => e.resolveAll mode font text := by
  induction text with
  | nil => exact ⟨fun _ _ h => h, nofun⟩
  | cons code text ih =>
    refine ⟨fun mode b h => ?_, fun code' h => ?_⟩
    · rw [resolveAll] at h ⊢
      cases hc : e.resolve? mode font code with
      | none =>
        rw [hc] at h
        cases h
      | some c =>
        rw [hc] at h
        rw [resolve?_eq, Strictness.choose?_lenient (e.resolve?_eq mode font code ▸ hc)]
        cases hrest : e.resolveAll mode font text with
        | error code' =>
          rw [hrest] at h
          cases h
        | ok characters =>
          rw [hrest] at h
          rwa [ih.same mode characters hrest]
    · rw [resolveAll, resolve?_eq, Strictness.choose?] at h
      cases hrest : e.resolveAll .lenient font text with
      | error code' => exact ih.found code' hrest
      | ok characters =>
        rw [hrest] at h
        cases h

end Encodings

/-! ## Modes -/

/-- The mode in which an output is kept. -/
def Output.mode? : Output α → Option Strictness
  | .markup m => some m.mode
  | .plain p => some p.mode
  | _ => none

/-- What is kept for the output, in another mode. -/
def Output.inMode (mode : Strictness) : Output α → Output α
  | .markup m => .markup { m with mode }
  | .plain p => .plain { p with mode }
  | o => o

/-- A typesetter in another mode. -/
def Typesetter.inMode (mode : Strictness) (t : Typesetter α) : Typesetter α :=
  { t with output := t.output.inMode mode }

theorem Typesetter.written_inMode [Scalar α] [Escaping] (mode : Strictness) (t : Typesetter α) :
    (t.inMode mode).written = t.written := by
  obtain ⟨core, output⟩ := t
  cases output <;> rfl

/-- Whether what is kept for the output is kept in a mode, and something else is the same
    in lenient mode. -/
def LenientOf (mode : Strictness) (o o' : Output α) : Prop :=
  o.mode? = some mode ∧ o' = o.inMode .lenient

/-- Why an action can fail in a mode: in lenient mode a character is missing only if the
    library says so. -/
def Library.Causes (library : Library) (mode : Strictness) (failure : Failure) : Prop :=
  mode = .lenient → failure.isMissing = true → library.Gives failure

theorem Alike.eq_inMode {library : Library} {mode : Strictness} {t t' : Typesetter α}
    (h : Alike library (LenientOf mode) t t') : t' = t.inMode .lenient := by
  obtain ⟨core, output⟩ := t
  obtain ⟨core', output'⟩ := t'
  obtain rfl : core = core' := h.core
  obtain rfl := h.output.2
  rfl

/-- Units have nothing to do with the mode. -/
theorem LenientOf.unit?_eq {mode : Strictness} {o o' : Output α} (h : LenientOf mode o o') :
    o.unit? = o'.unit? := by
  obtain ⟨-, rfl⟩ := h
  cases o <;> rfl

/-! ## Commands -/

section Commands

variable {library : Library} {mode : Strictness}

theorem causes_of_given {failure : Failure}
    (h : failure.isMissing = true → library.Gives failure) : library.Causes mode failure :=
  fun _ => h

/-- Changes of what is kept for markup that have nothing to do with the mode. -/
theorem LenientOf.onMarkup {f : Markup α → Markup α}
    (h : ∀ m mode, f { m with mode } = { f m with mode }) {o o' : Output α}
    (ho : LenientOf mode o o') : LenientOf mode (o.onMarkup f) (o'.onMarkup f) := by
  obtain ⟨hmode, rfl⟩ := ho
  cases o with
  | markup m =>
    refine ⟨?_, congrArg Output.markup (h m .lenient)⟩
    -- the mode afterwards is the mode that is put in
    have : f m = { f m with mode := m.mode } := h m m.mode
    rw [← hmode]
    exact congrArg (some ·.mode) this
  | _ => exact ⟨hmode, rfl⟩

theorem follows_lenient_modifyMarkup {f : Core α → Markup α → Markup α}
    (h : ∀ core m mode, f core { m with mode } = { f core m with mode }) :
    Follows (Alike library (LenientOf mode)) (library.Causes mode)
      (Typesetter.modifyMarkup f) (Typesetter.modifyMarkup f) :=
  Typesetter.follows_modifyMarkup fun core _ _ ho => ho.onMarkup (h core)

theorem follows_lenient_modifyPlain {f : Core α → Plain α → Plain α}
    (h : ∀ core p mode, f core { p with mode } = { f core p with mode }) :
    Follows (Alike library (LenientOf mode)) (library.Causes mode)
      (Typesetter.modifyPlain f) (Typesetter.modifyPlain f) := by
  refine Typesetter.follows_modifyPlain ?_
  rintro core o o' ⟨hmode, rfl⟩
  cases o with
  | plain p =>
    refine ⟨?_, congrArg Output.plain (h core p .lenient)⟩
    have : f core p = { f core p with mode := p.mode } := h core p p.mode
    rw [← hmode]
    exact congrArg (some ·.mode) this
  | _ => exact ⟨hmode, rfl⟩

variable [Scalar α]

theorem follows_lenient_measure (font : Font) (text : List UInt8) :
    Follows (Alike library (LenientOf mode)) (library.Causes mode)
      (Typesetter.measure font mode text : Action α (Extent α))
      (Typesetter.measure font .lenient text) := by
  have tolerant : Tolerant fun mode => (font.measure mode text : Except UInt8 (Extent α)) :=
    font.tolerant_measure text
  unfold Typesetter.measure
  cases h : (font.measure mode text : Except UInt8 (Extent α)) with
  | ok extent =>
    rw [tolerant.same mode extent h]
    exact .pure extent
  | error code =>
    refine .throw ?_ _
    rintro rfl
    exact absurd h (tolerant.found code)

theorem follows_lenient_putText (text : List UInt8) :
    Follows (Alike library (LenientOf mode)) (library.Causes mode)
      (Typesetter.putText text : Action α α) (Typesetter.putText text) := by
  have font : Follows (Alike library (LenientOf mode)) (library.Causes mode)
      (Typesetter.currentFont : Action α Font) Typesetter.currentFont :=
    OnCore.follows (fun _ => causes_of_given) Typesetter.onCore_currentFont
  refine Follows.get_bind fun t t' ht => ?_
  have point : t.currentPoint = t'.currentPoint :=
    Typesetter.currentPoint_alike (fun _ _ => LenientOf.unit?_eq) ht
  obtain ⟨hmode, -⟩ := ht.output
  rw [← point, ht.eq_inMode]
  obtain ⟨core, output⟩ := t
  cases output with
  | markup m =>
    obtain rfl : m.mode = mode := Option.some.inj hmode
    refine font.bind fun font => (follows_lenient_measure font text).bind fun extent => ?_
    have tolerant := m.encodings.tolerant_resolveAll font.name text
    dsimp only
    cases h : m.encodings.resolveAll m.mode font.name text with
    | error code =>
      refine .throw (fun hlenient => ?_) _
      exact absurd (hlenient ▸ h) (tolerant.found code)
    | ok characters =>
      have hsame : m.encodings.resolveAll .lenient font.name text = .ok characters :=
        tolerant.same m.mode characters h
      rw [hsame]
      refine Follows.bind (follows_lenient_modifyMarkup fun core m mode => ?_) fun _ => .pure _
      unfold Markup.putText
      split <;> rfl
  | plain p =>
    obtain rfl : p.mode = mode := Option.some.inj hmode
    refine font.bind fun font => (follows_lenient_measure font text).bind fun extent => ?_
    exact (follows_lenient_modifyPlain fun _ _ _ => rfl).bind fun _ => .pure _
  | _ => cases hmode

theorem follows_lenient_putRule (height width : Int32) :
    Follows (Alike library (LenientOf mode)) (library.Causes mode)
      (Typesetter.putRule height width : Action α Unit) (Typesetter.putRule height width) := by
  refine Typesetter.follows_putRule (fun _ _ => LenientOf.unit?_eq) ?_ height width
  refine fun x y transform height width o o' ho => ho.onMarkup fun m mode => ?_
  unfold Markup.putRule
  split <;> rfl

omit [Scalar α] in
theorem follows_lenient_popColor :
    Follows (Alike library (LenientOf mode)) (library.Causes mode)
      (Typesetter.popColor : Action α Unit) Typesetter.popColor := by
  refine Follows.get_bind fun t t' ht => ?_
  rw [ht.eq_inMode]
  obtain ⟨core, output⟩ := t
  cases output with
  | markup m =>
    obtain ⟨encodings, mode', unit, depth, color, colors, width, height, pieces⟩ := m
    cases colors with
    | nil => exact .throw (fun _ => nofun) _
    | cons color colors => exact follows_lenient_modifyMarkup fun _ _ _ => rfl
  | _ => exact .pure ()

theorem follows_lenient_putSvg (fragment : String) :
    Follows (Alike library (LenientOf mode)) (library.Causes mode)
      (Typesetter.putSvg fragment : Action α Unit) (Typesetter.putSvg fragment) := by
  refine Follows.get_bind fun t t' ht => ?_
  rw [Typesetter.currentPoint_alike (fun _ _ => LenientOf.unit?_eq) ht]
  refine Follows.get_bind fun u u' hu => ?_
  obtain ⟨hmode, -⟩ := hu.output
  rw [hu.eq_inMode]
  obtain ⟨core, output⟩ := u
  cases output with
  | markup m => exact follows_lenient_modifyMarkup fun _ _ _ => rfl
  | plain p => exact follows_lenient_modifyMarkup fun _ _ _ => rfl
  | _ => cases hmode

/-- **Each command is followed by the same command in lenient mode.** -/
theorem follows_lenient_execute [Escaping] (command : Command) :
    Follows (Alike library (LenientOf mode)) (library.Causes mode)
      (command.execute : Action α Unit) command.execute := by
  have core (f : Core α → Core α) (h : ∀ c, (f c).library = c.library) :
      Follows (Alike library (LenientOf mode)) (library.Causes mode)
        (Typesetter.modifyCore f) (Typesetter.modifyCore f) :=
    OnCore.follows (fun _ => causes_of_given) (Typesetter.onCore_modifyCore h)
  by_cases shared : command.isShared = true
  · exact OnCore.follows (fun _ => causes_of_given) (Command.onCore_execute shared)
  unfold Command.execute
  cases command with
  | preamble => exact follows_lenient_modifyMarkup fun _ _ _ => rfl
  | beginPage =>
    exact (follows_lenient_modifyPlain fun _ _ _ => rfl).bind fun _ => core _ fun _ => rfl
  | endPage => exact follows_lenient_modifyPlain fun _ _ _ => rfl
  | setText text => exact (follows_lenient_putText text).bind fun _ => core _ fun _ => rfl
  | putText text => exact (follows_lenient_putText text).map _
  | setRule height width =>
    exact (follows_lenient_putRule height width).bind fun _ => core _ fun _ => rfl
  | putRule height width => exact follows_lenient_putRule height width
  | pushColor => exact follows_lenient_modifyMarkup fun _ _ _ => rfl
  | popColor => exact follows_lenient_popColor
  | setPaper => exact follows_lenient_modifyMarkup fun _ _ _ => rfl
  | rawSvg fragment => exact follows_lenient_putSvg fragment
  | postScript code =>
    exact PostScript.follows_code (fun _ _ => nofun) (fun _ => causes_of_given)
      (fun _ _ => LenientOf.unit?_eq) code
  | image description =>
    exact Typesetter.follows_draw (fun _ _ => LenientOf.unit?_eq) follows_lenient_putSvg description
  | _ => exact absurd rfl shared

end Commands

/-! ## Documents -/

variable [Scalar α]

/-- The typesetter at the beginning of a document. -/
def Format.typesetter (f : Format) (library : Library) (encodings : Encodings)
    (mode : Strictness) : Typesetter α :=
  match f with
  | .html => .markup library encodings mode
  | .text => .plain library encodings mode

theorem Format.typesetter?_eq [EncodingReader] (f : Format) (files : FileSystem) (o : Options) :
    (f.typesetter? files o : Except Failure (Typesetter α)) =
      (o.loadEncodings files).map fun encodings =>
        f.typesetter (.ofDirectories files o.searched) encodings o.mode := by
  unfold Format.typesetter?
  cases o.loadEncodings files with
  | error failure => rfl
  | ok encodings => cases f <;> rfl

/-- Whether lenient typesetting of a document goes on where strict typesetting fails, and
    changes nothing else. -/
structure LenientExtends [Escaping] (f : Format) (library : Library) (encodings : Encodings)
    (document : Action α Unit) : Prop where
  /-- What can be typeset in strict mode comes to the same, apart from the mode, and the
      same is written. -/
  same : ∀ t, document.run.run (f.typesetter library encodings .strict) = (.ok (), t) →
    document.run.run (f.typesetter library encodings .lenient) = (.ok (), t.inMode .lenient) ∧
      (t.inMode .lenient).written = t.written
  /-- Lenient typesetting fails for a missing character only if the library does. -/
  found : ∀ failure t,
    document.run.run (f.typesetter library encodings .lenient) = (.error failure, t) →
      failure.isMissing = true → library.Gives failure

/-- Each typesetter is like itself in lenient mode. -/
theorem alike_typesetter (f : Format) (library : Library) (encodings : Encodings)
    (mode : Strictness) :
    Alike library (LenientOf mode) (f.typesetter library encodings mode : Typesetter α)
      (f.typesetter library encodings .lenient) := by
  cases f with
  | html => exact ⟨rfl, rfl, rfl, rfl⟩
  | text => exact ⟨rfl, rfl, rfl, rfl⟩

theorem isMissing_of_ofDocument {failure : Failure} (h : failure.OfDocument) :
    failure.isMissing = false := by
  cases failure <;> first | rfl | cases h

theorem follows_lenient_typesetOps [Escaping] (library : Library) (mode : Strictness)
    (ops : List (Except Dvi.Fault Dvi.Op)) :
    Follows (Alike library (LenientOf mode)) (library.Causes mode)
      (typesetOps ops : Action α Unit) (typesetOps ops) := by
  refine follows_executeAll (fun command _ => follows_lenient_execute command) ?_
  intro failure h _ missing
  rw [isMissing_of_ofDocument (ofDocument_pipeline ops _ h)] at missing
  cases missing

/-- Metrics that are given or in files are not looked up by character. -/
theorem not_gives_missing {failure : Failure} (missing : failure.isMissing = true) :
    (∀ fonts, ¬ (Library.ofList fonts).Gives failure) ∧
      ∀ files directories, ¬ (Library.ofDirectories files directories).Gives failure := by
  refine ⟨?_, ?_⟩
  · rintro fonts ⟨before, font, h⟩
    dsimp only [Library.ofList] at h
    cases hfont : fonts.lookup font with
    | some metrics =>
      rw [hfont] at h
      cases h
    | none =>
      rw [hfont] at h
      cases h
      cases missing
  · rintro files directories ⟨before, font, h⟩
    dsimp only [Library.ofDirectories] at h
    generalize ([] : List String) = tried at h
    induction directories generalizing tried with
    | nil =>
      cases h
      cases missing
    | cons directory rest ih =>
      rw [searchMetrics] at h
      split at h
      · split at h
        · cases h
        · cases h
          cases missing
      · exact ih _ h

theorem lenientExtends_typesetOps [Escaping] (f : Format) (library : Library)
    (encodings : Encodings) (ops : List (Except Dvi.Fault Dvi.Op)) :
    LenientExtends f library encodings (typesetOps ops : Action α Unit) := by
  have alike (mode : Strictness) :
      Alike library (LenientOf mode) (f.typesetter library encodings mode : Typesetter α)
        (f.typesetter library encodings .lenient) :=
    alike_typesetter f library encodings mode
  constructor
  · intro t run
    obtain ⟨succeeds, -⟩ := follows_lenient_typesetOps library .strict ops _ _ (alike .strict)
    obtain ⟨t', run', ht⟩ := succeeds () t run
    rw [run', ht.eq_inMode]
    exact ⟨rfl, t.written_inMode .lenient⟩
  · intro failure t run missing
    obtain ⟨-, fails⟩ := follows_lenient_typesetOps library .lenient ops _ _ (alike .lenient)
    exact fails failure t run rfl missing

/-- **Lenient typesetting only goes on where strict typesetting fails**: a document that
    can be typeset comes to the same, and no character is ever missing, unless the
    library itself says so, which the usual ones do not. -/
theorem typeset_lenient [Escaping] (f : Format) (library : Library) (encodings : Encodings) :
    ((∀ ops, LenientExtends f library encodings (typesetOps ops : Action α Unit)) ∧
      ∀ source, LenientExtends f library encodings (typeset source : Action α Unit)) ∧
      ∀ failure, failure.isMissing = true →
        (∀ fonts, ¬ (Library.ofList fonts).Gives failure) ∧
          ∀ files directories, ¬ (Library.ofDirectories files directories).Gives failure :=
  ⟨⟨lenientExtends_typesetOps f library encodings,
    fun _ => lenientExtends_typesetOps f library encodings _⟩, fun _ => not_gives_missing⟩

/-- A library that looks for a character where it is asked for a font. -/
def glyphLibrary : Library where
  load _ font := .error (.missingGlyph font 65)

/-- A document that defines a font. -/
def oneFont : List (Except Dvi.Fault Dvi.Op) :=
  [.ok (.defineFont 0 0 655360 655360 "" "cmr10")]

/-- A library can say that a character is missing, also in lenient mode. -/
theorem lenient_missingGlyph :
    ((typesetOps oneFont).run.run
        (Format.html.typesetter glyphLibrary {} .lenient : Typesetter Binary64)).1 =
      .error (.missingGlyph "cmr10" 65) ∧
    ((typesetOps oneFont).run.run
        (Format.text.typesetter glyphLibrary {} .lenient : Typesetter Binary64)).1 =
      .error (.missingGlyph "cmr10" 65) := by
  decide +kernel

/-! ## Conversions -/

theorem isMissing_of_loadEncodings [EncodingReader] {o : Options} {files : FileSystem}
    {failure : Failure} (h : o.loadEncodings files = .error failure) :
    failure.isMissing = false := by
  unfold Options.loadEncodings Encodings.ofEntry at h
  split at h
  · cases h
  · split at h
    · split at h
      · cases h
      · cases h
        rfl
    · cases h
      rfl
    · cases h
      rfl

/-- A conversion in a mode reads the encodings, which have nothing to do with it, and runs the
    document on a typesetter in this mode. -/
theorem convert_withMode [Escaping] [EncodingReader] (f : Format) (files : FileSystem)
    (o : Options) (mode : Strictness) (source : List Dvi.Delivery) :
    (convert f files { o with mode } source : Except Failure (Typesetter α)) =
      match o.loadEncodings files with
      | .error failure => .error failure
      | .ok encodings =>
        match (typeset source).run.run
          (f.typesetter (.ofDirectories files o.searched) encodings mode) with
        | (.ok _, t) => .ok t
        | (.error failure, _) => .error failure := by
  have loads : ({ o with mode } : Options).loadEncodings files = o.loadEncodings files := rfl
  unfold convert
  rw [Format.typesetter?_eq, loads]
  cases o.loadEncodings files <;> rfl

/-- **Lenient conversions only go on where strict ones fail**, whatever the directories with
    metrics and the file with encodings have in them, and never fail for a missing character. -/
theorem convert_lenient [Escaping] [EncodingReader] (f : Format) (files : FileSystem)
    (o : Options) (source : List Dvi.Delivery) :
    (∀ t : Typesetter α, convert f files { o with mode := .strict } source = .ok t →
      convert f files { o with mode := .lenient } source = .ok (t.inMode .lenient)) ∧
    ∀ failure, (convert f files { o with mode := .lenient } source :
      Except Failure (Typesetter α)) = .error failure → failure.isMissing = false := by
  let library := Library.ofDirectories files o.searched
  have document (encodings : Encodings) :
      LenientExtends f library encodings (typeset source : Action α Unit) :=
    lenientExtends_typesetOps f library encodings _
  constructor
  · intro t succeeds
    rw [convert_withMode] at succeeds ⊢
    cases load : o.loadEncodings files with
    | error failure =>
      rw [load] at succeeds
      cases succeeds
    | ok encodings =>
      rw [load] at succeeds
      dsimp only at succeeds ⊢
      split at succeeds
      next run =>
        cases succeeds
        rw [((document encodings).same t run).1]
      · cases succeeds
  · intro failure fails
    rw [convert_withMode] at fails
    cases load : o.loadEncodings files with
    | error failure' =>
      rw [load] at fails
      cases fails
      exact isMissing_of_loadEncodings load
    | ok encodings =>
      rw [load] at fails
      dsimp only at fails
      split at fails
      · cases fails
      next run =>
        cases fails
        refine Bool.eq_false_iff.mpr fun missing => ?_
        have gives : library.Gives failure := (document encodings).found failure _ run missing
        exact (not_gives_missing missing).2 files o.searched gives

end DviMarkup
