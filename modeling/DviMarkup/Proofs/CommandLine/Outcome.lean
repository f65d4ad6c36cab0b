/-
  How runs of the program end.

  A conversion is all or nothing: it prints or writes the whole result, or neither prints
  nor writes anything.  The description of a document is printed as far as it goes.

  * `beforeFault` are the operations before the first fault, and `splitAt_stdout_inspectItems`:
    each of them is described in one line;
  * `convert_failed`: what cannot be read cannot be converted;
  * `run_convert_error` and `run_convert_ok`: how a conversion ends;
  * `all_or_nothing`: both, for all arguments and however they are read.
-/
import Mathlib.Control.Monad.Basic
import DviMarkup.Proofs.CommandLine.Arguments
import DviMarkup.Proofs.Dvi.Description
import DviMarkup.Proofs.Files.Writing
import DviMarkup.CommandLine.Run

namespace DviMarkup

/-! ## Lines -/

theorem Text.splitOnP_ne_nil (p : Char → Bool) (s : List Char) : Text.splitOnP p s ≠ [] := by
  cases s with
  | nil => exact List.cons_ne_nil _ _
  | cons c s =>
    rw [Text.splitOnP]
    split
    · exact List.cons_ne_nil _ _
    · split <;> exact List.cons_ne_nil _ _

/-- A text is cut after its first part. -/
theorem Text.splitAt_append_cons {sep : Char} {part : List Char} (h : sep ∉ part)
    (rest : List Char) :
    Text.splitAt sep (part ++ sep :: rest) = part :: Text.splitAt sep rest := by
  induction part with
  | nil =>
    rw [List.nil_append, Text.splitAt, Text.splitOnP, Text.splitAt]
    cases parts : Text.splitOnP (· == sep) rest with
    | nil => exact absurd parts (Text.splitOnP_ne_nil _ rest)
    | cons part parts => exact if_pos (beq_self_eq_true sep)
  | cons c part ih =>
    have other : ¬(c == sep) = true := fun h' => h (eq_of_beq h' ▸ List.mem_cons_self)
    have ih := ih fun h' => h (List.mem_cons_of_mem _ h')
    rw [Text.splitAt] at ih
    rw [List.cons_append, Text.splitAt, Text.splitOnP, ih]
    exact if_neg other

namespace CommandLine

/-- The operations before the first fault. -/
def beforeFault : List (Except Dvi.Fault Dvi.Op) → List Dvi.Op
  | .ok op :: items => op :: beforeFault items
  | _ => []

/-- **The program describes each operation before the first fault in one line.** -/
theorem splitAt_stdout_inspectItems (items : List (Except Dvi.Fault Dvi.Op)) :
    Text.splitAt '\n' (inspectItems items).stdout.toList =
      (beforeFault items).map (·.describe.toList) ++ [[]] := by
  induction items with
  | nil => rfl
  | cons item items ih => cases item with
    | error _ => rfl
    | ok op =>
      rw [inspectItems, beforeFault, List.map_cons, List.cons_append, ← ih,
        ← Text.splitAt_append_cons (Dvi.oneLine_describe op)]
      refine congrArg (Text.splitAt '\n') ?_
      rw [String.toList_append, String.toList_append, List.append_assoc]
      rfl

theorem file_inspectItems (items : List (Except Dvi.Fault Dvi.Op)) :
    (inspectItems items).file = none := by
  induction items with
  | nil => rfl
  | cons item items ih => cases item with
    | error _ => rfl
    | ok _ => exact ih

theorem error_inspectItems (items : List (Except Dvi.Fault Dvi.Op)) :
    (inspectItems items).error.isSome = true ↔ ∃ fault, .error fault ∈ items := by
  induction items with
  | nil => simp [inspectItems]
  | cons item items ih => cases item with
    | error fault => exact iff_of_true rfl ⟨fault, List.mem_cons_self⟩
    | ok _ =>
      simp only [inspectItems, ih, List.mem_cons, reduceCtorEq, false_or]

/-! ## Conversions -/

/-- What cannot be read cannot be converted. -/
theorem convert_failed {α : Type} [Scalar α] [Escaping] [EncodingReader] (format : Format)
    (files : FileSystem) (options : Options) (reason : String) :
    ∃ failure, (convert format files options [.failed reason] : Except Failure (Typesetter α)) =
      .error failure := by
  unfold convert
  rcases format.typesetter? files options with failure | t
  · exact ⟨failure, rfl⟩
  · exact ⟨.dvi (.unreadable reason), rfl⟩

/-- What a conversion writes: the result, or a whole page around it. -/
def converted [Escaping] (standalone : Bool) (input : String) (t : Typesetter Binary64) : String :=
  if standalone then page (stem input) t.written else t.written

/-- How the program ends if nothing could fail but what is reported. -/
theorem Report.ending_none (r : Report) :
    r.ending none = { exit := if r.error.isSome then 1 else 0
                      stdout := r.stdout
                      error := r.error.map errorLine } := by
  obtain ⟨stdout, file, error⟩ := r
  cases error <;> rfl

section Runs

variable [Escaping] [EncodingReader] {tree : FileTree} {args : List String} {format : Format}
  {standalone : Bool} {input : String} {output : Option String} {options : Options}

/-- The report of a conversion that fails has nothing but an error. -/
theorem run_convert_error {failure : Failure}
    (fails : convert format tree.entry options (tree.entry input).deliveries =
      (.error failure : Except Failure (Typesetter Binary64))) :
    ∃ message, (Request.convert format standalone input output options).run tree.entry =
      { error := some message } := by
  dsimp only [Request.run]
  cases tree.entry input with
  | absent fault => exact ⟨_, rfl⟩
  | _ =>
    dsimp only [runConvert]
    rw [fails]
    exact ⟨_, rfl⟩

/-- The report of a conversion that succeeds has all of the result, and no error. -/
theorem run_convert_ok {t : Typesetter Binary64}
    (succeeds : convert format tree.entry options (tree.entry input).deliveries = .ok t) :
    (Request.convert format standalone input output options).run tree.entry =
      match output with
      | none => { stdout := converted standalone input t }
      | some path => { file := some (path, converted standalone input t) } := by
  dsimp only [Request.run]
  cases there : tree.entry input with
  | absent fault =>
    obtain ⟨failure, fails⟩ :=
      convert_failed (α := Binary64) format tree.entry options fault.message
    rw [there, Entry.deliveries, fails] at succeeds
    cases succeeds
  | _ =>
    dsimp only [runConvert]
    rw [succeeds]
    rfl

theorem run_inspect (there : ∀ fault, tree.entry input ≠ .absent fault) :
    (Request.inspect input).run tree.entry =
      inspectItems (Dvi.Reader.items { source := (tree.entry input).deliveries }) := by
  dsimp only [Request.run]
  cases h : tree.entry input with
  | absent fault => exact absurd h (there fault)
  | _ => rfl

/-- Without a file to write all files stay as they are. -/
theorem runIn_of_file_eq_none [ArgumentReader] {request : Request}
    (read : ArgumentReader.read args = .ok request)
    (noFile : (request.run tree.entry).file = none) :
    runIn tree args = ((request.run tree.entry).ending none, tree) := by
  unfold runIn
  rw [read]
  dsimp only
  rw [noFile]

end Runs

/-- **Conversions are all or nothing**, however arguments and encodings are read and texts are
    escaped.
    * If the encodings cannot be read or the conversion fails at any point, the program ends
      with 1 and an error, prints nothing else, and all files are as before.
    * If it succeeds, arguments that ask for the same, to be printed, print the result; if it is
      to be written to a file and can be written, the bytes of the same result are found in that
      file.
    * Arguments of the program ask for the same, to be printed, without some of them.
    * The description of a document is printed with one line for each operation before the
      first fault, and the program ends with 1 if there is a fault, otherwise with 0. -/
theorem all_or_nothing [Escaping] [EncodingReader] [ArgumentReader] (tree : FileTree)
    (args : List String) :
    (∀ format standalone input output options,
      ArgumentReader.read args = .ok (.convert format standalone input output options) →
        let result : Except Failure (Typesetter Binary64) :=
          convert format tree.entry options (tree.entry input).deliveries
        (∀ failure, result = .error failure →
          ∃ message, runIn tree args = ({ exit := 1, error := some message }, tree)) ∧
        ∀ t, result = .ok t →
          (∀ args',
            ArgumentReader.read args' = .ok (.convert format standalone input none options) →
              runIn tree args' = ({ exit := 0, stdout := converted standalone input t }, tree)) ∧
          ∀ path tree', output = some path →
            tree.write path (Utf8.encode (converted standalone input t)) = .ok tree' →
              runIn tree args = ({ exit := 0 }, tree') ∧
                tree'.entry path = .file (Utf8.encode (converted standalone input t))) ∧
      (∀ format standalone input output options,
        Request.parse args = .ok (.convert format standalone input output options) →
          ∃ args', args'.Sublist args ∧
            Request.parse args' = .ok (.convert format standalone input none options)) ∧
      ∀ input, ArgumentReader.read args = .ok (.inspect input) →
        (∀ fault, tree.entry input ≠ .absent fault) →
          let items := Dvi.Reader.items { source := (tree.entry input).deliveries }
          ∃ stdout error,
            runIn tree args =
              ({ exit := if error.isSome then 1 else 0, stdout, error }, tree) ∧
            Text.splitAt '\n' stdout.toList =
              (beforeFault items).map (·.describe.toList) ++ [[]] ∧
            (error.isSome = true ↔ ∃ fault, .error fault ∈ items) := by
  refine ⟨fun format standalone input output options read => ?_,
    fun _ _ _ _ _ parse => exists_parse_printed parse, fun input read there => ?_⟩
  · refine ⟨fun failure fails => ?_, fun t succeeds => ⟨fun args' read' => ?_, ?_⟩⟩
    · obtain ⟨message, report⟩ := run_convert_error fails
      refine ⟨errorLine message, ?_⟩
      rw [runIn_of_file_eq_none read (by rw [report]), report]
      rfl
    · rw [runIn_of_file_eq_none read' (by rw [run_convert_ok succeeds]), run_convert_ok succeeds]
      rfl
    · rintro path tree' rfl write
      refine ⟨?_, FileTree.entry_write write⟩
      unfold runIn
      rw [read]
      dsimp only
      rw [run_convert_ok succeeds]
      dsimp only
      rw [write]
      rfl
  · have report := run_inspect there
    intro items
    refine ⟨(inspectItems items).stdout, (inspectItems items).error.map errorLine, ?_,
      splitAt_stdout_inspectItems items, ?_⟩
    · rw [runIn_of_file_eq_none read (by rw [report, file_inspectItems]), report,
        Report.ending_none, Option.isSome_map]
    · rw [Option.isSome_map, error_inspectItems]

/-- Two documents with a fragment, the second of which has an invalid operation after it. -/
def twoDocuments : FileTree :=
  let fragment := [239, 13] ++ Utf8.encode "dvisvgm:raw x"
  .ofList [("whole.dvi", fragment), ("broken.dvi", [141] ++ fragment ++ [255])]

/-- What becomes of them. -/
def conversion (path : String) : Except Failure (Typesetter Binary64) :=
  convert .html twoDocuments.entry {} (twoDocuments.entry path).deliveries

/-- Nothing comes of the second document although its fragment could be converted, the first
    one is written as it would be printed, and two operations of the second are described. -/
theorem all_or_nothing_twoDocuments :
    (∃ message, runIn twoDocuments ["html", "-o", "page.html", "broken.dvi"] =
      ({ exit := 1, error := some message }, twoDocuments)) ∧
    (∃ tree', runIn twoDocuments ["html", "whole.dvi"] =
        ({ exit := 0, stdout := "x" }, twoDocuments) ∧
      runIn twoDocuments ["html", "-o", "page.html", "whole.dvi"] = ({ exit := 0 }, tree') ∧
      tree'.entry "page.html" = .file (Utf8.encode "x")) ∧
    ∃ stdout error, runIn twoDocuments ["inspect", "broken.dvi"] =
        ({ exit := 1, stdout, error }, twoDocuments) ∧
      (Text.splitAt '\n' stdout.toList).length = 3 := by
  refine ⟨?_, ?_, ?_⟩
  · have read : ArgumentReader.read ["html", "-o", "page.html", "broken.dvi"] =
        .ok (.convert .html false "broken.dvi" (some "page.html") {}) := by
      decide +kernel
    have fails : (conversion "broken.dvi").isOk = false := by
      decide +kernel
    rcases run : conversion "broken.dvi" with failure | t
    · exact ((all_or_nothing twoDocuments _).1 _ _ _ _ _ read).1 failure run
    · rw [run] at fails
      cases fails
  · have read : ArgumentReader.read ["html", "-o", "page.html", "whole.dvi"] =
        .ok (.convert .html false "whole.dvi" (some "page.html") {}) := by
      decide +kernel
    have printed : ArgumentReader.read ["html", "whole.dvi"] =
        .ok (.convert .html false "whole.dvi" none {}) := by
      decide +kernel
    have succeeds : (conversion "whole.dvi").map (converted false "whole.dvi") = .ok "x" := by
      decide +kernel
    rcases run : conversion "whole.dvi" with failure | t
    · rw [run] at succeeds
      cases succeeds
    · rw [run] at succeeds
      have content : converted false "whole.dvi" t = "x" := Except.ok.inj succeeds
      obtain ⟨prints, writes⟩ := ((all_or_nothing twoDocuments _).1 _ _ _ _ _ read).2 t run
      rw [content] at prints writes
      obtain ⟨wrote, found⟩ := writes "page.html"
        (twoDocuments.put ["page.html".toList] (Utf8.encode "x")) rfl (by decide +kernel)
      exact ⟨_, prints _ printed, wrote, found⟩
  · have read : ArgumentReader.read ["inspect", "broken.dvi"] = .ok (.inspect "broken.dvi") := by
      decide +kernel
    have there : ∃ content, twoDocuments.entry "broken.dvi" = .file content :=
      ⟨[141, 239, 13] ++ Utf8.encode "dvisvgm:raw x" ++ [255], by decide +kernel⟩
    obtain ⟨content, hcontent⟩ := there
    obtain ⟨stdout, error, run, lines, faulty⟩ := (all_or_nothing twoDocuments _).2.2 _ read
      (by rw [hcontent]; exact fun _ => Entry.noConfusion)
    have fault : error.isSome = true := faulty.mpr ⟨.invalidCode 255, by decide +kernel⟩
    rw [fault] at run
    refine ⟨stdout, error, run, ?_⟩
    rw [lines]
    decide +kernel

end CommandLine

end DviMarkup
