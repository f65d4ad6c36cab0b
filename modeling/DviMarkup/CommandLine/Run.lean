/-
  What the command line does.

  * `Report` is what is to be printed and written, and `Request.run` the report
    of a request;
  * `Request.paths` and `fontPaths` are the files that a request may look at;
  * `Ending` is how the program ends, and `runIn` runs it in a tree of files.
-/
import DviMarkup.CommandLine.Arguments
import DviMarkup.CommandLine.Page
import DviMarkup.Dvi.Describe

namespace DviMarkup.CommandLine

/-- What is to be printed and written. -/
structure Report where
  stdout : String := ""
  /-- A file to write, and its content. -/
  file : Option (String × String) := none
  /-- Why there is no more than that. -/
  error : Option String := none
deriving Repr, DecidableEq

/-- A text with the texts of what is under it. -/
def chain (texts : List String) : String :=
  ": ".intercalate texts

/-- The text of a failure with those of what is under it, in a context. -/
def explain (context : List String) (failure : Failure) : String :=
  chain (context ++ failure.message :: failure.causes)

/-- The text of a fault with a file, in a context. -/
def explainFile (context path : String) (fault : FileFault) : String :=
  chain [s!"{context} `{path}`", fault.message]

/-! ## Requests -/

/-- What is printed of a document: a line for each operation before the first fault. -/
def inspectItems : List (Except Dvi.Fault Dvi.Op) → Report
  | [] => {}
  | .error fault :: _ => { error := some (explain [] (.dvi fault)) }
  | .ok op :: rest =>
    let report := inspectItems rest
    { report with stdout := op.describe ++ "\n" ++ report.stdout }

/-- The report of a conversion. -/
def runConvert [Escaping] [EncodingReader] (files : FileSystem) (format : Format)
    (standalone : Bool) (input : String) (output : Option String) (options : Options) : Report :=
  let converted : Except Failure (Typesetter Binary64) :=
    convert format files options (files input).deliveries
  match converted with
  | .error failure => { error := some (explain [s!"failed to convert `{input}`"] failure) }
  | .ok t =>
    let content := if standalone then page (stem input) t.written else t.written
    match output with
    | none => { stdout := content }
    | some path => { file := some (path, content) }

/-- The report of a request. -/
def Request.run [Escaping] [EncodingReader] (files : FileSystem) (r : Request) : Report :=
  let input := match r with
    | .convert _ _ input _ _ | .inspect input => input
  match files input, r with
  | .absent fault, _ => { error := some (explainFile "failed to read" input fault) }
  | _, .convert format standalone input output options =>
    runConvert files format standalone input output options
  | entry, .inspect _ => inspectItems (Dvi.Reader.items { source := entry.deliveries })

/-! ## Files that are looked at -/

/-- The files that a request names. -/
def Request.paths : Request → List String
  | .convert _ _ input _ options => input :: options.encodings.toList
  | .inspect input => [input]

/-- The fonts that a document defines. -/
def fontNames (entry : Entry) : List String :=
  (Dvi.Reader.items { source := entry.deliveries }).filterMap fun
    | .ok (.defineFont _ _ _ _ _ name) => some name
    | _ => none

/-- The files in which a request may look for metrics. -/
def fontPaths (files : FileSystem) : Request → List String
  | .convert _ _ input _ options =>
    (fontNames (files input)).flatMap fun font =>
      options.searched.map fun directory => joinPath directory (font ++ ".tfm")
  | .inspect _ => []

/-! ## The program -/

/-- How the program ends. -/
structure Ending where
  exit : Nat
  stdout : String := ""
  error : Option String := none
deriving Repr, DecidableEq

/-- What the program says about an error. -/
def errorLine (error : String) : String :=
  "Error: " ++ error ++ "\n"

/-- The program's name and version. -/
def versionLine : String :=
  "dvi2html 0.1\n"

/-- How to call the program. -/
def helpText : String :=
  "Convert DVI files to HTML with inline SVG.\n\n" ++
    "Usage: dvi2html <html|text|inspect> [OPTIONS] <PATH>\n\n" ++
    "Options:\n" ++
    "  -o, --output <OUTPUT>   Path to write the output to\n" ++
    "      --fonts <DIR>       Directory to search for metrics; may be repeated\n" ++
    "      --encodings <FILE>  File with the encodings of fonts\n" ++
    "      --lenient           Substitute characters that are missing\n" ++
    "      --standalone        Write a whole page (html only)\n" ++
    "  -v, --verbose           Log more\n" ++
    "  -h, --help              Print help\n" ++
    "  -V, --version           Print version\n"

/-- How the program ends if there is nothing to do. -/
def Stop.ending : Stop → Ending
  | .usage => { exit := 2 }
  | .help => { exit := 0, stdout := helpText }
  | .version => { exit := 0, stdout := versionLine }

/-- How the program ends after printing, if writing ended with the given fault. -/
def Report.ending (r : Report) (writing : Option (String × String)) : Ending :=
  let error := match r.error, writing with
    | some error, _ => some error
    | none, some (path, reason) => some (chain [s!"failed to write `{path}`", reason])
    | none, none => none
  match error with
  | some error => { exit := 1, stdout := r.stdout, error := some (errorLine error) }
  | none => { exit := 0, stdout := r.stdout }

/-- Runs the program in a tree of files: how it ends and the tree afterwards. -/
def runIn [Escaping] [EncodingReader] [ArgumentReader] (tree : FileTree) (args : List String) :
    Ending × FileTree :=
  match ArgumentReader.read args with
  | .error stop => (stop.ending, tree)
  | .ok request =>
    let report := request.run tree.entry
    match report.file with
    | none => (report.ending none, tree)
    | some (path, content) =>
      match tree.write path (Utf8.encode content) with
      | .ok tree => (report.ending none, tree)
      | .error fault => (report.ending (some (path, fault.message)), tree)

end DviMarkup.CommandLine
