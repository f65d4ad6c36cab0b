/-
  Converting documents.

  * `Options` tell how to convert and `Format` what into;
  * `Library.ofDirectories` looks metrics up in directories;
  * `Format.typesetter?` is a typesetter for a conversion, `typeset` runs a
    document on it, and `convert` does both.
-/
import DviMarkup.Dvi.Reader
import DviMarkup.Files
import DviMarkup.Font.EncodingTable
import DviMarkup.Typesetter.Execute

namespace DviMarkup

/-- How to convert. -/
structure Options where
  mode : Strictness := .strict
  /-- The directories with metrics, in the order in which they are searched. -/
  fontDirs : List String := []
  /-- The file with encodings. -/
  encodings : Option String := none
deriving Repr, DecidableEq

/-- What to convert into. -/
inductive Format where
  | html
  | text
deriving Repr, DecidableEq

/-! ## Files -/

/-- The metrics of a font out of the first directory that has a file for it,
    given the paths that were tried before, the latest first. -/
def searchMetrics (files : FileSystem) (font : String) :
    (tried : List String) → (directories : List String) → Except Failure Metrics
  | tried, [] => .error (.fontNotFound font tried.reverse)
  | tried, directory :: rest =>
    let path := joinPath directory (font ++ ".tfm")
    match files path with
    | .file content =>
      match Tfm.parse content with
      | .ok metrics => .ok metrics
      | .error fault => .error (.metrics font fault)
    | _ => searchMetrics files font (path :: tried) rest

/-- The library of the metrics in directories. -/
def Library.ofDirectories (files : FileSystem) (directories : List String) : Library where
  load _ font := searchMetrics files font [] directories

/-- The encodings in a file. -/
def Encodings.ofEntry [EncodingReader] : Entry → Except Failure Encodings
  | .file content =>
    match EncodingReader.read? content with
    | some encodings => .ok encodings
    | none => .error .encodings
  | .directory => .error .encodings
  | .absent fault => .error (.io fault.message)

namespace Options

/-- The directories with metrics, the current one if none is given. -/
def searched (o : Options) : List String :=
  if o.fontDirs.isEmpty then ["."] else o.fontDirs

/-- The encodings, none if no file is given. -/
def loadEncodings [EncodingReader] (o : Options) (files : FileSystem) : Except Failure Encodings :=
  match o.encodings with
  | none => .ok {}
  | some path => Encodings.ofEntry (files path)

end Options

/-- What reading an entry meets; there is nothing to read in what is not there. -/
def Entry.deliveries : Entry → List Dvi.Delivery
  | .file content => [.bytes content]
  | .directory => [.failed FileFault.isADirectory.message]
  | .absent fault => [.failed fault.message]

/-! ## Conversions -/

variable {α : Type} [Scalar α]

/-- A typesetter for a conversion. -/
def Format.typesetter? [EncodingReader] (f : Format) (files : FileSystem) (o : Options) :
    Except Failure (Typesetter α) := do
  let encodings ← o.loadEncodings files
  let library := Library.ofDirectories files o.searched
  return match f with
    | .html => .markup library encodings o.mode
    | .text => .plain library encodings o.mode

/-- Runs a document on a typesetter: its operations become commands, which are
    executed up to the first failure. -/
def typesetOps [Escaping] (ops : List (Except Dvi.Fault Dvi.Op)) : Action α Unit :=
  executeAll (pipeline.run ops)

/-- Runs the document out of a source on a typesetter. -/
def typeset [Escaping] (source : List Dvi.Delivery) : Action α Unit :=
  typesetOps (Dvi.Reader.items { source })

/-- The typesetter that a document was run on. -/
def convert [Escaping] [EncodingReader] (f : Format) (files : FileSystem) (o : Options)
    (source : List Dvi.Delivery) : Except Failure (Typesetter α) := do
  let t ← f.typesetter? files o
  match (typeset source).run.run t with
  | (.ok _, t) => return t
  | (.error failure, _) => throw failure

end DviMarkup
