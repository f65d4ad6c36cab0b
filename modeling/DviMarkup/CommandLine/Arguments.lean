/-
  The arguments of the command line.

  The first argument names what to do.  After it come a path and options, in any
  order; after `--` there are only paths.  A short option may share its argument
  with others, and the value of an option may be joined to it.

  * `Request` is what is asked for, and `Stop` why there is nothing to do;
  * `Scope` is what to do, and `Switch` an option;
  * `Draft` is what is known of a conversion so far;
  * `Request.parse` reads arguments;
  * `ArgumentReader` is a reader of arguments, a parameter of the program.
-/
import DviMarkup.Convert

namespace DviMarkup.CommandLine

/-- What is asked for. -/
inductive Request where
  /-- Convert a document, perhaps into a whole page, perhaps into a file. -/
  | convert (format : Format) (standalone : Bool) (input : String) (output : Option String)
      (options : Options)
  /-- Print the operations of a document. -/
  | inspect (input : String)
deriving Repr, DecidableEq

/-- Why there is nothing to do. -/
inductive Stop where
  /-- The arguments cannot be understood. -/
  | usage
  | help
  | version
deriving Repr, DecidableEq

/-- What to do. -/
inductive Scope where
  | html
  | text
  | inspect
deriving Repr, DecidableEq

/-- An option. -/
inductive Switch where
  | output
  | fonts
  | encodings
  | lenient
  | standalone
  | verbose
  | help
  | version
deriving Repr, DecidableEq

/-! ## Options -/

def Scope.ofName? : String → Option Scope
  | "html" => some .html
  | "text" => some .text
  | "inspect" => some .inspect
  | _ => none

namespace Switch

/-- The option with a long name. -/
def ofLong? (name : List Char) : Option Switch :=
  [("output", output), ("fonts", fonts), ("encodings", encodings), ("lenient", lenient),
    ("standalone", standalone), ("verbose", verbose), ("help", help),
    ("version", version)].lookup (String.ofList name)

/-- The option with a short name. -/
def ofShort? : Char → Option Switch
  | 'o' => some output
  | 'v' => some verbose
  | 'h' => some help
  | 'V' => some version
  | _ => none

/-- Whether the option has a value. -/
def hasValue : Switch → Bool
  | output | fonts | encodings => true
  | _ => false

/-- Whether the option may be given when there is something to do. -/
def isAllowed (scope : Scope) : Switch → Bool
  | output | fonts | encodings | lenient => scope ≠ .inspect
  | standalone => scope = .html
  | verbose | help => true
  | version => false

end Switch

/-! ## Reading -/

/-- What is known so far. -/
structure Draft where
  input : Option String := none
  output : Option String := none
  /-- The directories with metrics, the latest first. -/
  fonts : List String := []
  encodings : Option String := none
  lenient : Bool := false
  standalone : Bool := false

namespace Draft

/-- Takes a path. -/
def addInput (d : Draft) (path : String) : Except Stop Draft :=
  if path.isEmpty || d.input.isSome then .error .usage
  else .ok { d with input := some path }

/-- Takes an option without a value.  How much is logged does not matter here. -/
def addFlag (d : Draft) : Switch → Except Stop Draft
  | .lenient => if d.lenient then .error .usage else .ok { d with lenient := true }
  | .standalone => if d.standalone then .error .usage else .ok { d with standalone := true }
  | .verbose => .ok d
  | .help => .error .help
  | .version => .error .version
  | _ => .error .usage

/-- Takes an option with its value. -/
def addValue (d : Draft) (switch : Switch) (value : String) : Except Stop Draft :=
  if value.isEmpty then .error .usage
  else match switch with
    | .output => if d.output.isSome then .error .usage else .ok { d with output := some value }
    | .encodings =>
      if d.encodings.isSome then .error .usage else .ok { d with encodings := some value }
    | .fonts => .ok { d with fonts := value :: d.fonts }
    | _ => .error .usage

/-- What is asked for, if all that is needed is known. -/
def finish (d : Draft) (scope : Scope) : Except Stop Request :=
  match d.input with
  | none => .error .usage
  | some input =>
    let options : Options :=
      { mode := if d.lenient then .lenient else .strict
        fontDirs := d.fonts.reverse
        encodings := d.encodings }
    .ok <| match scope with
      | .html => .convert .html d.standalone input d.output options
      | .text => .convert .text false input d.output options
      | .inspect => .inspect input

end Draft

/-- An argument by its form. -/
inductive Form where
  /-- The argument `--`. -/
  | separator
  /-- A long option, perhaps with a value joined to it. -/
  | long (name : List Char) (value : Option (List Char))
  /-- Short options. -/
  | short (names : List Char)
  | path

/-- The form of an argument. -/
def Form.ofArgument (arg : String) : Form :=
  match arg.toList with
  | ['-', '-'] => separator
  | '-' :: '-' :: text =>
    let (name, value) := text.span (· ≠ '=')
    long name (match value with | _ :: v => some v | [] => none)
  | '-' :: c :: names => short (c :: names)
  | _ => path

/-- Whether an argument can be the value of the option before it. -/
def isValue (arg : String) : Bool :=
  match Form.ofArgument arg with
  | .path => true
  | _ => false

/-- Takes short options: what is known then, and an option whose value is the
    next argument. -/
def addShort (scope : Scope) (d : Draft) : List Char → Except Stop (Draft × Option Switch)
  | [] => .ok (d, none)
  | c :: rest => do
    let some switch := Switch.ofShort? c | throw .usage
    if !switch.isAllowed scope then throw .usage
    if switch.hasValue then
      match rest with
      | [] => return (d, some switch)
      | '=' :: value => return (← d.addValue switch (String.ofList value), none)
      | value => return (← d.addValue switch (String.ofList value), none)
    else addShort scope (← d.addFlag switch) rest

/-- Takes a long option: what is known then, and the option if its value is the
    next argument. -/
def addLong (scope : Scope) (d : Draft) (name : List Char) (value : Option (List Char)) :
    Except Stop (Draft × Option Switch) := do
  let some switch := Switch.ofLong? name | throw .usage
  if !switch.isAllowed scope then throw .usage
  match switch.hasValue, value with
  | true, some value => return (← d.addValue switch (String.ofList value), none)
  | true, none => return (d, some switch)
  | false, some _ => throw .usage
  | false, none => return (← d.addFlag switch, none)

/-- Takes arguments, the first of which may have to be the value of an option. -/
def addAll (scope : Scope) : Draft → (awaiting : Option Switch) → List String → Except Stop Draft
  | d, none, [] => .ok d
  | _, some _, [] => .error .usage
  | d, some switch, arg :: rest =>
    if isValue arg then do addAll scope (← d.addValue switch arg) none rest
    else .error .usage
  | d, none, arg :: rest =>
    match Form.ofArgument arg with
    | .separator => rest.foldlM Draft.addInput d
    | .path => do addAll scope (← d.addInput arg) none rest
    | .short names => do
      let (d, awaiting) ← addShort scope d names
      addAll scope d awaiting rest
    | .long name value => do
      let (d, awaiting) ← addLong scope d name value
      addAll scope d awaiting rest

/-- Why there is nothing to do after short options in front: how much is logged
    may be said there. -/
def frontShort : List Char → Except Stop Unit
  | [] => .ok ()
  | 'v' :: rest => frontShort rest
  | 'h' :: _ => .error .help
  | 'V' :: _ => .error .version
  | _ => .error .usage

/-- Reads arguments. -/
def Request.parse : List String → Except Stop Request
  | [] => .error .usage
  | arg :: rest =>
    match Form.ofArgument arg with
    | .separator => .error .usage
    | .short names => do frontShort names; Request.parse rest
    | .long name value =>
      match Switch.ofLong? name, value with
      | some .verbose, none => Request.parse rest
      | some .help, none => .error .help
      | some .version, none => .error .version
      | _, _ => .error .usage
    | .path =>
      match Scope.ofName? arg, arg, rest with
      | some scope, _, rest => do (← addAll scope {} none rest).finish scope
      | none, "help", [] => .error .help
      | none, "help", [name] =>
        if (Scope.ofName? name).isSome || name = "help" then .error .help else .error .usage
      | none, _, _ => .error .usage

/-- A reader of arguments, which is part of a library. -/
class ArgumentReader where
  read : List String → Except Stop Request

/-- The reader of the program. -/
instance (priority := low) ArgumentReader.grammar : ArgumentReader where
  read := Request.parse

end DviMarkup.CommandLine
