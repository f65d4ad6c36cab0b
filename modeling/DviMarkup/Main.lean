/-
  The program.

  Everything is decided in `DviMarkup.CommandLine`; here files are read and
  written and texts are printed.
-/
import DviMarkup.CommandLine.Run

open DviMarkup DviMarkup.CommandLine

/-- What an error on disk says about a file. -/
def faultOnDisk : IO.Error → FileFault
  | .noFileOrDirectory .. => .missing
  | .inappropriateType _ code _ => if code = 21 then .isADirectory else .notADirectory
  | .invalidArgument _ code _ => if code = 36 then .nameTooLong else .nulInName
  | _ => .denied

/-- What is at a path on disk. -/
def entryOnDisk (path : String) : IO Entry := do
  try
    let content ← IO.FS.readBinFile path
    return .file content.toList
  catch e =>
    match faultOnDisk e with
    | .isADirectory => return .directory
    | fault => return .absent fault

/-- The answers for paths that were looked up. -/
def answers (known : List (String × Entry)) : FileSystem := fun path =>
  (known.lookup path).getD (.absent .missing)

/-- What is at paths on disk. -/
def lookUp (paths : List String) : IO (List (String × Entry)) :=
  paths.eraseDups.mapM fun path => return (path, ← entryOnDisk path)

/-- Writes a file: its path and the reason if that fails. -/
def writeOnDisk (path content : String) : IO (Option (String × String)) := do
  try
    IO.FS.writeFile path content
    return none
  catch e => return some (path, (faultOnDisk e).message)

/-- Does what is asked for. -/
def perform (request : Request) : IO Ending := do
  let named ← lookUp request.paths
  let fonts ← lookUp (fontPaths (answers named) request)
  let report := request.run (answers (named ++ fonts))
  match report.file with
  | none => return report.ending none
  | some (path, content) => return report.ending (← writeOnDisk path content)

def main (args : List String) : IO UInt32 := do
  let ending ← match Request.parse args with
    | .error stop => pure stop.ending
    | .ok request => perform request
  IO.print ending.stdout
  if ending.exit = 2 then IO.eprint helpText
  if let some error := ending.error then IO.eprint error
  return UInt32.ofNat ending.exit
