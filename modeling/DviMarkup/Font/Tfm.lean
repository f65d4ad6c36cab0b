/-
  Font metrics out of TFM files.

  A TFM file is a list of four-byte words.  The first six hold twelve sizes of
  two bytes each: the length of the whole and of ten tables, which follow in a
  fixed order.  The sizes are checked before the tables are cut; what the
  checks rule out would be the fault `outOfRange`: a place outside the data, a
  number that does not fit into its sixteen bits, a code that is no byte.

  * `Word` is a word, `Sizes` are the sizes and `Sizes.check` the checks;
  * `Tables` are the tables, cut by `Sizes.tables`;
  * `instruction` and `characters` read the entries of two of them;
  * `parse` reads a file.
-/
import DviMarkup.Font.Metrics
import DviMarkup.Number.BigEndian

namespace DviMarkup.Tfm

/-! ## Words and sizes -/

/-- Four bytes. -/
structure Word where
  b0 : UInt8
  b1 : UInt8
  b2 : UInt8
  b3 : UInt8
deriving Repr, DecidableEq

namespace Word

def bytes (w : Word) : List UInt8 := [w.b0, w.b1, w.b2, w.b3]

/-- The number without sign. -/
def unsigned (w : Word) : UInt32 := UInt32.ofNat (BigEndian.unsigned w.bytes)

/-- The number in two's complement. -/
def signed (w : Word) : Int32 := Int32.ofInt (BigEndian.signed w.bytes)

/-- The number in two's complement in the first two bytes. -/
def upper (w : Word) : Int16 := Int16.ofInt (BigEndian.signed [w.b0, w.b1])

/-- The number in two's complement in the last two bytes. -/
def lower (w : Word) : Int16 := Int16.ofInt (BigEndian.signed [w.b2, w.b3])

end Word

/-- The whole words of a file. -/
def words : List UInt8 → List Word
  | b0 :: b1 :: b2 :: b3 :: rest => ⟨b0, b1, b2, b3⟩ :: words rest
  | _ => []

/-- The sizes of the tables, in words, and the range of character codes. -/
structure Sizes where
  /-- The length of the header. -/
  lh : Int16
  /-- The least character code. -/
  bc : Int16
  /-- The greatest character code. -/
  ec : Int16
  nw : Int16
  nh : Int16
  nd : Int16
  ni : Int16
  nl : Int16
  nk : Int16
  ne : Int16
  np : Int16
deriving Repr, DecidableEq

/-- All sizes with their names. -/
def Sizes.toList (s : Sizes) : List (String × Int16) :=
  [("lh", s.lh), ("bc", s.bc), ("ec", s.ec), ("nw", s.nw), ("nh", s.nh), ("nd", s.nd),
    ("ni", s.ni), ("nl", s.nl), ("nk", s.nk), ("ne", s.ne), ("np", s.np)]

def Sizes.describe (s : Sizes) : String :=
  "SubFileSizes \x7b " ++
    ", ".intercalate (s.toList.map fun (name, n) => s!"{name}: {n.toInt}") ++ " \x7d"

/-- Why a file cannot be read. -/
inductive Fault where
  /-- There is no room for the sizes. -/
  | tooShort (length : Nat)
  /-- The stated number of words does not fit the number of bytes. -/
  | badLength (stated : Int16) (length : Nat)
  | negativeSize (sizes : Sizes)
  | shortHeader (length : Int16)
  | badRange (first last : Int16)
  /-- A table of dimensions is empty. -/
  | emptyTable (sizes : Sizes)
  /-- The sizes do not add up to the stated number of words. -/
  | badTotal (stated : Int16) (sizes : Sizes)
  /-- A character has an index outside a table of dimensions. -/
  | missingDimension (code : UInt8)
  /-- An instruction has an index outside the table of kerns. -/
  | missingKern (index : Nat)
  /-- A place outside the data, or a number without a place in its bits. -/
  | outOfRange
deriving Repr, DecidableEq

def Fault.message : Fault → String
  | .tooShort length => s!"the file is only {length} bytes long"
  | .badLength stated length =>
    s!"the file claims to be {stated.toInt} words long but has {length} bytes"
  | .negativeSize sizes => s!"one of the sub-file sizes is negative: {sizes.describe}"
  | .shortHeader length => s!"the header length is only {length.toInt}"
  | .badRange first last =>
    s!"the character code range {first.toInt}..{last.toInt} is illegal"
  | .emptyTable sizes =>
    s!"incomplete sub-files for character dimensions: {sizes.describe}"
  | .badTotal stated sizes =>
    s!"sub-file sizes don't add up to the stated total {stated.toInt}: {sizes.describe}"
  | .missingDimension code => s!"character {code} refers to a missing dimension"
  | .missingKern index => s!"lig/kern instruction {index} refers to a missing kern"
  | .outOfRange => "a place outside the file"

/-- A number in sixteen bits, if it has a place there. -/
def short (n : Int) : Except Fault Int16 :=
  if -0x8000 ≤ n ∧ n < 0x8000 then .ok (Int16.ofInt n) else .error .outOfRange

namespace Sizes

/-- The number of words that the sizes account for. -/
def total (s : Sizes) : Int :=
  6 + s.lh.toInt + (s.ec.toInt - s.bc.toInt + 1) + s.nw.toInt + s.nh.toInt + s.nd.toInt +
    s.ni.toInt + s.nl.toInt + s.nk.toInt + s.ne.toInt + s.np.toInt

/-- Whether the sizes describe a file with the stated number of words. -/
def check (s : Sizes) (stated : Int16) : Except Fault Unit := do
  if s.toList.any (·.2 < 0) then throw (.negativeSize s)
  if s.lh < 2 then throw (.shortHeader s.lh)
  if s.ec > 255 then throw (.badRange s.bc s.ec)
  if s.bc > (← short (s.ec.toInt + 1)) then throw (.badRange s.bc s.ec)
  if s.nw = 0 ∨ s.nh = 0 ∨ s.nd = 0 ∨ s.ni = 0 then throw (.emptyTable s)
  if stated.toInt ≠ s.total then throw (.badTotal stated s)

/-- The number of character codes. -/
def charCount (s : Sizes) : Except Fault Int16 := do
  let span ← short (s.ec.toInt - s.bc.toInt)
  short (span.toInt + 1)

end Sizes

/-! ## Tables -/

/-- The tables of a file, in their order. -/
structure Tables where
  header : List Word
  charInfos : List Word
  widths : List Word
  heights : List Word
  depths : List Word
  italics : List Word
  program : List Word
  kerns : List Word
  recipes : List Word
  params : List Word

/-- Cuts a table of the given length off the front of the words. -/
def table (count : Int16) : StateT (List Word) (Except Fault) (List Word) := fun ws =>
  if 0 ≤ count ∧ count.toInt.toNat ≤ ws.length then
    .ok (ws.take count.toInt.toNat, ws.drop count.toInt.toNat)
  else .error .outOfRange

/-- Cuts the words after the sizes into tables. -/
def Sizes.tables (s : Sizes) : StateT (List Word) (Except Fault) Tables := do
  let count ← s.charCount
  let header ← table s.lh
  let charInfos ← table count
  let widths ← table s.nw
  let heights ← table s.nh
  let depths ← table s.nd
  let italics ← table s.ni
  let program ← table s.nl
  let kerns ← table s.nk
  let recipes ← table s.ne
  let params ← table s.np
  return { header, charInfos, widths, heights, depths, italics, program, kerns, recipes, params }

/-! ## Entries -/

/-- The instruction at an index.  An operation byte from 128 on is the upper
    part of an index into the table of kerns; a smaller one tells what a
    ligature deletes and passes over. -/
def instruction (kerns : List Word) (index : Nat) (w : Word) : Except Fault Instruction := do
  let action ←
    if w.b2 < 128 then
      pure (.ligature w.b3 (w.b2 / 2 % 2 = 0) (w.b2 % 2 = 0) (w.b2 / 4))
    else match kerns[256 * (w.b2.toNat - 128) + w.b3.toNat]? with
      | some k => pure (.kern k.signed)
      | none => throw (.missingKern index)
  return { skip := w.b0 % 128, stop := 128 ≤ w.b0, nextChar := w.b1, action }

/-- The instructions from an index on. -/
def instructions (kerns : List Word) : (index : Nat) → List Word → Except Fault (List Instruction)
  | _, [] => .ok []
  | index, w :: ws => do
    let i ← instruction kerns index w
    return i :: (← instructions kerns (index + 1) ws)

/-- Where the program of a character starts.  The tag 1 says that it has one; a
    first instruction with a skip byte above 128 holds the real start. -/
def programStart (program : List Word) (info : Word) : Option Nat :=
  if info.b2 % 4 = 1 then
    match program[info.b3.toNat]? with
    | some first =>
      if 128 < first.b0 then some (256 * first.b2.toNat + first.b3.toNat)
      else some info.b3.toNat
    | none => some info.b3.toNat
  else none

/-- The entry of a table of dimensions at an index. -/
def dimension (code : UInt8) (entries : List Word) (index : UInt8) : Except Fault Int32 :=
  match entries[index.toNat]? with
  | some w => .ok w.signed
  | none => .error (.missingDimension code)

/-- The dimensions of a character, by its four indices. -/
def charMetrics (t : Tables) (code : UInt8) (info : Word) : Except Fault CharMetrics := do
  let width ← dimension code t.widths info.b0
  let height ← dimension code t.heights (info.b1 / 16)
  let depth ← dimension code t.depths (info.b1 % 16)
  let italicCorrection ← dimension code t.italics (info.b2 / 4)
  return { width, height, depth, italicCorrection, program := programStart t.program info }

/-- The byte that a character code is. -/
def byte (code : Int16) : Except Fault UInt8 :=
  if 0 ≤ code ∧ code ≤ 255 then .ok (UInt8.ofNat code.toInt.toNat) else .error .outOfRange

/-- The characters from a code on.  The width index 0 means that the font does
    not have the character.  The code after the last one is counted as well. -/
def characters (t : Tables) :
    (code : Int16) → List Word → Except Fault (List (UInt8 × CharMetrics))
  | code, [] => do
    let _ ← short (code.toInt + 1)
    return []
  | code, info :: infos => do
    let next ← short (code.toInt + 1)
    let b ← byte code
    if info.b0 = 0 then characters t next infos
    else
      let c ← charMetrics t b info
      return (b, c) :: (← characters t next infos)

/-! ## Files -/

/-- The sizes in the first six words, after the stated length of the file, and
    the words after them. -/
def sizes : List Word → Except Fault (Int16 × Sizes × List Word)
  | w0 :: w1 :: w2 :: w3 :: w4 :: w5 :: rest =>
    .ok (w0.upper,
      { lh := w0.lower, bc := w1.upper, ec := w1.lower, nw := w2.upper, nh := w2.lower,
        nd := w3.upper, ni := w3.lower, nl := w4.upper, nk := w4.lower, ne := w5.upper,
        np := w5.lower }, rest)
  | _ => .error .outOfRange

/-- The metrics in the tables of a file that starts with the code `first`. -/
def Tables.metrics (t : Tables) (first : Int16) : Except Fault Metrics := do
  let program ← instructions t.kerns 0 t.program
  let chars ← characters t first t.charInfos
  match t.header with
  | checksum :: designSize :: _ =>
    return { checksum := checksum.unsigned, designSize := designSize.signed, characters := chars,
             instructions := program, params := t.params.map Word.signed }
  | _ => throw .outOfRange

/-- The metrics in a file. -/
def parse (data : List UInt8) : Except Fault Metrics := do
  if data.length < 24 then throw (.tooShort data.length)
  let (stated, s, rest) ← sizes (words data)
  if stated ≤ 0 ∨ data.length < 4 * stated.toInt.toNat then
    throw (.badLength stated data.length)
  s.check stated
  let (t, _) ← s.tables.run rest
  t.metrics s.bc

end DviMarkup.Tfm
