/-
  Operations out of a source that hands out its bytes piece by piece.

  A source is described by what each read call on it meets: some bytes, an
  interruption, or a failure; after the last of these every call meets the end
  of the file, as does a call that hands out no bytes.  The reader calls its
  source only if the bytes it holds do not settle the next operation.  The
  padding at the end of a file has no length of its own, so an operation that
  ends with it is settled only by a byte after it or by the end of the file.

  * `settled?` tells whether the bytes at hand settle the next operation;
  * `Reader.next` yields the next operation or the fault that ends the
    operations, and the reader afterwards;
  * `Reader.take` and `Reader.items` collect what it yields, each with the
    number of read calls made by then.
-/
import DviMarkup.Dvi.Decode

namespace DviMarkup.Dvi

/-- What a read call meets. -/
inductive Delivery where
  | bytes (chunk : List UInt8)
  /-- The call delivers nothing and may be repeated. -/
  | interrupted
  | failed (reason : String)
deriving Repr, DecidableEq

/-- A reader of operations. -/
structure Reader where
  /-- What the coming read calls will meet. -/
  source : List Delivery
  /-- The bytes that were read and not yet used. -/
  buffer : List UInt8 := []
  /-- Whether the end of the file was met. -/
  atEnd : Bool := false
  /-- Whether nothing more will be yielded. -/
  done : Bool := false
  /-- The number of read calls made. -/
  reads : Nat := 0
deriving Repr, DecidableEq

/-- What bytes begin with, if more bytes after them cannot change it: an
    operation and the bytes after it, or an invalid code. -/
def settled? (bytes : List UInt8) : Option (Except Fault (Op × List UInt8)) :=
  match Op.decode bytes with
  | .ok none => none
  | .ok (some (.endPostamble _ _ _, [])) => none
  | .ok (some decoded) => some (.ok decoded)
  | .error (.truncated _) => none
  | .error fault => some (.error fault)

namespace Reader

/-- Ends with a fault. -/
def fail (r : Reader) (fault : Fault) : Option (Except Fault Op) × Reader :=
  (some (.error fault), { r with done := true })

/-- Goes on with an operation and the bytes after it. -/
def yield (r : Reader) : Op × List UInt8 → Option (Except Fault Op) × Reader
  | (op, rest) => (some (.ok op), { r with buffer := rest })

/-- Yields what the buffer holds, given that no more bytes will come. -/
def finish (r : Reader) : Option (Except Fault Op) × Reader :=
  match Op.decode r.buffer with
  | .ok none => (none, { r with done := true })
  | .ok (some decoded) => r.yield decoded
  | .error fault => r.fail fault

/-- Reads until the buffer settles the next operation, and yields it. -/
def pull : (source : List Delivery) → (buffer : List UInt8) → (reads : Nat) →
    Option (Except Fault Op) × Reader
  | source, buffer, reads =>
    match settled? buffer with
    | some (.ok decoded) => yield { source, buffer, reads } decoded
    | some (.error fault) => fail { source, buffer, reads } fault
    | none =>
      match source with
      | [] => finish { source := [], buffer, atEnd := true, reads := reads + 1 }
      | .bytes [] :: rest =>
        finish { source := rest, buffer, atEnd := true, reads := reads + 1 }
      | .bytes chunk :: rest => pull rest (buffer ++ chunk) (reads + 1)
      | .interrupted :: rest => pull rest buffer (reads + 1)
      | .failed reason :: rest =>
        fail { source := rest, buffer, reads := reads + 1 } (.unreadable reason)

/-- The next operation, or the fault that ends the operations, or nothing. -/
def next (r : Reader) : Option (Except Fault Op) × Reader :=
  if r.done then (none, r)
  else if r.atEnd then r.finish
  else pull r.source r.buffer r.reads

/-- At most `count` items, each with the number of read calls made by then, and
    the reader afterwards. -/
def take : (count : Nat) → Reader → List (Except Fault Op × Nat) × Reader
  | 0, r => ([], r)
  | count + 1, r =>
    match r.next with
    | (none, r') => ([], r')
    | (some item, r') =>
      let (items, last) := take count r'
      ((item, r'.reads) :: items, last)

/-- The number of bytes a delivery brings. -/
def size : Delivery → Nat
  | .bytes chunk => chunk.length
  | _ => 0

/-- The number of bytes that are still to be used. -/
def bytesLeft (r : Reader) : Nat :=
  r.buffer.length + r.source.foldr (fun delivery n => size delivery + n) 0

/-- All items: every operation uses up a byte, one fault may follow, and then
    nothing. -/
def drain (r : Reader) : List (Except Fault Op × Nat) × Reader :=
  r.take (r.bytesLeft + 2)

/-- All items without the numbers of read calls. -/
def items (r : Reader) : List (Except Fault Op) :=
  r.drain.1.map (·.1)

end Reader

/-- A reader of bytes that are all at hand. -/
def Reader.ofBytes (data : List UInt8) : Reader :=
  { source := [.bytes data] }

end DviMarkup.Dvi
