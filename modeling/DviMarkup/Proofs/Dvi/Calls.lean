/-
  A reader calls its source no more often than it must.

  An operation is yielded as soon as the bytes that were brought hold it, and padding as
  soon as something else follows it or the file ends.  With one successful call less it
  could not have been told what the operation is.

  * `met` and `brought` are what the calls on a source meet, and what the successful ones
    bring; `Reader.brought` is what those that a reader has made have brought;
  * `HoldsOp` and `HoldsCode` tell whether chunks hold an operation or the code at some
    place among the operations;
  * `Reader.Stands` is how far a reader has come, and what is known of the calls by then;
  * `Reader.pull_outcome` and `Reader.next_outcome`: one step of a reader;
  * `Reader.after_stands` and `Reader.calls_least`: a whole run of it.
-/
import DviMarkup.Proofs.Dvi.Delivery
import Mathlib.Order.Bounds.Basic
import Mathlib.Tactic.ByContra

namespace DviMarkup.Dvi

/-! ## Calls -/

/-- What the first calls on a source meet.  After its last delivery every call meets the
    end of the file. -/
def met : List Delivery → (calls : Nat) → List Delivery
  | _, 0 => []
  | [], calls + 1 => .bytes [] :: met [] calls
  | delivery :: rest, calls + 1 => delivery :: met rest calls

/-- The chunks that the successful calls bring; the end of the file is a chunk without
    bytes. -/
def brought (deliveries : List Delivery) : List (List UInt8) :=
  deliveries.filterMap fun
    | .bytes chunk => some chunk
    | _ => none

theorem met_succ (source : List Delivery) (calls : Nat) :
    met source (calls + 1) = met source calls ++ [(source.drop calls).headD (.bytes [])] := by
  induction calls generalizing source with
  | zero => cases source <;> rfl
  | succ calls ih =>
    cases source with
    | nil => simpa [met] using ih []
    | cons delivery rest => simp [met, ih rest]

theorem brought_append (a b : List Delivery) : brought (a ++ b) = brought a ++ brought b :=
  List.filterMap_append

/-- The chunks that a reader was brought, given what its source was at first. -/
def Reader.brought (source : List Delivery) (r : Reader) : List (List UInt8) :=
  Dvi.brought (met source r.reads)

/-! ## What chunks hold -/

/-- What is left of bytes after so many operations at their front, if there are so many. -/
def afterOps : (count : Nat) → List UInt8 → Option (List UInt8)
  | 0, bytes => some bytes
  | count + 1, bytes => do
    let rest ← afterOps count bytes
    match Op.decode rest with
    | .ok (some (_, rest)) => some rest
    | _ => none

/-- Whether chunks hold an operation after so many others, from its code to its end.  Padding
    ends where another byte follows it or where the file ends. -/
def HoldsOp (count : Nat) (op : Op) (chunks : List (List UInt8)) : Prop :=
  ∃ bytes rest, afterOps count chunks.flatten = some bytes ∧ Op.decode bytes = .ok (some (op, rest)) ∧
    ∀ p f n, op = .endPostamble p f n → rest ≠ [] ∨ [] ∈ chunks

/-- Whether chunks hold a code after so many operations. -/
def HoldsCode (count : Nat) (code : UInt8) (chunks : List (List UInt8)) : Prop :=
  ∃ operands, afterOps count chunks.flatten = some (code :: operands)

/-- Whether chunks do not settle what comes after so many operations. -/
def Unsettled (count : Nat) (chunks : List (List UInt8)) : Prop :=
  ∀ bytes, afterOps count chunks.flatten = some bytes → settled? bytes = none

theorem afterOps_succ_eq_some_iff {count : Nat} {bytes rest : List UInt8} :
    afterOps (count + 1) bytes = some rest ↔
      ∃ front op, afterOps count bytes = some front ∧ Op.decode front = .ok (some (op, rest)) := by
  rw [afterOps, Option.bind_eq_bind, Option.bind_eq_some_iff]
  refine exists_congr fun front => ?_
  cases hd : Op.decode front with
  | error fault => simp
  | ok d =>
    cases d with
    | none => simp
    | some d => simp [Prod.ext_iff, eq_comm]

/-- What is not settled after some operations is not settled after more of them. -/
theorem Unsettled.succ {count : Nat} {chunks : List (List UInt8)} (h : Unsettled count chunks) :
    Unsettled (count + 1) chunks := by
  intro rest hrest
  obtain ⟨front, op, hfront, hd⟩ := afterOps_succ_eq_some_iff.1 hrest
  obtain ⟨rfl, -⟩ := eq_of_decode_of_unsettled (h front hfront) hd
  rfl

theorem Unsettled.not_holdsOp {count : Nat} {chunks : List (List UInt8)} (h : Unsettled count chunks)
    (hend : [] ∉ chunks) (op : Op) : ¬HoldsOp count op chunks := by
  rintro ⟨bytes, rest, hbytes, hd, hpad⟩
  obtain ⟨rfl, p, f, n, rfl⟩ := eq_of_decode_of_unsettled (h bytes hbytes) hd
  rcases hpad p f n rfl with hrest | hmem
  · exact hrest rfl
  · exact hend hmem

theorem Unsettled.not_holdsCode {count : Nat} {chunks : List (List UInt8)} (h : Unsettled count chunks)
    {code : UInt8} (hcode : Opcode.ofNat? code.toNat = none) : ¬HoldsCode count code chunks := by
  rintro ⟨operands, hbytes⟩
  have hs := h _ hbytes
  rw [settled?_eq_error_iff.2 ⟨Op.decode_cons_invalid hcode operands, by simp⟩] at hs
  cases hs

/-! ## Readers -/

namespace Reader

/-- A reader that was asked for `count` items, has yielded an operation each time and has not met
    the end of the file: its buffer is what is left after these operations, whatever else will
    be brought, and with fewer chunks the next one would not have been settled. -/
structure Reading (source : List Delivery) (count : Nat) (r : Reader) : Prop where
  done : r.done = false
  atEnd : r.atEnd = false
  source_eq : r.source = source.drop r.reads
  end_notMem : [] ∉ r.brought source
  buffer_eq : ∀ more, afterOps count ((r.brought source).flatten ++ more) = some (r.buffer ++ more)
  unsettled : ∀ k < (r.brought source).length, Unsettled count ((r.brought source).take k)

/-- How far a reader has come that was asked for `count` items. -/
inductive Stands (source : List Delivery) (count : Nat) (r : Reader) : Prop where
  | reading (h : Reading source count r)
  /-- The end of the file was met, and the last operation is yielded. -/
  | ended (hdone : r.done = false) (hend : r.atEnd = true) (hbuffer : r.buffer = [])
      (hsource : r.source = source.drop r.reads) (hmet : (r.brought source).count [] ≤ 1)
  /-- Nothing more will be yielded. -/
  | finished (hdone : r.done = true) (hsource : r.source = source.drop r.reads)
      (hmet : (r.brought source).count [] ≤ 1)

theorem Stands.source_eq {source : List Delivery} {count : Nat} {r : Reader} (h : Stands source count r) :
    r.source = source.drop r.reads := by
  cases h with
  | reading h => exact h.source_eq
  | ended _ _ _ hsource _ => exact hsource
  | finished _ hsource _ => exact hsource

theorem Stands.count_nil_le {source : List Delivery} {count : Nat} {r : Reader}
    (h : Stands source count r) : (r.brought source).count [] ≤ 1 := by
  cases h with
  | reading h => exact (List.count_eq_zero.2 h.end_notMem).le.trans (Nat.zero_le 1)
  | ended _ _ _ _ hmet => exact hmet
  | finished _ _ hmet => exact hmet

/-- What comes of asking for an item after `count` others: how far the reader has come then, and
    that it made no call too many. -/
structure Outcome (source : List Delivery) (count : Nat) (step : Option (Except Fault Op) × Reader) :
    Prop where
  stands : Stands source (count + 1) step.2
  op_least : ∀ op, step.1 = some (.ok op) →
    IsLeast {k | HoldsOp count op ((step.2.brought source).take k)} (step.2.brought source).length
  code_least : ∀ code, step.1 = some (.error (.invalidCode code)) →
    IsLeast {k | HoldsCode count code ((step.2.brought source).take k)} (step.2.brought source).length
  done_of_not_op : (∀ op, step.1 ≠ some (.ok op)) → step.2.done = true

variable {source : List Delivery} {count : Nat}

theorem Outcome.of_op {r : Reader} {op : Op} (hstands : Stands source (count + 1) r)
    (hleast : IsLeast {k | HoldsOp count op ((r.brought source).take k)} (r.brought source).length) :
    Outcome source count (some (.ok op), r) where
  stands := hstands
  op_least := by
    rintro _ ⟨⟩
    exact hleast
  code_least := by
    rintro code ⟨⟩
  done_of_not_op hop := absurd rfl (hop op)

/-- The last item, or nothing. -/
theorem Outcome.of_done {r : Reader} {item : Option (Except Fault Op)} (hitem : ∀ op, item ≠ some (.ok op))
    (hdone : r.done = true) (hsource : r.source = source.drop r.reads)
    (hmet : (r.brought source).count [] ≤ 1)
    (hcode : ∀ code, item = some (.error (.invalidCode code)) →
      IsLeast {k | HoldsCode count code ((r.brought source).take k)} (r.brought source).length) :
    Outcome source count (item, r) where
  stands := .finished hdone hsource hmet
  op_least op hop := absurd hop (hitem op)
  code_least := hcode
  done_of_not_op _ := hdone

/-- One call more brings what its delivery brings. -/
theorem brought_succ {r r' : Reader} (hsource : r.source = source.drop r.reads)
    (hreads : r'.reads = r.reads + 1) :
    r'.brought source = r.brought source ++ Dvi.brought [r.source.headD (.bytes [])] := by
  rw [brought, hreads, met_succ, brought_append, hsource, brought]

theorem source_drop_succ {r : Reader} {delivery : Delivery} {rest : List Delivery}
    (hsource : r.source = source.drop r.reads) (h : r.source = delivery :: rest) :
    rest = source.drop (r.reads + 1) := by
  rw [← List.drop_drop, ← hsource, h, List.drop_one, List.tail_cons]

namespace Reading

theorem start (source : List Delivery) : Reading source 0 { source } where
  done := rfl
  atEnd := rfl
  source_eq := rfl
  end_notMem := List.not_mem_nil
  buffer_eq _ := rfl
  unsettled k hk := absurd hk (Nat.not_lt_zero k)

variable {r : Reader}

/-- The buffer is what is left of the chunks. -/
theorem afterOps_eq (h : Reading source count r) :
    afterOps count (r.brought source).flatten = some r.buffer := by
  have hbuffer := h.buffer_eq []
  rwa [List.append_nil, List.append_nil] at hbuffer

/-- If the buffer does not settle what comes next, all of the chunks do not. -/
theorem unsettled_take (h : Reading source count r) (hs : settled? r.buffer = none) (k : Nat) :
    Unsettled count ((r.brought source).take k) := by
  by_cases hk : k < (r.brought source).length
  · exact h.unsettled k hk
  · rw [List.take_of_length_le (by omega)]
    intro bytes hbytes
    rw [h.afterOps_eq] at hbytes
    rwa [← Option.some.inj hbytes]

/-- A call that brings nothing. -/
theorem idle (h : Reading source count r) {delivery : Delivery} {rest : List Delivery}
    (hsource : r.source = delivery :: rest) (hidle : Dvi.brought [delivery] = []) :
    Reading source count { r with source := rest, reads := r.reads + 1 } := by
  have hbrought : { r with source := rest, reads := r.reads + 1 : Reader }.brought source =
      r.brought source := by
    rw [brought_succ h.source_eq rfl, hsource, List.headD_cons, hidle, List.append_nil]
  exact
    { done := h.done
      atEnd := h.atEnd
      source_eq := source_drop_succ h.source_eq hsource
      end_notMem := hbrought ▸ h.end_notMem
      buffer_eq := hbrought ▸ h.buffer_eq
      unsettled := hbrought ▸ h.unsettled }

/-- A call that brings a chunk, made because the buffer settles nothing. -/
theorem bytes (h : Reading source count r) (hs : settled? r.buffer = none) {chunk : List UInt8}
    (hchunk : chunk ≠ []) {rest : List Delivery} (hsource : r.source = .bytes chunk :: rest) :
    Reading source count
      { r with source := rest, buffer := r.buffer ++ chunk, reads := r.reads + 1 } := by
  have hbrought : { r with source := rest, buffer := r.buffer ++ chunk, reads := r.reads + 1 :
      Reader }.brought source = r.brought source ++ [chunk] := by
    rw [brought_succ h.source_eq rfl, hsource]
    rfl
  refine ⟨h.done, h.atEnd, source_drop_succ h.source_eq hsource, ?_, ?_, ?_⟩
  · rw [hbrought, List.mem_append, List.mem_singleton]
    rintro (hmem | hnil)
    · exact h.end_notMem hmem
    · exact hchunk hnil.symm
  · intro more
    rw [hbrought, List.flatten_append, List.flatten_singleton, List.append_assoc, h.buffer_eq,
      List.append_assoc]
  · intro k hk
    rw [hbrought, List.length_append, List.length_singleton] at hk
    rw [hbrought, List.take_append_of_le_length (by omega)]
    exact h.unsettled_take hs k

/-- No chunk was too many for an operation that the buffer settles. -/
theorem op_least (h : Reading source count r) {op : Op} {rest : List UInt8}
    (hs : settled? r.buffer = some (.ok (op, rest))) :
    IsLeast {k | HoldsOp count op ((r.brought source).take k)} (r.brought source).length := by
  obtain ⟨hd, hpad⟩ := settled?_eq_ok_iff.1 hs
  constructor
  · refine ⟨r.buffer, rest, ?_, hd, fun p f n ho => .inl fun hrest => hpad hrest p f n ho⟩
    rw [List.take_length, h.afterOps_eq]
  · intro k hk
    by_contra hlt
    refine (h.unsettled k (by omega)).not_holdsOp (fun hmem => ?_) op hk
    exact h.end_notMem (List.mem_of_mem_take hmem)

/-- No chunk was too many for a code that the buffer begins with. -/
theorem code_least (h : Reading source count r) {code : UInt8}
    (hs : settled? r.buffer = some (.error (.invalidCode code))) :
    IsLeast {k | HoldsCode count code ((r.brought source).take k)} (r.brought source).length := by
  obtain ⟨operands, hbuffer, hcode⟩ := Op.eq_cons_of_decode_invalid (settled?_eq_error_iff.1 hs).1
  constructor
  · refine ⟨operands, ?_⟩
    rw [List.take_length, h.afterOps_eq, hbuffer]
  · intro k hk
    by_contra hlt
    exact (h.unsettled k (by omega)).not_holdsCode hcode hk

/-- After an operation that the buffer settles. -/
theorem yield (h : Reading source count r) {op : Op} {rest : List UInt8}
    (hs : settled? r.buffer = some (.ok (op, rest))) :
    Reading source (count + 1) { r with buffer := rest } where
  done := h.done
  atEnd := h.atEnd
  source_eq := h.source_eq
  end_notMem := h.end_notMem
  buffer_eq more := by
    refine afterOps_succ_eq_some_iff.2 ⟨_, op, h.buffer_eq more, ?_⟩
    exact decode_of_settled? (settled?_append hs more)
  unsettled k hk := (h.unsettled k hk).succ

/-- No end of the file has been met. -/
theorem count_nil (h : Reading source count r) : (r.brought source).count [] = 0 :=
  List.count_eq_zero.2 h.end_notMem

/-- The end of the file was not too much for an operation whose padding it ends. -/
theorem op_least_of_end (h : Reading source count r) (hs : settled? r.buffer = none) {op : Op}
    (hd : Op.decode r.buffer = .ok (some (op, []))) :
    IsLeast {k | HoldsOp count op ((r.brought source ++ [[]]).take k)} (r.brought source ++ [[]]).length := by
  constructor
  · refine ⟨r.buffer, [], ?_, hd, fun _ _ _ _ => .inr ?_⟩
    · rw [List.take_length, List.flatten_append, List.flatten_singleton, List.append_nil, h.afterOps_eq]
    · rw [List.take_length]
      exact List.mem_append_right _ (List.mem_singleton_self _)
  · intro k hk
    by_contra hlt
    have hle : k ≤ (r.brought source).length := by
      rw [List.length_append, List.length_singleton] at hlt
      omega
    have hholds : HoldsOp count op ((r.brought source ++ [[]]).take k) := hk
    rw [List.take_append_of_le_length hle] at hholds
    refine (h.unsettled_take hs k).not_holdsOp (fun hmem => ?_) op hholds
    exact h.end_notMem (List.mem_of_mem_take hmem)

/-- The call that meets the end of the file, made because the buffer settles nothing: what is
    yielded then is an operation with padding, or nothing is. -/
theorem finish (h : Reading source count r) (hs : settled? r.buffer = none) {rest : List Delivery}
    (hrest : rest = source.drop (r.reads + 1)) (hend : Dvi.brought [r.source.headD (.bytes [])] = [[]]) :
    Outcome source count
      (Reader.finish { r with source := rest, atEnd := true, reads := r.reads + 1 }) := by
  have hbrought : ∀ r' : Reader, r'.reads = r.reads + 1 → r'.brought source = r.brought source ++ [[]] := by
    intro r' hreads
    rw [brought_succ h.source_eq hreads, hend]
  have hmet : (r.brought source ++ [[]]).count [] ≤ 1 := by
    rw [List.count_append, h.count_nil, List.count_singleton_self]
  cases hd : Op.decode r.buffer with
  | error fault =>
    simp only [Reader.finish, hd]
    refine .of_done (by simp) rfl hrest (by rwa [hbrought _ rfl]) ?_
    rintro code ⟨⟩
    rw [settled?_eq_error_iff.2 ⟨hd, by simp⟩] at hs
    cases hs
  | ok d =>
    cases d with
    | none =>
      simp only [Reader.finish, hd]
      exact .of_done (by simp) rfl hrest (by rwa [hbrought _ rfl]) (by simp)
    | some d =>
      obtain ⟨op, after⟩ := d
      obtain ⟨rfl, p, f, n, rfl⟩ := eq_of_decode_of_unsettled hs hd
      simp only [Reader.finish, hd]
      refine .of_op (.ended h.done rfl rfl hrest (by rwa [hbrought _ rfl])) ?_
      rw [hbrought _ rfl]
      exact h.op_least_of_end hs hd

end Reading

/-- Calls are made until the buffer settles what comes next. -/
theorem pull_outcome {deliveries : List Delivery} {buffer : List UInt8} {reads : Nat}
    (h : Reading source count { source := deliveries, buffer, reads }) :
    Outcome source count (pull deliveries buffer reads) := by
  fun_induction pull deliveries buffer reads with
  | case1 deliveries buffer reads decoded hs =>
    obtain ⟨op, rest⟩ := decoded
    exact .of_op (.reading (h.yield hs)) (h.op_least hs)
  | case2 deliveries buffer reads fault hs =>
    refine .of_done (by simp) rfl h.source_eq (Stands.reading h).count_nil_le ?_
    rintro code ⟨⟩
    exact h.code_least hs
  | case3 buffer reads hs =>
    refine h.finish hs ?_ rfl
    rw [← List.drop_drop, ← h.source_eq, List.drop_nil]
  | case4 buffer reads hs rest => exact h.finish hs (source_drop_succ h.source_eq rfl) rfl
  | case5 buffer reads hs chunk rest hchunk ih => exact ih (h.bytes hs (fun hnil => hchunk hnil) rfl)
  | case6 buffer reads hs rest ih => exact ih (h.idle rfl rfl)
  | case7 buffer reads hs reason rest =>
    have hidle := h.idle rfl rfl
    exact .of_done (by simp) rfl hidle.source_eq (Stands.reading hidle).count_nil_le (by simp)

/-- **One step of a reader** makes no call too many. -/
theorem next_outcome {r : Reader} (h : Stands source count r) : Outcome source count r.next := by
  cases h with
  | reading h =>
    obtain ⟨deliveries, buffer, atEnd, done, reads⟩ := r
    obtain rfl : atEnd = false := h.atEnd
    obtain rfl : done = false := h.done
    exact pull_outcome h
  | ended hdone hend hbuffer hsource hmet =>
    have hnext : r.next = (none, { r with done := true }) := by
      simp [next, hdone, hend, finish, hbuffer, Op.decode]
    rw [hnext]
    exact .of_done (by simp) rfl hsource hmet (by simp)
  | finished hdone hsource hmet =>
    have hnext : r.next = (none, r) := by simp [next, hdone]
    rw [hnext]
    exact .of_done (by simp) hdone hsource hmet (by simp)

/-! ## Runs -/

/-- The reader after so many items were asked for. -/
def after : (count : Nat) → Reader → Reader
  | 0, r => r
  | count + 1, r => (after count r).next.2

theorem after_stands (source : List Delivery) (count : Nat) :
    Stands source count (after count { source }) := by
  induction count with
  | zero => exact .reading (Reading.start source)
  | succ count ih => exact (next_outcome ih).stands

/-- A reader that is done stays as it is. -/
theorem after_eq_of_done {r : Reader} {count : Nat} (h : (after count r).done = true) {later : Nat}
    (hle : count ≤ later) : after later r = after count r := by
  induction later, hle using Nat.le_induction with
  | base => rfl
  | succ later hle ih =>
    rw [after, ih, next, if_pos h]

/-- **A reader makes no call too many.**  When it yields an operation, the chunks that it was
    brought hold this operation, and with one chunk less they would not; when it yields an
    invalid code, the same holds of the code.  It meets the end of the file at most once, and
    each call takes a delivery of the source.  Once it has yielded something else than an
    operation, it yields nothing and makes no calls. -/
theorem calls_least (source : List Delivery) (count : Nat) :
    let step := (after count { source }).next
    let made := step.2.brought source
    (∀ op, step.1 = some (.ok op) → IsLeast {k | HoldsOp count op (made.take k)} made.length) ∧
      (∀ code, step.1 = some (.error (.invalidCode code)) →
        IsLeast {k | HoldsCode count code (made.take k)} made.length) ∧
      made.count [] ≤ 1 ∧
      step.2.source = source.drop step.2.reads ∧
      ((∀ op, step.1 ≠ some (.ok op)) →
        ∀ later, count < later → (after later { source }).next = (none, step.2)) := by
  intro step made
  have h : Outcome source count step := next_outcome (after_stands source count)
  refine ⟨h.op_least, h.code_least, h.stands.count_nil_le, h.stands.source_eq, ?_⟩
  intro hop later hlt
  have hdone : (after (count + 1) { source }).done = true := h.done_of_not_op hop
  rw [after_eq_of_done hdone hlt, next, if_pos hdone]
  rfl

/-- Padding in two chunks, which the end of the file ends, and a byte that is no code. -/
theorem calls_least_padding :
    let source : List Delivery := [.bytes [141, 249, 0, 0], .interrupted, .bytes [0, 7, 2, 223], .bytes [223]]
    let padded := (after 1 { source }).next
    let last := (after 2 { source }).next
    let invalid := (after 1 { source := [.bytes [141], .bytes [250, 141]] }).next
    (padded.1 = some (.ok (.endPostamble 7 2 2)) ∧
      IsLeast {k | HoldsOp 1 (.endPostamble 7 2 2) ((padded.2.brought source).take k)} 4) ∧
    (last.1 = none ∧ ∀ later, 2 < later → (after later { source }).next = (none, last.2)) ∧
    (invalid.1 = some (.error (.invalidCode 250)) ∧
      IsLeast {k | HoldsCode 1 250 ((invalid.2.brought [.bytes [141], .bytes [250, 141]]).take k)} 2) := by
  intro source padded last invalid
  have hpadded : padded.1 = some (.ok (.endPostamble 7 2 2)) := by rfl
  have hlast : last.1 = none := by rfl
  have hinvalid : invalid.1 = some (.error (.invalidCode 250)) := by rfl
  obtain ⟨hop, -, -, -, -⟩ := calls_least source 1
  obtain ⟨-, -, -, -, hdone⟩ := calls_least source 2
  obtain ⟨-, hcode, -, -, -⟩ := calls_least [.bytes [141], .bytes [250, 141]] 1
  refine ⟨⟨hpadded, hop _ hpadded⟩, ⟨hlast, hdone fun op h => ?_⟩, hinvalid, hcode _ hinvalid⟩
  rw [show (after 2 { source }).next.1 = none from hlast] at h
  cases h

end Reader

end DviMarkup.Dvi
