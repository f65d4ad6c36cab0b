/-
  The way a source hands out its bytes does not matter.

  * `delivered` and `failure?` are what a source comes to: the bytes it hands
    out, and why it fails, if it does not come to the end of the file;
  * `itemsOf` are the items of such bytes: all that they decode to, and if the
    source fails, the failure in the place of what more bytes could have changed;
  * `Reader.next_yields`: one step of a reader depends on nothing else;
  * `Reader.items_eq_itemsOf`: nor do its items.
-/
import DviMarkup.Proofs.Dvi.Framing

namespace DviMarkup.Dvi

/-! ## Sources -/

/-- The bytes that a source hands out before its end or its failure.  A call that
    hands out no bytes meets the end of the file. -/
def delivered : List Delivery → List UInt8
  | [] | .bytes [] :: _ | .failed _ :: _ => []
  | .bytes chunk :: rest => chunk ++ delivered rest
  | .interrupted :: rest => delivered rest

/-- Why a source fails, if it does not come to its end. -/
def failure? : List Delivery → Option String
  | [] | .bytes [] :: _ => none
  | .failed reason :: _ => some reason
  | .bytes _ :: rest | .interrupted :: rest => failure? rest

theorem delivered_bytes {chunk : List UInt8} (h : chunk ≠ []) (rest : List Delivery) :
    delivered (.bytes chunk :: rest) = chunk ++ delivered rest := by
  cases chunk with
  | nil => exact absurd rfl h
  | cons b chunk => rfl

theorem failure?_bytes {chunk : List UInt8} (h : chunk ≠ []) (rest : List Delivery) :
    failure? (.bytes chunk :: rest) = failure? rest := by
  cases chunk with
  | nil => exact absurd rfl h
  | cons b chunk => rfl

/-- The bytes delivered are among those that the source has. -/
theorem length_delivered_le : ∀ source : List Delivery,
    (delivered source).length ≤ source.foldr (fun delivery n => Reader.size delivery + n) 0
  | [] => by simp [delivered]
  | .bytes [] :: _ => by simp [delivered]
  | .failed _ :: _ => by simp [delivered]
  | .interrupted :: rest => by
    have := length_delivered_le rest
    simpa [delivered, Reader.size] using this
  | .bytes (b :: chunk) :: rest => by
    have := length_delivered_le rest
    have hsize : Reader.size (.bytes (b :: chunk)) = (b :: chunk).length := rfl
    rw [delivered_bytes (List.cons_ne_nil b chunk), List.length_append, List.foldr_cons, hsize]
    omega

/-! ## Items -/

/-- The items of bytes after which the source fails, given all that the bytes
    decode to: the failure stands for an operation that is not complete, and for
    padding, which might have gone on; after an invalid code it does not matter. -/
def brokenOff (reason : String) : List (Except Fault Op) → List (Except Fault Op)
  | [] | [.ok (.endPostamble _ _ _)] | .error (.truncated _) :: _ => [.error (.unreadable reason)]
  | .error fault :: _ => [.error fault]
  | .ok op :: items => .ok op :: brokenOff reason items

/-- The items of bytes and of what ends them. -/
def itemsOf (failure : Option String) (bytes : List UInt8) : List (Except Fault Op) :=
  match failure with
  | none => decodeAll bytes
  | some reason => brokenOff reason (decodeAll bytes)

/-- The first item of bytes and of what ends them, with the bytes after it. -/
def lookAhead (failure : Option String) (bytes : List UInt8) :
    Except Fault (Option (Op × List UInt8)) :=
  match failure with
  | none => Op.decode bytes
  | some reason => ((settled? bytes).getD (.error (.unreadable reason))).map some

/-- What is settled is not changed by the bytes that are still to come, and not by
    what ends them. -/
theorem lookAhead_append {bytes : List UInt8} {d : Except Fault (Op × List UInt8)}
    (h : settled? bytes = some d) (failure : Option String) (more : List UInt8) :
    lookAhead failure (bytes ++ more) = (d.map fun r => (r.1, r.2 ++ more)).map some := by
  have h' := settled?_append h more
  cases failure with
  | none => exact decode_of_settled? h'
  | some reason => simp only [lookAhead, h', Option.getD_some]

theorem brokenOff_cons {reason : String} {op : Op} {items : List (Except Fault Op)}
    (h : items = [] → ∀ p f n, op ≠ .endPostamble p f n) :
    brokenOff reason (.ok op :: items) = .ok op :: brokenOff reason items := by
  conv => lhs; unfold brokenOff
  split
  · rename_i h'; cases h'
  · rename_i h'; cases h'; exact absurd rfl (h rfl _ _ _)
  · rename_i h'; cases h'
  · rename_i h'; cases h'
  · rename_i h'; cases h'; rfl

/-- The items are the first one and those of the bytes after it. -/
theorem itemsOf_eq (failure : Option String) (bytes : List UInt8) :
    itemsOf failure bytes = match lookAhead failure bytes with
      | .ok none => []
      | .ok (some (op, rest)) => .ok op :: itemsOf failure rest
      | .error fault => [.error fault] := by
  cases failure with
  | none =>
    cases hd : Op.decode bytes with
    | error fault => simp only [itemsOf, lookAhead, hd, decodeAll_of_error hd]
    | ok r =>
      cases r with
      | none =>
        simp only [itemsOf, lookAhead, hd]
        rw [Op.decode_eq_ok_none_iff.1 hd, decodeAll_nil]
      | some r => simp only [itemsOf, lookAhead, hd, decodeAll_of_ok hd]
  | some reason =>
    cases hs : settled? bytes with
    | some d =>
      have hd := decode_of_settled? hs
      cases d with
      | error fault =>
        have hne := (settled?_eq_error_iff.1 hs).2
        simp only [itemsOf, lookAhead, hs, decodeAll_of_error hd, Option.getD_some, Except.map]
        cases fault with
        | truncated code => exact absurd rfl (hne code)
        | invalidCode | unreadable => rfl
      | ok r =>
        have hne := (settled?_eq_ok_iff.1 hs).2
        simp only [itemsOf, lookAhead, hs, decodeAll_of_ok hd, Option.getD_some, Except.map]
        exact brokenOff_cons fun hnil => hne (decodeAll_eq_nil_iff.1 hnil)
    | none =>
      simp only [itemsOf, lookAhead, hs, Option.getD_none, Except.map]
      cases hd : Op.decode bytes with
      | error fault =>
        rw [decodeAll_of_error hd]
        cases fault with
        | truncated => rfl
        | _ => rw [settled?_eq_error_iff.2 ⟨hd, by simp⟩] at hs; cases hs
      | ok r =>
        cases r with
        | none => rw [Op.decode_eq_ok_none_iff.1 hd, decodeAll_nil]; rfl
        | some r =>
          obtain ⟨op, rest⟩ := r
          obtain ⟨rfl, p, f, n, rfl⟩ := eq_of_decode_of_unsettled hs hd
          rw [decodeAll_of_ok hd, decodeAll_nil]; rfl

theorem length_brokenOff_le (reason : String) (items : List (Except Fault Op)) :
    (brokenOff reason items).length ≤ items.length + 1 := by
  fun_induction brokenOff reason items with
  | case1 => simp
  | case2 => simp
  | case3 => simp
  | case4 => simp
  | case5 op items _ ih => simpa using ih

theorem length_itemsOf_le (failure : Option String) (bytes : List UInt8) :
    (itemsOf failure bytes).length ≤ bytes.length + 2 := by
  have hall := length_decodeAll_le bytes
  cases failure with
  | none => simp only [itemsOf]; omega
  | some reason =>
    have hbroken := length_brokenOff_le reason (decodeAll bytes)
    simp only [itemsOf]
    omega

/-! ## Readers -/

namespace Reader

/-- The bytes that a reader has still to use. -/
def pending (r : Reader) : List UInt8 :=
  if r.atEnd then r.buffer else r.buffer ++ delivered r.source

/-- Why the source of a reader fails, if it does not come to its end. -/
def failure (r : Reader) : Option String :=
  if r.atEnd then none else failure? r.source

/-- What a step of a reader yields and leaves behind, given the first item of
    what the reader has still to use. -/
def Yields (failure : Option String) (step : Option (Except Fault Op) × Reader) :
    Except Fault (Option (Op × List UInt8)) → Prop
  | .ok none => step.1 = none
  | .ok (some (op, rest)) => step.1 = some (.ok op) ∧ step.2.done = false ∧
      step.2.pending = rest ∧ step.2.failure = failure
  | .error fault => step.1 = some (.error fault) ∧ step.2.done = true

/-- A buffer to which nothing will be added is used up as it is. -/
theorem finish_yields {r : Reader} (hdone : r.done = false) (hend : r.atEnd = true) :
    Yields none r.finish (Op.decode r.buffer) := by
  unfold finish
  cases hd : Op.decode r.buffer with
  | error fault => exact ⟨rfl, rfl⟩
  | ok d =>
    cases d with
    | none => rfl
    | some d => exact ⟨rfl, hdone, by simp [yield, pending, hend], by simp [yield, failure, hend]⟩

/-- Reading more of the source does not change what comes next. -/
theorem pull_yields (source : List Delivery) (buffer : List UInt8) (reads : Nat) :
    Yields (failure? source) (pull source buffer reads)
      (lookAhead (failure? source) (buffer ++ delivered source)) := by
  fun_induction pull source buffer reads with
  | case1 source buffer reads d hs =>
    rw [lookAhead_append hs]
    exact ⟨rfl, rfl, rfl, rfl⟩
  | case2 source buffer reads fault hs =>
    rw [lookAhead_append hs]
    exact ⟨rfl, rfl⟩
  | case3 buffer reads hs =>
    rw [delivered, List.append_nil]
    exact finish_yields rfl rfl
  | case4 buffer reads hs rest =>
    rw [delivered, List.append_nil]
    exact finish_yields rfl rfl
  | case5 buffer reads hs chunk rest hne ih =>
    rw [delivered_bytes hne, failure?_bytes hne, ← List.append_assoc]
    exact ih
  | case6 buffer reads hs rest ih => exact ih
  | case7 buffer reads hs reason rest =>
    rw [delivered, List.append_nil, failure?, lookAhead, hs]
    exact ⟨rfl, rfl⟩

/-- **One step of a reader** depends on the bytes that it has still to use and on
    what ends them, and on nothing else. -/
theorem next_yields {r : Reader} (hdone : r.done = false) :
    Yields r.failure r.next (lookAhead r.failure r.pending) := by
  unfold next
  rw [if_neg (by simp [hdone])]
  split
  · rename_i hend
    simp only [failure, pending, hend, if_true, lookAhead]
    exact finish_yields hdone hend
  · rename_i hend
    simp only [failure, pending, hend, if_false, Bool.false_eq_true]
    exact pull_yields _ _ _

theorem take_of_done (count : Nat) {r : Reader} (hdone : r.done = true) : (r.take count).1 = [] := by
  cases count with
  | zero => rfl
  | succ count => simp only [take, next, hdone, if_true]

theorem take_succ_of_some {count : Nat} {r : Reader} {item : Except Fault Op}
    (h : r.next.1 = some item) :
    (r.take (count + 1)).1.map (·.1) = item :: (r.next.2.take count).1.map (·.1) := by
  rw [take, show r.next = (some item, r.next.2) from Prod.ext h rfl]
  rfl

theorem take_succ_of_none {count : Nat} {r : Reader} (h : r.next.1 = none) :
    (r.take (count + 1)).1 = [] := by
  rw [take, show r.next = (none, r.next.2) from Prod.ext h rfl]

/-- **What a reader yields**, step by step. -/
theorem take_eq (count : Nat) {r : Reader} (hdone : r.done = false) :
    (r.take count).1.map (·.1) = (itemsOf r.failure r.pending).take count := by
  induction count generalizing r with
  | zero => rfl
  | succ count ih =>
    have hstep := next_yields hdone
    rw [itemsOf_eq]
    cases hl : lookAhead r.failure r.pending with
    | error fault =>
      rw [hl] at hstep
      obtain ⟨hitem, hdone'⟩ := hstep
      rw [take_succ_of_some hitem, take_of_done count hdone']
      simp
    | ok d =>
      cases d with
      | none =>
        rw [hl] at hstep
        rw [take_succ_of_none hstep]
        rfl
      | some d =>
        rw [hl] at hstep
        obtain ⟨hitem, hdone', hpending, hfailure⟩ := hstep
        rw [take_succ_of_some hitem, ih hdone', hpending, hfailure]
        rfl

end Reader

/-- **The way a source hands out its bytes does not matter.**  Whatever chunks they
    come in and however often the source is interrupted, a reader yields what the
    bytes decode to one operation after the other; and if the source fails, what
    they decode to without what more bytes could have changed, and then the failure. -/
theorem Reader.items_eq_itemsOf (source : List Delivery) :
    items { source } = itemsOf (failure? source) (delivered source) ∧
      ∀ count, (take count { source }).1.map (·.1) =
        (itemsOf (failure? source) (delivered source)).take count := by
  have htake : ∀ count, (take count { source }).1.map (·.1) =
      (itemsOf (failure? source) (delivered source)).take count :=
    fun count => take_eq count rfl
  refine ⟨?_, htake⟩
  have hitems := length_itemsOf_le (failure? source) (delivered source)
  have hsource := length_delivered_le source
  rw [items, drain, htake, List.take_of_length_le]
  simp only [bytesLeft, List.length_nil]
  omega

end DviMarkup.Dvi
