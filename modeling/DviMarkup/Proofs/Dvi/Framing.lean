/-
  Which bytes an operation is made of.

  An operation is read off the front of the bytes, and with one exception the
  bytes after it are not looked at: the padding at the end of a file goes on as
  long as its bytes do.

  * `Payload.Reads`: a reader takes certain bytes off the front for a value,
    whatever follows them;
  * `Payload.Framed`: it takes off some bytes in this way whenever it succeeds;
  * `Payload.Settles`: the same as soon as something is left after them;
  * `Opcode.framed_operands` and `Opcode.settles_operands`: operands are framed,
    and those with padding settle;
  * `settled?_append`: what is settled stays settled when more bytes come;
  * `Op.length_lt_of_decode`: an operation uses up at least one byte.
-/
import DviMarkup.Dvi.Reader

namespace DviMarkup.Dvi

variable {α β : Type}

/-! ## Readers of operands -/

namespace Payload

theorem bind_apply (p : Payload α) (f : α → Payload β) (bytes : List UInt8) :
    (p >>= f) bytes = (p bytes).bind fun r => f r.1 r.2 := rfl

theorem map_apply (f : α → β) (p : Payload α) (bytes : List UInt8) :
    (f <$> p) bytes = (p bytes).map fun r => (f r.1, r.2) := by
  change (p bytes >>= _) = _
  cases p bytes <;> rfl

/-- The reader takes the bytes in front off for the value, whatever follows them. -/
def Reads (p : Payload α) (front : List UInt8) (x : α) : Prop :=
  ∀ more, p (front ++ more) = some (x, more)

theorem reads_pure (x : α) : Reads (pure x) [] x := fun _ => rfl

theorem Reads.bind {p : Payload α} {f : α → Payload β} {u v : List UInt8} {x : α} {y : β}
    (hp : Reads p u x) (hf : Reads (f x) v y) : Reads (p >>= f) (u ++ v) y := by
  intro more
  rw [bind_apply, List.append_assoc, hp]
  exact hf more

/-- The last operand. -/
theorem Reads.bind_pure {p : Payload α} {f : α → β} {u : List UInt8} {x : α} (hp : Reads p u x) :
    Reads (p >>= fun x => pure (f x)) u (f x) := by
  have h := hp.bind (f := fun x => pure (f x)) (reads_pure (f x))
  rwa [List.append_nil] at h

theorem Reads.map {p : Payload α} {u : List UInt8} {x : α} (f : α → β) (hp : Reads p u x) :
    Reads (f <$> p) u (f x) := by
  intro more
  rw [map_apply, hp]
  rfl

theorem reads_take {count : Nat} {u : List UInt8} (h : u.length = count) : Reads (take count) u u := by
  intro more
  unfold take
  rw [if_pos (by simp only [List.length_append, h]; omega), List.take_left' h, List.drop_left' h]

/-- What is read depends on the bytes that are taken off, and on no others. -/
def Framed (p : Payload α) : Prop :=
  ∀ ⦃bytes x rest⦄, p bytes = some (x, rest) → ∃ front, bytes = front ++ rest ∧ Reads p front x

/-- What is read depends on the bytes that are taken off and on there being a
    byte after them. -/
def Settles (p : Payload α) : Prop :=
  ∀ ⦃bytes x rest⦄, p bytes = some (x, rest) →
    ∃ front, bytes = front ++ rest ∧ (rest ≠ [] → ∀ more, p (bytes ++ more) = some (x, rest ++ more))

theorem Framed.settles {p : Payload α} (h : Framed p) : Settles p := by
  intro bytes x rest hp
  obtain ⟨front, rfl, hfront⟩ := h hp
  exact ⟨front, rfl, fun _ more => by rw [List.append_assoc]; exact hfront _⟩

theorem framed_pure (x : α) : Framed (pure x) := by
  intro bytes y rest h
  obtain ⟨rfl, rfl⟩ : x = y ∧ bytes = rest := Prod.mk.inj (Option.some.inj h)
  exact ⟨[], rfl, reads_pure x⟩

theorem framed_take (count : Nat) : Framed (take count) := by
  intro bytes x rest h
  unfold take at h
  split at h
  · rename_i hle
    obtain ⟨rfl, rfl⟩ : bytes.take count = x ∧ bytes.drop count = rest := by simpa using h
    exact ⟨bytes.take count, (List.take_append_drop _ _).symm, reads_take (List.length_take_of_le hle)⟩
  · cases h

theorem Framed.bind {p : Payload α} {f : α → Payload β} (hp : Framed p) (hf : ∀ x, Framed (f x)) :
    Framed (p >>= f) := by
  intro bytes y rest h
  rw [bind_apply, Option.bind_eq_some_iff] at h
  obtain ⟨⟨x, middle⟩, hx, hy⟩ := h
  obtain ⟨u, rfl, hu⟩ := hp hx
  obtain ⟨v, rfl, hv⟩ := hf x hy
  exact ⟨u ++ v, (List.append_assoc _ _ _).symm, hu.bind hv⟩

theorem Framed.map {p : Payload α} (f : α → β) (hp : Framed p) : Framed (f <$> p) := by
  intro bytes y rest h
  rw [map_apply, Option.map_eq_some_iff] at h
  obtain ⟨⟨x, rest'⟩, hx, heq⟩ := h
  obtain ⟨rfl, rfl⟩ := Prod.mk.inj heq
  obtain ⟨u, rfl, hu⟩ := hp hx
  exact ⟨u, rfl, hu.map f⟩

/-- Operands in front of one that settles. -/
theorem Framed.bind_settles {p : Payload α} {f : α → Payload β} (hp : Framed p)
    (hf : ∀ x, Settles (f x)) : Settles (p >>= f) := by
  intro bytes y rest h
  rw [bind_apply, Option.bind_eq_some_iff] at h
  obtain ⟨⟨x, middle⟩, hx, hy⟩ := h
  obtain ⟨u, rfl, hu⟩ := hp hx
  obtain ⟨v, rfl, hv⟩ := hf x hy
  refine ⟨u ++ v, (List.append_assoc _ _ _).symm, fun hne more => ?_⟩
  rw [bind_apply, List.append_assoc, hu]
  exact hv hne more

theorem Settles.map {p : Payload α} (f : α → β) (hp : Settles p) : Settles (f <$> p) := by
  intro bytes y rest h
  rw [map_apply, Option.map_eq_some_iff] at h
  obtain ⟨⟨x, rest'⟩, hx, heq⟩ := h
  obtain ⟨rfl, rfl⟩ := Prod.mk.inj heq
  obtain ⟨u, rfl, hu⟩ := hp hx
  exact ⟨u, rfl, fun hne more => by rw [map_apply, hu hne]; rfl⟩

theorem framed_unsigned (count : Nat) : Framed (unsigned count) := (framed_take count).map _

theorem framed_signed (count : Nat) : Framed (signed count) := (framed_take count).map _

theorem framed_u8 : Framed u8 := (framed_unsigned 1).map _

theorem framed_u16 : Framed u16 := (framed_unsigned 2).map _

theorem framed_u32 : Framed u32 := (framed_unsigned 4).map _

theorem framed_i32 : Framed i32 := (framed_signed 4).map _

theorem framed_word (w : Width) : Framed (word w) := (framed_unsigned w.bytes).map _

theorem framed_distance (w : Width) : Framed (distance w) := (framed_signed w.bytes).map _

theorem framed_text (count : Nat) : Framed (text count) := (framed_take count).map _

theorem framed_words : ∀ count, Framed (words count)
  | 0 => framed_pure _
  | count + 1 => (framed_words count).bind fun _ => framed_i32.bind fun _ => framed_pure _

theorem padding_apply (bytes : List UInt8) :
    padding bytes = some ((bytes.takeWhile (· == 223)).length, bytes.dropWhile (· == 223)) := by
  have h : (bytes.takeWhile (· == 223) ++ bytes.dropWhile (· == 223)).drop
      (bytes.takeWhile (· == 223)).length = bytes.dropWhile (· == 223) := List.drop_left
  rw [List.takeWhile_append_dropWhile] at h
  simp only [padding, h]

theorem settles_padding : Settles padding := by
  intro bytes n rest h
  rw [padding_apply] at h
  obtain ⟨rfl, rfl⟩ : (bytes.takeWhile (· == 223)).length = n ∧ bytes.dropWhile (· == 223) = rest := by
    simpa using h
  refine ⟨bytes.takeWhile (· == 223), List.takeWhile_append_dropWhile.symm, fun hne more => ?_⟩
  have hlen : (bytes.takeWhile (· == 223)).length ≠ bytes.length := fun hlen => by
    have := congrArg List.length (List.takeWhile_append_dropWhile (p := (· == 223)) (l := bytes))
    rw [List.length_append] at this
    exact hne (List.length_eq_zero_iff.1 (by omega))
  rw [padding_apply, List.takeWhile_append, if_neg hlen, List.dropWhile_append, if_neg (by simpa using hne)]

end Payload

/-! ## Operands -/

open Payload in
/-- The operands of every operation but the last of a file are framed. -/
theorem Opcode.framed_operands : ∀ {o : Opcode}, o ≠ .endPostamble → Framed o.operands
  | setShort _, _ | noOp, _ | endPage, _ | push, _ | pop, _ | moveBy _, _ | fontShort _, _ => framed_pure _
  | set w, _ | put w, _ | font w, _ => (framed_word w).bind fun _ => framed_pure _
  | right w, _ | setMoveBy _ w, _ | down w, _ => (framed_distance w).bind fun _ => framed_pure _
  | setRule, _ | putRule, _ => framed_i32.bind fun _ => framed_i32.bind fun _ => framed_pure _
  | beginPage, _ => (framed_words 10).bind fun _ => framed_i32.bind fun _ => framed_pure _
  | special w, _ => (framed_unsigned w.bytes).bind fun n => (framed_take n).bind fun _ => framed_pure _
  | defineFont w, _ =>
    (framed_word w).bind fun _ => framed_u32.bind fun _ => framed_u32.bind fun _ =>
      framed_u32.bind fun _ => (framed_unsigned 1).bind fun m => (framed_unsigned 1).bind fun n =>
      (framed_text m).bind fun _ => (framed_text n).bind fun _ => framed_pure _
  | preamble, _ =>
    framed_u8.bind fun _ => framed_u32.bind fun _ => framed_u32.bind fun _ =>
      framed_u32.bind fun _ => (framed_unsigned 1).bind fun n => (framed_text n).bind fun _ =>
      framed_pure _
  | beginPostamble, _ =>
    framed_i32.bind fun _ => framed_u32.bind fun _ => framed_u32.bind fun _ =>
      framed_u32.bind fun _ => framed_u32.bind fun _ => framed_u32.bind fun _ =>
      framed_u16.bind fun _ => framed_u16.bind fun _ => framed_pure _
  | endPostamble, h => absurd rfl h

open Payload in
/-- The operands with the padding settle. -/
theorem Opcode.settles_endPostamble : Settles endPostamble.operands :=
  framed_i32.bind_settles fun _ => framed_u8.bind_settles fun _ => settles_padding.map _

theorem Opcode.settles_operands (o : Opcode) : Payload.Settles o.operands := by
  by_cases h : o = .endPostamble
  · subst h; exact settles_endPostamble
  · exact (framed_operands h).settles

/-- Padding is read for the last operation of a file only. -/
theorem Opcode.eq_endPostamble_of_operands {bytes rest : List UInt8} {op : Op}
    (h : endPostamble.operands bytes = some (op, rest)) : ∃ p f n, op = .endPostamble p f n := by
  simp only [operands, Payload.bind_apply, Option.bind_eq_some_iff] at h
  obtain ⟨⟨p, _⟩, -, ⟨f, _⟩, -, ⟨n, _⟩, -, h⟩ := h
  obtain ⟨rfl, -⟩ := Prod.mk.inj (Option.some.inj h)
  exact ⟨p, f, n, rfl⟩

/-! ## Operations -/

theorem Op.decode_cons {code : UInt8} {o : Opcode} (h : Opcode.ofNat? code.toNat = some o)
    (bytes : List UInt8) :
    decode (code :: bytes) = match o.operands bytes with
      | none => .error (.truncated code)
      | some decoded => .ok (some decoded) := by
  cases hoperands : o.operands bytes with
  | none => simp only [decode, h, hoperands]
  | some decoded => simp only [decode, h, hoperands]

theorem Op.decode_cons_invalid {code : UInt8} (h : Opcode.ofNat? code.toNat = none)
    (bytes : List UInt8) : decode (code :: bytes) = .error (.invalidCode code) := by
  simp only [decode, h]

/-- An invalid code is the first byte. -/
theorem Op.eq_cons_of_decode_invalid {bytes : List UInt8} {code : UInt8}
    (hd : decode bytes = .error (.invalidCode code)) :
    ∃ operands, bytes = code :: operands ∧ Opcode.ofNat? code.toNat = none := by
  cases bytes with
  | nil => cases hd
  | cons b operands =>
    cases ho : Opcode.ofNat? b.toNat with
    | none =>
      rw [decode_cons_invalid ho] at hd
      cases hd
      exact ⟨operands, rfl, ho⟩
    | some o =>
      rw [decode_cons ho] at hd
      cases hr : o.operands operands <;> rw [hr] at hd <;> cases hd

/-- What is read of an operation is its code and its operands. -/
theorem Op.decode_eq_ok_iff {bytes rest : List UInt8} {op : Op} :
    decode bytes = .ok (some (op, rest)) ↔
      ∃ code operands o, bytes = code :: operands ∧ Opcode.ofNat? code.toNat = some o ∧
        o.operands operands = some (op, rest) := by
  constructor
  · intro h
    cases bytes with
    | nil => cases h
    | cons code operands =>
      cases ho : Opcode.ofNat? code.toNat with
      | none => rw [decode_cons_invalid ho] at h; cases h
      | some o =>
        rw [decode_cons ho] at h
        cases hr : o.operands operands with
        | none => rw [hr] at h; cases h
        | some r =>
          rw [hr] at h
          obtain rfl : r = (op, rest) := Option.some.inj (Except.ok.inj h)
          exact ⟨code, operands, o, rfl, ho, hr⟩
  · rintro ⟨code, operands, o, rfl, ho, hr⟩
    rw [decode_cons ho, hr]

/-- An operation is read off the front. -/
theorem Op.exists_append_of_decode {bytes rest : List UInt8} {op : Op}
    (h : decode bytes = .ok (some (op, rest))) : ∃ front, front ≠ [] ∧ bytes = front ++ rest := by
  obtain ⟨code, operands, o, rfl, -, hr⟩ := decode_eq_ok_iff.1 h
  obtain ⟨front, rfl, -⟩ := o.settles_operands hr
  exact ⟨code :: front, by simp, rfl⟩

theorem Op.length_lt_of_decode {bytes rest : List UInt8} {op : Op}
    (h : decode bytes = .ok (some (op, rest))) : rest.length < bytes.length := by
  obtain ⟨front, hne, rfl⟩ := exists_append_of_decode h
  have := List.length_pos_iff.2 hne
  simp only [List.length_append]
  omega

/-! ## Settled operations -/

/-- A settled operation is the one that is read, and its padding does not end
    where the bytes end. -/
theorem settled?_eq_ok_iff {bytes rest : List UInt8} {op : Op} :
    settled? bytes = some (.ok (op, rest)) ↔
      Op.decode bytes = .ok (some (op, rest)) ∧ (rest = [] → ∀ p f n, op ≠ .endPostamble p f n) := by
  unfold settled?
  constructor
  · intro h
    split at h
    · cases h
    · cases h
    · rename_i hne hd
      obtain rfl := Except.ok.inj (Option.some.inj h)
      refine ⟨hd, ?_⟩
      rintro rfl p f n rfl
      exact hne p f n rfl
    · cases h
    · cases h
  · rintro ⟨hd, hne⟩
    rw [hd]
    split
    · rename_i h; cases h
    · rename_i h; cases h; exact absurd rfl (hne rfl _ _ _)
    · rename_i h; cases h; rfl
    · rename_i h; cases h
    · rename_i h; cases h

theorem settled?_eq_error_iff {bytes : List UInt8} {fault : Fault} :
    settled? bytes = some (.error fault) ↔
      Op.decode bytes = .error fault ∧ ∀ code, fault ≠ .truncated code := by
  unfold settled?
  constructor
  · intro h
    split at h <;> cases h
    rename_i hne hd
    exact ⟨hd, hne⟩
  · rintro ⟨hd, hne⟩
    rw [hd]
    split
    · rename_i h; cases h
    · rename_i h; cases h
    · rename_i h; cases h
    · rename_i h; cases h; exact absurd rfl (hne _)
    · rename_i h; cases h; rfl

/-- Only padding up to the end of the bytes is read and not settled. -/
theorem eq_of_decode_of_unsettled {bytes rest : List UInt8} {op : Op} (hs : settled? bytes = none)
    (hd : Op.decode bytes = .ok (some (op, rest))) : rest = [] ∧ ∃ p f n, op = .endPostamble p f n := by
  by_cases hpad : rest = [] ∧ ∃ p f n, op = .endPostamble p f n
  · exact hpad
  · rw [settled?_eq_ok_iff.2 ⟨hd, fun hr p f n ho => hpad ⟨hr, p, f, n, ho⟩⟩] at hs
    cases hs

theorem decode_of_settled? {bytes : List UInt8} {d : Except Fault (Op × List UInt8)}
    (h : settled? bytes = some d) : Op.decode bytes = d.map some := by
  cases d with
  | ok r => exact (settled?_eq_ok_iff.1 h).1
  | error fault => exact (settled?_eq_error_iff.1 h).1

/-- **What is settled stays settled**: more bytes only come after what follows
    the operation. -/
theorem settled?_append {bytes : List UInt8} {d : Except Fault (Op × List UInt8)}
    (h : settled? bytes = some d) (more : List UInt8) :
    settled? (bytes ++ more) = some (d.map fun r => (r.1, r.2 ++ more)) := by
  cases d with
  | ok r =>
    obtain ⟨op, rest⟩ := r
    obtain ⟨hd, hne⟩ := settled?_eq_ok_iff.1 h
    obtain ⟨code, operands, o, rfl, ho, hr⟩ := Op.decode_eq_ok_iff.1 hd
    refine settled?_eq_ok_iff.2 ⟨Op.decode_eq_ok_iff.2 ⟨code, operands ++ more, o, rfl, ho, ?_⟩, ?_⟩
    · by_cases he : o = .endPostamble
      · subst he
        obtain ⟨p, f, n, rfl⟩ := Opcode.eq_endPostamble_of_operands hr
        obtain ⟨-, -, hmore⟩ := Opcode.settles_endPostamble hr
        exact hmore (fun hnil => hne hnil p f n rfl) more
      · obtain ⟨front, rfl, hmore⟩ := Opcode.framed_operands he hr
        rw [List.append_assoc]
        exact hmore _
    · intro hnil
      exact hne (List.append_eq_nil_iff.1 hnil).1
  | error fault =>
    obtain ⟨hd, hne⟩ := settled?_eq_error_iff.1 h
    refine settled?_eq_error_iff.2 ⟨?_, hne⟩
    cases bytes with
    | nil => cases hd
    | cons code operands =>
      cases ho : Opcode.ofNat? code.toNat with
      | none =>
        rw [Op.decode_cons_invalid ho] at hd
        rw [List.cons_append, Op.decode_cons_invalid ho, ← hd]
      | some o =>
        rw [Op.decode_cons ho] at hd
        cases hr : o.operands operands <;> rw [hr] at hd
        · exact absurd (Except.error.inj hd).symm (hne code)
        · cases hd

/-! ## Operations one after the other -/

/-- The operations that bytes hold, one after the other, and the fault that ends
    them, if they do not end with the bytes. -/
def decodeAll (bytes : List UInt8) : List (Except Fault Op) :=
  match h : Op.decode bytes with
  | .ok none => []
  | .ok (some (op, rest)) =>
    have := Op.length_lt_of_decode h
    .ok op :: decodeAll rest
  | .error fault => [.error fault]
termination_by bytes.length

theorem decodeAll_nil : decodeAll [] = [] := by
  rw [decodeAll]; rfl

theorem decodeAll_of_ok {bytes rest : List UInt8} {op : Op}
    (h : Op.decode bytes = .ok (some (op, rest))) : decodeAll bytes = .ok op :: decodeAll rest := by
  rw [decodeAll]
  split
  · rename_i h'; rw [h] at h'; cases h'
  · rename_i h'; rw [h] at h'; cases h'; rfl
  · rename_i h'; rw [h] at h'; cases h'

theorem decodeAll_of_error {bytes : List UInt8} {fault : Fault}
    (h : Op.decode bytes = .error fault) : decodeAll bytes = [.error fault] := by
  rw [decodeAll]
  split
  · rename_i h'; rw [h] at h'; cases h'
  · rename_i h'; rw [h] at h'; cases h'
  · rename_i h'; rw [h] at h'; cases h'; rfl

theorem Op.decode_eq_ok_none_iff {bytes : List UInt8} : decode bytes = .ok none ↔ bytes = [] := by
  constructor
  · intro h
    cases bytes with
    | nil => rfl
    | cons code operands =>
      cases ho : Opcode.ofNat? code.toNat with
      | none => rw [decode_cons_invalid ho] at h; cases h
      | some o =>
        rw [decode_cons ho] at h
        cases hr : o.operands operands <;> rw [hr] at h <;> cases h
  · rintro rfl; rfl

theorem decodeAll_eq_nil_iff {bytes : List UInt8} : decodeAll bytes = [] ↔ bytes = [] := by
  constructor
  · intro h
    cases hd : Op.decode bytes with
    | error fault => rw [decodeAll_of_error hd] at h; cases h
    | ok r =>
      cases r with
      | none => exact Op.decode_eq_ok_none_iff.1 hd
      | some r => rw [decodeAll_of_ok hd] at h; cases h
  · rintro rfl; exact decodeAll_nil

/-- Every operation uses up a byte, and one fault may follow. -/
theorem length_decodeAll_le (bytes : List UInt8) : (decodeAll bytes).length ≤ bytes.length + 1 := by
  induction bytes using decodeAll.induct with
  | case1 bytes h => rw [Op.decode_eq_ok_none_iff.1 h, decodeAll_nil]; simp
  | case2 bytes op rest h hlt ih => rw [decodeAll_of_ok h, List.length_cons]; omega
  | case3 bytes fault h => rw [decodeAll_of_error h]; simp

end DviMarkup.Dvi
