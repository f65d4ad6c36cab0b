/-
  What an operation is does not change when more bytes come.

  What was read stays as it is, but for padding that goes on; an invalid code stays
  one; and data that end within an operation are the beginning of one.  So a reader
  that has only part of a file answers neither too early nor too late.

  * `Payload.Completable`: if the bytes run out for a reader of operands, further ones
    complete them to something that it reads to the end;
  * `Opcode.completable_operands`: the operands of every code can be completed;
  * `Op.decode_append` and `Op.decode_append_padding`: operations and more bytes;
  * `Op.decode_stable`: all of this for the three answers that there are.
-/
import DviMarkup.Proofs.Dvi.Framing
import Mathlib.Data.List.TakeWhile

namespace DviMarkup.Dvi

variable {α β : Type}

/-! ## Data that end too early -/

namespace Payload

theorem pure_apply (x : α) (bytes : List UInt8) : (pure x : Payload α) bytes = some (x, bytes) := rfl

/-- Bytes are read up to some place, or others after them complete them. -/
def Completable (p : Payload α) : Prop :=
  ∀ bytes, (∃ x rest, p bytes = some (x, rest) ∧ rest <:+ bytes) ∨
    ∃ more x, p (bytes ++ more) = some (x, [])

theorem Completable.exists_of_eq_none {p : Payload α} (h : Completable p) {bytes : List UInt8}
    (hnone : p bytes = none) : ∃ more x, p (bytes ++ more) = some (x, []) := by
  rcases h bytes with ⟨x, rest, hsome, -⟩ | hmore
  · rw [hnone] at hsome; cases hsome
  · exact hmore

theorem completable_pure (x : α) : Completable (pure x) :=
  fun bytes => .inl ⟨x, bytes, rfl, List.suffix_refl _⟩

theorem completable_take (count : Nat) : Completable (take count) := by
  intro bytes
  by_cases h : count ≤ bytes.length
  · exact .inl ⟨bytes.take count, bytes.drop count, if_pos h, List.drop_suffix _ _⟩
  · refine .inr ⟨List.replicate (count - bytes.length) 0, bytes ++ List.replicate (count - bytes.length) 0, ?_⟩
    have hlen : (bytes ++ List.replicate (count - bytes.length) (0 : UInt8)).length = count := by
      simp only [List.length_append, List.length_replicate]
      omega
    have hread := reads_take hlen []
    rwa [List.append_nil] at hread

/-- If the bytes run out in the first of two operands, the second is completed too. -/
theorem Completable.bind {p : Payload α} {f : α → Payload β} (hp : Completable p) (hframed : Framed p)
    (hf : ∀ x, Completable (f x)) : Completable (p >>= f) := by
  intro bytes
  rcases hp bytes with ⟨x, middle, hx, hsuffix⟩ | ⟨more, x, hx⟩
  · rcases hf x middle with ⟨y, rest, hy, hrest⟩ | ⟨more, y, hy⟩
    · exact .inl ⟨y, rest, by rw [bind_apply, hx]; exact hy, hrest.trans hsuffix⟩
    · obtain ⟨front, rfl, hread⟩ := hframed hx
      refine .inr ⟨more, y, ?_⟩
      rw [bind_apply, List.append_assoc, hread]
      exact hy
  · -- nothing is left for the second operand, which is then completed on its own
    rcases hf x [] with ⟨y, rest, hy, hrest⟩ | ⟨more', y, hy⟩
    · obtain rfl := List.suffix_nil.1 hrest
      exact .inr ⟨more, y, by rw [bind_apply, hx]; exact hy⟩
    · obtain ⟨front, hfront, hread⟩ := hframed hx
      rw [List.append_nil] at hfront
      refine .inr ⟨more ++ more', y, ?_⟩
      rw [bind_apply, ← List.append_assoc, hfront, hread]
      exact hy

theorem Completable.map {p : Payload α} (f : α → β) (hp : Completable p) : Completable (f <$> p) := by
  intro bytes
  rcases hp bytes with ⟨x, rest, hx, hrest⟩ | ⟨more, x, hx⟩
  · exact .inl ⟨f x, rest, by rw [map_apply, hx]; rfl, hrest⟩
  · exact .inr ⟨more, f x, by rw [map_apply, hx]; rfl⟩

theorem completable_unsigned (count : Nat) : Completable (unsigned count) := (completable_take count).map _

theorem completable_signed (count : Nat) : Completable (signed count) := (completable_take count).map _

theorem completable_u8 : Completable u8 := (completable_unsigned 1).map _

theorem completable_u16 : Completable u16 := (completable_unsigned 2).map _

theorem completable_u32 : Completable u32 := (completable_unsigned 4).map _

theorem completable_i32 : Completable i32 := (completable_signed 4).map _

theorem completable_word (w : Width) : Completable (word w) := (completable_unsigned w.bytes).map _

theorem completable_distance (w : Width) : Completable (distance w) := (completable_signed w.bytes).map _

theorem completable_text (count : Nat) : Completable (text count) := (completable_take count).map _

theorem completable_words : ∀ count, Completable (words count)
  | 0 => completable_pure _
  | count + 1 => (completable_words count).bind (framed_words count) fun _ =>
      completable_i32.bind framed_i32 fun _ => completable_pure _

/-- Padding may have no bytes at all. -/
theorem completable_padding : Completable padding :=
  fun bytes => .inl ⟨_, _, padding_apply bytes, List.dropWhile_suffix _⟩

end Payload

open Payload in
theorem Opcode.completable_operands : ∀ o : Opcode, Completable o.operands
  | setShort _ | noOp | endPage | push | pop | moveBy _ | fontShort _ => completable_pure _
  | set w | put w | font w => (completable_word w).bind (framed_word w) fun _ => completable_pure _
  | right w | setMoveBy _ w | down w =>
    (completable_distance w).bind (framed_distance w) fun _ => completable_pure _
  | setRule | putRule =>
    completable_i32.bind framed_i32 fun _ => completable_i32.bind framed_i32 fun _ => completable_pure _
  | beginPage =>
    (completable_words 10).bind (framed_words 10) fun _ =>
      completable_i32.bind framed_i32 fun _ => completable_pure _
  | special w =>
    (completable_unsigned w.bytes).bind (framed_unsigned w.bytes) fun n =>
      (completable_take n).bind (framed_take n) fun _ => completable_pure _
  | defineFont w =>
    (completable_word w).bind (framed_word w) fun _ => completable_u32.bind framed_u32 fun _ =>
      completable_u32.bind framed_u32 fun _ => completable_u32.bind framed_u32 fun _ =>
      (completable_unsigned 1).bind (framed_unsigned 1) fun m =>
      (completable_unsigned 1).bind (framed_unsigned 1) fun n =>
      (completable_text m).bind (framed_text m) fun _ =>
      (completable_text n).bind (framed_text n) fun _ => completable_pure _
  | preamble =>
    completable_u8.bind framed_u8 fun _ => completable_u32.bind framed_u32 fun _ =>
      completable_u32.bind framed_u32 fun _ => completable_u32.bind framed_u32 fun _ =>
      (completable_unsigned 1).bind (framed_unsigned 1) fun n =>
      (completable_text n).bind (framed_text n) fun _ => completable_pure _
  | beginPostamble =>
    completable_i32.bind framed_i32 fun _ => completable_u32.bind framed_u32 fun _ =>
      completable_u32.bind framed_u32 fun _ => completable_u32.bind framed_u32 fun _ =>
      completable_u32.bind framed_u32 fun _ => completable_u32.bind framed_u32 fun _ =>
      completable_u16.bind framed_u16 fun _ => completable_u16.bind framed_u16 fun _ => completable_pure _
  | endPostamble =>
    completable_i32.bind framed_i32 fun _ => completable_u8.bind framed_u8 fun _ => completable_padding.map _

/-! ## More bytes after an operation -/

/-- Padding up to the end of the data goes on with the padding that comes. -/
theorem Payload.padding_append {bytes : List UInt8} {n : Nat} (h : padding bytes = some (n, []))
    (more : List UInt8) :
    padding (bytes ++ more) =
      some (n + (more.takeWhile (· == 223)).length, more.dropWhile (· == 223)) := by
  rw [padding_apply] at h
  obtain ⟨hcount, hend⟩ := Prod.mk.inj (Option.some.inj h)
  have hall := List.dropWhile_eq_nil_iff.1 hend
  rw [List.takeWhile_eq_self_iff.2 hall] at hcount
  rw [padding_apply, List.takeWhile_append_of_pos hall, List.dropWhile_append_of_pos hall,
    List.length_append, hcount]

open Payload in
theorem Opcode.operands_endPostamble_append {bytes : List UInt8} {p : Int32} {f : UInt8} {n : Nat}
    (h : endPostamble.operands bytes = some (.endPostamble p f n, [])) (more : List UInt8) :
    endPostamble.operands (bytes ++ more) =
      some (.endPostamble p f (n + (more.takeWhile (· == 223)).length), more.dropWhile (· == 223)) := by
  simp only [operands, bind_apply, Option.bind_eq_some_iff] at h
  obtain ⟨⟨p', afterPlace⟩, hp, ⟨f', afterFormat⟩, hf, ⟨n', rest⟩, hn, h⟩ := h
  cases h
  obtain ⟨place, rfl, hplace⟩ := framed_i32 hp
  obtain ⟨format, rfl, hformat⟩ := framed_u8 hf
  simp only [operands, bind_apply, List.append_assoc, hplace _, hformat _, Option.bind_some,
    padding_append hn]
  rfl

/-- Only one code has operands with padding. -/
theorem Opcode.eq_endPostamble_of_padded {o : Opcode} {bytes rest : List UInt8} {p : Int32} {f : UInt8}
    {n : Nat} (h : o.operands bytes = some (.endPostamble p f n, rest)) : o = .endPostamble := by
  cases o with
  | endPostamble => rfl
  | _ =>
    simp only [operands, Payload.bind_apply, Option.bind_eq_some_iff] at h
    simp [Payload.pure_apply] at h

namespace Op

/-- More bytes only come after what follows the operation, unless they come right
    after padding. -/
theorem decode_append {bytes rest : List UInt8} {op : Op} (h : decode bytes = .ok (some (op, rest)))
    (hend : rest = [] → ∀ p f n, op ≠ .endPostamble p f n) (more : List UInt8) :
    decode (bytes ++ more) = .ok (some (op, rest ++ more)) :=
  decode_of_settled? (settled?_append (settled?_eq_ok_iff.2 ⟨h, hend⟩) more)

/-- Padding goes on as long as its bytes do. -/
theorem decode_append_padding {bytes : List UInt8} {p : Int32} {f : UInt8} {n : Nat}
    (h : decode bytes = .ok (some (.endPostamble p f n, []))) (more : List UInt8) :
    decode (bytes ++ more) =
      .ok (some (.endPostamble p f (n + (more.takeWhile (· == 223)).length),
        more.dropWhile (· == 223))) := by
  obtain ⟨code, operands, o, rfl, ho, hr⟩ := decode_eq_ok_iff.1 h
  obtain rfl := Opcode.eq_endPostamble_of_padded hr
  exact decode_eq_ok_iff.2
    ⟨code, operands ++ more, .endPostamble, rfl, ho, Opcode.operands_endPostamble_append hr more⟩

/-- Whatever was read, something is read when more bytes come. -/
theorem exists_decode_append {bytes rest : List UInt8} {op : Op}
    (h : decode bytes = .ok (some (op, rest))) (more : List UInt8) :
    ∃ op' rest', decode (bytes ++ more) = .ok (some (op', rest')) := by
  by_cases hpad : rest = [] ∧ ∃ p f n, op = .endPostamble p f n
  · obtain ⟨rfl, p, f, n, rfl⟩ := hpad
    exact ⟨_, _, decode_append_padding h more⟩
  · exact ⟨_, _, decode_append h (fun hrest p f n hop => hpad ⟨hrest, p, f, n, hop⟩) more⟩

theorem decode_append_invalid {bytes : List UInt8} {code : UInt8}
    (h : decode bytes = .error (.invalidCode code)) (more : List UInt8) :
    decode (bytes ++ more) = .error (.invalidCode code) :=
  decode_of_settled? (settled?_append (settled?_eq_error_iff.2 ⟨h, by simp⟩) more)

/-! ## Data that end within an operation -/

/-- The data end within the operands of the code they begin with. -/
theorem decode_eq_truncated_iff {bytes : List UInt8} {code : UInt8} :
    decode bytes = .error (.truncated code) ↔
      ∃ operands o, bytes = code :: operands ∧ Opcode.ofNat? code.toNat = some o ∧
        o.operands operands = none := by
  constructor
  · intro h
    cases bytes with
    | nil => cases h
    | cons first operands =>
      cases ho : Opcode.ofNat? first.toNat with
      | none => rw [decode_cons_invalid ho] at h; cases h
      | some o =>
        rw [decode_cons ho] at h
        cases hr : o.operands operands with
        | none =>
          rw [hr] at h
          cases h
          exact ⟨operands, o, rfl, ho, hr⟩
        | some r => rw [hr] at h; cases h
  · rintro ⟨operands, o, rfl, ho, hr⟩
    rw [decode_cons ho, hr]

/-- Such data are the beginning of an operation. -/
theorem exists_completion_of_truncated {bytes : List UInt8} {code : UInt8}
    (h : decode bytes = .error (.truncated code)) :
    ∃ more op, decode (bytes ++ more) = .ok (some (op, [])) := by
  obtain ⟨operands, o, rfl, ho, hr⟩ := decode_eq_truncated_iff.1 h
  obtain ⟨more, op, hmore⟩ := o.completable_operands.exists_of_eq_none hr
  exact ⟨more, op, decode_eq_ok_iff.2 ⟨code, operands ++ more, o, rfl, ho, hmore⟩⟩

/-- **What is read does not change when more bytes come.**  An operation stays what it
    is, and what follows it gets longer, but padding up to the end of the data goes on;
    an invalid code stays one; and data that end within an operation begin with its
    code, have no operation at their front and can be completed to one. -/
theorem decode_stable (bytes : List UInt8) :
    (∀ op rest, decode bytes = .ok (some (op, rest)) →
      (∃ front, front ≠ [] ∧ bytes = front ++ rest) ∧
      ((rest = [] → ∀ p f n, op ≠ .endPostamble p f n) → ∀ more,
        decode (bytes ++ more) = .ok (some (op, rest ++ more))) ∧
      ∀ p f n, op = .endPostamble p f n → rest = [] → ∀ more,
        decode (bytes ++ more) =
          .ok (some (.endPostamble p f (n + (more.takeWhile (· == 223)).length),
            more.dropWhile (· == 223)))) ∧
    (∀ code, decode bytes = .error (.invalidCode code) → ∀ more,
      decode (bytes ++ more) = .error (.invalidCode code)) ∧
    ∀ code, decode bytes = .error (.truncated code) →
      bytes.head? = some code ∧
      (∀ front more, front ≠ [] → more ≠ [] → bytes = front ++ more →
        ∀ op rest, decode front ≠ .ok (some (op, rest))) ∧
      ∃ more op, decode (bytes ++ more) = .ok (some (op, [])) := by
  refine ⟨fun op rest h => ⟨exists_append_of_decode h, decode_append h, ?_⟩,
    fun code h => decode_append_invalid h, fun code h => ⟨?_, ?_, exists_completion_of_truncated h⟩⟩
  · rintro p f n rfl rfl more
    exact decode_append_padding h more
  · obtain ⟨operands, o, rfl, -, -⟩ := decode_eq_truncated_iff.1 h
    rfl
  · rintro front more - - rfl op rest hfront
    obtain ⟨op', rest', hread⟩ := exists_decode_append hfront more
    rw [h] at hread
    cases hread

/-- A font with a byte after it; the end of a file whose padding goes on; a code that
    is not in use; and a special that has two of its five bytes. -/
theorem decode_stable_readings :
    decode ([235, 7, 138] ++ [139]) = .ok (some (.enableFont 7, [138] ++ [139])) ∧
    decode ([249, 0, 0, 0, 9, 2, 223] ++ [223, 223, 140]) = .ok (some (.endPostamble 9 2 3, [140])) ∧
    decode ([250] ++ [1]) = .error (.invalidCode 250) ∧
    ∃ more op, decode ([239, 3] ++ more) = .ok (some (op, [])) := by
  have hfont : decode [235, 7, 138] = .ok (some (.enableFont 7, [138])) := by decide
  have hpadding : decode [249, 0, 0, 0, 9, 2, 223] = .ok (some (.endPostamble 9 2 1, [])) := by decide
  have hinvalid : decode [250] = .error (.invalidCode 250) := by decide
  have hspecial : decode [239, 3] = .error (.truncated 239) := by decide
  exact ⟨((decode_stable _).1 _ _ hfont).2.1 (by simp) _,
    ((decode_stable _).1 _ _ hpadding).2.2 _ _ _ rfl rfl _,
    (decode_stable _).2.1 _ hinvalid _, ((decode_stable _).2.2 _ hspecial).2.2⟩

end Op

end DviMarkup.Dvi
