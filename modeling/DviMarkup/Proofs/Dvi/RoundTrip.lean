/-
  Reading operations back.

  What is written for an operation is its code and the operands that the code
  announces, so a reader finds the same operation again, whatever bytes follow.
  Texts are cut off when they are written, and the padding at the end of a file is
  told apart from what follows only if this does not begin like padding.

  * `Opcode.ofNat?_toNat`: codes are told apart by their numbers;
  * `Op.clipped` is what is left of an operation when its texts are cut off;
  * `Op.decode_encode` reads one operation back and `decodeAll_encodeAll` a list of
    them.
-/
import DviMarkup.Dvi.Encode
import DviMarkup.Proofs.Dvi.Framing
import DviMarkup.Proofs.Number.BigEndian
import DviMarkup.Proofs.Text.Utf8
import Mathlib.Data.List.Chain

namespace DviMarkup.Dvi

/-! ## Operands -/

namespace Payload

theorem reads_unsigned (count : Nat) {n : Nat} (h : n < 256 ^ count) :
    Reads (unsigned count) (BigEndian.ofNat count n) n := by
  have hread := (reads_take (BigEndian.length_ofNat count n)).map BigEndian.unsigned
  rwa [BigEndian.unsigned_ofNat h] at hread

theorem reads_signed (count : Nat) {n : Int} (hlo : -256 ^ count ≤ 2 * n)
    (hhi : 2 * n < 256 ^ count) :
    Reads (signed count) (BigEndian.ofInt count n) n := by
  have hread := (reads_take (BigEndian.length_ofInt count n)).map BigEndian.signed
  rwa [BigEndian.signed_ofInt hlo hhi] at hread

theorem reads_u8 (n : UInt8) : Reads u8 (ofU8 n) n := by
  have hread := (reads_unsigned 1 n.toNat_lt).map UInt8.ofNat
  have hbyte : BigEndian.ofNat 1 n.toNat = ofU8 n := by
    rw [BigEndian.ofNat, BigEndian.ofNat, List.nil_append, UInt8.ofNat_toNat, ofU8]
  rwa [UInt8.ofNat_toNat, hbyte] at hread

theorem reads_u16 (n : UInt16) : Reads u16 (ofU16 n) n := by
  have hread := (reads_unsigned 2 n.toNat_lt).map UInt16.ofNat
  rwa [UInt16.ofNat_toNat] at hread

theorem reads_u32 (n : UInt32) : Reads u32 (ofU32 n) n := by
  have hread := (reads_unsigned 4 n.toNat_lt).map UInt32.ofNat
  rwa [UInt32.ofNat_toNat] at hread

theorem reads_i32 (n : Int32) : Reads i32 (ofI32 n) n := by
  have hlo := n.le_toInt
  have hhi := n.toInt_lt
  have hread := (reads_signed 4 (n := n.toInt) (by omega) (by omega)).map Int32.ofInt
  rwa [Int32.ofInt_toInt] at hread

/-- One number more. -/
theorem Reads.words_push {count : Nat} {v : Vector Int32 count} {u : List UInt8}
    (h : Reads (words count) u v) (n : Int32) : Reads (words (count + 1)) (u ++ ofI32 n) (v.push n) := by
  have hlast : Reads (i32 >>= fun n => pure (v.push n)) (ofI32 n) (v.push n) := (reads_i32 n).bind_pure
  exact h.bind (f := fun before => i32 >>= fun n => pure (before.push n)) hlast

theorem reads_words : ∀ {count : Nat} (v : Vector Int32 count),
    Reads (words count) (v.toList.flatMap ofI32) v
  | 0, v => by
    obtain rfl : v = #v[] := Vector.eq_empty
    exact reads_pure _
  | count + 1, v => by
    have hlist : v.toList = v.pop.toList ++ [v.back] := by
      conv => lhs; rw [← Vector.push_pop_back v]
      exact Vector.toList_push
    have hread : Reads (words (count + 1)) _ (v.pop.push v.back) := (reads_words v.pop).words_push v.back
    rw [hlist, List.flatMap_append, List.flatMap_singleton]
    rwa [Vector.push_pop_back] at hread

end Payload

/-! ## Operands of a width -/

namespace Width

theorem lt_of_ofUnsigned {n : Nat} (h : n < 2 ^ 32) : n < 256 ^ (ofUnsigned n).bytes := by
  unfold ofUnsigned
  split_ifs <;> simp only [bytes] <;> omega

theorem fits_iff {bits : Nat} {n : Int} : fits bits n = true ↔ -2 ^ (bits - 1) ≤ n ∧ n < 2 ^ (bits - 1) := by
  simp [fits, Nat.pow_eq]

theorem bounds_of_ofSigned {n : Int} (hlo : -2 ^ 31 ≤ n) (hhi : n < 2 ^ 31) :
    -256 ^ (ofSigned n).bytes ≤ 2 * n ∧ 2 * n < 256 ^ (ofSigned n).bytes := by
  unfold ofSigned
  split_ifs with h₁ h₂ h₃ <;> simp only [fits_iff] at * <;> simp only [bytes] <;> omega

end Width

namespace Payload

theorem reads_unsigned_width {n : Nat} (h : n < 2 ^ 32) :
    Reads (unsigned (Width.ofUnsigned n).bytes) (ofWord n) n :=
  reads_unsigned _ (Width.lt_of_ofUnsigned h)

theorem reads_word (n : UInt32) : Reads (word (.ofUnsigned n.toNat)) (ofWord n.toNat) n := by
  have hread := (reads_unsigned_width n.toNat_lt).map UInt32.ofNat
  rwa [UInt32.ofNat_toNat] at hread

theorem reads_distance (d : Int32) : Reads (distance (.ofSigned d.toInt)) (ofDistance d) d := by
  obtain ⟨hlo, hhi⟩ := Width.bounds_of_ofSigned d.le_toInt d.toInt_lt
  have hread := (reads_signed _ hlo hhi).map Int32.ofInt
  rwa [Int32.ofInt_toInt] at hread

/-- What is left of a text that is cut off after 255 bytes. -/
def clip (s : String) : String := Utf8.decode ((Utf8.encode s).take 255)

theorem clip_of_length_le {s : String} (h : (Utf8.encode s).length ≤ 255) : clip s = s := by
  rw [clip, List.take_of_length_le h, Utf8.decode_encode]

theorem reads_lengthOf (s : String) : Reads (unsigned 1) (lengthOf s) (ofText s).length :=
  reads_unsigned 1 (by simp only [ofText, List.length_take]; omega)

theorem reads_text (s : String) : Reads (text (ofText s).length) (ofText s) (clip s) :=
  (reads_take rfl).map Utf8.decode

/-- Padding ends where the bytes do not go on like padding. -/
theorem padding_replicate (n : Nat) {more : List UInt8} (h : more.head? ≠ some 223) :
    padding (List.replicate n 223 ++ more) = some (n, more) := by
  have htake : more.takeWhile (· == 223) = [] := by
    cases more with
    | nil => rfl
    | cons b more => rw [List.takeWhile_cons_of_neg]; simpa using h
  have hdrop : more.dropWhile (· == 223) = more := by
    cases more with
    | nil => rfl
    | cons b more => rw [List.dropWhile_cons_of_neg]; simpa using h
  have hpad : ∀ b ∈ List.replicate n (223 : UInt8), (b == 223) = true := by simp
  rw [padding_apply, List.takeWhile_append_of_pos hpad, List.dropWhile_append_of_pos hpad, htake, hdrop]
  simp

end Payload

/-! ## Codes -/

/-- Codes are told apart by their numbers. -/
theorem Opcode.ofNat?_toNat (o : Opcode) : ofNat? o.toNat = some o := by
  cases o with
  | setShort c => rw [toNat, ofNat?, dif_pos c.isLt]
  | fontShort n => revert n; decide
  | moveBy r => cases r <;> rfl
  | setMoveBy r w => cases r <;> cases w <;> rfl
  | set w | put w | right w | down w | font w | special w | defineFont w => cases w <;> rfl
  | _ => rfl

theorem Opcode.toNat_lt (o : Opcode) : o.toNat < 256 := by
  cases o with
  | setShort c => simp only [toNat]; omega
  | fontShort n => simp only [toNat]; omega
  | moveBy r => cases r <;> decide
  | setMoveBy r w => cases r <;> cases w <;> decide
  | set w | put w | right w | down w | font w | special w | defineFont w => cases w <;> decide
  | _ => decide

theorem Opcode.ofNat?_byte (o : Opcode) : ofNat? (UInt8.ofNat o.toNat).toNat = some o := by
  rw [UInt8.toNat_ofNat_of_lt' o.toNat_lt, ofNat?_toNat]

theorem Opcode.eq_of_byte_eq {o o' : Opcode} (h : UInt8.ofNat o.toNat = UInt8.ofNat o'.toNat) : o = o' := by
  have ho := ofNat?_byte o
  rw [h, ofNat?_byte o'] at ho
  exact (Option.some.inj ho).symm

/-! ## Operations -/

/-- What is left of an operation when its texts are cut off. -/
def Op.clipped : Op → Op
  | defineFont number checksum atSize designSize area name =>
    defineFont number checksum atSize designSize (Payload.clip area) (Payload.clip name)
  | preamble format numerator denominator magnification comment =>
    preamble format numerator denominator magnification (Payload.clip comment)
  | op => op

/-- An operation whose payload, if it is a special, has a length that can be written. -/
def Op.Fits (op : Op) : Prop := ∀ payload, op = .special payload → payload.length < 2 ^ 32

open Payload in
/-- **The operands are read as they were written**, and the bytes after them are not
    looked at. -/
theorem Op.reads_payload {op : Op} (hfits : op.Fits) (hend : ∀ p f n, op ≠ .endPostamble p f n) :
    Reads op.opcode.operands op.payload op.clipped := by
  cases op with
  | typesetChar code advance =>
    cases advance with
    | false => exact (reads_word code).bind_pure
    | true =>
      by_cases h : code.toNat < 128
      · simp only [opcode, payload, h, dif_pos, and_self, if_true, clipped]
        have hread : Reads (Opcode.setShort ⟨code.toNat, h⟩).operands []
            (.typesetChar (UInt32.ofNat code.toNat) true) := reads_pure _
        rwa [UInt32.ofNat_toNat] at hread
      · simp only [opcode, payload, h, dif_neg, not_false_eq_true, and_false, if_false, clipped]
        exact (reads_word code).bind_pure
  | typesetRule height width advance =>
    cases advance with
    | false => exact (reads_i32 height).bind (reads_i32 width).bind_pure
    | true => exact (reads_i32 height).bind (reads_i32 width).bind_pure
  | noOp => exact reads_pure _
  | endPage => exact reads_pure _
  | push => exact reads_pure _
  | pop => exact reads_pure _
  | moveBy r => exact reads_pure _
  | beginPage parameters previous => exact (reads_words parameters).bind (reads_i32 previous).bind_pure
  | right d => exact (reads_distance d).bind_pure
  | down d => exact (reads_distance d).bind_pure
  | setMoveBy r d => exact (reads_distance d).bind_pure
  | enableFont number =>
    by_cases h : number.toNat < 64
    · simp only [opcode, payload, h, dif_pos, if_true, clipped]
      have hread : Reads (Opcode.fontShort ⟨number.toNat, h⟩).operands []
          (.enableFont (UInt32.ofNat number.toNat)) := reads_pure _
      rwa [UInt32.ofNat_toNat] at hread
    · simp only [opcode, payload, h, dif_neg, not_false_eq_true, if_false, clipped]
      exact (reads_word number).bind_pure
  | special payload =>
    have hlen := hfits payload rfl
    have hmin : min payload.length 0xFFFFFFFF = payload.length := by omega
    simp only [opcode, Op.payload, hmin, List.take_length, clipped]
    exact (reads_unsigned_width hlen).bind (reads_take rfl).bind_pure
  | defineFont number checksum atSize designSize area name =>
    simp only [opcode, payload, clipped, List.append_assoc]
    exact (reads_word number).bind <| (reads_u32 checksum).bind <| (reads_u32 atSize).bind <|
      (reads_u32 designSize).bind <| (reads_lengthOf area).bind <| (reads_lengthOf name).bind <|
      (reads_text area).bind (reads_text name).bind_pure
  | preamble format numerator denominator magnification comment =>
    simp only [opcode, payload, clipped, List.append_assoc]
    exact (reads_u8 format).bind <| (reads_u32 numerator).bind <| (reads_u32 denominator).bind <|
      (reads_u32 magnification).bind <| (reads_lengthOf comment).bind (reads_text comment).bind_pure
  | beginPostamble finalPage numerator denominator magnification height width depth pages =>
    simp only [opcode, payload, clipped, List.append_assoc]
    exact (reads_i32 finalPage).bind <| (reads_u32 numerator).bind <| (reads_u32 denominator).bind <|
      (reads_u32 magnification).bind <| (reads_u32 height).bind <| (reads_u32 width).bind <|
      (reads_u16 depth).bind (reads_u16 pages).bind_pure
  | endPostamble p f n => exact absurd rfl (hend p f n)

open Payload in
theorem Op.operands_endPostamble (p : Int32) (f : UInt8) (n : Nat) {more : List UInt8}
    (h : more.head? ≠ some 223) :
    Opcode.endPostamble.operands ((Op.endPostamble p f n).payload ++ more) =
      some (.endPostamble p f n, more) := by
  simp only [Opcode.operands, payload, List.append_assoc, bind_apply]
  rw [reads_i32 p, Option.bind_some, reads_u8 f, Option.bind_some, padding_replicate n h]
  rfl

/-- **One operation is read back**, unless it is the last of a file and padding seems to
    follow it. -/
theorem Op.decode_encode {op : Op} (hfits : op.Fits) {more : List UInt8}
    (hmore : ∀ p f n, op = .endPostamble p f n → more.head? ≠ some 223) :
    decode (op.encode ++ more) = .ok (some (op.clipped, more)) := by
  refine decode_eq_ok_iff.2 ⟨_, _, op.opcode, rfl, Opcode.ofNat?_byte _, ?_⟩
  by_cases hend : ∃ p f n, op = .endPostamble p f n
  · obtain ⟨p, f, n, rfl⟩ := hend
    exact operands_endPostamble p f n (hmore p f n rfl)
  · exact reads_payload hfits (fun p f n h => hend ⟨p, f, n, h⟩) more

/-! ## Files -/

/-- The texts of an operation. -/
def Op.texts : Op → List String
  | defineFont _ _ _ _ area name => [area, name]
  | preamble _ _ _ _ comment => [comment]
  | _ => []

theorem Op.clipped_eq_self {op : Op} (h : ∀ s ∈ op.texts, (Utf8.encode s).length ≤ 255) :
    op.clipped = op := by
  cases op with
  | defineFont number checksum atSize designSize area name =>
    rw [clipped, Payload.clip_of_length_le (h area (by simp [texts])),
      Payload.clip_of_length_le (h name (by simp [texts]))]
  | preamble format numerator denominator magnification comment =>
    rw [clipped, Payload.clip_of_length_le (h comment (by simp [texts]))]
  | _ => rfl

/-- The code of a font is the only one that looks like padding. -/
theorem Op.eq_enableFont_of_head {op : Op} (h : op.encode.head? = some 223) : op = .enableFont 52 := by
  have hcode : UInt8.ofNat op.opcode.toNat = 223 := Option.some.inj h
  have hopcode : op.opcode = .fontShort 52 := Opcode.eq_of_byte_eq hcode
  cases op with
  | enableFont number =>
    simp only [opcode] at hopcode
    split at hopcode
    · have hnumber : number.toNat = 52 := congrArg Fin.val (Opcode.fontShort.inj hopcode)
      rw [← UInt32.ofNat_toNat (x := number), hnumber]
      rfl
    · cases hopcode
  | typesetChar code advance =>
    cases advance with
    | false => cases hopcode
    | true => simp only [opcode] at hopcode; split at hopcode <;> cases hopcode
  | typesetRule height width advance => cases advance <;> cases hopcode
  | _ => cases hopcode

/-- Whether the second operation may follow the first: what follows padding must not
    look like it. -/
def Op.MayPrecede (a b : Op) : Prop := ∀ p f n, a = .endPostamble p f n → b ≠ .enableFont 52

/-- **Decoding undoes encoding for whole files**, but for texts of more than 255
    bytes, of which the first 255 are left. -/
theorem decodeAll_encodeAll {ops : List Op} (hfits : ∀ op ∈ ops, op.Fits)
    (hchain : ops.IsChain Op.MayPrecede) :
    decodeAll (encodeAll ops) = ops.map (fun op => .ok op.clipped) ∧
      ((∀ op ∈ ops, ∀ s ∈ op.texts, (Utf8.encode s).length ≤ 255) →
        decodeAll (encodeAll ops) = ops.map .ok) := by
  have hall : decodeAll (encodeAll ops) = ops.map (fun op => .ok op.clipped) := by
    induction ops with
    | nil => exact decodeAll_nil
    | cons op ops ih =>
      have hmore : ∀ p f n, op = .endPostamble p f n → (encodeAll ops).head? ≠ some 223 := by
        intro p f n hop
        cases ops with
        | nil => simp [encodeAll]
        | cons next ops =>
          intro hhead
          exact (List.isChain_cons_cons.1 hchain).1 p f n hop (Op.eq_enableFont_of_head hhead)
      have hsplit : encodeAll (op :: ops) = op.encode ++ encodeAll ops := List.flatMap_cons
      rw [hsplit, decodeAll_of_ok (Op.decode_encode (hfits op (by simp)) hmore), List.map_cons,
        ih (fun o ho => hfits o (by simp [ho])) hchain.tail]
  refine ⟨hall, fun htexts => ?_⟩
  rw [hall]
  exact List.map_congr_left fun op hop => by rw [Op.clipped_eq_self (htexts op hop)]

/-- A font that looks like padding, and padding with an operation after it. -/
theorem decodeAll_encodeAll_file :
    let ops : List Op := [.preamble 2 25400000 473628672 1000 "x", .enableFont 52, .typesetChar 300 true,
      .special [112, 115], .endPostamble 7 2 4, .push]
    (∀ op ∈ ops, op.Fits) ∧ ops.IsChain Op.MayPrecede ∧
      decodeAll (encodeAll ops) = ops.map (fun op => .ok op.clipped) := by
  intro ops
  have hfits : ∀ op ∈ ops, op.Fits := by
    rintro op hop payload rfl
    simp only [ops, List.mem_cons, reduceCtorEq, Op.special.injEq, false_or, or_false, List.not_mem_nil] at hop
    subst hop
    decide
  have hchain : ops.IsChain Op.MayPrecede := by simp [ops, Op.MayPrecede]
  exact ⟨hfits, hchain, (decodeAll_encodeAll hfits hchain).1⟩

end DviMarkup.Dvi
