/-
  What is written for an operation is as short as it can be.

  A value may be spelled in an operand that is wider than it needs, and a small one
  besides in the code itself.  No bytes out of which an operation is read are fewer than
  those that are written for it, and out of these it is read again.

  * `Width.bytes_ofUnsigned_le` and `Width.bytes_ofSigned_le`: a value that is read from an
    operand has a least width that is not greater;
  * `Payload.Takes` relates the value that a reader of operands yields and the number of
    bytes that it takes off;
  * `Opcode.takes_operands`: operands without texts are written in no more bytes;
  * `Op.textBytes` are the bytes of the texts of an operation, which are written as they
    were if they are well formed;
  * `Op.encode_shortest`: no bytes for an operation are fewer than those written.
-/
import DviMarkup.Proofs.Dvi.RoundTrip

namespace DviMarkup.Dvi

variable {α β : Type}

/-! ## Widths -/

namespace Width

theorem bytes_le (w : Width) : w.bytes ≤ 4 := by
  cases w <;> decide

theorem pow_bytes_le (w : Width) : 256 ^ w.bytes ≤ 2 ^ 32 :=
  Nat.pow_le_pow_right (by decide : 0 < 256) w.bytes_le

/-- A number without sign has no wider operand than the one from which it is read. -/
theorem bytes_ofUnsigned_le {w : Width} {n : Nat} (h : n < 256 ^ w.bytes) :
    (ofUnsigned n).bytes ≤ w.bytes := by
  unfold ofUnsigned
  split_ifs <;> cases w <;> simp only [bytes] at * <;> omega

/-- Nor has a distance. -/
theorem bytes_ofSigned_le {w : Width} {n : Int} (hlo : -256 ^ w.bytes ≤ 2 * n)
    (hhi : 2 * n < 256 ^ w.bytes) : (ofSigned n).bytes ≤ w.bytes := by
  unfold ofSigned
  split_ifs with h₁ h₂ h₃ <;> simp only [fits_iff] at * <;> cases w <;> simp only [bytes] at * <;> omega

end Width

/-! ## Numbers of bytes -/

namespace Payload

/-- Whenever the reader succeeds, the number of bytes that it takes off and the value are
    related. -/
def Takes (p : Payload α) (Q : Nat → α → Prop) : Prop :=
  ∀ ⦃bytes x rest⦄, p bytes = some (x, rest) → ∃ n, bytes.length = n + rest.length ∧ Q n x

theorem takes_pure {Q : Nat → α → Prop} {x : α} (h : Q 0 x) : Takes (pure x) Q := by
  intro bytes y rest hy
  obtain ⟨rfl, rfl⟩ : x = y ∧ bytes = rest := Prod.mk.inj (Option.some.inj hy)
  exact ⟨0, (Nat.zero_add _).symm, h⟩

theorem Takes.bind {p : Payload α} {f : α → Payload β} {Q : Nat → α → Prop} {R : Nat → β → Prop}
    (hp : Takes p Q) (hf : ∀ m x, Q m x → Takes (f x) fun n y => R (m + n) y) : Takes (p >>= f) R := by
  intro bytes y rest hy
  rw [bind_apply, Option.bind_eq_some_iff] at hy
  obtain ⟨⟨x, middle⟩, hx, hy⟩ := hy
  obtain ⟨m, hm, hQ⟩ := hp hx
  obtain ⟨n, hn, hR⟩ : ∃ n, middle.length = n + rest.length ∧ R (m + n) y := hf m x hQ hy
  exact ⟨m + n, by omega, hR⟩

theorem Takes.map {p : Payload α} {Q : Nat → α → Prop} (f : α → β) {R : Nat → β → Prop} (hp : Takes p Q)
    (hR : ∀ n x, Q n x → R n (f x)) : Takes (f <$> p) R := by
  intro bytes y rest hy
  rw [map_apply, Option.map_eq_some_iff] at hy
  obtain ⟨⟨x, rest'⟩, hx, heq⟩ := hy
  obtain ⟨rfl, rfl⟩ := Prod.mk.inj heq
  obtain ⟨n, hn, hQ⟩ := hp hx
  exact ⟨n, hn, hR n x hQ⟩

theorem takes_take (count : Nat) : Takes (take count) fun n x => n = count ∧ x.length = count := by
  intro bytes x rest h
  unfold take at h
  split at h
  · rename_i hle
    obtain ⟨rfl, rfl⟩ : bytes.take count = x ∧ bytes.drop count = rest := by simpa using h
    refine ⟨count, ?_, rfl, List.length_take_of_le hle⟩
    rw [List.length_drop]
    omega
  · cases h

theorem takes_unsigned (count : Nat) : Takes (unsigned count) fun n x => n = count ∧ x < 256 ^ count := by
  refine (takes_take count).map _ ?_
  rintro n front ⟨hn, hlen⟩
  exact ⟨hn, hlen ▸ BigEndian.unsigned_lt front⟩

theorem takes_signed (count : Nat) :
    Takes (signed count) fun n x => n = count ∧ -256 ^ count ≤ 2 * x ∧ 2 * x < 256 ^ count := by
  refine (takes_take count).map _ ?_
  rintro n front ⟨hn, hlen⟩
  exact ⟨hn, hlen ▸ BigEndian.signed_bounds front⟩

theorem takes_u8 : Takes u8 fun n _ => n = 1 := (takes_unsigned 1).map _ fun _ _ h => h.1

theorem takes_u16 : Takes u16 fun n _ => n = 2 := (takes_unsigned 2).map _ fun _ _ h => h.1

theorem takes_u32 : Takes u32 fun n _ => n = 4 := (takes_unsigned 4).map _ fun _ _ h => h.1

theorem takes_i32 : Takes i32 fun n _ => n = 4 := (takes_signed 4).map _ fun _ _ h => h.1

@[simp] theorem length_ofU16 (n : UInt16) : (ofU16 n).length = 2 := BigEndian.length_ofNat _ _

@[simp] theorem length_ofU32 (n : UInt32) : (ofU32 n).length = 4 := BigEndian.length_ofNat _ _

@[simp] theorem length_ofI32 (n : Int32) : (ofI32 n).length = 4 := BigEndian.length_ofInt _ _

theorem length_ofWord_le {w : Width} {n : Nat} (h : n < 256 ^ w.bytes) : (ofWord n).length ≤ w.bytes := by
  rw [ofWord, BigEndian.length_ofNat]
  exact Width.bytes_ofUnsigned_le h

theorem takes_word (w : Width) : Takes (word w) fun n x => (ofWord x.toNat).length ≤ n := by
  refine (takes_unsigned w.bytes).map _ ?_
  rintro n x ⟨rfl, hx⟩
  rw [UInt32.toNat_ofNat_of_lt' (hx.trans_le w.pow_bytes_le)]
  exact length_ofWord_le hx

theorem takes_distance (w : Width) : Takes (distance w) fun n d => (ofDistance d).length ≤ n := by
  refine (takes_signed w.bytes).map _ ?_
  rintro n x ⟨rfl, hlo, hhi⟩
  have hpow : (256 : Int) ^ w.bytes ≤ 2 ^ 32 := by exact_mod_cast w.pow_bytes_le
  rw [ofDistance, BigEndian.length_ofInt, Int32.toInt_ofInt_of_le (by omega) (by omega)]
  exact Width.bytes_ofSigned_le hlo hhi

theorem takes_words (count : Nat) : Takes (words count) fun n v => (v.toList.flatMap ofI32).length = n := by
  induction count with
  | zero => exact takes_pure rfl
  | succ count ih =>
    refine ih.bind fun m v hm => takes_i32.bind fun n x hn => takes_pure ?_
    subst hn
    rw [Vector.toList_push, List.flatMap_append, List.flatMap_singleton, List.length_append, hm, length_ofI32]

theorem takes_padding : Takes padding fun n x => n = x := by
  intro bytes x rest h
  rw [padding_apply] at h
  obtain ⟨rfl, rfl⟩ : (bytes.takeWhile (· == 223)).length = x ∧ bytes.dropWhile (· == 223) = rest := by
    simpa using h
  refine ⟨_, ?_, rfl⟩
  rw [← List.length_append, List.takeWhile_append_dropWhile]

end Payload

/-! ## Operands without texts -/

/-- Whether so many bytes are enough for the operands of an operation without texts. -/
def Op.Within (n : Nat) (op : Op) : Prop := op.payload.length ≤ n ∧ op.Fits ∧ op.texts = []

theorem Op.fits_of_ne_special {op : Op} (h : ∀ payload, op ≠ .special payload) : op.Fits :=
  fun payload hop => absurd hop (h payload)

open Payload in
/-- **Operands without texts** are written in no more bytes than they are read from. -/
theorem Opcode.takes_operands {o : Opcode} (hfont : ∀ w, o ≠ .defineFont w) (hpreamble : o ≠ .preamble) :
    Takes o.operands Op.Within := by
  cases o with
  | setShort c =>
    refine takes_pure ⟨?_, Op.fits_of_ne_special (by simp), rfl⟩
    rw [Op.payload, if_pos ⟨rfl, by rw [UInt32.toNat_ofNat']; omega⟩, List.length_nil]
  | fontShort n =>
    refine takes_pure ⟨?_, Op.fits_of_ne_special (by simp), rfl⟩
    rw [Op.payload, if_pos (by rw [UInt32.toNat_ofNat']; omega), List.length_nil]
  | noOp | endPage | push | pop | moveBy r =>
    exact takes_pure ⟨Nat.le_refl _, Op.fits_of_ne_special (by simp), rfl⟩
  | set w | put w | font w =>
    refine (takes_word w).bind fun n x hx => takes_pure ⟨?_, Op.fits_of_ne_special (by simp), rfl⟩
    simp only [Op.payload]
    -- a small value is in the code
    split
    · exact Nat.zero_le _
    · exact hx
  | right w | setMoveBy r w | down w =>
    exact (takes_distance w).bind fun n x hx => takes_pure ⟨hx, Op.fits_of_ne_special (by simp), rfl⟩
  | setRule | putRule =>
    refine takes_i32.bind fun m x hm => takes_i32.bind fun n y hn =>
      takes_pure ⟨?_, Op.fits_of_ne_special (by simp), rfl⟩
    simp [Op.payload, hm, hn]
  | beginPage =>
    refine (takes_words 10).bind fun m v hm => takes_i32.bind fun n x hn =>
      takes_pure ⟨?_, Op.fits_of_ne_special (by simp), rfl⟩
    simp only [Op.payload, List.length_append, hm, length_ofI32, hn, le_refl, Nat.add_zero]
  | special w =>
    refine (takes_unsigned w.bytes).bind fun m count hm => (takes_take count).bind fun n x hn =>
      takes_pure ?_
    obtain ⟨rfl, hcount⟩ := hm
    obtain ⟨rfl, hlen⟩ := hn
    have hlt : x.length < 2 ^ 32 := hlen ▸ hcount.trans_le w.pow_bytes_le
    have hmin : min x.length 0xFFFFFFFF = x.length := by omega
    refine ⟨?_, ?_, rfl⟩
    · simp only [Op.payload, hmin, List.take_length, List.length_append]
      have := length_ofWord_le (hlen ▸ hcount)
      omega
    · rintro _ ⟨⟩
      exact hlt
  | beginPostamble =>
    refine takes_i32.bind fun _ _ h₁ => takes_u32.bind fun _ _ h₂ => takes_u32.bind fun _ _ h₃ =>
      takes_u32.bind fun _ _ h₄ => takes_u32.bind fun _ _ h₅ => takes_u32.bind fun _ _ h₆ =>
      takes_u16.bind fun _ _ h₇ => takes_u16.bind fun _ _ h₈ =>
      takes_pure ⟨?_, Op.fits_of_ne_special (by simp), rfl⟩
    simp [Op.payload, h₁, h₂, h₃, h₄, h₅, h₆, h₇, h₈]
  | endPostamble =>
    refine takes_i32.bind fun l p hl => takes_u8.bind fun m f hm => takes_padding.bind fun n x hn =>
      takes_pure ⟨?_, Op.fits_of_ne_special (by simp), rfl⟩
    subst hl hm hn
    simp only [Op.payload, List.length_append, length_ofI32, ofU8, List.length_singleton,
      List.length_replicate]
    omega
  | defineFont w => exact absurd rfl (hfont w)
  | preamble => exact absurd rfl hpreamble

/-! ## Texts -/

open Payload in
/-- The bytes of the texts among the operands with the given code. -/
def Opcode.texts : Opcode → Payload (List (List UInt8))
  | defineFont w => do
    let _ ← word w
    let _ ← u32
    let _ ← u32
    let _ ← u32
    let areaLength ← unsigned 1
    let nameLength ← unsigned 1
    return [← take areaLength, ← take nameLength]
  | preamble => do
    let _ ← u8
    let _ ← u32
    let _ ← u32
    let _ ← u32
    let length ← unsigned 1
    return [← take length]
  | _ => return []

/-- The bytes of the texts of the operation at the front. -/
def Op.textBytes : List UInt8 → List (List UInt8)
  | [] => []
  | code :: operands =>
    match (Opcode.ofNat? code.toNat).bind (·.texts operands) with
    | none => []
    | some (texts, _) => texts

namespace Payload

/-- A text is what its bytes decode to. -/
theorem text_eq_some {count : Nat} {bytes rest : List UInt8} {s : String}
    (h : text count bytes = some (s, rest)) :
    ∃ t, take count bytes = some (t, rest) ∧ Utf8.decode t = s ∧ t.length = count ∧
      bytes.length = count + rest.length := by
  rw [text, map_apply, Option.map_eq_some_iff] at h
  obtain ⟨⟨t, rest'⟩, ht, heq⟩ := h
  obtain ⟨rfl, rfl⟩ := Prod.mk.inj heq
  obtain ⟨n, hn, rfl, hlen⟩ := takes_take count ht
  exact ⟨t, ht, rfl, hlen, hn⟩

/-- A text is written as it was read. -/
theorem ofText_decode {t : List UInt8} (hwf : Utf8.WellFormed t) (hlen : t.length ≤ 255) :
    ofText (Utf8.decode t) = t := by
  rw [ofText, hwf.encode_decode, List.take_of_length_le hlen]

end Payload

open Payload in
theorem Opcode.operands_defineFont {w : Width} {bytes rest : List UInt8} {op : Op}
    (h : (defineFont w).operands bytes = some (op, rest)) :
    ∃ number checksum atSize designSize area name,
      op = .defineFont number checksum atSize designSize (Utf8.decode area) (Utf8.decode name) ∧
      (defineFont w).texts bytes = some ([area, name], rest) ∧
      area.length ≤ 255 ∧ name.length ≤ 255 ∧
      (ofWord number.toNat).length + 14 + area.length + name.length + rest.length ≤ bytes.length := by
  simp only [operands, bind_apply, Option.bind_eq_some_iff] at h
  obtain ⟨⟨number, _⟩, hnumber, ⟨checksum, _⟩, hchecksum, ⟨atSize, _⟩, hatSize, ⟨designSize, _⟩,
    hdesignSize, ⟨areaLength, _⟩, hareaLength, ⟨nameLength, _⟩, hnameLength, ⟨area, _⟩, harea, ⟨name, _⟩,
    hname, h⟩ := h
  cases h
  obtain ⟨area, htakeArea, rfl, rfl, h₇⟩ := text_eq_some harea
  obtain ⟨name, htakeName, rfl, rfl, h₈⟩ := text_eq_some hname
  obtain ⟨_, h₁, hword⟩ := takes_word w hnumber
  obtain ⟨_, h₂, rfl⟩ := takes_u32 hchecksum
  obtain ⟨_, h₃, rfl⟩ := takes_u32 hatSize
  obtain ⟨_, h₄, rfl⟩ := takes_u32 hdesignSize
  obtain ⟨_, h₅, rfl, harea255⟩ := takes_unsigned 1 hareaLength
  obtain ⟨_, h₆, rfl, hname255⟩ := takes_unsigned 1 hnameLength
  dsimp only at *
  refine ⟨number, checksum, atSize, designSize, area, name, rfl, ?_, by omega, by omega, by omega⟩
  simp only [texts, bind_apply, hnumber, hchecksum, hatSize, hdesignSize, hareaLength, hnameLength,
    htakeArea, htakeName, Option.bind_some]
  rfl

open Payload in
theorem Opcode.operands_preamble {bytes rest : List UInt8} {op : Op}
    (h : preamble.operands bytes = some (op, rest)) :
    ∃ format numerator denominator magnification comment,
      op = .preamble format numerator denominator magnification (Utf8.decode comment) ∧
      preamble.texts bytes = some ([comment], rest) ∧
      comment.length ≤ 255 ∧ 14 + comment.length + rest.length = bytes.length := by
  simp only [operands, bind_apply, Option.bind_eq_some_iff] at h
  obtain ⟨⟨format, _⟩, hformat, ⟨numerator, _⟩, hnumerator, ⟨denominator, _⟩, hdenominator,
    ⟨magnification, _⟩, hmagnification, ⟨length, _⟩, hlength, ⟨comment, _⟩, hcomment, h⟩ := h
  cases h
  obtain ⟨comment, htake, rfl, rfl, h₆⟩ := text_eq_some hcomment
  obtain ⟨_, h₁, rfl⟩ := takes_u8 hformat
  obtain ⟨_, h₂, rfl⟩ := takes_u32 hnumerator
  obtain ⟨_, h₃, rfl⟩ := takes_u32 hdenominator
  obtain ⟨_, h₄, rfl⟩ := takes_u32 hmagnification
  obtain ⟨_, h₅, rfl, hcomment255⟩ := takes_unsigned 1 hlength
  dsimp only at *
  refine ⟨format, numerator, denominator, magnification, comment, rfl, ?_, by omega, by omega⟩
  simp only [texts, bind_apply, hformat, hnumerator, hdenominator, hmagnification, hlength, htake,
    Option.bind_some]
  rfl

/-! ## Operations -/

open Payload in
/-- Operands whose texts are well formed are written in no more bytes than they are read from. -/
theorem Opcode.length_payload_le {o : Opcode} {bytes rest : List UInt8} {op : Op}
    (h : o.operands bytes = some (op, rest))
    (htexts : ∀ texts rest', o.texts bytes = some (texts, rest') → ∀ t ∈ texts, Utf8.WellFormed t) :
    op.payload.length + rest.length ≤ bytes.length ∧ op.Fits ∧
      ∀ s ∈ op.texts, (Utf8.encode s).length ≤ 255 := by
  by_cases hfont : ∃ w, o = .defineFont w
  · obtain ⟨w, rfl⟩ := hfont
    obtain ⟨number, checksum, atSize, designSize, area, name, rfl, hread, harea, hname, hlen⟩ :=
      operands_defineFont h
    have hwf := htexts _ _ hread
    have hwfArea : Utf8.WellFormed area := hwf area (by simp)
    have hwfName : Utf8.WellFormed name := hwf name (by simp)
    refine ⟨?_, Op.fits_of_ne_special (by simp), ?_⟩
    · simp only [Op.payload, lengthOf, ofText_decode hwfArea harea, ofText_decode hwfName hname,
        List.length_append, length_ofU32, BigEndian.length_ofNat]
      omega
    · intro s hs
      simp only [Op.texts, List.mem_cons, List.not_mem_nil, or_false] at hs
      rcases hs with rfl | rfl
      · rwa [hwfArea.encode_decode]
      · rwa [hwfName.encode_decode]
  by_cases hpreamble : o = .preamble
  · subst hpreamble
    obtain ⟨format, numerator, denominator, magnification, comment, rfl, hread, hcomment, hlen⟩ :=
      operands_preamble h
    have hwf : Utf8.WellFormed comment := htexts _ _ hread comment (by simp)
    refine ⟨?_, Op.fits_of_ne_special (by simp), ?_⟩
    · simp only [Op.payload, lengthOf, ofText_decode hwf hcomment, List.length_append, length_ofU32,
        BigEndian.length_ofNat, ofU8, List.length_singleton]
      omega
    · intro s hs
      obtain rfl := List.mem_singleton.1 hs
      rwa [hwf.encode_decode]
  · obtain ⟨n, hn, hpayload, hfits, hnone⟩ := takes_operands (fun w ho => hfont ⟨w, ho⟩) hpreamble h
    refine ⟨by omega, hfits, ?_⟩
    rw [hnone]
    simp

/-- **What is written is as short as it can be**: an operation that is read from bytes with
    well-formed texts is written in no more bytes, and it is read from these again. -/
theorem Op.encode_shortest {bytes rest : List UInt8} {op : Op} (h : decode bytes = .ok (some (op, rest)))
    (htexts : ∀ t ∈ textBytes bytes, Utf8.WellFormed t) :
    op.encode.length ≤ bytes.length - rest.length ∧ decode op.encode = .ok (some (op, [])) := by
  obtain ⟨code, operands, o, rfl, ho, hr⟩ := decode_eq_ok_iff.1 h
  have hwf : ∀ texts rest', o.texts operands = some (texts, rest') → ∀ t ∈ texts, Utf8.WellFormed t := by
    intro texts rest' ht t hmem
    apply htexts
    simpa only [textBytes, ho, Option.bind_some, ht] using hmem
  obtain ⟨hlen, hfits, h255⟩ := Opcode.length_payload_le hr hwf
  constructor
  · simp only [encode, List.length_cons]
    omega
  · have hmore : ∀ p f n, op = .endPostamble p f n → ([] : List UInt8).head? ≠ some 223 := by simp
    have hread := decode_encode hfits hmore
    rwa [List.append_nil, clipped_eq_self h255] at hread

/-- A font with a number that is wider than it need be and a name with a character of two bytes. -/
theorem Op.encode_shortest_wideFont :
    let bytes : List UInt8 :=
      [246, 0, 0, 0, 5, 0, 0, 0, 0, 0, 10, 0, 0, 0, 10, 0, 0, 0, 3, 99, 195, 169, 140]
    let op : Op := .defineFont 5 0 655360 655360 "" "cé"
    decode bytes = .ok (some (op, [140])) ∧ (∀ t ∈ textBytes bytes, Utf8.WellFormed t) ∧
      op.encode.length ≤ 22 ∧ decode op.encode = .ok (some (op, [])) := by
  intro bytes op
  have hread : decode bytes = .ok (some (op, [140])) := by decide +kernel
  have htexts : ∀ t ∈ textBytes bytes, Utf8.WellFormed t := by
    intro t ht
    have hbytes : textBytes bytes = [[], [99, 195, 169]] := by rfl
    rw [hbytes] at ht
    simp only [List.mem_cons, List.not_mem_nil, or_false] at ht
    rcases ht with rfl | rfl
    · exact ⟨"", by decide +kernel⟩
    · exact ⟨"cé", by decide +kernel⟩
  exact ⟨hread, htexts, encode_shortest hread htexts⟩

end DviMarkup.Dvi
