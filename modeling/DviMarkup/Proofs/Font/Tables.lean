/-
  What a TFM file is accepted for, table by table.

  For each step of the reading there is a condition under which it succeeds, and a value
  that it then has; where the condition does not hold, it ends with a fault that says
  what is wrong with the file.  No step meets a place outside the data, since the sizes
  are checked before.

  * `Accepts` is this relation between a step, its condition and its value;
  * `accepts_check`: the sizes are accepted if they fit together;
  * `tables_run`: then all tables are where the sizes say, inside the data;
  * `accepts_instructions` and `accepts_characters` are about the entries;
  * `Consistent` is a file that is accepted, `metricsAt` are its metrics, and
    `accepts_parse` says so.
-/
import DviMarkup.Proofs.Font.Places

namespace DviMarkup.Tfm

/-! ## Steps and their conditions -/

/-- A step has the value if the condition holds, and otherwise ends with a fault that
    tells what is wrong with the data. -/
structure Accepts {α : Type} (step : Except Fault α) (condition : Prop) (value : α) : Prop where
  accepted : condition → step = .ok value
  refused : ¬ condition → ∃ fault, step = .error fault ∧ fault ≠ .outOfRange

namespace Accepts

variable {α β : Type} {condition next : Prop}

theorem pure (value : α) : Accepts (Pure.pure value : Except Fault α) True value :=
  ⟨fun _ => rfl, fun h => absurd trivial h⟩

theorem of_iff {step : Except Fault α} {value : α} (h : Accepts step condition value)
    (hiff : condition ↔ next) : Accepts step next value :=
  ⟨fun hnext => h.accepted (hiff.2 hnext), fun hnext => h.refused (mt hiff.1 hnext)⟩

/-- Steps one after the other. -/
theorem bind {step : Except Fault α} {value : α} {f : α → Except Fault β} {result : β}
    (h : Accepts step condition value) (hf : condition → Accepts (f value) next result) :
    Accepts (step >>= f) (condition ∧ next) result := by
  constructor
  · rintro ⟨hcondition, hnext⟩
    rw [h.accepted hcondition]
    exact (hf hcondition).accepted hnext
  · intro hnot
    by_cases hcondition : condition
    · rw [h.accepted hcondition]
      exact (hf hcondition).refused fun hnext => hnot ⟨hcondition, hnext⟩
    · obtain ⟨fault, hstep, hfault⟩ := h.refused hcondition
      exact ⟨fault, by rw [hstep]; rfl, hfault⟩

/-- A last step, and what is made of its value. -/
theorem bind_pure {step : Except Fault α} {value : α} (h : Accepts step condition value) (f : α → β) :
    Accepts (step >>= fun x => Pure.pure (f x)) condition (f value) :=
  (h.bind fun _ => pure (f value)).of_iff (and_iff_left trivial)

/-- A check, and what comes after it. -/
theorem ensure {refusal : Prop} [Decidable refusal] {fault : Fault} {step : Except Fault α} {value : α}
    (hfault : fault ≠ .outOfRange) (h : ¬ refusal → Accepts step next value) :
    Accepts (if refusal then .error fault else step) (¬ refusal ∧ next) value := by
  constructor
  · rintro ⟨hrefusal, hnext⟩
    rw [if_neg hrefusal]
    exact (h hrefusal).accepted hnext
  · intro hnot
    by_cases hrefusal : refusal
    · exact ⟨fault, if_pos hrefusal, hfault⟩
    · rw [if_neg hrefusal]
      exact (h hrefusal).refused fun hnext => hnot ⟨hrefusal, hnext⟩

theorem eq_ok_iff {step : Except Fault α} {value v : α} (h : Accepts step condition value) :
    step = .ok v ↔ condition ∧ v = value := by
  by_cases hcondition : condition
  · rw [h.accepted hcondition, Except.ok.injEq, eq_comm]
    simp [hcondition]
  · obtain ⟨fault, hstep, -⟩ := h.refused hcondition
    rw [hstep]
    simp [hcondition]

end Accepts

/-! ## The checks of the sizes -/

/-- A number between the bounds has a place in sixteen bits. -/
theorem short_eq_ok {n : Int} (hlo : -0x8000 ≤ n) (hhi : n < 0x8000) : short n = .ok (Int16.ofInt n) :=
  if_pos ⟨hlo, hhi⟩

/-- The number after a character code has a place there as well. -/
theorem toInt_next {code : Int} (hlo : 0 ≤ code) (hhi : code ≤ 255) :
    (Int16.ofInt (code + 1)).toInt = code + 1 :=
  Int16.toInt_ofInt_of_le (by omega) (by omega)

namespace Layout

/-- Sizes that fit together, one by one. -/
theorem Sound.bounds {l : Layout} (h : l.Sound) :
    2 ≤ l.lh ∧ 0 ≤ l.bc ∧ 0 ≤ l.ec ∧ 0 < l.nw ∧ 0 < l.nh ∧ 0 < l.nd ∧ 0 < l.ni ∧ 0 ≤ l.nl ∧ 0 ≤ l.nk ∧
      0 ≤ l.ne ∧ 0 ≤ l.np := by
  have hsizes := h.nonneg
  simp only [sizes, List.forall_mem_cons] at hsizes
  have hdimensions := h.dimensions
  have hheader := h.header
  omega

theorem Sound.count_nonneg {l : Layout} (h : l.Sound) : 0 ≤ l.count := by
  have hfirst := h.first
  simp only [count]
  omega

/-- The tables come up to the length of the file. -/
theorem Sound.lf_eq {l : Layout} (h : l.Sound) :
    l.lf = 6 + ((l.lh.toNat + (l.count.toNat + (l.nw.toNat + (l.nh.toNat + (l.nd.toNat + (l.ni.toNat +
      (l.nl.toNat + (l.nk.toNat + (l.ne.toNat + l.np.toNat)))))))) : Nat) : Int) := by
  obtain ⟨hlh, hbc, hec, hnw, hnh, hnd, hni, hnl, hnk, hne, hnp⟩ := h.bounds
  have hlh0 : 0 ≤ l.lh := by omega
  have hcount : 0 ≤ l.ec - l.bc + 1 := h.count_nonneg
  have htotal := h.total
  simp only [count, Int.natCast_add, Int.toNat_of_nonneg hlh0, Int.toNat_of_nonneg hcount,
    Int.toNat_of_nonneg hnw.le, Int.toNat_of_nonneg hnh.le, Int.toNat_of_nonneg hnd.le,
    Int.toNat_of_nonneg hni.le, Int.toNat_of_nonneg hnl, Int.toNat_of_nonneg hnk, Int.toNat_of_nonneg hne,
    Int.toNat_of_nonneg hnp]
  omega

end Layout

namespace Sizes

variable (s : Sizes) (stated : Int16)

theorem any_negative_iff :
    s.toList.any (·.2 < 0) = true ↔ ¬ ∀ n ∈ (s.layout stated).sizes, 0 ≤ n := by
  have hsizes : (s.layout stated).sizes = s.toList.map fun size => size.2.toInt := rfl
  rw [hsizes, List.forall_mem_map, List.any_eq_true]
  simp only [decide_eq_true_eq, Int16.lt_iff_toInt_lt, Int16.toInt_zero, Classical.not_forall, Int.not_le,
    exists_prop]

/-- The last code, if no size is negative and the code is a byte. -/
theorem ec_bounds (hneg : ¬ s.toList.any (·.2 < 0) = true) (hec : ¬ s.ec > 255) :
    0 ≤ s.ec.toInt ∧ s.ec.toInt ≤ 255 := by
  rw [any_negative_iff s 0, Classical.not_not] at hneg
  rw [gt_iff_lt, Int16.lt_iff_toInt_lt] at hec
  exact ⟨hneg s.ec.toInt (by simp [Layout.sizes, layout]), Int.not_lt.1 hec⟩

/-- The checks of the sizes, as they are made one after the other. -/
def Passes : Prop :=
  ¬ s.toList.any (·.2 < 0) = true ∧ ¬ s.lh < 2 ∧ ¬ s.ec > 255 ∧ ¬ s.bc > Int16.ofInt (s.ec.toInt + 1) ∧
    ¬ (s.nw = 0 ∨ s.nh = 0 ∨ s.nd = 0 ∨ s.ni = 0) ∧ ¬ stated.toInt ≠ s.total

/-- The sum with the last code is only taken if that code is a byte. -/
theorem accepts_passes : Accepts (s.check stated) (s.Passes stated) () := by
  have hsteps : Accepts (s.check stated) (¬ s.toList.any (·.2 < 0) = true ∧ ¬ s.lh < 2 ∧ ¬ s.ec > 255 ∧
      ¬ s.bc > Int16.ofInt (s.ec.toInt + 1) ∧ ¬ (s.nw = 0 ∨ s.nh = 0 ∨ s.nd = 0 ∨ s.ni = 0) ∧
      ¬ stated.toInt ≠ s.total ∧ True) () := by
    unfold check
    refine .ensure (by simp) fun hneg => .ensure (by simp) fun _ => .ensure (by simp) fun hec => ?_
    obtain ⟨hlo, hhi⟩ := ec_bounds s hneg hec
    rw [short_eq_ok (by omega) (by omega)]
    exact .ensure (by simp) fun _ => .ensure (by simp) fun _ => .ensure (by simp) fun _ => .pure ()
  exact hsteps.of_iff (by simp only [Passes, and_true])

theorem sound_of_passes (h : s.Passes stated) : (s.layout stated).Sound := by
  obtain ⟨hneg, hlh, hec, hbc, hempty, htotal⟩ := h
  obtain ⟨hlo, hhi⟩ := ec_bounds s hneg hec
  have hnonneg := Classical.not_not.1 (mt (any_negative_iff s stated).2 hneg)
  simp only [gt_iff_lt, Int16.lt_iff_toInt_lt, ← Int16.toInt_inj, not_or, Int16.toInt_zero,
    Classical.not_not, toInt_next hlo hhi] at hlh hbc hempty htotal
  refine ⟨hnonneg, Int.not_lt.1 hlh, hhi, Int.not_lt.1 hbc, ?_, htotal⟩
  simp only [Layout.sizes, List.forall_mem_cons] at hnonneg
  simp only [layout] at hnonneg ⊢
  omega

theorem passes_of_sound (h : (s.layout stated).Sound) : s.Passes stated := by
  obtain ⟨hlh, hbc, hec, hnw, hnh, hnd, hni, -⟩ := h.bounds
  have hlast := h.last
  have hfirst := h.first
  simp only [layout] at hlh hbc hec hnw hnh hnd hni hlast hfirst
  refine ⟨fun hneg => (any_negative_iff s stated).1 hneg h.nonneg, ?_, ?_, ?_, ?_, ?_⟩
  · rw [Int16.lt_iff_toInt_lt]
    exact Int.not_lt.2 hlh
  · rw [gt_iff_lt, Int16.lt_iff_toInt_lt]
    exact Int.not_lt.2 hlast
  · rw [gt_iff_lt, Int16.lt_iff_toInt_lt, toInt_next hec hlast]
    exact Int.not_lt.2 hfirst
  · simp only [← Int16.toInt_inj, Int16.toInt_zero]
    omega
  · rw [Classical.not_not]
    exact h.total

/-- **The sizes are accepted if they fit together.** -/
theorem accepts_check : Accepts (s.check stated) (s.layout stated).Sound () :=
  (accepts_passes s stated).of_iff ⟨sound_of_passes s stated, passes_of_sound s stated⟩

end Sizes

/-! ## The tables -/

variable (data : List UInt8) (l : Layout)

/-- The tables of a file with the given sizes. -/
def tablesAt : Tables where
  header := wordsAt data 6 l.lh.toNat
  charInfos := wordsAt data l.charInfos l.count.toNat
  widths := wordsAt data l.widths l.nw.toNat
  heights := wordsAt data l.heights l.nh.toNat
  depths := wordsAt data l.depths l.nd.toNat
  italics := wordsAt data l.italics l.ni.toNat
  program := wordsAt data l.program l.nl.toNat
  kerns := wordsAt data l.kerns l.nk.toNat
  recipes := wordsAt data l.recipes l.ne.toNat
  params := wordsAt data l.params l.np.toNat

/-- A table is cut off words that are enough for it. -/
theorem table_wordsAt {n : Int} (hn : 0 ≤ n) {count : Int16} (hcount : count.toInt = n) (start rest : Nat) :
    (table count).run (wordsAt data start (n.toNat + rest)) =
      .ok (wordsAt data start n.toNat, wordsAt data (start + n.toNat) rest) := by
  subst hcount
  have hlen := length_wordsAt data start count.toInt.toNat
  have henough : 0 ≤ count ∧ count.toInt.toNat ≤ (wordsAt data start (count.toInt.toNat + rest)).length :=
    ⟨Int16.le_iff_toInt_le.2 hn, by rw [length_wordsAt]; omega⟩
  rw [StateT.run, table, if_pos henough, wordsAt_add, List.take_left' hlen, List.drop_left' hlen]

theorem run_bind_of_ok {α β : Type} {p : StateT (List Word) (Except Fault) α} {ws rest : List Word} {x : α}
    (h : p.run ws = .ok (x, rest)) (f : α → StateT (List Word) (Except Fault) β) :
    (p >>= f).run ws = (f x).run rest := by
  rw [StateT.run_bind, h]
  rfl

theorem Sizes.charCount_eq_ok {s : Sizes} {stated : Int16} (h : (s.layout stated).Sound) :
    ∃ count, s.charCount = .ok count ∧ count.toInt = (s.layout stated).count := by
  obtain ⟨-, hbc, hec, -⟩ := h.bounds
  have hlast := h.last
  have hfirst := h.first
  simp only [layout] at hbc hec hlast hfirst
  have hspan : (Int16.ofInt (s.ec.toInt - s.bc.toInt)).toInt = s.ec.toInt - s.bc.toInt :=
    Int16.toInt_ofInt_of_le (by omega) (by omega)
  refine ⟨Int16.ofInt (s.ec.toInt - s.bc.toInt + 1), ?_, Int16.toInt_ofInt_of_le (by omega) (by omega)⟩
  rw [charCount, short_eq_ok (by omega) (by omega)]
  change short ((Int16.ofInt (s.ec.toInt - s.bc.toInt)).toInt + 1) = _
  rw [hspan, short_eq_ok (by omega) (by omega)]

/-- **The tables lie one after the other inside the data**, if the sizes fit together and the
    data are as long as they say. -/
theorem Sizes.tables_run {s : Sizes} {stated : Int16} (h : (s.layout stated).Sound) {n : Nat}
    (hn : (s.layout stated).lf ≤ 6 + n) :
    ∃ rest, s.tables.run (wordsAt data 6 n) = .ok (tablesAt data (s.layout stated), rest) := by
  obtain ⟨count, hcount, hvalue⟩ := charCount_eq_ok h
  obtain ⟨hlh, hbc, hec, hnw, hnh, hnd, hni, hnl, hnk, hne, hnp⟩ := h.bounds
  have hlh0 : 0 ≤ (s.layout stated).lh := by omega
  have hcount0 := h.count_nonneg
  rw [h.lf_eq] at hn
  obtain ⟨rest, rfl⟩ := Nat.exists_eq_add_of_le (Int.ofNat_le.1 (Int.add_le_add_iff_left 6 |>.1 hn))
  simp only [Nat.add_assoc]
  refine ⟨wordsAt data ((s.layout stated).params + (s.layout stated).np.toNat) rest, ?_⟩
  have hlift : ∀ ws : List Word, (liftM s.charCount : StateT (List Word) (Except Fault) Int16).run ws =
      .ok (count, ws) := by
    intro ws
    rw [hcount]
    rfl
  rw [tables, run_bind_of_ok (hlift _), run_bind_of_ok (table_wordsAt data hlh0 rfl _ _),
    run_bind_of_ok (table_wordsAt data hcount0 hvalue _ _), run_bind_of_ok (table_wordsAt data hnw.le rfl _ _),
    run_bind_of_ok (table_wordsAt data hnh.le rfl _ _), run_bind_of_ok (table_wordsAt data hnd.le rfl _ _),
    run_bind_of_ok (table_wordsAt data hni.le rfl _ _), run_bind_of_ok (table_wordsAt data hnl rfl _ _),
    run_bind_of_ok (table_wordsAt data hnk rfl _ _), run_bind_of_ok (table_wordsAt data hne rfl _ _),
    run_bind_of_ok (table_wordsAt data hnp rfl _ _)]
  rfl

/-! ## Instructions -/

/-- The index that the word of a kern has in the table of kerns. -/
def kernIndex (w : Word) : Nat := 256 * (w.b2.toNat - 128) + w.b3.toNat

/-- The word of an instruction names a kern of the font, if it is about a kern. -/
def NamesKern (w : Word) : Prop := 128 ≤ w.b2 → kernIndex w < l.nk.toNat

/-- The instruction that a word stands for. -/
def instructionOf (w : Word) : Instruction where
  skip := w.b0 % 128
  stop := 128 ≤ w.b0
  nextChar := w.b1
  action :=
    if w.b2 < 128 then .ligature w.b3 (w.b2 / 2 % 2 = 0) (w.b2 % 2 = 0) (w.b2 / 4)
    else .kern (wordAt data (l.kerns + kernIndex w)).signed

theorem accepts_instruction (index : Nat) (w : Word) :
    Accepts (instruction (wordsAt data l.kerns l.nk.toNat) index w) (NamesKern l w) (instructionOf data l w) := by
  by_cases hligature : w.b2 < 128
  · have hstep : instruction (wordsAt data l.kerns l.nk.toNat) index w = .ok (instructionOf data l w) := by
      rw [instruction, instructionOf, if_pos hligature, if_pos hligature]
      rfl
    exact ⟨fun _ => hstep, fun hnot => absurd (fun hkern => absurd hligature (UInt8.not_lt.2 hkern)) hnot⟩
  · have hkern : 128 ≤ w.b2 := UInt8.not_lt.1 hligature
    rw [instruction, instructionOf, if_neg hligature, if_neg hligature, getElem?_wordsAt]
    constructor
    · intro hnames
      rw [if_pos (show 256 * (w.b2.toNat - 128) + w.b3.toNat < l.nk.toNat from hnames hkern)]
      rfl
    · intro hnot
      rw [if_neg fun hin : 256 * (w.b2.toNat - 128) + w.b3.toNat < l.nk.toNat => hnot fun _ => hin]
      exact ⟨.missingKern index, rfl, by simp⟩

/-- **The program is accepted if its kerns exist.** -/
theorem accepts_instructions (index : Nat) (ws : List Word) :
    Accepts (instructions (wordsAt data l.kerns l.nk.toNat) index ws) (∀ w ∈ ws, NamesKern l w)
      (ws.map (instructionOf data l)) := by
  induction ws generalizing index with
  | nil => exact (Accepts.pure []).of_iff (by simp)
  | cons w ws ih =>
    have hsteps : Accepts (instructions (wordsAt data l.kerns l.nk.toNat) index (w :: ws))
        (NamesKern l w ∧ ∀ w ∈ ws, NamesKern l w) ((w :: ws).map (instructionOf data l)) :=
      (accepts_instruction data l index w).bind fun _ => (ih (index + 1)).bind_pure _
    exact hsteps.of_iff List.forall_mem_cons.symm

/-! ## Characters -/

/-- Where the program of a character starts, given its word.  If the instruction there has a
    skip byte above 128, it tells the real start. -/
def startOf (info : Word) : Option Nat :=
  let first := wordAt data (l.program + info.b3.toNat)
  if info.b2 % 4 = 1 then
    if info.b3.toNat < l.nl.toNat ∧ 128 < first.b0 then some (256 * first.b2.toNat + first.b3.toNat)
    else some info.b3.toNat
  else none

/-- The metrics of a character, given its word with four indices. -/
def charOf (info : Word) : CharMetrics where
  width := (wordAt data (l.widths + info.b0.toNat)).signed
  height := (wordAt data (l.heights + (info.b1 / 16).toNat)).signed
  depth := (wordAt data (l.depths + (info.b1 % 16).toNat)).signed
  italicCorrection := (wordAt data (l.italics + (info.b2 / 4).toNat)).signed
  program := startOf data l info

/-- The four indices are inside their tables. -/
def HasDimensions (info : Word) : Prop :=
  info.b0.toNat < l.nw.toNat ∧ (info.b1 / 16).toNat < l.nh.toNat ∧ (info.b1 % 16).toNat < l.nd.toNat ∧
    (info.b2 / 4).toNat < l.ni.toNat

/-- The characters from a code on, given their words. -/
def charactersOf : (code : Nat) → List Word → List (UInt8 × CharMetrics)
  | _, [] => []
  | code, info :: infos =>
    if info.b0 = 0 then charactersOf (code + 1) infos
    else (UInt8.ofNat code, charOf data l info) :: charactersOf (code + 1) infos

theorem programStart_wordsAt (info : Word) :
    programStart (wordsAt data l.program l.nl.toNat) info = startOf data l info := by
  rw [programStart, startOf, getElem?_wordsAt]
  by_cases hin : info.b3.toNat < l.nl.toNat
  · simp only [hin, if_true, true_and]
  · simp only [hin, if_false, false_and]

theorem accepts_dimension (code : UInt8) (start count : Nat) (index : UInt8) :
    Accepts (dimension code (wordsAt data start count) index) (index.toNat < count)
      (wordAt data (start + index.toNat)).signed := by
  rw [dimension, getElem?_wordsAt]
  constructor
  · intro hin
    rw [if_pos hin]
  · intro hin
    rw [if_neg hin]
    exact ⟨.missingDimension code, rfl, by simp⟩

theorem accepts_charMetrics (code : UInt8) (info : Word) :
    Accepts (charMetrics (tablesAt data l) code info) (HasDimensions l info) (charOf data l info) := by
  rw [charOf, ← programStart_wordsAt]
  exact (accepts_dimension data code l.widths l.nw.toNat info.b0).bind fun _ =>
    (accepts_dimension data code l.heights l.nh.toNat (info.b1 / 16)).bind fun _ =>
    (accepts_dimension data code l.depths l.nd.toNat (info.b1 % 16)).bind fun _ =>
    (accepts_dimension data code l.italics l.ni.toNat (info.b2 / 4)).bind_pure _

theorem byte_eq_ok {code : Int16} (hlo : 0 ≤ code.toInt) (hhi : code.toInt ≤ 255) :
    byte code = .ok (UInt8.ofNat code.toInt.toNat) :=
  if_pos ⟨Int16.le_iff_toInt_le.2 hlo, Int16.le_iff_toInt_le.2 hhi⟩

/-- **The characters are accepted if their dimensions exist.**  Their codes are bytes. -/
theorem accepts_characters (code : Int16) (infos : List Word) (hlo : 0 ≤ code.toInt)
    (hhi : code.toInt + infos.length ≤ 256) :
    Accepts (characters (tablesAt data l) code infos) (∀ info ∈ infos, info.b0 ≠ 0 → HasDimensions l info)
      (charactersOf data l code.toInt.toNat infos) := by
  induction infos generalizing code with
  | nil =>
    rw [characters, short_eq_ok (by omega) (by simp only [List.length_nil] at hhi; omega)]
    exact (Accepts.pure []).of_iff (by simp)
  | cons info infos ih =>
    simp only [List.length_cons, Int.natCast_add, Int.natCast_one] at hhi
    have hnext := toInt_next hlo (show code.toInt ≤ 255 by omega)
    have hrest := ih (Int16.ofInt (code.toInt + 1)) (by omega) (by omega)
    rw [hnext, show (code.toInt + 1).toNat = code.toInt.toNat + 1 by omega] at hrest
    have hstep : characters (tablesAt data l) code (info :: infos) =
        if info.b0 = 0 then characters (tablesAt data l) (Int16.ofInt (code.toInt + 1)) infos
        else do
          let c ← charMetrics (tablesAt data l) (UInt8.ofNat code.toInt.toNat) info
          return (UInt8.ofNat code.toInt.toNat, c) ::
            (← characters (tablesAt data l) (Int16.ofInt (code.toInt + 1)) infos) := by
      rw [characters, short_eq_ok (by omega) (by omega), byte_eq_ok hlo (by omega)]
      rfl
    rw [hstep, charactersOf]
    by_cases hinfo : info.b0 = 0
    · rw [if_pos hinfo, if_pos hinfo]
      exact hrest.of_iff (by simp [hinfo])
    · rw [if_neg hinfo, if_neg hinfo]
      refine .of_iff (.bind (accepts_charMetrics data l _ info) fun _ => hrest.bind_pure _) ?_
      simp [hinfo]

/-! ## Files -/

/-- The metrics in a file with the given sizes. -/
def metricsAt : Metrics where
  checksum := (wordAt data 6).unsigned
  designSize := (wordAt data 7).signed
  characters := charactersOf data l l.bc.toNat (wordsAt data l.charInfos l.count.toNat)
  instructions := (wordsAt data l.program l.nl.toNat).map (instructionOf data l)
  params := (wordsAt data l.params l.np.toNat).map Word.signed

theorem accepts_metrics (h : l.Sound) {first : Int16} (hfirst : first.toInt = l.bc) :
    Accepts ((tablesAt data l).metrics first)
      ((∀ w ∈ wordsAt data l.program l.nl.toNat, NamesKern l w) ∧
        ∀ info ∈ wordsAt data l.charInfos l.count.toNat, info.b0 ≠ 0 → HasDimensions l info)
      (metricsAt data l) := by
  obtain ⟨hlh, hbc, hec, -⟩ := h.bounds
  have hlast := h.last
  have hrange := h.first
  obtain ⟨n, hn⟩ : ∃ n, l.lh.toNat = 2 + n := ⟨l.lh.toNat - 2, by omega⟩
  have hheader : (tablesAt data l).header = wordAt data 6 :: wordAt data 7 :: wordsAt data (6 + 2) n := by
    change wordsAt data 6 l.lh.toNat = _
    rw [hn, wordsAt_add]
    rfl
  have hchars := accepts_characters data l first (wordsAt data l.charInfos l.count.toNat) (by omega)
    (by rw [length_wordsAt]; simp only [Layout.count]; omega)
  rw [hfirst] at hchars
  unfold Tables.metrics
  rw [hheader]
  exact (accepts_instructions data l 0 (wordsAt data l.program l.nl.toNat)).bind fun _ => hchars.bind_pure _

/-- What is read after the sizes, if the data are as long as these say. -/
theorem accepts_checked {s : Sizes} {stated : Int16} (h : 4 * (s.layout stated).lf ≤ data.length) :
    Accepts
      (do
        s.check stated
        let r ← s.tables.run (wordsAt data 6 (data.length / 4 - 6))
        r.1.metrics s.bc)
      ((s.layout stated).Sound ∧
        (∀ w ∈ wordsAt data (s.layout stated).program (s.layout stated).nl.toNat,
          NamesKern (s.layout stated) w) ∧
        ∀ info ∈ wordsAt data (s.layout stated).charInfos (s.layout stated).count.toNat, info.b0 ≠ 0 →
          HasDimensions (s.layout stated) info)
      (metricsAt data (s.layout stated)) := by
  refine (s.accepts_check stated).bind fun hsound => ?_
  obtain ⟨rest, htables⟩ := Sizes.tables_run data hsound
    (show (s.layout stated).lf ≤ 6 + ((data.length / 4 - 6 : Nat) : Int) by omega)
  rw [htables]
  exact accepts_metrics data _ hsound rfl

/-- A file whose sizes fit together and lie inside it, and whose kerns and dimensions exist. -/
structure Consistent : Prop where
  room : 24 ≤ data.length
  positive : 0 < (layout data).lf
  complete : 4 * (layout data).lf ≤ data.length
  sound : (layout data).Sound
  kerns : ∀ w ∈ wordsAt data (layout data).program (layout data).nl.toNat, NamesKern (layout data) w
  dimensions : ∀ info ∈ wordsAt data (layout data).charInfos (layout data).count.toNat, info.b0 ≠ 0 →
    HasDimensions (layout data) info

/-- **A file is accepted if it is consistent**, and its metrics are what it has at the places that
    its sizes define. -/
theorem accepts_parse : Accepts (parse data) (Consistent data) (metricsAt data (layout data)) := by
  by_cases hroom : data.length < 24
  · exact ⟨fun h => absurd h.room (Nat.not_le.2 hroom), fun _ => ⟨.tooShort data.length, if_pos hroom, by simp⟩⟩
  · obtain ⟨stated, s, hsizes, hlayout⟩ := sizes_words (Nat.not_lt.1 hroom)
    have hparse : parse data = if stated ≤ 0 ∨ data.length < 4 * stated.toInt.toNat then
        .error (.badLength stated data.length) else (do
          s.check stated
          let r ← s.tables.run (wordsAt data 6 (data.length / 4 - 6))
          r.1.metrics s.bc) := by
      rw [parse, if_neg hroom, hsizes]
      rfl
    have hlength : ¬ (stated ≤ 0 ∨ data.length < 4 * stated.toInt.toNat) ↔
        0 < (layout data).lf ∧ 4 * (layout data).lf ≤ data.length := by
      rw [← hlayout, Int16.le_iff_toInt_le, Int16.toInt_zero]
      simp only [Sizes.layout]
      omega
    rw [hparse, ← hlayout]
    refine .of_iff (.ensure (by simp) fun hrefusal => accepts_checked data ?_) ?_
    · rw [hlayout]
      exact (hlength.1 hrefusal).2
    · rw [hlength, hlayout]
      constructor
      · rintro ⟨⟨hpositive, hcomplete⟩, hsound, hkerns, hdimensions⟩
        exact ⟨Nat.not_lt.1 hroom, hpositive, hcomplete, hsound, hkerns, hdimensions⟩
      · intro h
        exact ⟨⟨h.positive, h.complete⟩, h.sound, h.kerns, h.dimensions⟩

end DviMarkup.Tfm
