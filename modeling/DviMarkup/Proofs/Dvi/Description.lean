/-
  Descriptions of operations take one line each.

  * `OneLine` holds of texts without line ends, among them numbers, quoted texts, and what is
    laid out from such texts;
  * `Dvi.oneLine_describe`: so it holds of every description.
-/
import DviMarkup.Dvi.Describe

namespace DviMarkup

/-- Whether a text has no line end in it. -/
def OneLine (s : String) : Prop :=
  '\n' ∉ s.toList

instance (s : String) : Decidable (OneLine s) :=
  inferInstanceAs (Decidable ('\n' ∉ s.toList))

theorem OneLine.append {s t : String} (hs : OneLine s) (ht : OneLine t) : OneLine (s ++ t) := by
  rw [OneLine, String.toList_append, List.mem_append]
  exact fun h => h.elim hs ht

theorem OneLine.intercalate {separator : String} (hseparator : OneLine separator)
    {texts : List String} (h : ∀ text ∈ texts, OneLine text) :
    OneLine (separator.intercalate texts) := by
  induction texts with
  | nil => exact (by decide : OneLine "")
  | cons text texts ih =>
    have rest := ih fun text h' => h text (List.mem_cons_of_mem _ h')
    cases texts with
    | nil =>
      rw [String.intercalate_singleton]
      exact h text List.mem_cons_self
    | cons next texts =>
      rw [String.intercalate_cons_cons]
      exact ((h text List.mem_cons_self).append hseparator).append rest

/-! ## Numbers -/

theorem exists_digitChar_of_mem_toDigits {base n : Nat} {c : Char} (hbase : 1 < base)
    (h : c ∈ Nat.toDigits base n) : ∃ d, c = Nat.digitChar d := by
  induction n using Nat.strongRecOn with
  | ind n ih =>
    rw [Nat.toDigits_eq_if hbase] at h
    split at h
    · exact ⟨n, List.mem_singleton.mp h⟩
    next large =>
      rcases List.mem_append.mp h with h | h
      · exact ih (n / base) (Nat.div_lt_self (by omega) hbase) h
      · exact ⟨n % base, List.mem_singleton.mp h⟩

theorem lineEnd_notMem_toDigits {base n : Nat} (hbase : 1 < base) :
    '\n' ∉ Nat.toDigits base n := by
  intro h
  obtain ⟨d, hd⟩ := exists_digitChar_of_mem_toDigits hbase h
  exact Nat.digitChar_ne '\n' (by decide) hd.symm

@[simp]
theorem oneLine_nat (n : Nat) : OneLine n.repr := by
  rw [OneLine, Nat.toList_repr]
  exact lineEnd_notMem_toDigits (by decide)

@[simp]
theorem oneLine_int (n : Int) : OneLine n.repr := by
  cases n with
  | ofNat n => exact oneLine_nat n
  | negSucc n => exact (by decide : OneLine "-").append (oneLine_nat (n + 1))

@[simp]
theorem oneLine_bool (b : Bool) : OneLine (toString b) := by
  cases b <;> decide

/-! ## Quoted texts -/

/-- A line end gets a name, and all other characters are spelled without one. -/
theorem lineEnd_notMem_quotedChar (c : Char) : '\n' ∉ Text.quotedChar c := by
  by_cases lineEnd : c = '\n'
  · subst lineEnd
    decide
  unfold Text.quotedChar
  iterate 5
    split
    · decide
  split
  · exact fun h => lineEnd (List.mem_singleton.mp h).symm
  · intro h
    rcases List.mem_append.mp h with h | h
    · rcases List.mem_append.mp h with h | h
      · exact absurd h (by decide)
      · exact lineEnd_notMem_toDigits (by decide) h
    · exact absurd h (by decide)

@[simp]
theorem oneLine_quoted (s : String) : OneLine (Text.quoted s) := by
  rw [OneLine, Text.quoted, String.toList_ofList, List.mem_append, List.mem_cons,
    List.mem_flatMap]
  rintro ((quote | ⟨c, -, h⟩) | quote)
  · exact absurd quote (by decide)
  · exact lineEnd_notMem_quotedChar c h
  · exact absurd quote (by decide)

/-! ## Operations -/

namespace Dvi

theorem oneLine_named {name : String} (hname : OneLine name) {operands : List (String × String)}
    (h : ∀ o ∈ operands, OneLine o.1 ∧ OneLine o.2) : OneLine (named name operands) := by
  refine ((hname.append (by decide)).append (OneLine.intercalate (by decide) ?_)).append (by decide)
  intro text htext
  obtain ⟨o, ho, rfl⟩ := List.mem_map.mp htext
  exact ((h o ho).1.append (by decide)).append (h o ho).2

theorem oneLine_listed {values : List String} (h : ∀ value ∈ values, OneLine value) :
    OneLine (listed values) :=
  (OneLine.append (by decide) (OneLine.intercalate (by decide) h)).append (by decide)

theorem oneLine_register (r : Register) : OneLine r.describe := by
  cases r <;> decide

/-- **Every description is one line.** -/
theorem oneLine_describe (op : Op) : OneLine op.describe := by
  cases op with
  | noOp | endPage | push | pop => decide
  | right d => exact ((by decide : OneLine "Right(").append (oneLine_int _)).append (by decide)
  | down d => exact ((by decide : OneLine "Down(").append (oneLine_int _)).append (by decide)
  | moveBy r => exact ((by decide : OneLine "Move(").append (oneLine_register r)).append (by decide)
  | setMoveBy r d =>
    exact ((((by decide : OneLine "SetVar(").append (oneLine_register r)).append
      (by decide)).append (oneLine_int _)).append (by decide)
  | enableFont number =>
    exact ((by decide : OneLine "EnableFont(").append (oneLine_nat _)).append (by decide)
  | special payload =>
    refine ((by decide : OneLine "Special(").append (oneLine_listed ?_)).append (by decide)
    simp
  | beginPage parameters previous =>
    have parameters : OneLine (listed (parameters.toList.map (·.toInt.repr))) :=
      oneLine_listed (by simp)
    exact oneLine_named (by decide) (by simpa +decide using parameters)
  | _ => exact oneLine_named (by decide) (by simp +decide)

end Dvi

end DviMarkup
