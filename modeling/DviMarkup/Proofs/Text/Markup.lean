/-
  Texts in markup.

  * `Straddles` holds of a text that stands partly in one text and partly in the next,
    and `EndsWithin` of a text at whose end another one may have begun;
  * `replaceAll_append`: texts are replaced apart from each other if nothing that is
    replaced straddles them;
  * `straddles_of_straddles_replaceAll`: replacing brings together no text that has
    nothing in common with what is put in;
  * `mem_replaceAll`: nothing else is put in;
  * `replaceAll_of_not_infix` and `count_replaceAll_lt`: a text stays as it is if there is nothing
    to replace, and else it does not.
-/
import Mathlib.Data.List.Infix
import DviMarkup.Text.Blank

namespace DviMarkup.Text

/-! ## Prefixes -/

/-- A text begins as a name does if what follows the name does not go on with it. -/
theorem isPrefixOf?_append_cons {p s : List Char} {d : Char} (hd : d ∉ p) (rest : List Char) :
    p.isPrefixOf? (s ++ d :: rest) = (p.isPrefixOf? s).map (· ++ d :: rest) := by
  induction p generalizing s with
  | nil => rfl
  | cons c p ih =>
    rw [List.mem_cons, not_or] at hd
    cases s with
    | nil =>
      have hc : (c == d) = false := beq_false_of_ne (Ne.symm hd.1)
      simp [List.isPrefixOf?, hc]
    | cons e s =>
      simp only [List.cons_append, List.isPrefixOf?]
      split
      · exact ih hd.2
      · rfl

/-! ## Texts that meet -/

/-- Whether a text stands partly at the end of one text and partly at the beginning of the
    next. -/
def Straddles (p s t : List Char) : Prop :=
  ∃ u v, u ++ v = p ∧ u ≠ [] ∧ v ≠ [] ∧ u <:+ s ∧ v <+: t

/-- Whether a text ends with the beginning of another, but not with all of it. -/
def EndsWithin (p s : List Char) : Prop :=
  ∃ u, u ≠ [] ∧ u <:+ s ∧ u <+: p ∧ u ≠ p

instance (p s : List Char) : Decidable (EndsWithin p s) :=
  decidable_of_iff (∃ u ∈ s.tails, u ≠ [] ∧ u <+: p ∧ u ≠ p) <| by
    simp only [EndsWithin, List.mem_tails]
    exact exists_congr fun u => and_left_comm

section Meet

variable {p q s s' t : List Char} {c d : Char}

theorem Straddles.endsWithin (h : Straddles p s t) : EndsWithin p s := by
  obtain ⟨u, v, rfl, hu, hv, hs, -⟩ := h
  exact ⟨u, hu, hs, List.prefix_append u v, fun same => hv (List.self_eq_append_right.mp same)⟩

theorem Straddles.of_suffix (h : Straddles p s t) (hs : s <:+ s') : Straddles p s' t := by
  obtain ⟨u, v, hp, hu, hv, hus, hvt⟩ := h
  exact ⟨u, v, hp, hu, hv, hus.trans hs, hvt⟩

theorem EndsWithin.of_suffix (h : EndsWithin p s) (hs : s <:+ s') : EndsWithin p s' := by
  obtain ⟨u, hu, hus, hup, ne⟩ := h
  exact ⟨u, hu, hus.trans hs, hup, ne⟩

theorem EndsWithin.of_prefix (h : EndsWithin p s) (hp : p <+: q) : EndsWithin q s := by
  obtain ⟨u, hu, hus, hup, ne⟩ := h
  refine ⟨u, hu, hus, hup.trans hp, ?_⟩
  rintro rfl
  exact ne (hup.eq_of_length (Nat.le_antisymm hup.length_le hp.length_le))

/-- The first character of a text that straddles two is in the first of them. -/
theorem Straddles.head_mem (h : Straddles (c :: p) s t) : c ∈ s := by
  obtain ⟨u, v, hp, hu, -, hus, -⟩ := h
  obtain ⟨d, u, rfl⟩ := List.exists_cons_of_ne_nil hu
  obtain ⟨rfl, -⟩ := List.cons.inj hp
  exact hus.subset List.mem_cons_self

/-- The first character of the second text is in a text that straddles both, and not as its
    first one. -/
theorem Straddles.mem_tail (h : Straddles (c :: p) s (d :: t)) : d ∈ p := by
  obtain ⟨u, v, hp, hu, hv, -, hvt⟩ := h
  obtain ⟨e, u, rfl⟩ := List.exists_cons_of_ne_nil hu
  obtain ⟨f, v, rfl⟩ := List.exists_cons_of_ne_nil hv
  obtain ⟨rfl, -⟩ := List.cons_prefix_cons.mp hvt
  obtain ⟨-, rfl⟩ := List.cons.inj hp
  exact List.mem_append_right u List.mem_cons_self

/-- Whether a text begins with another does not depend on what comes after it, unless the
    other one goes on there. -/
theorem prefix_append_iff (h : ¬Straddles p s t) (hs : s ≠ []) : p <+: s ++ t ↔ p <+: s := by
  constructor
  · intro hp
    rcases List.prefix_or_prefix_of_prefix hp (List.prefix_append s t) with within | ⟨v, rfl⟩
    · exact within
    · by_cases hv : v = []
      · rw [hv, List.append_nil]
      · exact absurd ⟨s, v, rfl, hs, hv, List.suffix_refl s,
          (List.prefix_append_right_inj s).mp hp⟩ h
  · exact fun hp => hp.trans (List.prefix_append s t)

theorem isPrefixOf_append_eq (h : ¬Straddles p s t) (hs : s ≠ []) :
    p.isPrefixOf (s ++ t) = p.isPrefixOf s := by
  rw [Bool.eq_iff_iff, List.isPrefixOf_iff_prefix, List.isPrefixOf_iff_prefix,
    prefix_append_iff h hs]

/-- What has nothing in common with the first text ends in the second one. -/
theorem suffix_of_suffix_append (apart : ∀ c ∈ p, c ∉ s) (h : p <:+ s ++ t) : p <:+ t := by
  rcases List.suffix_or_suffix_of_suffix h (List.suffix_append s t) with within | ⟨w, rfl⟩
  · exact within
  · obtain ⟨front, hfront⟩ := h
    rw [← List.append_assoc] at hfront
    have hs : front ++ w = s := List.append_cancel_right hfront
    cases w with
    | nil => exact List.suffix_refl t
    | cons d w =>
      exact absurd (hs ▸ List.mem_append_right front List.mem_cons_self)
        (apart d List.mem_cons_self)

end Meet

/-! ## Replacing -/

section Replace

variable {first : Char} {rest new s : List Char}

theorem replaceAll_cons_of_ne {c : Char} (hc : c ≠ first) (s : List Char) :
    replaceAll first rest new (c :: s) = c :: replaceAll first rest new s := by
  rw [replaceAll, if_neg fun h => hc h.1]

/-- **Texts are replaced apart from each other** if nothing that is replaced straddles
    them. -/
theorem replaceAll_append {t : List Char} (apart : ¬Straddles (first :: rest) s t) :
    replaceAll first rest new (s ++ t) =
      replaceAll first rest new s ++ replaceAll first rest new t := by
  induction s using replaceAll.induct first rest with
  | case1 => rw [List.nil_append, replaceAll, List.nil_append]
  | case2 c s h ih =>
    have within : rest <+: s := List.isPrefixOf_iff_prefix.mp h.2
    have found : rest.isPrefixOf (s ++ t) = true :=
      List.isPrefixOf_iff_prefix.mpr (within.trans (List.prefix_append s t))
    have later : s.drop rest.length <:+ c :: s :=
      (List.drop_suffix rest.length s).trans (List.suffix_cons c s)
    rw [List.cons_append, replaceAll, if_pos ⟨h.1, found⟩,
      List.drop_append_of_le_length within.length_le, ih fun cut => apart (cut.of_suffix later),
      replaceAll, if_pos h, List.append_assoc]
  | case3 c s h ih =>
    have absent : ¬(c = first ∧ rest.isPrefixOf (s ++ t) = true) := by
      rintro ⟨rfl, found⟩
      have within := (prefix_append_iff apart (List.cons_ne_nil c s)).mp
        (List.cons_prefix_cons.mpr ⟨rfl, List.isPrefixOf_iff_prefix.mp found⟩)
      exact h ⟨rfl, List.isPrefixOf_iff_prefix.mpr (List.cons_prefix_cons.mp within).2⟩
    rw [List.cons_append, replaceAll, if_neg absent,
      ih fun cut => apart (cut.of_suffix (List.suffix_cons c s)), replaceAll, if_neg h,
      List.cons_append]

/-- What is replaced does not go beyond a character that it does not have. -/
theorem replaceAll_append_cons {d : Char} (hfirst : d ≠ first) (hrest : d ∉ rest)
    (s t : List Char) :
    replaceAll first rest new (s ++ d :: t) =
      replaceAll first rest new s ++ d :: replaceAll first rest new t := by
  rw [replaceAll_append fun cut => hrest cut.mem_tail, replaceAll_cons_of_ne hfirst]

/-- What is in a text after replacing was in it before, or was put in. -/
theorem mem_replaceAll {c : Char} (h : c ∈ replaceAll first rest new s) : c ∈ new ∨ c ∈ s := by
  induction s using replaceAll.induct first rest with
  | case1 =>
    rw [replaceAll] at h
    exact .inr h
  | case2 d s hd ih =>
    rw [replaceAll, if_pos hd, List.mem_append] at h
    rcases h with h | h
    · exact .inl h
    · exact (ih h).imp_right fun h => List.mem_cons_of_mem _ (List.mem_of_mem_drop h)
  | case3 d s hd ih =>
    rw [replaceAll, if_neg hd, List.mem_cons] at h
    rcases h with rfl | h
    · exact .inr List.mem_cons_self
    · exact (ih h).imp_right (List.mem_cons_of_mem _)

/-- Nothing is replaced if there is nothing to replace. -/
theorem replaceAll_of_not_infix (absent : ¬first :: rest <:+: s) :
    replaceAll first rest new s = s := by
  induction s using replaceAll.induct first rest with
  | case1 => rw [replaceAll]
  | case2 c s h ih =>
    have found : first :: rest <+: c :: s :=
      List.cons_prefix_cons.mpr ⟨h.1.symm, List.isPrefixOf_iff_prefix.mp h.2⟩
    exact absurd found.isInfix absent
  | case3 c s h ih =>
    rw [replaceAll, if_neg h, ih fun found => absent (List.infix_cons found)]

theorem replaceAll_of_not_mem (hs : first ∉ s) : replaceAll first rest new s = s :=
  replaceAll_of_not_infix fun found => hs (found.subset List.mem_cons_self)

/-- What is replaced does not begin in the first text. -/
theorem replaceAll_append_of_not_mem (hs : first ∉ s) (t : List Char) :
    replaceAll first rest new (s ++ t) = s ++ replaceAll first rest new t := by
  rw [replaceAll_append fun cut => hs cut.head_mem, replaceAll_of_not_mem hs]

section Survival

variable {p : List Char} (apart : ∀ c ∈ p, c ∉ new) (hnew : new ≠ [])

include apart hnew

theorem prefix_of_prefix_replaceAll (h : p <+: replaceAll first rest new s) : p <+: s := by
  induction s using replaceAll.induct first rest generalizing p with
  | case1 => rwa [replaceAll] at h
  | case2 c s found ih =>
    rw [replaceAll, if_pos found] at h
    cases p with
    | nil => exact List.nil_prefix
    | cons d p =>
      obtain ⟨e, es, rfl⟩ := List.exists_cons_of_ne_nil hnew
      obtain ⟨rfl, -⟩ := List.cons_prefix_cons.mp h
      exact absurd List.mem_cons_self (apart d List.mem_cons_self)
  | case3 c s absent ih =>
    rw [replaceAll, if_neg absent] at h
    cases p with
    | nil => exact List.nil_prefix
    | cons d p =>
      obtain ⟨rfl, later⟩ := List.cons_prefix_cons.mp h
      exact List.cons_prefix_cons.mpr
        ⟨rfl, ih (fun c hc => apart c (List.mem_cons_of_mem d hc)) later⟩

/-- If nothing that was put in is to be found, nothing was replaced. -/
theorem replaceAll_eq_self (h : replaceAll first rest new s = p) : p = s := by
  induction s using replaceAll.induct first rest generalizing p with
  | case1 => rw [← h, replaceAll]
  | case2 c s found ih =>
    obtain ⟨e, es, rfl⟩ := List.exists_cons_of_ne_nil hnew
    rw [replaceAll, if_pos found] at h
    exact absurd List.mem_cons_self (apart e (h ▸ List.mem_cons_self))
  | case3 c s absent ih =>
    rw [replaceAll, if_neg absent] at h
    subst h
    rw [ih (fun d hd => apart d (List.mem_cons_of_mem c hd)) rfl]

theorem suffix_of_suffix_replaceAll (h : p <:+ replaceAll first rest new s) : p <:+ s := by
  induction s using replaceAll.induct first rest with
  | case1 => rwa [replaceAll] at h
  | case2 c s found ih =>
    rw [replaceAll, if_pos found] at h
    have later : s.drop rest.length <:+ c :: s :=
      (List.drop_suffix rest.length s).trans (List.suffix_cons c s)
    exact (ih (suffix_of_suffix_append apart h)).trans later
  | case3 c s absent ih =>
    have step : replaceAll first rest new (c :: s) = c :: replaceAll first rest new s := by
      rw [replaceAll, if_neg absent]
    rw [step] at h
    rcases List.suffix_cons_iff.mp h with whole | later
    · rw [replaceAll_eq_self apart hnew (step.trans whole.symm)]
    · exact (ih later).trans (List.suffix_cons c s)

/-- Replacing brings together no text that has nothing in common with what is put in. -/
theorem straddles_of_straddles_replaceAll {t : List Char}
    (h : Straddles p (replaceAll first rest new s) (replaceAll first rest new t)) :
    Straddles p s t := by
  obtain ⟨u, v, rfl, hu, hv, hus, hvt⟩ := h
  exact ⟨u, v, rfl, hu, hv,
    suffix_of_suffix_replaceAll (fun c hc => apart c (List.mem_append_left v hc)) hnew hus,
    prefix_of_prefix_replaceAll (fun c hc => apart c (List.mem_append_right u hc)) hnew hvt⟩

end Survival

section Count

variable (hnew : first ∉ new)

include hnew

/-- What begins a place to replace does not become more. -/
theorem count_replaceAll_le : (replaceAll first rest new s).count first ≤ s.count first := by
  induction s using replaceAll.induct first rest with
  | case1 => simp only [replaceAll, Nat.le_refl]
  | case2 c s h ih =>
    rw [replaceAll, if_pos h, List.count_append, List.count_eq_zero_of_not_mem hnew, Nat.zero_add]
    exact Nat.le_trans ih (((List.drop_sublist _ s).trans (List.sublist_cons_self c s)).count_le _)
  | case3 c s h ih =>
    rw [replaceAll, if_neg h, List.count_cons, List.count_cons]
    exact Nat.add_le_add_right ih _

/-- It becomes less if there is something to replace. -/
theorem count_replaceAll_lt (found : first :: rest <:+: s) :
    (replaceAll first rest new s).count first < s.count first := by
  induction s using replaceAll.induct first rest with
  | case1 => exact absurd (List.infix_nil.mp found) (List.cons_ne_nil _ _)
  | case2 c s h ih =>
    have le : (replaceAll first rest new (s.drop rest.length)).count first ≤ s.count first :=
      Nat.le_trans (count_replaceAll_le hnew) ((List.drop_sublist _ s).count_le first)
    rw [replaceAll, if_pos h, List.count_append, List.count_eq_zero_of_not_mem hnew, Nat.zero_add,
      h.1, List.count_cons_self]
    omega
  | case3 c s h ih =>
    rw [replaceAll, if_neg h, List.count_cons, List.count_cons]
    rcases List.infix_cons_iff.mp found with here | later
    · have here := List.cons_prefix_cons.mp here
      exact absurd ⟨here.1.symm, List.isPrefixOf_iff_prefix.mpr here.2⟩ h
    · exact Nat.add_lt_add_right (ih later) _

end Count

end Replace

/-! ## Occurrences in escaped texts -/

section Occurrences

variable {escape : Char → List Char} {safe : Char → Prop} {first : Char} {p s : List Char}

theorem infix_of_infix_append (absent : first ∉ s) {t : List Char}
    (h : first :: p <:+: s ++ t) : first :: p <:+: t := by
  induction s with
  | nil => exact h
  | cons d s ih =>
    rw [List.mem_cons, not_or] at absent
    rcases List.infix_cons_iff.mp h with here | later
    · exact absurd (List.cons_prefix_cons.mp here).1 absent.1
    · exact ih absent.2 later

/-- What begins an escaped text begins the text, unless it goes into what is put in. -/
theorem prefix_of_prefix_flatMap
    (escaped : ∀ c, escape c = [c] ∨ ∃ d t, escape c = d :: t ∧ ¬safe d)
    (hsafe : ∀ c ∈ p, safe c) (h : p <+: s.flatMap escape) : p <+: s := by
  induction p generalizing s with
  | nil => exact List.nil_prefix
  | cons c p ih =>
    obtain ⟨hc, hp⟩ := List.forall_mem_cons.mp hsafe
    cases s with
    | nil => exact absurd (List.prefix_nil.mp h) (List.cons_ne_nil c p)
    | cons d s =>
      rw [List.flatMap_cons] at h
      rcases escaped d with same | ⟨e, t, put, other⟩
      · rw [same] at h
        obtain ⟨rfl, later⟩ := List.cons_prefix_cons.mp h
        exact List.cons_prefix_cons.mpr ⟨rfl, ih hp later⟩
      · rw [put] at h
        obtain ⟨rfl, -⟩ := List.cons_prefix_cons.mp h
        exact absurd hc other

/-- **An escaped text has what is safe where the text has it**, if what is put in has not the
    first character of it and begins with nothing safe. -/
theorem infix_flatMap_iff
    (escaped : ∀ c, escape c = [c] ∨ ∃ d t, escape c = d :: t ∧ ¬safe d ∧ first ∉ d :: t)
    (same : ∀ c, safe c → escape c = [c]) (hsafe : ∀ c ∈ first :: p, safe c) :
    first :: p <:+: s.flatMap escape ↔ first :: p <:+: s := by
  constructor
  · intro h
    induction s with
    | nil => exact h
    | cons d s ih =>
      rw [List.flatMap_cons] at h
      rcases escaped d with single | ⟨e, t, put, -, absent⟩
      · rw [single] at h
        rcases List.infix_cons_iff.mp h with here | later
        · have front : first :: p <+: (d :: s).flatMap escape := by
            rwa [List.flatMap_cons, single]
          refine (prefix_of_prefix_flatMap (fun c => ?_) hsafe front).isInfix
          exact (escaped c).imp_right fun ⟨d, t, put, other, _⟩ => ⟨d, t, put, other⟩
        · exact List.infix_cons (ih later)
      · rw [put] at h
        exact List.infix_cons (ih (infix_of_infix_append absent h))
  · rintro ⟨front, back, rfl⟩
    have whole : (first :: p).flatMap escape = first :: p := by
      rw [List.flatMap_congr fun c hc => same c (hsafe c hc)]
      exact List.flatMap_singleton' _
    rw [List.flatMap_append, List.flatMap_append, whole]
    exact ⟨_, _, rfl⟩

end Occurrences

end DviMarkup.Text
