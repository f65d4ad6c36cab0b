/-
  What is written to a path is found there.

  * `Target.place?` is the place at which a target has room for a file;
  * `FileTree.walk_put`: names that lead to a place lead to what is put there;
  * `FileTree.entry_write`: a path leads to what was written to it.
-/
import DviMarkup.Files

namespace DviMarkup

/-- The place for a file that a target is, whether there is a file or not. -/
def Target.place? : Target → Option Place
  | file place _ | free place => some place
  | directory | blocked _ => none

namespace FileTree

variable {t : FileTree} {place : Place} {content : List UInt8}

/-- Directories stay, since no file leaves its place. -/
theorem isDirectory_put {here : Place} (h : t.isDirectory here = true) :
    (t.put place content).isDirectory here = true := by
  rw [isDirectory, Bool.or_eq_true, List.any_eq_true] at h ⊢
  refine h.imp_right ?_
  rintro ⟨f, hf, above⟩
  by_cases replaced : f.1 = place
  · exact ⟨(place, content), List.mem_cons_self, replaced ▸ above⟩
  · refine ⟨f, List.mem_cons_of_mem _ (List.mem_filter.mpr ⟨hf, ?_⟩), above⟩
    exact decide_eq_true replaced

/-- A file is no directory. -/
theorem isDirectory_put_self (h : t.isDirectory place = false) :
    (t.put place content).isDirectory place = false := by
  rw [isDirectory, Bool.or_eq_false_iff, List.any_eq_false] at h ⊢
  refine h.imp_right fun h f hf => ?_
  rcases List.mem_cons.mp hf with rfl | hf
  · simp
  · exact h f (List.mem_filter.mp hf).1

theorem lookup_put : (t.put place content).files.lookup place = some content :=
  List.lookup_cons_self

/-- Names that lead to the place of a file lead to what is put there. -/
theorem walk_put {directory : Place} {names : List (List Char)}
    (h : (t.walk directory names).place? = some place) :
    (t.put place content).walk directory names = .file place content := by
  induction names generalizing directory with
  | nil => cases h
  | cons name rest ih =>
    unfold walk at h ⊢
    dsimp only at h ⊢
    split at h
    · cases h
    next short =>
    rw [if_neg short]
    split at h
    next isDir =>
      rw [if_pos (isDirectory_put isDir)]
      exact ih h
    next notDir =>
    -- only the last name can lead to a file
    obtain ⟨rfl, rfl⟩ : directory.enter name = place ∧ rest = [] := by
      split at h
      · exact ⟨Option.some.inj h, rfl⟩
      · cases h
      · exact ⟨Option.some.inj h, rfl⟩
      · cases h
    rw [if_neg (Bool.not_eq_true _ ▸ isDirectory_put_self (eq_false_of_ne_true notDir)), lookup_put]

/-- An empty name at the end leads to a directory, if anywhere. -/
theorem place?_walk_slash {directory : Place} (h : t.isDirectory directory = true)
    (names : List (List Char)) : (t.walk directory (names ++ [[]])).place? = none := by
  induction names generalizing directory with
  | nil =>
    have here : directory.enter [] = directory := rfl
    have short : ¬isTooLong [] = true := by decide
    rw [List.nil_append, walk.eq_def]
    dsimp only
    rw [if_neg short, here, if_pos h]
    rfl
  | cons name names ih =>
    rw [List.cons_append, walk.eq_def]
    dsimp only
    split
    · rfl
    · split
      next isDir => exact ih isDir
      · have more : names ++ [[]] ≠ [] :=
          List.append_ne_nil_of_right_ne_nil _ (List.cons_ne_nil _ _)
        split
        · exact absurd ‹_› more
        · rfl
        · exact absurd ‹_› more
        · rfl

theorem isDirectory_pathStart (t : FileTree) (path : String) :
    t.isDirectory (pathStart path) = true := by
  unfold pathStart
  split <;> rfl

/-- A path that has a place for a file leads there. -/
theorem followForFile_eq {path : String} (h : (t.followForFile path).place? = some place) :
    t.followForFile path = t.follow path := by
  unfold followForFile at h ⊢
  dsimp only at h ⊢
  split at h
  · rw [place?_walk_slash (isDirectory_pathStart t path)] at h
    cases h
  · rfl

/-- **A path leads to what was written to it.** -/
theorem entry_write {path : String} {t' : FileTree} (h : t.write path content = .ok t') :
    t'.entry path = .file content := by
  obtain ⟨place, hplace, rfl⟩ :
      ∃ place, (t.followForFile path).place? = some place ∧ t.put place content = t' := by
    unfold write at h
    split at h
    · exact ⟨_, by rw [‹t.followForFile path = _›]; rfl, Except.ok.inj h⟩
    · exact ⟨_, by rw [‹t.followForFile path = _›]; rfl, Except.ok.inj h⟩
    · cases h
    · cases h
  rw [followForFile_eq hplace] at hplace
  unfold follow at hplace
  unfold entry follow
  cases fault : pathFault? path with
  | some fault' =>
    rw [fault] at hplace
    cases hplace
  | none =>
    rw [fault] at hplace
    dsimp only
    rw [walk_put hplace]

end FileTree

end DviMarkup
