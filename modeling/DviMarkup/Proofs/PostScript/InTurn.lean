/-
  Pieces of code in turn.

  Specials with code that are adjacent are joined, with blanks between them.  Running the
  joined code comes to the same as running the pieces one after the other.

  * `tokens_append`: code with a blank and other code after it has the tokens of both;
  * `run_append`: so it is run as one and then the other;
  * `run_intercalate`: joined pieces of code are run in turn, up to the first that fails.
-/
import Mathlib.Control.Monad.Basic
import DviMarkup.Number.Binary64
import DviMarkup.Proofs.PostScript.Pieces
import DviMarkup.Proofs.Text.Utf8
import DviMarkup.PostScript.Session

namespace DviMarkup.PostScript

/-- Whether code can be scanned to its end and then is not within a comment. -/
def Closed (code : String) : Prop :=
  Lexes (Utf8.encode code) ∧ ¬EndsInComment (Utf8.encode code)

instance (code : String) : Decidable (Closed code) :=
  inferInstanceAs (Decidable (_ ∧ ¬_))

/-- Code with a blank and other code after it has the tokens of both. -/
theorem tokens_append {code : String} (closed : Closed code) (next : String) :
    tokens (code ++ " " ++ next) = tokens code ++ tokens next := by
  have blank : Utf8.encode " " = [0x20] := by
    rw [Utf8.encode_eq_flatMap]
    rfl
  have skipped (bytes : List UInt8) : tokensOf (0x20 :: bytes) = tokensOf bytes := by
    rw [tokensOf_cons]
    rfl
  have stops : Stops (0x20 :: Utf8.encode next) := Or.inl rfl
  rw [tokens_eq, tokens_eq, tokens_eq, Utf8.encode_append, Utf8.encode_append, blank,
    List.append_assoc, List.singleton_append, tokensOf_append closed.1 closed.2 stops, skipped]

/-- Within a comment the blank and the other code are some of it. -/
example : tokens ("1 %" ++ " " ++ "2") ≠ tokens "1 %" ++ tokens "2" := by decide +kernel

namespace Session

variable {α : Type} [Scalar α]

/-- Tokens can be run in two goes. -/
theorem runTokens_append (ts us : List (Except Fault Token)) :
    (runTokens (ts ++ us) : Action α Unit) = runTokens ts >>= fun _ => runTokens us := by
  induction ts with
  | nil => rfl
  | cons t ts ih =>
    cases t with
    | error fault => rfl
    | ok t => rw [List.cons_append, runTokens, runTokens, ih, bind_assoc]

theorem run_append {code : String} (closed : Closed code) (next : String) :
    (run (code ++ " " ++ next) : Action α Unit) = run code >>= fun _ => run next := by
  rw [run, tokens_append closed, runTokens_append]
  rfl

/-- **Joined pieces of code are run in turn**, up to the first that fails.  The operands, the
    typesetter and the failure are the same, whatever there was before. -/
theorem run_intercalate {codes : List String} (closed : ∀ code ∈ codes.dropLast, Closed code) :
    (run (" ".intercalate codes) : Action α Unit) = codes.forM run := by
  induction codes with
  | nil =>
    have none : tokens "" = [] := by
      rw [tokens_eq, Utf8.encode_eq_flatMap]
      exact tokensOf_nil
    rw [String.intercalate_nil, run, none]
    rfl
  | cons code codes ih =>
    cases codes with
    | nil =>
      rw [String.intercalate_singleton]
      exact bind_pure_unit.symm
    | cons next codes =>
      rw [List.dropLast_cons_cons, List.forall_mem_cons] at closed
      rw [String.intercalate_cons_cons, run_append closed.1, ih closed.2]
      rfl

/-- Pieces with a comment, with delimiters that are none and with an operator that fails. -/
def remarked : List String :=
  ["% move on\n10 20 translate", "gsave (a\\)b \x7b) pop /%\n", "", "2 \x7b% 3\x7d grestore grestore",
    "("]

/-- The second of two restoring operators fails, with the pieces in turn and so with them
    joined. -/
theorem run_intercalate_remarked :
    (∀ code ∈ remarked.dropLast, Closed code) ∧
      (run (" ".intercalate remarked) : Action Binary64 Unit) = remarked.forM run ∧
      ((remarked.forM run).run.run ⟨[], .silent (.ofList [])⟩ :
        Except Failure Unit × Session Binary64).1 = .error (.postScript .nothingSaved) := by
  have closed : ∀ code ∈ remarked.dropLast, Closed code := by
    decide +kernel
  exact ⟨closed, run_intercalate closed, by decide +kernel⟩

end Session

end DviMarkup.PostScript
