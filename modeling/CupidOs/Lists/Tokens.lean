import Mathlib.Data.List.Basic
import Mathlib.Data.List.TakeWhile

/-!
# Splitting a list at runs of a separator

`tokens` are the maximal separator-free pieces of a list, in order.  The lemmas
describe a scanner that repeatedly skips separators and takes the next piece:
each round of such a scanner removes exactly one token.
-/

namespace CupidOs.Lists

open List

universe u

variable {α : Type u} [DecidableEq α]

/-- The non-empty pieces of a list between occurrences of `separator`. -/
def tokens (separator : α) (list : List α) : List (List α) :=
  (list.splitOn separator).filter (fun token => !token.isEmpty)

variable {separator : α}

@[simp]
lemma tokens_nil : tokens separator [] = [] :=
  rfl

@[simp]
lemma tokens_separator_cons (rest : List α) :
    tokens separator (separator :: rest) = tokens separator rest := by
  have noSeparator : ∀ value ∈ ([] : List α), (value == separator) = false := by simp
  have split := splitOnP_append_cons_of_forall_mem noSeparator separator (by simp) rest
  simp only [nil_append] at split
  simp [tokens, splitOn, split]

lemma tokens_dropWhile (list : List α) :
    tokens separator (list.dropWhile (· == separator)) = tokens separator list := by
  induction list with
  | nil => rfl
  | cons head tail ih =>
    by_cases isSeparator : head = separator
    · subst isSeparator
      simpa using ih
    · simp [isSeparator]

/-- The piece in front of the first separator is the first token. -/
theorem tokens_cons_of_ne {head : α} (tail : List α) (notSeparator : head ≠ separator) :
    tokens separator (head :: tail) = (head :: tail).takeWhile (· != separator) ::
        tokens separator ((head :: tail).dropWhile (· != separator)) := by
  have whole := takeWhile_append_dropWhile (p := (· != separator)) (l := head :: tail)
  have free : ∀ value ∈ (head :: tail).takeWhile (· != separator), (value == separator) = false := by
    intro value member
    simpa using mem_takeWhile_imp member
  have nonempty : ((head :: tail).takeWhile (· != separator)).isEmpty = false := by
    simp [notSeparator]
  cases dropped : (head :: tail).dropWhile (· != separator) with
  | nil =>
    rw [dropped, append_nil] at whole
    rw [whole] at free nonempty
    rw [whole]
    simp [tokens, splitOn, splitOnP_eq_singleton free]
  | cons stop rest =>
    have stopIs : stop = separator := by
      have stopped := head_dropWhile_not (· != separator) (l := head :: tail) (by simp [dropped])
      simpa [dropped] using stopped
    subst stopIs
    rw [dropped] at whole
    rw [tokens_separator_cons]
    nth_rewrite 1 [← whole]
    simp only [tokens, splitOn,
      splitOnP_append_cons_of_forall_mem free stop (by simp), filter_cons, nonempty,
      Bool.not_false, if_true]

/-- The scanner makes progress: what is left behind a token is shorter. -/
theorem dropWhile_length_lt {head : α} (tail : List α) (notSeparator : head ≠ separator) :
    ((head :: tail).dropWhile (· != separator)).length < (head :: tail).length := by
  have bound := (dropWhile_sublist (l := tail) (· != separator)).length_le
  simp only [dropWhile_cons, bne_iff_ne, ne_eq, notSeparator, not_false_eq_true, if_true,
    length_cons]
  omega

@[elab_as_elim]
lemma scan_induction {motive : List α → Prop} (separator : α) (nil : motive [])
    (skip : ∀ rest, motive rest → motive (separator :: rest))
    (token : ∀ head tail, head ≠ separator →
      motive ((head :: tail).dropWhile (· != separator)) → motive (head :: tail))
    (list : List α) : motive list := by
  induction measured : list.length using Nat.strong_induction_on generalizing list with
  | _ length ih =>
    cases list with
    | nil => exact nil
    | cons head tail =>
      by_cases isSeparator : head = separator
      · subst isSeparator
        exact skip tail (ih tail.length (by simp [← measured]) tail rfl)
      · exact token head tail isSeparator
          (ih _ (measured ▸ dropWhile_length_lt tail isSeparator) _ rfl)

lemma tokens_append_separator_cons (front rest : List α) :
    tokens separator (front ++ separator :: rest) =
      tokens separator front ++ tokens separator rest := by
  induction front using scan_induction separator with
  | nil => simp
  | skip front ih => simpa using ih
  | token head tail notSeparator ih =>
    have whole := takeWhile_append_dropWhile (p := (· != separator)) (l := head :: tail)
    rw [cons_append, tokens_cons_of_ne _ notSeparator, tokens_cons_of_ne _ notSeparator,
      ← cons_append, takeWhile_append, dropWhile_append]
    by_cases free : (head :: tail).dropWhile (· != separator) = []
    · rw [free, append_nil] at whole
      simp only [free, whole, isEmpty_nil, if_true]
      simp
    have cut : ((head :: tail).takeWhile (· != separator)).length ≠ (head :: tail).length := by
      have lengths := congrArg length whole
      have positive := length_pos_iff.mpr free
      rw [length_append] at lengths
      omega
    rw [if_neg cut, if_neg (by simpa using free), ih, cons_append]

variable {token list : List α}

lemma tokens_of_free (nonempty : token ≠ []) (free : separator ∉ token) :
    tokens separator token = [token] := by
  have noSeparator : ∀ value ∈ token, (value == separator) = false := by
    intro value member
    have different : value ≠ separator := fun same => free (same ▸ member)
    simpa using different
  simp [tokens, splitOn, splitOnP_eq_singleton noSeparator, nonempty]

section

variable (member : token ∈ tokens separator list)
include member

lemma subset_of_mem_tokens : token ⊆ list := by
  induction list using scan_induction separator with
  | nil => simp at member
  | skip rest ih =>
    rw [tokens_separator_cons] at member
    exact fun value inToken => mem_cons_of_mem _ (ih member inToken)
  | token head tail notSeparator ih =>
    rw [tokens_cons_of_ne tail notSeparator] at member
    rcases mem_cons.mp member with rfl | member
    · exact (takeWhile_sublist _).subset
    · exact fun value inToken => (dropWhile_sublist _).subset (ih member inToken)

lemma ne_nil_of_mem_tokens : token ≠ [] := by
  simpa using (mem_filter.mp member).2

lemma separator_not_mem_of_mem_tokens : separator ∉ token := by
  induction list using scan_induction separator with
  | nil => simp at member
  | skip rest ih =>
    rw [tokens_separator_cons] at member
    exact ih member
  | token head tail notSeparator ih =>
    rw [tokens_cons_of_ne tail notSeparator] at member
    rcases mem_cons.mp member with rfl | member
    · intro inside
      simpa using mem_takeWhile_imp inside
    · exact ih member

end

end CupidOs.Lists
