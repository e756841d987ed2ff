import Mathlib.Tactic.Common

namespace Delimited

section Split

variable {α : Type} [BEq α]

-- The fields that a separator ends, and what follows the last separator.
def closed (separator : α) (xs : List α) : List (List α) := (xs.splitOn separator).dropLast

def unfinished (separator : α) (xs : List α) : List α :=
  (xs.splitOn separator).getLast (List.splitOn_ne_nil separator xs)

variable [LawfulBEq α] {separator : α} {field : List α}

theorem closed_of_not_mem (hfield : separator ∉ field) : closed separator field = [] := by
  simp [closed, List.splitOn_eq_singleton hfield]

theorem unfinished_of_not_mem (hfield : separator ∉ field) :
    unfinished separator field = field := by
  simp [unfinished, List.splitOn_eq_singleton hfield]

theorem splitOn_of_not_mem (hfield : separator ∉ field) (rest : List α) :
    (field ++ separator :: rest).splitOn separator = field :: rest.splitOn separator := by
  rw [List.splitOn_append_cons_self, List.splitOn_eq_singleton hfield, List.singleton_append]

theorem closed_append_cons (hfield : separator ∉ field) (rest : List α) :
    closed separator (field ++ separator :: rest) = field :: closed separator rest := by
  have hne := List.splitOn_ne_nil separator rest
  rw [closed, splitOn_of_not_mem hfield, List.dropLast_cons_of_ne_nil hne, closed]

theorem unfinished_append_cons (hfield : separator ∉ field) (rest : List α) :
    unfinished separator (field ++ separator :: rest) = unfinished separator rest := by
  have hne := List.splitOn_ne_nil separator rest
  simp only [unfinished, splitOn_of_not_mem hfield, List.getLast_cons hne]

-- The first field that is ended, by the place of its separator.
theorem eq_append_of_idxOf?_eq_some {xs : List α} {position : Nat}
    (h : xs.idxOf? separator = some position) :
    xs = xs.take position ++ separator :: xs.drop (position + 1) ∧
      separator ∉ xs.take position := by
  induction xs generalizing position with
  | nil => simp at h
  | cons x xs ih =>
      rw [List.idxOf?_cons] at h
      by_cases hx : x = separator
      · have hposition : position = 0 := by simpa [hx] using h.symm
        subst hposition
        simp [hx]
      · have hbeq : (x == separator) = false := by simpa using hx
        rw [hbeq] at h
        obtain ⟨previous, hprevious, hposition⟩ := Option.map_eq_some_iff.mp (by simpa using h)
        subst hposition
        obtain ⟨heq, hnot⟩ := ih hprevious
        constructor
        · simpa using heq
        · simp only [List.take_succ_cons, List.mem_cons, not_or]
          exact ⟨fun h => hx h.symm, hnot⟩

end Split

section Failure

variable {α β ε : Type}

-- The results of a list of computations up to the first that fails, and its error.
def upToFailure (f : α → Except ε β) : List α → List β × Option ε
  | [] => ([], none)
  | x :: xs =>
      match f x with
      | .error error => ([], some error)
      | .ok y => (y :: (upToFailure f xs).1, (upToFailure f xs).2)

@[simp]
theorem upToFailure_nil (f : α → Except ε β) : upToFailure f [] = ([], none) := rfl

theorem upToFailure_cons_error {f : α → Except ε β} {x : α} {error : ε} (h : f x = .error error)
    (xs : List α) : upToFailure f (x :: xs) = ([], some error) := by
  simp [upToFailure, h]

theorem upToFailure_cons_ok {f : α → Except ε β} {x : α} {y : β} (h : f x = .ok y)
    (xs : List α) :
    upToFailure f (x :: xs) = (y :: (upToFailure f xs).1, (upToFailure f xs).2) := by
  simp [upToFailure, h]

end Failure

end Delimited
