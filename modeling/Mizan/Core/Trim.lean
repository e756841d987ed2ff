import Mizan.Core.Text

namespace Mizan

def trimEnd (s : String) : String := String.ofList (s.toList.rdropWhile isWhitespace)

section Lists

variable {α : Type} {p : α → Bool}

theorem rdropWhile_append (xs ys : List α) : (xs ++ ys).rdropWhile p =
    if ys.rdropWhile p = [] then xs.rdropWhile p else xs ++ ys.rdropWhile p := by
  simp only [List.rdropWhile, List.reverse_append, List.dropWhile_append, List.isEmpty_iff,
    List.reverse_eq_nil_iff]
  split <;> simp

-- What is dropped at one end does not depend on what is dropped at the other.
theorem rdropWhile_dropWhile (xs : List α) :
    (xs.dropWhile p).rdropWhile p = (xs.rdropWhile p).dropWhile p := by
  induction xs with
  | nil => rfl
  | cons x xs ih =>
    rw [← List.singleton_append, rdropWhile_append]
    by_cases hrest : xs.rdropWhile p = []
    · rw [hrest, List.dropWhile_nil] at ih
      by_cases hx : p x
      · simp [hx, hrest, ih, List.rdropWhile_singleton]
      · simp only [List.singleton_append, List.dropWhile_cons, hx, Bool.false_eq_true, if_false,
          hrest, if_true, List.rdropWhile_singleton]
        rw [← List.singleton_append, rdropWhile_append, if_pos hrest, List.rdropWhile_singleton]
        simp [hx]
    · by_cases hx : p x
      · simp [hx, hrest, ih]
      · simp only [List.singleton_append, List.dropWhile_cons, hx, Bool.false_eq_true, if_false,
          hrest]
        rw [← List.singleton_append, rdropWhile_append, if_neg hrest]
        rfl

end Lists

section Strings

variable {s t : String}

theorem toList_trimEnd (s : String) : (trimEnd s).toList = s.toList.rdropWhile isWhitespace :=
  String.toList_ofList

theorem toList_trimStart (s : String) : (trimStart s).toList = s.toList.dropWhile isWhitespace :=
  String.toList_ofList

theorem trimEnd_trimEnd (s : String) : trimEnd (trimEnd s) = trimEnd s := by
  rw [trimEnd, toList_trimEnd, List.rdropWhile_idempotent, trimEnd]

theorem trimStart_trimStart (s : String) : trimStart (trimStart s) = trimStart s := by
  rw [trimStart, toList_trimStart, List.dropWhile_idempotent, trimStart]

theorem trimStart_trimEnd (s : String) : trimStart (trimEnd s) = trimEnd (trimStart s) := by
  rw [trimStart, toList_trimEnd, ← rdropWhile_dropWhile, trimEnd, toList_trimStart]

theorem trim_eq (s : String) : trim s = trimEnd (trimStart s) := by
  rw [trim, trimChars, trimEnd, toList_trimStart, List.rdropWhile]

theorem trim_of_begins (hs : trimStart s = s) : trim s = trimEnd s := by
  rw [trim_eq, hs]

theorem trimStart_append (hs : trimStart s = s) (hne : s ≠ "") (t : String) :
    trimStart (s ++ t) = s ++ t := by
  have hchars : s.toList.dropWhile isWhitespace = s.toList := by rw [← toList_trimStart, hs]
  have hsome : s.toList ≠ [] := by
    rwa [ne_eq, String.toList_eq_nil_iff]
  rw [trimStart, String.toList_append, List.dropWhile_append, hchars,
    if_neg (by simpa [List.isEmpty_iff] using hsome), ← String.toList_append, String.ofList_toList]

theorem trimEnd_append (s t : String) : trimEnd (s ++ t) =
    if trimEnd t = "" then trimEnd s else s ++ trimEnd t := by
  have hblank : trimEnd t = "" ↔ t.toList.rdropWhile isWhitespace = [] := by
    rw [← toList_trimEnd, String.toList_eq_nil_iff]
  apply String.toList_inj.mp
  rw [toList_trimEnd, String.toList_append, rdropWhile_append]
  by_cases ht : trimEnd t = ""
  · rw [if_pos ht, if_pos (hblank.mp ht), toList_trimEnd]
  · rw [if_neg ht, if_neg (fun h => ht (hblank.mpr h)), String.toList_append, toList_trimEnd]

-- A text that begins with something that is not blank is not blank.
theorem trimEnd_eq_empty (hs : trimStart s = s) : trimEnd s = "" ↔ s = "" := by
  constructor
  · intro hempty
    have hall : ∀ c ∈ s.toList, isWhitespace c := by
      rw [← List.rdropWhile_eq_nil_iff, ← toList_trimEnd, hempty]
      rfl
    have hnil : s.toList.dropWhile isWhitespace = [] := List.dropWhile_eq_nil_iff.mpr hall
    rw [← toList_trimStart, hs] at hnil
    exact String.toList_eq_nil_iff.mp hnil
  · rintro rfl
    rfl

theorem length_trimEnd_le (s : String) : (trimEnd s).length ≤ s.length := by
  rw [← String.length_toList, ← String.length_toList, toList_trimEnd]
  exact (List.rdropWhile_prefix _ _).length_le

theorem length_trimEnd_lt (hs : trimEnd s ≠ s) : (trimEnd s).length < s.length := by
  have hle := length_trimEnd_le s
  rcases Nat.lt_or_eq_of_le hle with hlt | heq
  · exact hlt
  · rw [← String.length_toList, ← String.length_toList, toList_trimEnd] at heq
    have hlist := (List.rdropWhile_prefix _ _).eq_of_length heq
    exact absurd (String.toList_inj.mp ((toList_trimEnd s).trans hlist)) hs

end Strings

end Mizan
