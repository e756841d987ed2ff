import Mizan.Core.Types
import Mathlib.Data.List.DropRight

namespace Mizan

-- What is left of a text whose beginning needs no trimming does not need it either.
theorem dropWhile_of_prefix {p : Char → Bool} {chars kept : List Char}
    (hstarts : kept <+: chars.dropWhile p) : kept.dropWhile p = kept := by
  rw [List.dropWhile_eq_self_iff]
  intro hlength
  have hhead := hstarts.getElem hlength
  have hle := hstarts.length_le
  rw [hhead]
  exact List.dropWhile_get_zero_not p chars (by omega)

theorem trimChars_trimChars (chars : List Char) :
    trimChars (trimChars chars) = trimChars chars := by
  have hstarts : trimChars chars <+: chars.dropWhile isWhitespace :=
    List.rdropWhile_prefix isWhitespace _
  rw [trimChars, dropWhile_of_prefix hstarts]
  exact List.rdropWhile_idempotent isWhitespace _

theorem trim_trim (s : String) : trim (trim s) = trim s := by
  rw [trim, trim, String.toList_ofList, trimChars_trimChars]

theorem free_of_all {s : String}
    (h : (s.toList.all fun character => !isWhitespace character) = true) :
    ∀ character ∈ s.toList, isWhitespace character = false := by
  simpa using h

theorem trim_of_free {s : String} (hfree : ∀ character ∈ s.toList, isWhitespace character = false) :
    trim s = s := by
  have hdrop : ∀ chars : List Char, (∀ character ∈ chars, isWhitespace character = false) →
      chars.dropWhile isWhitespace = chars := by
    intro chars hchars
    cases chars with
    | nil => rfl
    | cons first rest => simp [hchars first List.mem_cons_self]
  have hback : ∀ character ∈ s.toList.reverse, isWhitespace character = false := by
    simpa using hfree
  rw [trim, trimChars, hdrop _ hfree, hdrop _ hback, List.reverse_reverse, String.ofList_toList]

def trimStart (s : String) : String := String.ofList (s.toList.dropWhile isWhitespace)

def stripPrefix (s start : String) : Option String :=
  if start.toList.isPrefixOf s.toList then some (String.ofList (s.toList.drop start.toList.length))
  else none

end Mizan
