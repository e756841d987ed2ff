import Mizan.Core.Trim
import Mizan.Core.Utf8
import Mizan.Delimited.Cut

namespace Mizan

open Delimited

def dropCarriageReturn (line : List Char) : List Char :=
  if line.getLast? = some '\r' then line.dropLast else line

-- `str::lines`: the carriage return is part of the end of a line, but not where the text ends.
def lines (s : String) : List String :=
  ((closed '\n' s.toList).map dropCarriageReturn ++
    if (unfinished '\n' s.toList).isEmpty then [] else [unfinished '\n' s.toList]).map String.ofList

-- The lines with a newline after each.
def terminated (texts : List String) : String := String.join (texts.map fun text => text ++ "\n")

example : lines "a\r\n\nb\r" = ["a", "", "b\r"] := by decide +kernel

section Terminated

-- A line that has no end of a line within it.
def IsLine (text : String) : Prop := '\n' ∉ text.toList ∧ text.toList.getLast? ≠ some '\r'

theorem printable_of_all {text : String}
    (h : (text.toList.all fun c => 0x20 ≤ c.toNat) = true) :
    ∀ c ∈ text.toList, 0x20 ≤ c.toNat := by
  simpa using h

theorem isLine_of_printable {text : String} (htext : ∀ c ∈ text.toList, 0x20 ≤ c.toNat) :
    IsLine text := by
  constructor
  · intro hmem
    exact absurd (htext _ hmem) (by decide)
  · intro hlast
    exact absurd (htext _ (List.mem_of_getLast? hlast)) (by decide)

theorem terminated_cons (text : String) (texts : List String) :
    terminated (text :: texts) = text ++ "\n" ++ terminated texts := by
  rw [terminated, List.map_cons, String.join_cons, terminated]

theorem lines_terminated {texts : List String} (htexts : ∀ text ∈ texts, IsLine text) :
    lines (terminated texts) = texts := by
  have hfields : closed '\n' (terminated texts).toList = texts.map String.toList ∧
      unfinished '\n' (terminated texts).toList = [] := by
    induction texts with
    | nil => exact ⟨rfl, rfl⟩
    | cons text texts ih =>
      obtain ⟨hline, -⟩ := htexts text List.mem_cons_self
      obtain ⟨hclosed, hunfinished⟩ := ih fun other hother =>
        htexts other (List.mem_cons_of_mem _ hother)
      have hchars : (terminated (text :: texts)).toList =
          text.toList ++ '\n' :: (terminated texts).toList := by
        rw [terminated_cons, String.toList_append, String.toList_append, List.append_assoc]
        rfl
      rw [hchars, closed_append_cons hline, unfinished_append_cons hline, hclosed, hunfinished]
      exact ⟨rfl, rfl⟩
  have hkept : (texts.map String.toList).map dropCarriageReturn = texts.map String.toList := by
    rw [List.map_map]
    apply List.map_congr_left
    intro text htext
    exact if_neg (htexts text htext).2
  rw [lines, hfields.1, hfields.2, hkept]
  simp

end Terminated

section Bytes

-- A byte below 0x80 stands for itself, and the encoding of another character has none.
theorem utf8EncodeChar_cases (c : Char) :
    c.toNat < 0x80 ∧ String.utf8EncodeChar c = [UInt8.ofNat c.toNat] ∨
      0x80 ≤ c.toNat ∧ String.utf8EncodeChar c ≠ [] ∧
        ∀ byte ∈ String.utf8EncodeChar c, 0x80 ≤ byte.toNat := by
  change c.val.toNat < 0x80 ∧ _ ∨ 0x80 ≤ c.val.toNat ∧ _
  have hvalue := c.val.toNat_lt
  by_cases hone : c.val.toNat ≤ 0x7f
  · left
    refine ⟨by omega, ?_⟩
    rw [String.utf8EncodeChar, if_pos hone]
    rfl
  · right
    refine ⟨by omega, ?_⟩
    by_cases htwo : c.val.toNat ≤ 0x7ff
    · rw [String.utf8EncodeChar, if_neg hone, if_pos htwo]
      simp
      omega
    · by_cases hthree : c.val.toNat ≤ 0xffff
      · rw [String.utf8EncodeChar, if_neg hone, if_neg htwo, if_pos hthree]
        simp
        omega
      · rw [String.utf8EncodeChar, if_neg hone, if_neg htwo, if_neg hthree]
        simp
        omega

theorem utf8_append (front back : List Char) : utf8 (front ++ back) = utf8 front ++ utf8 back := by
  rw [utf8, List.flatMap_append, utf8, utf8]

theorem utf8_cons_ascii {c : Char} (hc : c.toNat < 0x80) (rest : List Char) :
    utf8 (c :: rest) = UInt8.ofNat c.toNat :: utf8 rest := by
  rcases utf8EncodeChar_cases c with ⟨-, hencode⟩ | ⟨hhigh, -⟩
  · rw [utf8, List.flatMap_cons, hencode]
    rfl
  · omega

theorem ascii_mem_utf8 {c : Char} (hc : c.toNat < 0x80) {text : List Char} :
    UInt8.ofNat c.toNat ∈ utf8 text ↔ c ∈ text := by
  have hbyte : (UInt8.ofNat c.toNat).toNat = c.toNat := by
    rw [UInt8.toNat_ofNat']
    omega
  constructor
  · intro hmem
    obtain ⟨other, hother, hmem⟩ := List.mem_flatMap.mp hmem
    rcases utf8EncodeChar_cases other with ⟨hlow, hencode⟩ | ⟨-, -, hhigh⟩
    · rw [hencode, List.mem_singleton] at hmem
      have hnat := congrArg UInt8.toNat hmem
      rw [hbyte, UInt8.toNat_ofNat', Nat.mod_eq_of_lt (by omega)] at hnat
      rwa [Char.toNat_inj.mp hnat]
    · have hge := hhigh _ hmem
      omega
  · intro hmem
    refine List.mem_flatMap.mpr ⟨c, hmem, ?_⟩
    rcases utf8EncodeChar_cases c with ⟨-, hencode⟩ | ⟨hhigh, -⟩
    · rw [hencode]
      exact List.mem_singleton_self _
    · omega

-- The bytes are cut at a newline exactly where the characters are.
theorem utf8_fields (text : List Char) :
    closed (UInt8.ofNat '\n'.toNat) (utf8 text) = (closed '\n' text).map utf8 ∧
      unfinished (UInt8.ofNat '\n'.toNat) (utf8 text) = utf8 (unfinished '\n' text) := by
  have hascii : '\n'.toNat < 0x80 := by decide
  induction text using fields_induction '\n' with
  | unfinished field hfield =>
    have hbytes : UInt8.ofNat '\n'.toNat ∉ utf8 field := by rwa [ascii_mem_utf8 hascii]
    rw [closed_of_not_mem hbytes, unfinished_of_not_mem hbytes, closed_of_not_mem hfield,
      unfinished_of_not_mem hfield]
    exact ⟨rfl, rfl⟩
  | ended field rest hfield ih =>
    have hbytes : UInt8.ofNat '\n'.toNat ∉ utf8 field := by rwa [ascii_mem_utf8 hascii]
    rw [utf8_append, utf8_cons_ascii hascii, closed_append_cons hbytes,
      unfinished_append_cons hbytes, closed_append_cons hfield, unfinished_append_cons hfield,
      ih.1, ih.2, List.map_cons]
    exact ⟨rfl, rfl⟩

theorem utf8_eq_nil {text : List Char} : utf8 text = [] ↔ text = [] := by
  rw [utf8, List.flatMap_eq_nil_iff]
  constructor
  · intro h
    refine List.eq_nil_iff_forall_not_mem.mpr fun c hc => ?_
    rcases utf8EncodeChar_cases c with ⟨-, hencode⟩ | ⟨-, hne, -⟩
    · rw [h c hc] at hencode
      cases hencode
    · exact hne (h c hc)
  · rintro rfl c hc
    cases hc

theorem utf8_dropCarriageReturn (line : List Char) :
    (if (utf8 line).getLast? = some 0x0D then (utf8 line).dropLast else utf8 line) =
      utf8 (dropCarriageReturn line) := by
  rcases List.eq_nil_or_concat line with rfl | ⟨front, last, rfl⟩
  · rfl
  · rw [List.concat_eq_append, dropCarriageReturn, List.getLast?_concat, List.dropLast_concat,
      utf8_append]
    rcases utf8EncodeChar_cases last with ⟨hlow, hencode⟩ | ⟨hhigh, hne, hbytes⟩
    · have hsingle : utf8 [last] = [UInt8.ofNat last.toNat] := utf8_cons_ascii hlow []
      rw [hsingle, List.getLast?_concat, List.dropLast_concat]
      by_cases hlast : last = '\r'
      · subst hlast
        rfl
      · have hbyte : UInt8.ofNat last.toNat ≠ 0x0D := by
          intro heq
          have hnat := congrArg UInt8.toNat heq
          rw [UInt8.toNat_ofNat', Nat.mod_eq_of_lt (by omega)] at hnat
          exact hlast (Char.toNat_inj.mp hnat)
        rw [if_neg (by simpa using hbyte), if_neg (by simpa using hlast), utf8_append, hsingle]
    · have hsingle : utf8 [last] = String.utf8EncodeChar last := List.flatMap_singleton _ _
      have hlast : last ≠ '\r' := by
        rintro rfl
        exact absurd hhigh (by decide)
      have hcarriage : (String.utf8EncodeChar last).getLast? ≠ some 0x0D := by
        intro hcarriage
        have hge := hbytes _ (List.mem_of_getLast? hcarriage)
        exact absurd hge (by decide)
      rw [hsingle, List.getLast?_append_of_ne_nil _ hne, if_neg hcarriage,
        if_neg (by simpa using hlast), utf8_append, hsingle]

end Bytes

end Mizan
