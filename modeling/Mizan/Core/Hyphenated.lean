import Mizan.Core.Text
import Mathlib.Tactic.IntervalCases
import Mathlib.Tactic.Ring

namespace Mizan

theorem isWhitespace_digitChar : ∀ digit < 16, isWhitespace (Nat.digitChar digit) = false := by
  decide

theorem isWhitespace_of_mem_uuid {id : Uuid} {character : Char}
    (h : character ∈ id.toString.toList) : isWhitespace character = false := by
  rcases Uuid.mem_toString h with rfl | ⟨digit, hdigit, rfl⟩
  · decide
  · exact isWhitespace_digitChar digit hdigit

theorem trim_toString (id : Uuid) : trim id.toString = id.toString :=
  trim_of_free fun _ hmem => isWhitespace_of_mem_uuid hmem

namespace Uuid

-- The value of a digit of the hyphenated form.
def digitValue (c : Char) : Nat := if c.isDigit then c.toNat - 48 else c.toNat - 87

def ofDigits (chars : List Char) : Nat :=
  chars.foldl (fun value c => value * 16 + digitValue c) 0

def INVALID_UUID : String := "invalid character: expected an optional prefix of `urn:uuid:`"

-- The inverse of the hyphenated lower-case form, which takes no other form of an id.
def parseHyphenated (text : String) : Except String Uuid :=
  let id : Uuid := ⟨BitVec.ofNat 128 (ofDigits (text.toList.filter fun c => c ≠ '-'))⟩
  if id.toString = text then .ok id else .error INVALID_UUID

private def digitsOf (value count : Nat) : List Char :=
  (List.range count).map fun place => Nat.digitChar (value / 16 ^ (count - 1 - place) % 16)

private theorem digitsOf_succ (value count : Nat) :
    digitsOf value (count + 1) =
      Nat.digitChar (value / 16 ^ count % 16) :: digitsOf value count := by
  rw [digitsOf, List.range_succ_eq_map, List.map_cons, List.map_map]
  congr 1
  apply List.map_congr_left
  intro place _
  have hplace : count + 1 - 1 - (place + 1) = count - 1 - place := by omega
  simp only [Function.comp_apply, Nat.succ_eq_add_one, hplace]

private theorem digitChar_ne_hyphen {digit : Nat} (h : digit < 16) :
    Nat.digitChar digit ≠ '-' := by
  interval_cases digit <;> decide

private theorem digitValue_digitChar {digit : Nat} (h : digit < 16) :
    digitValue (Nat.digitChar digit) = digit := by
  interval_cases digit <;> decide

private theorem foldl_digitsOf (value count start : Nat) :
    (digitsOf value count).foldl (fun value c => value * 16 + digitValue c) start =
      start * 16 ^ count + value % 16 ^ count := by
  induction count generalizing start with
  | zero => simp [digitsOf, Nat.mod_one]
  | succ count ih =>
      have hdigit : value / 16 ^ count % 16 < 16 := Nat.mod_lt _ (by decide)
      have hmod := @Nat.mod_mul (16 ^ count) 16 value
      rw [digitsOf_succ, List.foldl_cons, ih, digitValue_digitChar hdigit, Nat.pow_succ, hmod]
      ring

private theorem filter_toString (id : Uuid) :
    id.toString.toList.filter (fun c => c ≠ '-') = digitsOf id.value.toNat 32 := by
  have hdigits : ∀ c ∈ digitsOf id.value.toNat 32, c ≠ '-' := by
    intro c hc
    obtain ⟨place, _, rfl⟩ := List.mem_map.mp hc
    exact digitChar_ne_hyphen (Nat.mod_lt _ (by decide))
  have htoString : id.toString.toList =
      (digitsOf id.value.toNat 32).take 8 ++ '-' :: ((digitsOf id.value.toNat 32).drop 8).take 4 ++
        '-' :: ((digitsOf id.value.toNat 32).drop 12).take 4 ++
        '-' :: ((digitsOf id.value.toNat 32).drop 16).take 4 ++
        '-' :: (digitsOf id.value.toNat 32).drop 20 := String.toList_ofList
  have hkeep : ∀ part : List Char, (∀ c ∈ part, c ∈ digitsOf id.value.toNat 32) →
      part.filter (fun c => c ≠ '-') = part := by
    intro part hpart
    rw [List.filter_eq_self]
    intro c hc
    simpa using hdigits c (hpart c hc)
  have hjoin : ∀ (digits : List Char) (start count : Nat),
      (digits.drop start).take count ++ digits.drop (start + count) = digits.drop start := by
    intro digits start count
    rw [← List.drop_drop, List.take_append_drop]
  rw [htoString]
  simp only [List.filter_append, List.filter_cons, ne_eq, not_true_eq_false, decide_false,
    Bool.false_eq_true, if_false, List.append_assoc]
  rw [hkeep _ fun c hc => List.mem_of_mem_take hc,
    hkeep _ fun c hc => List.mem_of_mem_drop (List.mem_of_mem_take hc),
    hkeep _ fun c hc => List.mem_of_mem_drop (List.mem_of_mem_take hc),
    hkeep _ fun c hc => List.mem_of_mem_drop (List.mem_of_mem_take hc),
    hkeep _ fun c hc => List.mem_of_mem_drop hc]
  rw [hjoin _ 16 4, hjoin _ 12 4, hjoin _ 8 4, List.take_append_drop]

theorem toString_ne_empty (id : Uuid) : id.toString ≠ "" := by
  intro hempty
  have hdigits := filter_toString id
  rw [hempty] at hdigits
  have hlength := congrArg List.length hdigits
  simp [digitsOf] at hlength

theorem parseHyphenated_toString (id : Uuid) : parseHyphenated id.toString = .ok id := by
  have hvalue : ofDigits (id.toString.toList.filter fun c => c ≠ '-') = id.value.toNat := by
    have hlt : id.value.toNat < 16 ^ 32 := id.value.isLt
    rw [filter_toString, ofDigits, foldl_digitsOf, Nat.mod_eq_of_lt hlt, Nat.zero_mul, Nat.zero_add]
  rw [parseHyphenated]
  simp only [hvalue, BitVec.ofNat_toNat, BitVec.setWidth_eq, if_true]

theorem toString_inj {id other : Uuid} (h : id.toString = other.toString) : id = other := by
  have hparse := parseHyphenated_toString id
  rw [h, parseHyphenated_toString] at hparse
  exact (Except.ok.inj hparse).symm

end Uuid

end Mizan
