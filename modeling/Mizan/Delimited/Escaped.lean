import Mathlib.Tactic.Common

namespace Delimited

variable {α : Type}

-- The values that a quoted text cannot hold as they are, and what stands for them after the mark.
structure EscapeCode (α : Type) where
  mark : α
  quote : α
  encode : α → Option α
  decode : α → Option α
  quote_ne_mark : quote ≠ mark
  encode_mark : (encode mark).isSome
  encode_quote : (encode quote).isSome
  decode_encode : ∀ value code, encode value = some code → decode code = some value

namespace EscapeCode

variable (code : EscapeCode α)

def escapeOne (value : α) : List α :=
  match code.encode value with
  | some letter => [code.mark, letter]
  | none => [value]

def escape (text : List α) : List α := text.flatMap code.escapeOne

theorem escape_of_free {code : EscapeCode α} {text : List α}
    (h : ∀ value ∈ text, code.encode value = none) : code.escape text = text := by
  induction text with
  | nil => rfl
  | cons value text ih =>
      obtain ⟨hvalue, htext⟩ := List.forall_mem_cons.mp h
      have hone : code.escapeOne value = [value] := by simp [escapeOne, hvalue]
      have hescape : code.escape (value :: text) = code.escapeOne value ++ code.escape text := rfl
      rw [hescape, hone, ih htext]
      rfl

-- A value that is escaped and is no letter of the code does not occur in an escaped text.
theorem not_mem_escape {code : EscapeCode α} {value : α} {text : List α}
    (hencode : (code.encode value).isSome)
    (hmark : value ≠ code.mark) (hletter : ∀ other, code.encode other ≠ some value) :
    value ∉ code.escape text := by
  rw [escape, List.mem_flatMap]
  rintro ⟨other, -, hmem⟩
  unfold escapeOne at hmem
  split at hmem
  · rename_i letter hsome
    simp only [List.mem_cons, List.not_mem_nil, or_false] at hmem
    rcases hmem with rfl | rfl
    · exact hmark rfl
    · exact hletter other hsome
  · rename_i hnone
    rw [List.mem_singleton.mp hmem, hnone] at hencode
    exact absurd hencode (by simp)

section Reader

variable [DecidableEq α]

-- The text up to its closing quote, and what follows the quote.
def readQuoted : List α → Option (List α × List α)
  | [] => none
  | value :: rest =>
      if value = code.quote then some ([], rest)
      else if value = code.mark then
        match rest with
        | [] => none
        | letter :: rest =>
            (code.decode letter).bind fun value =>
              (readQuoted rest).map fun (text, rest) => (value :: text, rest)
      else (readQuoted rest).map fun (text, rest) => (value :: text, rest)

variable {code}

theorem readQuoted_quote (rest : List α) :
    code.readQuoted (code.quote :: rest) = some ([], rest) := by
  rw [readQuoted.eq_def]
  simp

theorem readQuoted_mark {letter value : α} (hletter : code.decode letter = some value)
    (rest : List α) : code.readQuoted (code.mark :: letter :: rest) =
      (code.readQuoted rest).map fun (text, rest) => (value :: text, rest) := by
  rw [readQuoted.eq_def]
  simp [code.quote_ne_mark.symm, hletter]

theorem readQuoted_plain {value : α} (hquote : value ≠ code.quote) (hmark : value ≠ code.mark)
    (rest : List α) : code.readQuoted (value :: rest) =
      (code.readQuoted rest).map fun (text, rest) => (value :: text, rest) := by
  rw [readQuoted.eq_def]
  simp [hquote, hmark]

theorem readQuoted_escapeOne (value : α) (rest : List α) :
    code.readQuoted (code.escapeOne value ++ rest) =
      (code.readQuoted rest).map fun (text, rest) => (value :: text, rest) := by
  unfold escapeOne
  split
  · rename_i letter hletter
    exact readQuoted_mark (code.decode_encode value letter hletter) rest
  · rename_i hplain
    have hquote : value ≠ code.quote := by
      rintro rfl
      simpa [hplain] using code.encode_quote
    have hmark : value ≠ code.mark := by
      rintro rfl
      simpa [hplain] using code.encode_mark
    exact readQuoted_plain hquote hmark rest

theorem readQuoted_escape (text rest : List α) :
    code.readQuoted (code.escape text ++ code.quote :: rest) = some (text, rest) := by
  induction text with
  | nil => exact readQuoted_quote rest
  | cons value text ih =>
      have hescape : code.escape (value :: text) = code.escapeOne value ++ code.escape text := rfl
      rw [hescape, List.append_assoc, readQuoted_escapeOne, ih]
      rfl

end Reader

end EscapeCode

end Delimited
