import Mathlib.Tactic.SplitIfs
import Std.Data.String.ToInt
import Mizan.Delimited.Blocks
import Mizan.Delimited.Escaped

namespace TextFormat

open Delimited

-- A line of the Prometheus text format: the value of the series of a name and its labels.
structure Sample where
  name : String
  labels : List (String × String)
  value : Int
  deriving DecidableEq, Repr

-- The order in which the labels stand does not matter.
def Sample.SameSeries (sample sample' : Sample) : Prop :=
  sample.name = sample'.name ∧ sample.labels.Perm sample'.labels

def QUOTE : Char := Char.ofNat 0x22

def isNameCharacter (character : Char) : Bool :=
  character.isAlphanum || character = '_' || character = ':'

def isName (characters : List Char) : Bool :=
  !(characters.head?.elim true Char.isDigit) && characters.all isNameCharacter

def parseName (text : List Char) : Option (String × List Char) :=
  let name := text.takeWhile isNameCharacter
  if isName name then some (String.ofList name, text.dropWhile isNameCharacter) else none

def escapeLetter (character : Char) : Option Char :=
  if character = '\\' then some '\\'
  else if character = QUOTE then some QUOTE
  else if character = '\n' then some 'n'
  else none

def unescapeLetter (letter : Char) : Option Char :=
  if letter = '\\' then some '\\'
  else if letter = QUOTE then some QUOTE
  else if letter = 'n' then some '\n'
  else none

def LABEL_ESCAPES : EscapeCode Char :=
  { mark := '\\'
    quote := QUOTE
    encode := escapeLetter
    decode := unescapeLetter
    quote_ne_mark := by decide
    encode_mark := by decide
    encode_quote := by decide
    decode_encode := by
      intro character letter h
      unfold escapeLetter at h
      split_ifs at h with hmark hquote hline
      · rw [← Option.some.inj h, hmark]
        decide
      · rw [← Option.some.inj h, hquote]
        decide
      · rw [← Option.some.inj h, hline]
        decide }

-- The labels up to the closing brace, of which there are at most `fuel`.
def parseLabels : (fuel : Nat) → List Char → Option (List (String × String) × List Char)
  | 0, _ => none
  | fuel + 1, text => do
      let (name, rest) ← parseName text
      match rest with
      | '=' :: quote :: rest =>
          if quote = QUOTE then do
            let (value, rest) ← LABEL_ESCAPES.readQuoted rest
            match rest with
            | ',' :: rest =>
                let (labels, rest) ← parseLabels fuel rest
                some ((name, String.ofList value) :: labels, rest)
            | '\x7d' :: rest => some ([(name, String.ofList value)], rest)
            | _ => none
          else none
      | _ => none

def parseSample (line : List Char) : Option Sample := do
  let (name, rest) ← parseName line
  match rest with
  | '\x7b' :: rest =>
      let (labels, rest) ← parseLabels rest.length rest
      match rest with
      | ' ' :: value => do
          let value ← (String.ofList value).toInt?
          some { name, labels, value }
      | _ => none
  | _ => none

def isComment (line : List Char) : Bool := line.head? = some '#'

def parseText (text : List Char) : Option (List Sample) :=
  if unfinished '\n' text = [] then
    ((closed '\n' text).filter fun line => !isComment line).mapM parseSample
  else none

section Writer

def labelText (label : String × String) : List Char :=
  label.1.toList ++ '=' :: QUOTE :: (LABEL_ESCAPES.escape label.2.toList ++ [QUOTE])

def labelsText (labels : List (String × String)) : List Char :=
  [','].intercalate (labels.map labelText)

def sampleText (sample : Sample) : List Char :=
  sample.name.toList ++ '\x7b' :: (labelsText sample.labels ++ '\x7d' :: ' ' ::
    sample.value.repr.toList)

-- The names are names, and there is a label.
structure Sample.Named (sample : Sample) : Prop where
  name : isName sample.name.toList
  labels : ∀ label ∈ sample.labels, isName label.1.toList
  labels_ne : sample.labels ≠ []

end Writer

section Names

theorem parseName_append {name : String} (hname : isName name.toList) {rest : List Char}
    {first : Char} (hfirst : isNameCharacter first = false) :
    parseName (name.toList ++ first :: rest) = some (name, first :: rest) := by
  have hall : ∀ character ∈ name.toList, isNameCharacter character = true := by
    unfold isName at hname
    simp only [Bool.and_eq_true, List.all_eq_true] at hname
    exact hname.2
  have htake : (name.toList ++ first :: rest).takeWhile isNameCharacter = name.toList := by
    rw [List.takeWhile_append_of_pos hall]
    simp [hfirst]
  have hdrop : (name.toList ++ first :: rest).dropWhile isNameCharacter = first :: rest := by
    rw [List.dropWhile_append_of_pos hall]
    simp [hfirst]
  simp only [parseName, htake, hdrop, hname, if_true, String.ofList_toList]

theorem not_mem_name {name : String} (hname : isName name.toList) {character : Char}
    (h : isNameCharacter character = false) : character ∉ name.toList := by
  intro hmem
  unfold isName at hname
  simp only [Bool.and_eq_true, List.all_eq_true] at hname
  rw [hname.2 character hmem] at h
  exact absurd h (by decide)

end Names

section Labels

theorem parseLabels_labelsText {labels : List (String × String)} {fuel : Nat}
    (hnames : ∀ label ∈ labels, isName label.1.toList) (hne : labels ≠ [])
    (hfuel : labels.length ≤ fuel) (rest : List Char) :
    parseLabels fuel (labelsText labels ++ '\x7d' :: rest) = some (labels, rest) := by
  induction labels generalizing fuel with
  | nil => exact absurd rfl hne
  | cons label labels ih =>
      obtain ⟨name, value⟩ := label
      obtain ⟨hname, hnames⟩ := List.forall_mem_cons.mp hnames
      rw [List.length_cons] at hfuel
      obtain ⟨fuel, rfl⟩ : ∃ before, fuel = before + 1 := ⟨fuel - 1, by omega⟩
      have hread : ∀ after : List Char,
          LABEL_ESCAPES.readQuoted (LABEL_ESCAPES.escape value.toList ++ QUOTE :: after) =
            some (value.toList, after) := EscapeCode.readQuoted_escape value.toList
      cases labels with
      | nil =>
          have htext : labelsText [(name, value)] ++ '\x7d' :: rest = name.toList ++ '=' :: QUOTE ::
              (LABEL_ESCAPES.escape value.toList ++ QUOTE :: '\x7d' :: rest) := by
            simp [labelsText, labelText]
          rw [htext, parseLabels, parseName_append hname (by decide)]
          simp [hread]
      | cons next labels =>
          have htext : labelsText ((name, value) :: next :: labels) ++ '\x7d' :: rest =
              name.toList ++ '=' :: QUOTE :: (LABEL_ESCAPES.escape value.toList ++ QUOTE :: ',' ::
                (labelsText (next :: labels) ++ '\x7d' :: rest)) := by
            simp [labelsText, labelText, List.intercalate_cons_cons]
          have ih := ih hnames (List.cons_ne_nil next labels) (by omega : _ ≤ fuel)
          rw [htext, parseLabels, parseName_append hname (by decide)]
          simp [hread, ih]

theorem length_le_labelsText (labels : List (String × String)) :
    labels.length ≤ (labelsText labels).length := by
  induction labels with
  | nil => simp
  | cons label labels ih =>
      cases labels with
      | nil => simp [labelsText, labelText]; omega
      | cons next labels =>
          have hcons : labelsText (label :: next :: labels) =
              labelText label ++ ',' :: labelsText (next :: labels) := by
            simp [labelsText, List.intercalate_cons_cons]
          rw [hcons]
          simp only [List.length_append, List.length_cons] at ih ⊢
          omega

theorem line_break_not_mem_labelsText {labels : List (String × String)}
    (hnames : ∀ label ∈ labels, isName label.1.toList) : '\n' ∉ labelsText labels := by
  have hlabel : ∀ label ∈ labels, '\n' ∉ labelText label := by
    intro label hmem
    have hname := @not_mem_name label.1 (hnames label hmem) '\n' (by decide)
    have hvalue : '\n' ∉ LABEL_ESCAPES.escape label.2.toList := by
      refine EscapeCode.not_mem_escape (by decide) (by decide) fun other => ?_
      show escapeLetter other ≠ some '\n'
      unfold escapeLetter
      split_ifs <;> decide
    have hquote : '\n' ≠ QUOTE := by decide
    simp [labelText, hname, hvalue, hquote]
  intro hmem
  induction labels with
  | nil => simp [labelsText] at hmem
  | cons label labels ih =>
      have hfirst := hlabel label List.mem_cons_self
      cases labels with
      | nil => exact hfirst (by simpa [labelsText] using hmem)
      | cons next labels =>
          have hcons : labelsText (label :: next :: labels) =
              labelText label ++ ',' :: labelsText (next :: labels) := by
            simp [labelsText, List.intercalate_cons_cons]
          rw [hcons, List.mem_append, List.mem_cons] at hmem
          rcases hmem with hmem | hmem | hmem
          · exact hfirst hmem
          · exact absurd hmem (by decide)
          · exact ih (fun label h => hnames label (List.mem_cons_of_mem _ h))
              (fun label h => hlabel label (List.mem_cons_of_mem _ h)) hmem

end Labels

section Lines

theorem not_mem_repr {character : Char} (hdigit : character.isDigit = false)
    (hsign : character ≠ '-')
    (value : Int) : character ∉ value.repr.toList := by
  have hdigits : ∀ n : Nat, character ∉ n.repr.toList := by
    intro n hmem
    rw [Nat.toList_repr] at hmem
    rw [Nat.isDigit_of_mem_toDigits (by decide) (by decide) hmem] at hdigit
    exact absurd hdigit (by decide)
  cases value with
  | ofNat n => exact hdigits n
  | negSucc n =>
      intro hmem
      have hparts : character ∈ "-".toList ∨ character ∈ (n + 1).repr.toList :=
        List.mem_append.mp (by simpa only [Int.repr, String.toList_append] using hmem)
      rcases hparts with hmem | hmem
      · exact hsign (List.mem_singleton.mp hmem)
      · exact hdigits (n + 1) hmem

variable {sample : Sample}

theorem parseSample_sampleText (h : sample.Named) :
    parseSample (sampleText sample) = some sample := by
  have hfuel : sample.labels.length ≤
      (labelsText sample.labels ++ '\x7d' :: ' ' :: sample.value.repr.toList).length := by
    have hle := length_le_labelsText sample.labels
    rw [List.length_append]
    omega
  have hlabels := parseLabels_labelsText h.labels h.labels_ne hfuel
    (' ' :: sample.value.repr.toList)
  rw [parseSample, sampleText, parseName_append h.name (by decide)]
  simp only [hlabels, Option.bind_eq_bind, Option.bind_some, String.ofList_toList, Int.toInt?_repr]

theorem line_break_not_mem_sampleText (h : sample.Named) : '\n' ∉ sampleText sample := by
  have hname := @not_mem_name sample.name h.name '\n' (by decide)
  have hlabels := line_break_not_mem_labelsText h.labels
  have hvalue := @not_mem_repr '\n' (by decide) (by decide) sample.value
  simp [sampleText, hname, hlabels, hvalue]

theorem not_isComment_sampleText (h : sample.Named) : isComment (sampleText sample) = false := by
  have hmem : ∀ first rest, sample.name.toList = first :: rest → first ≠ '#' := by
    rintro first rest hname rfl
    have hfirst : '#' ∈ sample.name.toList := hname ▸ List.mem_cons_self
    exact not_mem_name h.name (by decide) hfirst
  unfold sampleText isComment
  cases hname : sample.name.toList with
  | nil =>
      have hempty := h.name
      rw [hname] at hempty
      exact absurd hempty (by decide)
  | cons first rest => simp [hmem first rest hname]

end Lines

section Reads

-- Read before other text, the text adds its samples to the others.
def Reads (text : List Char) (samples : List Sample) : Prop :=
  ∀ rest more, parseText rest = some more → parseText (text ++ rest) = some (samples ++ more)

variable {text text' : List Char} {samples samples' : List Sample}

theorem parseText_line {line rest : List Char} (hline : '\n' ∉ line) :
    parseText (line ++ '\n' :: rest) =
      if isComment line then parseText rest
      else (parseSample line).bind fun sample => (parseText rest).map (sample :: ·) := by
  unfold parseText
  rw [unfinished_append_cons hline, closed_append_cons hline]
  by_cases hrest : unfinished '\n' rest = []
  · by_cases hcomment : isComment line
    · simp [hrest, hcomment]
    · have hkept : (line :: closed '\n' rest).filter (fun line => !isComment line) =
          line :: (closed '\n' rest).filter (fun line => !isComment line) :=
        List.filter_cons_of_pos (by simp [hcomment])
      rw [if_pos hrest, if_pos hrest, if_neg hcomment, hkept, List.mapM_cons]
      simp only [Option.map_eq_bind]
      rfl
  · simp [hrest]

theorem Reads.parseText (h : Reads text samples) : parseText text = some samples := by
  have hparse := h [] [] rfl
  simpa using hparse

theorem reads_nil : Reads [] [] := fun _ _ h => h

theorem reads_comment {line : List Char} (hcomment : isComment line) (hline : '\n' ∉ line) :
    Reads (line ++ ['\n']) [] := by
  intro rest more hmore
  rw [List.append_assoc, List.singleton_append, parseText_line hline, if_pos hcomment]
  exact hmore

theorem reads_sample {sample : Sample} (h : sample.Named) :
    Reads (sampleText sample ++ ['\n']) [sample] := by
  intro rest more hmore
  rw [List.append_assoc, List.singleton_append, parseText_line (line_break_not_mem_sampleText h),
    not_isComment_sampleText h, parseSample_sampleText h, hmore]
  rfl

theorem Reads.append (h : Reads text samples) (h' : Reads text' samples') :
    Reads (text ++ text') (samples ++ samples') := by
  intro rest more hmore
  rw [List.append_assoc, List.append_assoc]
  exact h _ _ (h' _ _ hmore)

end Reads

end TextFormat
