import Mizan.Delimited.Quoted

namespace Mizan.Sql

-- At most one of the four flags of the scanner is set; `quote` is either kind of quotation mark.
inductive Mode where
  | outside
  | quote (mark : Char)
  | lineComment
  | blockComment
  deriving DecidableEq, Repr

def SINGLE_QUOTE : Char := Char.ofNat 0x27
def DOUBLE_QUOTE : Char := Char.ofNat 0x22

def scan : Mode → (parameterIndex : Nat) → List Char → List Char
  | _, _, [] => []
  | .lineComment, parameterIndex, current :: chars =>
      current :: scan (if current = '\n' then .outside else .lineComment) parameterIndex chars
  | .blockComment, parameterIndex, current :: chars =>
      match chars with
      | next :: rest =>
          if current = '*' ∧ next = '/' then current :: next :: scan .outside parameterIndex rest
          else current :: scan .blockComment parameterIndex (next :: rest)
      | [] => [current]
  | .quote mark, parameterIndex, current :: chars =>
      if current = mark then
        match chars with
        | next :: rest =>
            if next = mark then current :: next :: scan (.quote mark) parameterIndex rest
            else current :: scan .outside parameterIndex (next :: rest)
        | [] => [current]
      else current :: scan (.quote mark) parameterIndex chars
  | .outside, parameterIndex, current :: chars =>
      match chars with
      | next :: rest =>
          if current = '-' ∧ next = '-' then
            current :: next :: scan .lineComment parameterIndex rest
          else if current = '/' ∧ next = '*' then
            current :: next :: scan .blockComment parameterIndex rest
          else if current = SINGLE_QUOTE ∨ current = DOUBLE_QUOTE then
            current :: scan (.quote current) parameterIndex (next :: rest)
          else if current = '?' then
            '$' :: ((parameterIndex + 1).repr.toList ++
              scan .outside (parameterIndex + 1) (next :: rest))
          else current :: scan .outside parameterIndex (next :: rest)
      | [] =>
          if current = '?' then '$' :: (parameterIndex + 1).repr.toList else [current]

attribute [local simp] scan

def toDollarParams (query : String) : String := String.ofList (scan .outside 0 query.toList)

-- A question mark that stands for a parameter, any other character, or a whole quoted text or
-- comment
-- with what opens and closes it.
inductive Region where
  | parameter
  | character (value : Char)
  | quoted (mark : Char) (text : List Char)
  | lineComment (text : List Char)
  | blockComment (text : List Char)
  deriving DecidableEq, Repr

namespace Region

def source : Region → List Char
  | .parameter => ['?']
  | .character value => [value]
  | .quoted _ text | .lineComment text | .blockComment text => text

-- What may stand as a region before the rest of a query. A quotation or a comment that is not
-- closed
-- goes on to the end.
def Before (rest : List Char) : Region → Prop
  | .parameter => True
  | .character value => value ≠ '?' ∧ value ≠ SINGLE_QUOTE ∧ value ≠ DOUBLE_QUOTE ∧
      ¬(value = '-' ∧ rest.head? = some '-') ∧ ¬(value = '/' ∧ rest.head? = some '*')
  | .quoted mark text => (mark = SINGLE_QUOTE ∨ mark = DOUBLE_QUOTE) ∧
      ∃ body, Delimited.Doubled mark body ∧
        (text = mark :: (body ++ [mark]) ∧ rest.head? ≠ some mark ∨ text = mark :: body ∧ rest = [])
  | .lineComment text => ∃ body, '\n' ∉ body ∧
      (text = '-' :: '-' :: (body ++ ['\n']) ∨ text = '-' :: '-' :: body ∧ rest = [])
  | .blockComment text => ∃ body,
      ¬['*', '/'] <:+: body ++ ['*'] ∧ text = '/' :: '*' :: (body ++ ['*', '/']) ∨
      ¬['*', '/'] <:+: body ∧ text = '/' :: '*' :: body ∧ rest = []

end Region

-- The regions of a query, from its beginning to its end.
inductive Tokenises : List Char → List Region → Prop where
  | nil : Tokenises [] []
  | cons {region : Region} {rest : List Char} {regions : List Region} (hregion : region.Before rest)
      (hrest : Tokenises rest regions) : Tokenises (region.source ++ rest) (region :: regions)

-- The query with its parameters numbered on from `parameterIndex`.
def numbered (parameterIndex : Nat) : List Region → List Char
  | [] => []
  | .parameter :: regions =>
      '$' :: ((parameterIndex + 1).repr.toList ++ numbered (parameterIndex + 1) regions)
  | region :: regions => region.source ++ numbered parameterIndex regions

section Scan

variable {parameterIndex : Nat} {body rest : List Char} {mark : Char}

theorem scan_nil (mode : Mode) : scan mode parameterIndex [] = [] := by
  cases mode <;> rfl

theorem scan_lineComment (hbody : '\n' ∉ body) :
    scan .lineComment parameterIndex (body ++ '\n' :: rest) =
      body ++ '\n' :: scan .outside parameterIndex rest := by
  induction body with
  | nil => rfl
  | cons value body ih =>
      rw [List.mem_cons, not_or] at hbody
      rw [List.cons_append, scan, if_neg (Ne.symm hbody.1), ih hbody.2]
      rfl

theorem scan_lineComment_open (hbody : '\n' ∉ body) :
    scan .lineComment parameterIndex body = body := by
  induction body with
  | nil => rfl
  | cons value body ih =>
      rw [List.mem_cons, not_or] at hbody
      rw [scan, if_neg (Ne.symm hbody.1), ih hbody.2]

theorem scan_blockComment (hbody : ¬['*', '/'] <:+: body ++ ['*']) :
    scan .blockComment parameterIndex (body ++ '*' :: '/' :: rest) =
      body ++ '*' :: '/' :: scan .outside parameterIndex rest := by
  induction body with
  | nil => rfl
  | cons value body ih =>
      rw [List.cons_append, Delimited.pair_infix_cons, not_or,
        ← Delimited.head?_append_cons body ('/' :: rest)] at hbody
      have hafter := ih hbody.2
      rw [List.cons_append]
      cases htext : body ++ '*' :: '/' :: rest with
      | nil => simp at htext
      | cons next text =>
          rw [htext] at hbody hafter
          have hpair : ¬(value = '*' ∧ next = '/') := fun h =>
            hbody.1 ⟨h.1, congrArg some h.2⟩
          rw [scan, if_neg hpair, hafter]
          rfl

theorem scan_blockComment_open (hbody : ¬['*', '/'] <:+: body) :
    scan .blockComment parameterIndex body = body := by
  induction body with
  | nil => rfl
  | cons value body ih =>
      rw [Delimited.pair_infix_cons, not_or] at hbody
      have hafter := ih hbody.2
      cases body with
      | nil => rfl
      | cons next body =>
          have hpair : ¬(value = '*' ∧ next = '/') := fun h =>
            hbody.1 ⟨h.1, congrArg some h.2⟩
          rw [scan, if_neg hpair, hafter]

theorem scan_quote_plain {value : Char} {chars : List Char} (hvalue : value ≠ mark) :
    scan (.quote mark) parameterIndex (value :: chars) =
      value :: scan (.quote mark) parameterIndex chars := by
  cases chars with
  | nil => simp [hvalue]
  | cons next chars => simp [hvalue]

theorem scan_quote_pair {chars : List Char} :
    scan (.quote mark) parameterIndex (mark :: mark :: chars) =
      mark :: mark :: scan (.quote mark) parameterIndex chars := by
  simp

theorem scan_quote (hbody : Delimited.Doubled mark body) (hrest : rest.head? ≠ some mark) :
    scan (.quote mark) parameterIndex (body ++ mark :: rest) =
      body ++ mark :: scan .outside parameterIndex rest := by
  induction hbody with
  | nil =>
      cases rest with
      | nil => simp
      | cons next rest =>
          have hnext : next ≠ mark := fun h => hrest (congrArg some h)
          simp [hnext]
  | plain hvalue _ ih =>
      rw [List.cons_append, scan_quote_plain hvalue, ih]
      rfl
  | pair _ ih =>
      rw [List.cons_append, List.cons_append, scan_quote_pair, ih]
      rfl

theorem scan_quote_open (hbody : Delimited.Doubled mark body) :
    scan (.quote mark) parameterIndex body = body := by
  induction hbody with
  | nil => rfl
  | plain hvalue _ ih => rw [scan_quote_plain hvalue, ih]
  | pair _ ih => rw [scan_quote_pair, ih]

theorem scan_opens_line {chars : List Char} :
    scan .outside parameterIndex ('-' :: '-' :: chars) =
      '-' :: '-' :: scan .lineComment parameterIndex chars := by
  rw [scan, if_pos ⟨rfl, rfl⟩]

theorem scan_opens_block {chars : List Char} :
    scan .outside parameterIndex ('/' :: '*' :: chars) =
      '/' :: '*' :: scan .blockComment parameterIndex chars := by
  rw [scan, if_neg (by decide), if_pos ⟨rfl, rfl⟩]

theorem scan_opens_quote {chars : List Char} (hmark : mark = SINGLE_QUOTE ∨ mark = DOUBLE_QUOTE) :
    scan .outside parameterIndex (mark :: chars) =
      mark :: scan (.quote mark) parameterIndex chars := by
  have hline : mark ≠ '-' := by rcases hmark with rfl | rfl <;> decide
  have hblock : mark ≠ '/' := by rcases hmark with rfl | rfl <;> decide
  have hparameter : mark ≠ '?' := by rcases hmark with rfl | rfl <;> decide
  cases chars with
  | nil => simp [hparameter]
  | cons next chars => simp [hline, hblock, hmark]

-- The scanner takes a region as a whole.
theorem scan_region {region : Region} (h : region.Before rest) :
    scan .outside parameterIndex (region.source ++ rest) =
      match region with
      | .parameter => '$' :: ((parameterIndex + 1).repr.toList ++
          scan .outside (parameterIndex + 1) rest)
      | region => region.source ++ scan .outside parameterIndex rest := by
  cases region with
  | parameter =>
      cases rest with
      | nil => simp [Region.source]
      | cons next rest =>
          have hmarks : ¬('?' = SINGLE_QUOTE ∨ '?' = DOUBLE_QUOTE) := by decide
          simp [Region.source, hmarks]
  | character value =>
      obtain ⟨hparameter, hsingle, hdouble, hline, hblock⟩ := h
      cases rest with
      | nil => simp [Region.source, hparameter]
      | cons next rest =>
          have hline' : ¬(value = '-' ∧ next = '-') := fun hpair =>
            hline ⟨hpair.1, congrArg some hpair.2⟩
          have hblock' : ¬(value = '/' ∧ next = '*') := fun hpair =>
            hblock ⟨hpair.1, congrArg some hpair.2⟩
          have hmarks : ¬(value = SINGLE_QUOTE ∨ value = DOUBLE_QUOTE) := by simp [hsingle, hdouble]
          simp [Region.source, hparameter, hline', hblock', hmarks]
  | quoted mark text =>
      obtain ⟨hmark, body, hbody, ⟨rfl, hrest⟩ | ⟨rfl, rfl⟩⟩ := h
      · simp only [Region.source, List.cons_append, List.append_assoc, List.nil_append]
        rw [scan_opens_quote hmark, scan_quote hbody hrest]
      · simp only [Region.source, scan_nil, List.append_nil]
        rw [scan_opens_quote hmark, scan_quote_open hbody]
  | lineComment text =>
      obtain ⟨body, hbody, rfl | ⟨rfl, rfl⟩⟩ := h
      · simp only [Region.source, List.cons_append, List.append_assoc, List.nil_append]
        rw [scan_opens_line, scan_lineComment hbody]
      · simp only [Region.source, scan_nil, List.append_nil]
        rw [scan_opens_line, scan_lineComment_open hbody]
  | blockComment text =>
      obtain ⟨body, ⟨hbody, rfl⟩ | ⟨hbody, rfl, rfl⟩⟩ := h
      · simp only [Region.source, List.cons_append, List.append_assoc, List.nil_append]
        rw [scan_opens_block, scan_blockComment hbody]
      · simp only [Region.source, scan_nil, List.append_nil]
        rw [scan_opens_block, scan_blockComment_open hbody]

theorem scan_tokenised {query : List Char} {regions : List Region} (h : Tokenises query regions) :
    scan .outside parameterIndex query = numbered parameterIndex regions := by
  induction h generalizing parameterIndex with
  | nil => rfl
  | @cons region rest regions hregion _ ih =>
      have hscanned := @scan_region parameterIndex rest region hregion
      rw [hscanned]
      cases region with
      | parameter => simp only [numbered, ih]
      | character | quoted | lineComment | blockComment => simp only [numbered, ih]

end Scan

section Tokens

variable {region region' : Region} {rest rest' query : List Char} {regions regions' : List Region}

-- The mode that the first characters of a query open, and whether they are a parameter.
def opening : List Char → Mode × Bool
  | [] => (.outside, false)
  | value :: chars =>
      if value = '?' then (.outside, true)
      else if value = SINGLE_QUOTE ∨ value = DOUBLE_QUOTE then (.quote value, false)
      else if value = '-' ∧ chars.head? = some '-' then (.lineComment, false)
      else if value = '/' ∧ chars.head? = some '*' then (.blockComment, false)
      else (.outside, false)

def Region.opening : Region → Mode × Bool
  | .parameter => (.outside, true)
  | .character _ => (.outside, false)
  | .quoted mark _ => (.quote mark, false)
  | .lineComment _ => (.lineComment, false)
  | .blockComment _ => (.blockComment, false)

theorem opening_quote {mark : Char} {chars : List Char}
    (hmark : mark = SINGLE_QUOTE ∨ mark = DOUBLE_QUOTE) :
    opening (mark :: chars) = (.quote mark, false) := by
  have hparameter : mark ≠ '?' := by rcases hmark with rfl | rfl <;> decide
  rw [opening, if_neg hparameter, if_pos hmark]

theorem opening_region (h : region.Before rest) :
    opening (region.source ++ rest) = region.opening := by
  cases region with
  | parameter => rfl
  | character value =>
      obtain ⟨hparameter, hsingle, hdouble, hline, hblock⟩ := h
      have hmarks : ¬(value = SINGLE_QUOTE ∨ value = DOUBLE_QUOTE) := by simp [hsingle, hdouble]
      simp only [Region.source, List.singleton_append, opening, if_neg hparameter, if_neg hmarks,
        if_neg hline, if_neg hblock, Region.opening]
  | quoted mark text =>
      obtain ⟨hmark, body, _, ⟨rfl, _⟩ | ⟨rfl, rfl⟩⟩ := h
      · exact opening_quote hmark
      · exact opening_quote hmark
  | lineComment text =>
      obtain ⟨body, _, rfl | ⟨rfl, rfl⟩⟩ := h
      · rfl
      · rfl
  | blockComment text =>
      obtain ⟨body, ⟨_, rfl⟩ | ⟨_, rfl, rfl⟩⟩ := h
      · rfl
      · rfl

theorem region_unique (h : region.Before rest) (h' : region'.Before rest')
    (heq : region.source ++ rest = region'.source ++ rest') : region = region' ∧ rest = rest' := by
  have hopening := congrArg opening heq
  rw [opening_region h, opening_region h'] at hopening
  cases region with
  | parameter =>
      cases region' with
      | parameter => exact ⟨rfl, (List.cons.inj heq).2⟩
      | character | quoted | lineComment | blockComment => cases hopening
  | character value =>
      cases region' with
      | character value' => exact ⟨by rw [(List.cons.inj heq).1], (List.cons.inj heq).2⟩
      | parameter | quoted | lineComment | blockComment => cases hopening
  | quoted mark text =>
      cases region' with
      | parameter | character | lineComment | blockComment => cases hopening
      | quoted mark' text' =>
          cases hopening
          obtain ⟨_, body, hbody, ⟨rfl, hrest⟩ | ⟨rfl, rfl⟩⟩ := h
          · obtain ⟨_, body', hbody', ⟨rfl, hrest'⟩ | ⟨rfl, rfl⟩⟩ := h'
            · simp only [Region.source, List.cons_append, List.append_assoc, List.nil_append] at heq
              obtain ⟨rfl, rfl⟩ := hbody.unique hbody' hrest hrest' (List.cons.inj heq).2
              exact ⟨rfl, rfl⟩
            · simp only [Region.source, List.cons_append, List.append_assoc, List.nil_append,
                List.append_nil] at heq
              exact absurd (List.cons.inj heq).2.symm (hbody.ne_closed hbody' hrest)
          · obtain ⟨_, body', hbody', ⟨rfl, hrest'⟩ | ⟨rfl, rfl⟩⟩ := h'
            · simp only [Region.source, List.cons_append, List.append_assoc, List.nil_append,
                List.append_nil] at heq
              exact absurd (List.cons.inj heq).2 (hbody'.ne_closed hbody hrest')
            · simp only [Region.source, List.append_nil] at heq
              exact ⟨by rw [heq], rfl⟩
  | lineComment text =>
      cases region' with
      | parameter | character | quoted | blockComment => cases hopening
      | lineComment text' =>
          obtain ⟨body, hbody, rfl | ⟨rfl, rfl⟩⟩ := h
          · obtain ⟨body', hbody', rfl | ⟨rfl, rfl⟩⟩ := h'
            · simp only [Region.source, List.cons_append, List.append_assoc, List.nil_append,
                List.cons.injEq, true_and] at heq
              obtain ⟨rfl, rfl⟩ := Delimited.first_unique hbody hbody' heq
              exact ⟨rfl, rfl⟩
            · simp only [Region.source, List.cons_append, List.append_assoc, List.nil_append,
                List.append_nil, List.cons.injEq, true_and] at heq
              exact absurd (heq ▸ List.mem_append_right body List.mem_cons_self) hbody'
          · obtain ⟨body', hbody', rfl | ⟨rfl, rfl⟩⟩ := h'
            · simp only [Region.source, List.cons_append, List.append_assoc, List.nil_append,
                List.append_nil, List.cons.injEq, true_and] at heq
              exact absurd (heq ▸ List.mem_append_right body' List.mem_cons_self) hbody
            · simp only [Region.source, List.append_nil] at heq
              exact ⟨by rw [heq], rfl⟩
  | blockComment text =>
      cases region' with
      | parameter | character | quoted | lineComment => cases hopening
      | blockComment text' =>
          have hpair : ∀ body rest : List Char, ['*', '/'] <:+: body ++ '*' :: '/' :: rest :=
            fun body rest => ⟨body, rest, by simp⟩
          obtain ⟨body, ⟨hbody, rfl⟩ | ⟨hbody, rfl, rfl⟩⟩ := h
          · obtain ⟨body', ⟨hbody', rfl⟩ | ⟨hbody', rfl, rfl⟩⟩ := h'
            · simp only [Region.source, List.cons_append, List.append_assoc, List.nil_append,
                List.cons.injEq, true_and] at heq
              obtain ⟨rfl, rfl⟩ := Delimited.first_pair_unique hbody hbody' heq
              exact ⟨rfl, rfl⟩
            · simp only [Region.source, List.cons_append, List.append_assoc, List.nil_append,
                List.append_nil, List.cons.injEq, true_and] at heq
              exact absurd (heq ▸ hpair body rest) hbody'
          · obtain ⟨body', ⟨hbody', rfl⟩ | ⟨hbody', rfl, rfl⟩⟩ := h'
            · simp only [Region.source, List.cons_append, List.append_assoc, List.nil_append,
                List.append_nil, List.cons.injEq, true_and] at heq
              exact absurd (heq ▸ hpair body' rest') hbody
            · simp only [Region.source, List.append_nil] at heq
              exact ⟨by rw [heq], rfl⟩

theorem source_ne_nil (h : region.Before rest) : region.source ≠ [] := by
  cases region with
  | parameter | character => exact List.cons_ne_nil _ _
  | quoted mark text =>
      obtain ⟨_, body, _, ⟨rfl, _⟩ | ⟨rfl, _⟩⟩ := h
      · exact List.cons_ne_nil _ _
      · exact List.cons_ne_nil _ _
  | lineComment text =>
      obtain ⟨body, _, rfl | ⟨rfl, _⟩⟩ := h
      · exact List.cons_ne_nil _ _
      · exact List.cons_ne_nil _ _
  | blockComment text =>
      obtain ⟨body, ⟨_, rfl⟩ | ⟨_, rfl, _⟩⟩ := h
      · exact List.cons_ne_nil _ _
      · exact List.cons_ne_nil _ _

-- A query has one tokenisation at most.
theorem tokenises_unique (h : Tokenises query regions) (h' : Tokenises query regions') :
    regions = regions' := by
  induction h generalizing regions' with
  | nil =>
      generalize hquery : ([] : List Char) = query at h'
      cases h' with
      | nil => rfl
      | cons hregion _ =>
          exact absurd (List.append_eq_nil_iff.mp hquery.symm).1 (source_ne_nil hregion)
  | @cons region rest regions hregion _ ih =>
      generalize hquery : region.source ++ rest = query at h'
      cases h' with
      | nil => exact absurd (List.append_eq_nil_iff.mp hquery).1 (source_ne_nil hregion)
      | cons hregion' hrest' =>
          obtain ⟨rfl, rfl⟩ := region_unique hregion hregion' hquery
          rw [ih hrest']

theorem exists_region (value : Char) (chars : List Char) :
    ∃ (region : Region) (rest : List Char),
      value :: chars = region.source ++ rest ∧ region.Before rest := by
  by_cases hparameter : value = '?'
  · exact ⟨.parameter, chars, by rw [hparameter]; rfl, trivial⟩
  by_cases hmark : value = SINGLE_QUOTE ∨ value = DOUBLE_QUOTE
  · rcases Delimited.exists_doubled value chars with hopen | ⟨body, rest, hbody, rfl, hrest⟩
    · exact ⟨.quoted value (value :: chars), [], by simp [Region.source], hmark, chars, hopen,
        .inr ⟨rfl, rfl⟩⟩
    · exact ⟨.quoted value (value :: (body ++ [value])), rest, by simp [Region.source], hmark, body,
        hbody, .inl ⟨rfl, hrest⟩⟩
  by_cases hline : value = '-' ∧ chars.head? = some '-'
  · obtain ⟨rfl, hhead⟩ := hline
    obtain ⟨text, rfl⟩ := List.head?_eq_some_iff.mp hhead
    rcases Delimited.exists_first '\n' text with hopen | ⟨body, rest, rfl, hbody⟩
    · exact ⟨.lineComment ('-' :: '-' :: text), [], by simp [Region.source], text, hopen,
        .inr ⟨rfl, rfl⟩⟩
    · exact ⟨.lineComment ('-' :: '-' :: (body ++ ['\n'])), rest, by simp [Region.source], body,
        hbody,
        .inl rfl⟩
  by_cases hblock : value = '/' ∧ chars.head? = some '*'
  · obtain ⟨rfl, hhead⟩ := hblock
    obtain ⟨text, rfl⟩ := List.head?_eq_some_iff.mp hhead
    rcases Delimited.exists_first_pair '*' '/' text with hopen | ⟨body, rest, rfl, hbody⟩
    · exact ⟨.blockComment ('/' :: '*' :: text), [], by simp [Region.source], text,
        .inr ⟨hopen, rfl, rfl⟩⟩
    · exact ⟨.blockComment ('/' :: '*' :: (body ++ ['*', '/'])), rest, by simp [Region.source],
        body,
        .inl ⟨hbody, rfl⟩⟩
  rw [not_or] at hmark
  exact ⟨.character value, chars, rfl, hparameter, hmark.1, hmark.2, hline, hblock⟩

theorem exists_tokenises (query : List Char) : ∃ regions, Tokenises query regions := by
  induction hlength : query.length using Nat.strong_induction_on generalizing query with
  | _ length ih =>
      cases query with
      | nil => exact ⟨[], .nil⟩
      | cons value chars =>
          obtain ⟨region, rest, hquery, hregion⟩ := exists_region value chars
          have hsource := List.length_pos_of_ne_nil (source_ne_nil hregion)
          have hshorter := congrArg List.length hquery
          rw [List.length_append] at hshorter
          obtain ⟨regions, hrest⟩ := ih rest.length (by omega) rest rfl
          rw [hquery]
          exact ⟨region :: regions, .cons hregion hrest⟩

-- A query has one tokenisation, and the parameters in it are numbered in their order.
theorem placeholders_numbered_outside_quotes (query : String) :
    ∃ regions, Tokenises query.toList regions ∧
      (∀ regions', Tokenises query.toList regions' → regions' = regions) ∧
      toDollarParams query = String.ofList (numbered 0 regions) := by
  obtain ⟨regions, hregions⟩ := exists_tokenises query.toList
  refine ⟨regions, hregions, fun regions' h => tokenises_unique h hregions, ?_⟩
  rw [toDollarParams, scan_tokenised hregions]

-- A doubled quotation mark does not end a string, and `/*/` does not end a comment.
example : toDollarParams "a = ? AND b = '?''?' /*/ ? */ OR c = ?" =
    "a = $1 AND b = '?''?' /*/ ? */ OR c = $2" := by decide +kernel

end Tokens

end Mizan.Sql
