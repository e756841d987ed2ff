import Mizan.Table.Order

namespace Table

variable {κ ρ : Type} [LinearOrder κ]

-- How many rows come before those with this key, and how many come no later than the last of them.
def before (key : ρ → κ) (rows : List ρ) (value : κ) : Nat :=
  rows.countP fun row => decide (value < key row)

def upTo (key : ρ → κ) (rows : List ρ) (value : κ) : Nat :=
  rows.countP fun row => decide (value ≤ key row)

-- LIMIT `size` OFFSET `place * size`
def pageAt (size place : Nat) (rows : List ρ) : List ρ := (rows.drop (place * size)).take size

-- The pages one after another, each of them out of a query of its own.
def pages (orders : Nat → Descending κ) (key : ρ → κ) (size count : Nat) (rows : List ρ) : List ρ :=
  (List.range count).flatMap fun place => pageAt size place ((orders place).arrange key rows)

-- The rows with one key are on one page, the first of them and the last.
def TiesUncut (key : ρ → κ) (size : Nat) (rows : List ρ) : Prop :=
  ∀ row ∈ rows, before key rows (key row) / size = (upTo key rows (key row) - 1) / size

instance (key : ρ → κ) (size : Nat) (rows : List ρ) : Decidable (TiesUncut key size rows) :=
  inferInstanceAs (Decidable (∀ row ∈ rows, _))

section Sorted

variable {key : ρ → κ} {rows : List ρ}

theorem before_le {sorted : List ρ} (h : sorted.Pairwise fun a b => key b ≤ key a) {place : Nat}
    (hplace : place < sorted.length) : before key sorted (key sorted[place]) ≤ place := by
  have hrest : ∀ row ∈ sorted.drop place, key row ≤ key sorted[place] := by
    have hdrop := h.sublist (List.drop_sublist place sorted)
    rw [List.drop_eq_getElem_cons hplace] at hdrop ⊢
    intro row hrow
    rcases List.mem_cons.mp hrow with rfl | hrow
    · exact le_refl _
    · exact List.rel_of_pairwise_cons hdrop hrow
  have hnone : (sorted.drop place).countP (fun row => decide (key sorted[place] < key row)) =
    0 := by
    rw [List.countP_eq_zero]
    intro row hrow
    simpa using hrest row hrow
  have hsplit : before key sorted (key sorted[place]) =
      (sorted.take place).countP (fun row => decide (key sorted[place] < key row)) +
        (sorted.drop place).countP (fun row => decide (key sorted[place] < key row)) := by
    rw [← List.countP_append, List.take_append_drop, before]
  have hle := @List.countP_le_length _ (fun row => decide (key sorted[place] < key row))
    (sorted.take place)
  have hlength := List.length_take_le place sorted
  omega

theorem lt_upTo {sorted : List ρ} (h : sorted.Pairwise fun a b => key b ≤ key a) {place : Nat}
    (hplace : place < sorted.length) : place < upTo key sorted (key sorted[place]) := by
  have hfirst : ∀ row ∈ sorted.take (place + 1), key sorted[place] ≤ key row := by
    intro row hrow
    obtain ⟨other, hother, rfl⟩ := List.mem_take_iff_getElem.mp hrow
    have hle : other ≤ place := by omega
    rcases Nat.lt_or_eq_of_le hle with hlt | rfl
    · exact List.pairwise_iff_getElem.mp h other place (by omega) hplace hlt
    · exact le_refl _
  have hall : (sorted.take (place + 1)).countP (fun row => decide (key sorted[place] ≤ key row)) =
      (sorted.take (place + 1)).length := by
    rw [List.countP_eq_length]
    intro row hrow
    simpa using hfirst row hrow
  have hsub := (List.take_sublist (place + 1) sorted).countP_le
    (p := fun row => decide (key sorted[place] ≤ key row))
  have hlength : (sorted.take (place + 1)).length = place + 1 := by
    rw [List.length_take]
    omega
  rw [upTo]
  omega

-- Where the place of every row tells its page, a page is the rows that say so.
theorem pageAt_eq_filter {size : Nat} (hsize : 0 < size) {page : ρ → Nat} {sorted : List ρ}
    (h : ∀ place (hplace : place < sorted.length), page sorted[place] = place / size)
    (place : Nat) : pageAt size place sorted = sorted.filter fun row => page row = place := by
  have hsplit : sorted = sorted.take (place * size) ++
      (pageAt size place sorted ++ sorted.drop (place * size + size)) := by
    rw [pageAt, ← List.drop_drop, List.take_append_drop, List.take_append_drop]
  have hbefore : (sorted.take (place * size)).filter (fun row => page row = place) = [] := by
    rw [List.filter_eq_nil_iff]
    intro row hrow
    obtain ⟨other, hother, rfl⟩ := List.mem_take_iff_getElem.mp hrow
    have hpage := h other (by omega)
    have hlt : other / size < place := (Nat.div_lt_iff_lt_mul hsize).mpr (by omega)
    simp only [decide_eq_true_eq]
    omega
  have hafter : (sorted.drop (place * size + size)).filter (fun row => page row = place) = [] := by
    rw [List.filter_eq_nil_iff]
    intro row hrow
    obtain ⟨other, hother, rfl⟩ := List.mem_drop_iff_getElem.mp hrow
    have hpage := h (place * size + size + other) (by omega)
    have hle : place + 1 ≤ (place * size + size + other) / size := by
      rw [Nat.le_div_iff_mul_le hsize, Nat.add_mul]
      omega
    simp only [decide_eq_true_eq]
    omega
  have hpage : (pageAt size place sorted).filter (fun row => page row = place) =
      pageAt size place sorted := by
    rw [List.filter_eq_self]
    intro row hrow
    obtain ⟨other, hother, hget⟩ := List.mem_take_iff_getElem.mp hrow
    have hlength : (sorted.drop (place * size)).length = sorted.length - place * size :=
      List.length_drop
    have hpage := h (place * size + other) (by omega)
    rw [List.getElem_drop] at hget
    subst hget
    have hdiv : (place * size + other) / size = place := by
      rw [Nat.mul_comm, Nat.mul_add_div hsize, Nat.div_eq_of_lt (by omega), Nat.add_zero]
    simp only [decide_eq_true_eq]
    omega
  conv_rhs => rw [hsplit]
  rw [List.filter_append, List.filter_append, hbefore, hafter, hpage, List.nil_append,
    List.append_nil]

theorem perm_flatMap_filter (page : ρ → Nat) (rows : List ρ) (count : Nat) :
    ((List.range count).flatMap fun place => rows.filter fun row => page row = place).Perm
      (rows.filter fun row => page row < count) := by
  induction count with
  | zero => simp
  | succ count ih =>
      rw [List.range_succ, List.flatMap_append, List.flatMap_singleton]
      have hsplit := List.filter_append_perm (fun row => decide (page row < count))
        (rows.filter fun row => page row < count + 1)
      rw [List.filter_filter, List.filter_filter] at hsplit
      have hfirst : (rows.filter fun row => decide (page row < count) &&
        decide (page row < count + 1)) =
          rows.filter fun row => page row < count := by
        apply List.filter_congr
        intro row _
        simp only [← Bool.decide_and, decide_eq_decide]
        omega
      have hlast : (rows.filter fun row => (!decide (page row < count)) &&
        decide (page row < count + 1)) =
          rows.filter fun row => page row = count := by
        apply List.filter_congr
        intro row _
        rw [← decide_not, ← Bool.decide_and, decide_eq_decide]
        omega
      rw [hfirst, hlast] at hsplit
      exact (ih.append_right _).trans hsplit

theorem pages_perm {orders : Nat → Descending κ} {size count : Nat} (hsize : 0 < size)
    (hcount : rows.length ≤ count * size) (h : TiesUncut key size rows) :
    (pages orders key size count rows).Perm rows := by
  have hpage : ∀ place, (pageAt size place ((orders place).arrange key rows)).Perm
      (rows.filter fun row => before key rows (key row) / size = place) := by
    intro place
    have hperm := (orders place).perm_arrange key rows
    have hsorted := (orders place).pairwise_arrange key rows
    rw [@pageAt_eq_filter _ size hsize (fun row => before key rows (key row) / size)]
    · exact hperm.filter _
    · intro other hother
      have hbefore := before_le hsorted hother
      have hupTo := lt_upTo hsorted hother
      rw [before, hperm.countP_eq, ← before] at hbefore
      rw [upTo, hperm.countP_eq, ← upTo] at hupTo
      have huncut := h _ (hperm.mem_iff.mp (List.getElem_mem hother))
      have hlower := Nat.div_le_div_right (c := size) hbefore
      have hupper := Nat.div_le_div_right (c := size) (Nat.le_sub_one_of_lt hupTo)
      omega
  have hall : (rows.filter fun row => before key rows (key row) / size < count) = rows := by
    rw [List.filter_eq_self]
    intro row hrow
    have hlt : before key rows (key row) < rows.length := by
      rw [before, List.countP_eq_length_filter]
      exact List.length_filter_lt_length_iff_exists.mpr ⟨row, hrow, by simp⟩
    simp only [decide_eq_true_eq]
    exact (Nat.div_lt_iff_lt_mul hsize).mpr (by omega)
  have hflat : (pages orders key size count rows).Perm ((List.range count).flatMap fun place =>
      rows.filter fun row => before key rows (key row) / size = place) :=
    List.Perm.flatMap_left _ fun place _ => hpage place
  have hperm := hflat.trans (perm_flatMap_filter _ rows count)
  rw [hall] at hperm
  exact hperm

end Sorted

-- The elements at `place` and after it change places.
def swapNext {α : Type} : Nat → List α → List α
  | 0, first :: second :: rest => second :: first :: rest
  | place + 1, first :: rest => first :: swapNext place rest
  | _, values => values

section Swapped

variable {α β : Type}

theorem perm_swapNext (place : Nat) (values : List α) : (swapNext place values).Perm values := by
  induction place generalizing values with
  | zero =>
      match values with
      | [] => exact .refl _
      | [_] => exact .refl _
      | first :: second :: rest => exact .swap first second rest
  | succ place ih =>
      cases values with
      | nil => exact .refl _
      | cons first rest => exact (ih rest).cons first

theorem map_swapNext {f : α → β} {place : Nat} {values : List α}
    (h : values[place]?.map f = values[place + 1]?.map f) :
    (swapNext place values).map f = values.map f := by
  induction place generalizing values with
  | zero =>
      match values with
      | [] => rfl
      | [_] => rfl
      | first :: second :: rest =>
          have heq : f first = f second := by simpa using h
          simp [swapNext, heq]
  | succ place ih =>
      cases values with
      | nil => rfl
      | cons first rest =>
          have hrest : rest[place]?.map f = rest[place + 1]?.map f := by simpa using h
          simp [swapNext, ih hrest]

theorem filterMap_swapNext {f : α → Option β} (place : Nat) {values : List α}
    (h : ∀ value ∈ values, (f value).isSome) :
    (swapNext place values).filterMap f = swapNext place (values.filterMap f) := by
  induction place generalizing values with
  | zero =>
      match values with
      | [] => rfl
      | [value] =>
          obtain ⟨image, himage⟩ := Option.isSome_iff_exists.mp (h value List.mem_cons_self)
          simp [swapNext, himage]
      | first :: second :: rest =>
          obtain ⟨image, himage⟩ := Option.isSome_iff_exists.mp (h first (by simp))
          obtain ⟨image', himage'⟩ := Option.isSome_iff_exists.mp (h second (by simp))
          simp [swapNext, himage, himage']
  | succ place ih =>
      cases values with
      | nil => rfl
      | cons first rest =>
          obtain ⟨image, himage⟩ := Option.isSome_iff_exists.mp (h first List.mem_cons_self)
          have hrest := ih fun value hvalue => h value (List.mem_cons_of_mem first hvalue)
          simp [swapNext, himage, hrest]

theorem drop_swapNext {place : Nat} {values : List α} (h : place + 1 < values.length) :
    (swapNext place values).drop (place + 1) =
      values[place] :: values.drop (place + 2) := by
  induction place generalizing values with
  | zero =>
      match values, h with
      | first :: second :: rest, _ => rfl
  | succ place ih =>
      cases values with
      | nil => simp at h
      | cons first rest =>
          have hrest : place + 1 < rest.length := by simpa using h
          simpa [swapNext] using ih hrest

theorem map_some_filterMap {f : α → Option β} {values : List α}
    (h : ∀ value ∈ values, (f value).isSome) : (values.filterMap f).map some = values.map f := by
  induction values with
  | nil => rfl
  | cons first rest ih =>
      obtain ⟨image, himage⟩ := Option.isSome_iff_exists.mp (h first List.mem_cons_self)
      have hrest := ih fun value hvalue => h value (List.mem_cons_of_mem first hvalue)
      simp [himage, hrest]

end Swapped

namespace Descending

variable (order : Descending κ)

-- The order in which two rows with one key are the other way round.
def swapTie (place : Nat) : Descending κ where
  places keys :=
    if (order.places keys)[place]?.map (keys[·]?) = (order.places keys)[place + 1]?.map (keys[·]?)
    then swapNext place (order.places keys) else order.places keys
  perm keys := by
    split
    · exact (perm_swapNext place _).trans (order.perm keys)
    · exact order.perm keys
  descending keys := by
    have hdescending : ((order.places keys).map (keys[·]?)).Pairwise
        fun first second => ∀ a ∈ first, ∀ b ∈ second, b ≤ a :=
      List.pairwise_map.mpr (order.descending keys)
    split
    · rename_i htie
      rw [← map_swapNext htie] at hdescending
      exact List.pairwise_map.mp hdescending
    · exact order.descending keys

theorem arrange_swapTie {key : ρ → κ} {rows : List ρ} {place : Nat}
    (htie : (order.arrange key rows)[place]?.map key =
      (order.arrange key rows)[place + 1]?.map key) :
    (order.swapTie place).arrange key rows = swapNext place (order.arrange key rows) := by
  have hplaces : ∀ index ∈ order.places (rows.map key), (rows[index]?).isSome := by
    intro index hindex
    rw [(order.perm _).mem_iff, List.mem_range, List.length_map] at hindex
    rw [List.getElem?_eq_getElem hindex]
    rfl
  have hkeys : ∀ place : Nat, (order.places (rows.map key))[place]?.map (fun index : Nat =>
      (rows.map key)[index]?) = ((order.arrange key rows)[place]?.map key).map some := by
    intro place
    have hmap := congrArg (fun values => values[place]?) (map_some_filterMap hplaces)
    simp only [List.getElem?_map] at hmap
    have hcongr := congrArg (Option.map (Option.map key)) hmap
    simpa [Option.map_map, Function.comp_def, arrange] using hcongr.symm
  have hswapped : (order.swapTie place).places (rows.map key) =
      swapNext place (order.places (rows.map key)) := by
    simp only [swapTie]
    rw [hkeys, hkeys, htie, if_pos rfl]
  rw [arrange, hswapped, filterMap_swapNext place hplaces]
  rfl

end Descending

section Cut

variable {key : ρ → κ} {rows : List ρ}

theorem key_of_between {sorted : List ρ} (h : sorted.Pairwise fun a b => key b ≤ key a) {value : κ}
    {place : Nat} (hplace : place < sorted.length) (hlower : before key sorted value ≤ place)
    (hupper : place < upTo key sorted value) : key sorted[place] = value := by
  have hbefore := before_le h hplace
  have hupTo := lt_upTo h hplace
  rcases lt_trichotomy (key sorted[place]) value with hlt | heq | hgt
  · have hle : upTo key sorted value ≤ before key sorted (key sorted[place]) := by
      apply List.countP_mono_left
      intro row _ hrow
      simp only [decide_eq_true_eq] at hrow ⊢
      exact lt_of_lt_of_le hlt hrow
    omega
  · exact heq
  · have hle : upTo key sorted (key sorted[place]) ≤ before key sorted value := by
      apply List.countP_mono_left
      intro row _ hrow
      simp only [decide_eq_true_eq] at hrow ⊢
      exact lt_of_lt_of_le hgt hrow
    omega

-- Two pages that cut a tie can show one row of the tie twice.
theorem exists_repeated {size count : Nat} (hsize : 0 < size) (hcount : rows.length ≤ count * size)
    (h : ¬TiesUncut key size rows) :
    ∃ orders : Nat → Descending κ, ¬(pages orders key size count rows).Nodup := by
  unfold TiesUncut at h
  push Not at h
  obtain ⟨row, hrow, hcut⟩ := h
  have hperm := Descending.stable.perm_arrange key rows
  have hsorted := Descending.stable.pairwise_arrange key rows
  have hlength := hperm.length_eq
  set sorted := Descending.stable.arrange key rows with hdef
  have hbefore : before key rows (key row) = before key sorted (key row) := (hperm.countP_eq _).symm
  have hupTo : upTo key rows (key row) = upTo key sorted (key row) := (hperm.countP_eq _).symm
  have hle : upTo key sorted (key row) ≤ sorted.length := List.countP_le_length
  have hfirst : before key sorted (key row) < upTo key sorted (key row) := by
    obtain ⟨other, hother, hget⟩ := List.mem_iff_getElem.mp (hperm.mem_iff.mpr hrow)
    have hlower := before_le hsorted hother
    have hupper := lt_upTo hsorted hother
    rw [hget] at hlower hupper
    omega
  rw [hbefore, hupTo] at hcut
  -- The first page that begins inside the tie, and the row before it.
  generalize hpage : (upTo key sorted (key row) - 1) / size = page at hcut
  have hstart : page * size ≤ upTo key sorted (key row) - 1 := by
    rw [← hpage]
    exact Nat.div_mul_le_self _ _
  have hcrossed : before key sorted (key row) < page * size := by
    have hmono := @Nat.div_le_div_right _ _ size (Nat.le_sub_one_of_lt hfirst)
    rw [hpage] at hmono
    exact (Nat.div_lt_iff_lt_mul hsize).mp (by omega)
  obtain ⟨last, hlast⟩ : ∃ last, last + 1 = page * size := ⟨page * size - 1, by omega⟩
  obtain ⟨previous, hprevious⟩ : ∃ previous, previous + 1 = page := by
    cases page with
    | zero => simp at hcrossed
    | succ previous => exact ⟨previous, rfl⟩
  have hnext : last + 1 < sorted.length := by omega
  have hlastKey : key sorted[last] = key row :=
    key_of_between hsorted (by omega) (by omega) (by omega)
  have hnextKey : key sorted[last + 1] = key row :=
    key_of_between hsorted hnext (by omega) (by omega)
  have htie : sorted[last]?.map key = sorted[last + 1]?.map key := by
    rw [List.getElem?_eq_getElem (by omega), List.getElem?_eq_getElem hnext, Option.map_some,
      Option.map_some, hlastKey, hnextKey]
  have hswapped : (Descending.stable.swapTie last).arrange key rows = swapNext last sorted :=
    Descending.stable.arrange_swapTie htie
  have hpages : previous * size + size = page * size := by
    rw [← hprevious, Nat.add_mul, Nat.one_mul]
  have hshown : sorted[last] ∈ pageAt size previous sorted := by
    have hindex : previous * size + (size - 1) = last := by omega
    rw [pageAt, List.mem_take_iff_getElem]
    refine ⟨size - 1, ?_, ?_⟩
    · rw [List.length_drop]
      omega
    · simp only [List.getElem_drop, hindex]
  have hagain : sorted[last] ∈ pageAt size page (swapNext last sorted) := by
    rw [pageAt, ← hlast, drop_swapNext hnext]
    obtain ⟨rest, rfl⟩ : ∃ rest, rest + 1 = size := ⟨size - 1, by omega⟩
    exact List.mem_cons_self
  have hlt : page < count := by
    have hmul : page * size < count * size := by omega
    exact Nat.lt_of_mul_lt_mul_right hmul
  refine ⟨fun place => if place < page then .stable else Descending.stable.swapTie last, ?_⟩
  intro hnodup
  obtain ⟨-, hdisjoint⟩ := List.nodup_flatMap.mp hnodup
  have hapart := List.pairwise_iff_getElem.mp hdisjoint previous page
    (by rw [List.length_range]; omega) (by rw [List.length_range]; exact hlt) (by omega)
  simp only [Function.onFun, List.getElem_range] at hapart
  rw [if_pos (by omega), if_neg (by omega), hswapped] at hapart
  exact hapart hshown hagain

end Cut

end Table
