import Mathlib.Data.List.Permutation
import Mathlib.Data.List.Sort
import Mathlib.Order.WithBot

namespace Table

variable {κ ρ ρ' : Type} [LinearOrder κ]

-- ORDER BY one column, downwards. Rows with equal keys come in any order that the keys decide.
structure Descending (κ : Type) [LinearOrder κ] where
  places : List κ → List Nat
  perm : ∀ keys, (places keys).Perm (List.range keys.length)
  descending : ∀ keys, (places keys).Pairwise fun i j =>
    ∀ a ∈ keys[i]?, ∀ b ∈ keys[j]?, b ≤ a

namespace Descending

variable (order : Descending κ)

def arrange (key : ρ → κ) (rows : List ρ) : List ρ :=
  (order.places (rows.map key)).filterMap (rows[·]?)

-- The rows are arranged by nothing but their keys.
theorem arrange_map (key : ρ' → κ) (f : ρ → ρ') (rows : List ρ) :
    order.arrange key (rows.map f) = (order.arrange (fun row => key (f row)) rows).map f := by
  rw [arrange, arrange, List.map_map, List.map_filterMap]
  apply List.filterMap_congr
  intro place _
  rw [List.getElem?_map]

theorem filterMap_range_getElem? (rows : List ρ) :
    (List.range rows.length).filterMap (rows[·]?) = rows := by
  induction rows with
  | nil => rfl
  | cons row rows ih =>
      rw [List.length_cons, List.range_succ_eq_map, List.filterMap_cons, List.filterMap_map]
      simp only [List.getElem?_cons_zero]
      exact congrArg (row :: ·) ih

theorem perm_arrange (key : ρ → κ) (rows : List ρ) : (order.arrange key rows).Perm rows := by
  have hplaces := (order.perm (rows.map key)).filterMap (rows[·]?)
  rw [List.length_map, filterMap_range_getElem?] at hplaces
  exact hplaces

theorem mem_arrange {key : ρ → κ} {rows : List ρ} {row : ρ} :
    row ∈ order.arrange key rows ↔ row ∈ rows := (order.perm_arrange key rows).mem_iff

theorem mem_of_mem_arrange {key : ρ → κ} {rows : List ρ} {row : ρ}
    (h : row ∈ order.arrange key rows) : row ∈ rows := order.mem_arrange.mp h

theorem pairwise_arrange (key : ρ → κ) (rows : List ρ) :
    (order.arrange key rows).Pairwise fun row row' => key row' ≤ key row := by
  rw [arrange, List.pairwise_filterMap]
  refine (order.descending (rows.map key)).imp fun {i j} hle row hrow row' hrow' => ?_
  have hget : (rows.map key)[i]? =
    some (key row) := by rw [List.getElem?_map, hrow, Option.map_some]
  have hget' : (rows.map key)[j]? = some (key row') := by
    rw [List.getElem?_map, hrow', Option.map_some]
  exact hle _ hget _ hget'

theorem arrange_pair {key : ρ → κ} {row row' : ρ} (h : key row < key row') :
    order.arrange key [row, row'] = [row', row] := by
  obtain hplaces | hplaces := List.perm_pair.mp (order.perm [key row, key row'])
  · have hdescending := order.descending [key row, key row']
    rw [hplaces] at hdescending
    have hle : key row' ≤ key row := by simpa using hdescending
    exact absurd h (not_lt_of_ge hle)
  · simp [arrange, hplaces]

def keyAt (keys : List κ) (place : Nat) : WithBot κ := keys[place]?

-- Equal keys in the order of the table.
def stable : Descending κ where
  places keys := (List.range keys.length).mergeSort fun i j => decide (keyAt keys j ≤ keyAt keys i)
  perm keys := List.mergeSort_perm _ _
  descending keys := by
    have hsorted := @List.pairwise_mergeSort _
      (fun i j => decide (keyAt keys j ≤ keyAt keys i))
      (fun i j k hij hjk =>
        decide_eq_true ((of_decide_eq_true hjk).trans (of_decide_eq_true hij)))
      (fun i j => by simpa using le_total (keyAt keys j) (keyAt keys i)) (List.range keys.length)
    refine hsorted.imp fun {i j} hle a ha b hb => ?_
    have hle : keyAt keys j ≤ keyAt keys i := of_decide_eq_true hle
    rw [keyAt, keyAt, Option.mem_def.mp ha, Option.mem_def.mp hb] at hle
    exact WithBot.coe_le_coe.mp hle

-- Rows that go downwards already stay where they are.
theorem arrange_stable {key : ρ → κ} {rows : List ρ}
    (h : rows.Pairwise fun row row' => key row' ≤ key row) : stable.arrange key rows = rows := by
  have hplaces : stable.places (rows.map key) = List.range (rows.map key).length := by
    have hkey {place : Nat} (hplace : place < rows.length) :
        keyAt (rows.map key) place = ↑(key rows[place]) := by
      rw [keyAt, List.getElem?_map, List.getElem?_eq_getElem hplace]
      rfl
    apply List.mergeSort_of_pairwise
    rw [List.pairwise_iff_getElem]
    intro place place' hplace hplace' hlt
    rw [List.length_range, List.length_map] at hplace hplace'
    have hle := List.pairwise_iff_getElem.mp h place place' hplace hplace' hlt
    rw [List.getElem_range, List.getElem_range, hkey hplace, hkey hplace']
    exact decide_eq_true (WithBot.coe_le_coe.mpr hle)
  rw [arrange, hplaces, List.length_map]
  exact filterMap_range_getElem? rows

theorem exists_places {rows sorted : List ρ} (h : sorted.Perm rows) : ∃ places : List Nat,
    places.Perm (List.range rows.length) ∧ places.map (rows[·]?) = sorted.map some := by
  have hall : (List.range rows.length).map (rows[·]?) = rows.map some := by
    apply List.ext_getElem
    · simp
    · intro place hplace _
      simp
  have hperm : (sorted.map some).Perm ((List.range rows.length).map (rows[·]?)) := by
    rw [hall]
    exact h.map some
  obtain ⟨places, hmap, hplaces⟩ :=
    (congrFun (congrFun (List.eq_map_comp_perm (rows[·]?)) (sorted.map some)) _).mpr hperm
  exact ⟨places, hplaces, hmap.symm⟩

-- Any arrangement of the rows that goes downwards is what some query answers.
theorem exists_arrange_eq {key : ρ → κ} {rows sorted : List ρ} (hperm : sorted.Perm rows)
    (hsorted : sorted.Pairwise fun row row' => key row' ≤ key row) :
    ∃ order : Descending κ, order.arrange key rows = sorted := by
  obtain ⟨places, hplaces, hmap⟩ := exists_places hperm
  have hdescending : places.Pairwise fun i j =>
      ∀ a ∈ (rows.map key)[i]?, ∀ b ∈ (rows.map key)[j]?, b ≤ a := by
    have hrows : (places.map (rows[·]?)).Pairwise fun first second =>
        ∀ row ∈ first, ∀ row' ∈ second, key row' ≤ key row := by
      rw [hmap, List.pairwise_map]
      refine hsorted.imp fun {row row'} hle other hother other' hother' => ?_
      rw [← Option.some.inj hother, ← Option.some.inj hother']
      exact hle
    refine (List.pairwise_map.mp hrows).imp fun {i j} hle a ha b hb => ?_
    simp only [List.getElem?_map] at ha hb
    obtain ⟨row, hrow, rfl⟩ := Option.map_eq_some_iff.mp ha
    obtain ⟨row', hrow', rfl⟩ := Option.map_eq_some_iff.mp hb
    exact hle row hrow row' hrow'
  refine ⟨{ places := fun keys => if keys = rows.map key then places else stable.places keys
            perm := fun keys => ?_
            descending := fun keys => ?_ }, ?_⟩
  · split
    · rename_i hkeys
      rw [hkeys, List.length_map]
      exact hplaces
    · exact stable.perm keys
  · split
    · rename_i hkeys
      rw [hkeys]
      exact hdescending
    · exact stable.descending keys
  · have hid : places.filterMap (rows[·]?) = (places.map (rows[·]?)).filterMap id := by
      rw [List.filterMap_map]
      rfl
    simp only [arrange, if_pos]
    rw [hid, hmap, List.filterMap_map]
    exact List.filterMap_some

-- Where no two rows have the same key, every query answers the same.
theorem arrange_of_nodup (order' : Descending κ) {key : ρ → κ} {rows rows' : List ρ}
    (hnodup : (rows.map key).Nodup) (hperm : rows.Perm rows') :
    order.arrange key rows = order'.arrange key rows' := by
  have hstrict {other : Descending κ} {others : List ρ} (hothers : others.Perm rows) :
      (other.arrange key others).Pairwise fun row row' => key row' < key row := by
    have hkeys : ((other.arrange key others).map key).Nodup :=
      (((other.perm_arrange key others).trans hothers).map key).nodup_iff.mpr hnodup
    have hle := other.pairwise_arrange key others
    exact hle.imp₂ (fun row row' hle hne => lt_of_le_of_ne hle (Ne.symm hne))
      (List.pairwise_map.mp hkeys)
  refine List.Perm.eq_of_pairwise (fun row row' _ _ hlt hlt' => ?_) (hstrict (.refl rows))
    (hstrict hperm.symm) ?_
  · exact absurd hlt (lt_asymm hlt')
  · exact ((order.perm_arrange key rows).trans hperm).trans (order'.perm_arrange key rows').symm

end Descending

-- A stable sort by a key, upwards.
def ascending (key : ρ → κ) (rows : List ρ) : List ρ :=
  rows.mergeSort fun row row' => decide (key row ≤ key row')

theorem perm_ascending (key : ρ → κ) (rows : List ρ) : (ascending key rows).Perm rows :=
  List.mergeSort_perm _ _

@[simp] theorem mem_ascending {key : ρ → κ} {rows : List ρ} {row : ρ} :
    row ∈ ascending key rows ↔ row ∈ rows := (perm_ascending key rows).mem_iff

theorem pairwise_ascending (key : ρ → κ) (rows : List ρ) :
    ((ascending key rows).map key).Pairwise (· ≤ ·) := by
  have hsorted := @List.pairwise_mergeSort _ (fun row row' => decide (key row ≤ key row'))
    (fun _ _ _ hle hle' => decide_eq_true ((of_decide_eq_true hle).trans (of_decide_eq_true hle')))
    (fun row row' => by simpa using le_total (key row) (key row')) rows
  rw [List.pairwise_map]
  exact hsorted.imp fun hle => of_decide_eq_true hle

end Table
