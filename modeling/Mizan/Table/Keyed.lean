import Mathlib.Data.Fintype.Basic
import Mathlib.Data.List.FinRange
import Mathlib.Data.List.Nodup
import Mathlib.Data.List.Sort

namespace Table

variable {κ ν ε σ : Type} [DecidableEq κ] {entries entries' : List (κ × ν)} {k : κ} {v : ν}

omit [DecidableEq κ] in
-- Entries in one order of their keys are determined by what entries there are.
theorem eq_of_perm_of_keys (hperm : entries.Perm entries')
    (hkeys : entries.map Prod.fst = entries'.map Prod.fst)
    (hnodup : (entries'.map Prod.fst).Nodup) : entries = entries' := by
  induction entries generalizing entries' with
  | nil => exact hperm.nil_eq
  | cons entry entries ih =>
      cases entries' with
      | nil => exact absurd hperm.symm (List.not_perm_nil_cons entry entries)
      | cons entry' entries' =>
          rw [List.map_cons, List.map_cons, List.cons.injEq] at hkeys
          rw [List.map_cons, List.nodup_cons] at hnodup
          have hentry : entry = entry' := by
            by_contra hne
            have hmem : entry ∈ entries' :=
              (List.mem_cons.mp (hperm.subset List.mem_cons_self)).resolve_left hne
            exact hnodup.1 (hkeys.1 ▸ List.mem_map_of_mem hmem)
          subst hentry
          rw [ih hperm.cons_inv hkeys.2 hnodup.2]

-- A map as the list of its entries: the entry of a key is changed, a missing one is made first.
def upsert (key : κ) (fresh : ν) (change : ν → ν) : List (κ × ν) → List (κ × ν)
  | [] => [(key, change fresh)]
  | (other, value) :: entries =>
      if other = key then (other, change value) :: entries
      else (other, value) :: upsert key fresh change entries

section Upsert

variable {key : κ} {fresh : ν} {change : ν → ν}

theorem mem_keys_upsert : k ∈ (upsert key fresh change entries).map Prod.fst ↔
    k = key ∨ k ∈ entries.map Prod.fst := by
  induction entries with
  | nil => simp [upsert]
  | cons entry entries ih =>
      by_cases hkey : entry.1 = key
      · rw [upsert, if_pos hkey]
        simp only [List.map_cons, List.mem_cons, hkey]
        tauto
      · simp only [upsert, if_neg hkey, List.map_cons, List.mem_cons, ih]
        tauto

theorem nodup_upsert (h : (entries.map Prod.fst).Nodup) :
    ((upsert key fresh change entries).map Prod.fst).Nodup := by
  induction entries with
  | nil => simp [upsert]
  | cons entry entries ih =>
      rw [List.map_cons, List.nodup_cons] at h
      by_cases hkey : entry.1 = key
      · rw [upsert, if_pos hkey, List.map_cons, List.nodup_cons]
        exact h
      · rw [upsert, if_neg hkey, List.map_cons, List.nodup_cons, mem_keys_upsert, not_or]
        exact ⟨⟨hkey, h.1⟩, ih h.2⟩

theorem mem_upsert_of_ne (hne : k ≠ key) :
    (k, v) ∈ upsert key fresh change entries ↔ (k, v) ∈ entries := by
  induction entries with
  | nil => simp [upsert, hne]
  | cons entry entries ih =>
      by_cases hkey : entry.1 = key
      · have hother : ∀ value, (k, v) ≠ (entry.1, value) := fun value heq =>
          hne ((Prod.mk.inj heq).1.trans hkey)
        rw [upsert, if_pos hkey, List.mem_cons, List.mem_cons]
        simp only [hother, false_or]
      · rw [upsert, if_neg hkey, List.mem_cons, List.mem_cons, ih]

theorem mem_upsert_self (hnodup : (entries.map Prod.fst).Nodup) :
    (key, v) ∈ upsert key fresh change entries ↔
      (∃ w, (key, w) ∈ entries ∧ v = change w) ∨
        key ∉ entries.map Prod.fst ∧ v = change fresh := by
  induction entries with
  | nil => simp [upsert]
  | cons entry entries ih =>
      obtain ⟨other, value⟩ := entry
      rw [List.map_cons, List.nodup_cons] at hnodup
      by_cases hkey : other = key
      · subst hkey
        have hrest : ∀ w, (other, w) ∉ entries := fun w hmem =>
          hnodup.1 (List.mem_map.mpr ⟨(other, w), hmem, rfl⟩)
        simp [upsert, hrest]
      · rw [upsert, if_neg hkey, List.mem_cons, ih hnodup.2]
        simp [Ne.symm hkey]

end Upsert

section Tally

variable (key : ε → κ) (fresh : ν) (step : ν → ε → ν)

-- What the events of one key come to.
def tally (events : List ε) (k : κ) : ν :=
  (events.filter fun event => key event = k).foldl step fresh

-- One entry for every key that has occurred, with the tally of its events.
structure Tallied (entries : List (κ × ν)) (events : List ε) : Prop where
  nodup : (entries.map Prod.fst).Nodup
  mem_iff : ∀ k v, (k, v) ∈ entries ↔
    (∃ event ∈ events, key event = k) ∧ v = tally key fresh step events k

variable {key fresh step} {events events' : List ε}

theorem Tallied.nil : Tallied key fresh step [] [] :=
  ⟨by simp, by simp⟩

theorem Tallied.mem_keys (h : Tallied key fresh step entries events) :
    k ∈ entries.map Prod.fst ↔ ∃ event ∈ events, key event = k := by
  constructor
  · intro hmem
    obtain ⟨⟨k, v⟩, hentry, rfl⟩ := List.mem_map.mp hmem
    exact ((h.mem_iff k v).mp hentry).1
  · intro hevent
    exact List.mem_map.mpr ⟨(k, _), (h.mem_iff k _).mpr ⟨hevent, rfl⟩, rfl⟩

theorem tally_append (event : ε) : tally key fresh step (events ++ [event]) k =
    if key event = k then step (tally key fresh step events k) event
    else tally key fresh step events k := by
  rw [tally, List.filter_append, List.foldl_append]
  by_cases hkey : key event = k
  · simp [tally, hkey]
  · simp [tally, hkey]

theorem tally_of_fresh (h : ¬∃ event ∈ events, key event = k) :
    tally key fresh step events k = fresh := by
  have hnone : (events.filter fun event => key event = k) = [] := by
    rw [List.filter_eq_nil_iff]
    intro event hmem hkey
    exact h ⟨event, hmem, of_decide_eq_true hkey⟩
  rw [tally, hnone, List.foldl_nil]

theorem Tallied.upsert (h : Tallied key fresh step entries events) (event : ε) :
    Tallied key fresh step
      (upsert (key event) fresh (fun value => step value event) entries) (events ++ [event]) := by
  refine ⟨nodup_upsert h.nodup, fun k v => ?_⟩
  rw [tally_append]
  by_cases hkey : key event = k
  · subst hkey
    rw [mem_upsert_self h.nodup, if_pos rfl, h.mem_keys]
    have hevent : ∃ other ∈ events ++ [event], key other = key event := ⟨event, by simp, rfl⟩
    simp only [hevent, true_and, h.mem_iff]
    by_cases hseen : ∃ other ∈ events, key other = key event
    · simp [hseen]
    · simp [hseen, tally_of_fresh hseen]
  · rw [mem_upsert_of_ne (Ne.symm hkey), if_neg hkey, h.mem_iff]
    simp [or_and_right, exists_or, hkey]

-- The entries in any order.
theorem Tallied.of_perm (h : Tallied key fresh step entries events)
    (hperm : entries'.Perm entries) : Tallied key fresh step entries' events :=
  ⟨(hperm.map Prod.fst).nodup_iff.mpr h.nodup, fun k v => hperm.mem_iff.trans (h.mem_iff k v)⟩

theorem Tallied.perm (h : Tallied key fresh step entries events)
    (h' : Tallied key fresh step entries' events) : entries.Perm entries' :=
  (List.perm_ext_iff_of_nodup h.nodup.of_map h'.nodup.of_map).mpr fun (k, v) =>
    (h.mem_iff k v).trans (h'.mem_iff k v).symm

section Shards

variable [DecidableEq σ] {shards : σ → List (κ × ν)} {shardOf : κ → σ}

-- Several maps, each of which keeps the keys that belong to it.
def Sharded (key : ε → κ) (fresh : ν) (step : ν → ε → ν) (shardOf : κ → σ)
    (shards : σ → List (κ × ν)) (events : List ε) : Prop :=
  ∀ shard, Tallied key fresh step (shards shard)
    (events.filter fun event => shardOf (key event) = shard)

theorem Sharded.upsert (h : Sharded key fresh step shardOf shards events) (event : ε) :
    Sharded key fresh step shardOf
      (Function.update shards (shardOf (key event)) <|
        Table.upsert (key event) fresh (fun value => step value event)
          (shards (shardOf (key event)))) (events ++ [event]) := by
  intro shard
  rw [List.filter_append]
  by_cases hshard : shardOf (key event) = shard
  · subst hshard
    simpa using (h (shardOf (key event))).upsert event
  · rw [Function.update_of_ne (Ne.symm hshard)]
    simpa [hshard] using h shard

theorem Sharded.shardOf_eq (h : Sharded key fresh step shardOf shards events) {shard : σ}
    (hmem : k ∈ (shards shard).map Prod.fst) : shardOf k = shard := by
  obtain ⟨event, hevent, rfl⟩ := (h shard).mem_keys.mp hmem
  exact of_decide_eq_true (List.mem_filter.mp hevent).2

theorem tally_filter {shard : σ} (h : shardOf k = shard) :
    tally key fresh step (events.filter fun event => shardOf (key event) = shard) k =
      tally key fresh step events k := by
  have hfilter : ((events.filter fun event => shardOf (key event) = shard).filter fun event =>
      key event = k) = events.filter fun event => key event = k := by
    rw [List.filter_filter]
    apply List.filter_congr
    intro event _
    by_cases hkey : key event = k
    · simp [hkey, h]
    · simp [hkey]
  rw [tally, hfilter, tally]

-- The shards together are one map.
theorem Sharded.tallied (h : Sharded key fresh step shardOf shards events) {all : List σ}
    (hnodup : all.Nodup) (hall : ∀ shard, shard ∈ all) :
    Tallied key fresh step (all.flatMap shards) events := by
  constructor
  · rw [List.map_flatMap, List.nodup_flatMap]
    refine ⟨fun shard _ => (h shard).nodup, hnodup.imp fun {shard shard'} hne => ?_⟩
    intro k hmem hmem'
    exact hne ((h.shardOf_eq hmem).symm.trans (h.shardOf_eq hmem'))
  · intro k v
    have hshard : (k, v) ∈ all.flatMap shards ↔ (k, v) ∈ shards (shardOf k) := by
      rw [List.mem_flatMap]
      constructor
      · rintro ⟨shard, _, hmem⟩
        rwa [h.shardOf_eq (List.mem_map_of_mem hmem)]
      · intro hmem
        exact ⟨shardOf k, hall _, hmem⟩
    rw [hshard, (h (shardOf k)).mem_iff, tally_filter rfl]
    apply and_congr_left
    intro _
    constructor
    · rintro ⟨event, hmem, hkey⟩
      exact ⟨event, (List.mem_filter.mp hmem).1, hkey⟩
    · rintro ⟨event, hmem, rfl⟩
      exact ⟨event, List.mem_filter.mpr ⟨hmem, by simp⟩, rfl⟩

end Shards

end Tally

end Table
