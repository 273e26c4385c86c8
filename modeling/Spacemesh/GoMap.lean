import Mathlib.Data.List.Nodup

/-!
# Go maps

A Go map is a list of entries, one per key, in the order the keys were first set; that
order stands for Go's iteration order, which is random. `mapGet` is `m[k]` with its `ok`,
`mapSet` is `m[k] = v`: a set key takes the value in place, a new key goes last; and
`mapDelete` is `delete(m, k)`.
-/

namespace Spacemesh

variable {κ α : Type} [DecidableEq κ]

/-- `m[k]`: the value of `k`, if `m` has it. -/
def mapGet : List (κ × α) → κ → Option α
  | [], _ => none
  | (k', v) :: m, k => if k' = k then some v else mapGet m k

/-- `m[k] = v`. -/
def mapSet : List (κ × α) → κ → α → List (κ × α)
  | [], k, v => [(k, v)]
  | (k', v') :: m, k, v => if k' = k then (k', v) :: m else (k', v') :: mapSet m k v

/-- `delete(m, k)`. -/
def mapDelete (m : List (κ × α)) (k : κ) : List (κ × α) := m.filter fun p => p.1 ≠ k

@[simp] theorem mapGet_nil (k : κ) : mapGet ([] : List (κ × α)) k = none := rfl

theorem mapGet_cons (k' : κ) (v : α) (m : List (κ × α)) (k : κ) :
    mapGet ((k', v) :: m) k = if k' = k then some v else mapGet m k := rfl

@[simp] theorem mapGet_mapSet (m : List (κ × α)) (k : κ) (v : α) (n : κ) :
    mapGet (mapSet m k v) n = if k = n then some v else mapGet m n := by
  induction m with
  | nil => rfl
  | cons p m ih =>
    obtain ⟨k', v'⟩ := p
    by_cases hk : k' = k
    · subst hk; by_cases hn : k' = n <;> simp [mapSet, mapGet_cons, hn]
    · by_cases hn : k' = n
      · subst hn; simp [mapSet, mapGet_cons, hk, Ne.symm hk]
      · simp [mapSet, mapGet_cons, hk, hn, ih]

theorem mapSet_of_not_mem (m : List (κ × α)) (k : κ) (v : α) (h : k ∉ m.map (·.1)) :
    mapSet m k v = m ++ [(k, v)] := by
  induction m with
  | nil => rfl
  | cons p m ih =>
    simp only [List.map_cons, List.mem_cons, not_or] at h
    simp [mapSet, Ne.symm h.1, ih h.2]

theorem mapGet_eq_none_iff (m : List (κ × α)) (k : κ) : mapGet m k = none ↔ k ∉ m.map (·.1) := by
  induction m with
  | nil => simp
  | cons p m ih =>
    obtain ⟨k', v'⟩ := p
    by_cases hk : k' = k
    · simp [mapGet_cons, hk]
    · simp [mapGet_cons, hk, ih, Ne.symm hk]

theorem keys_mapSet (m : List (κ × α)) (k : κ) (v : α) :
    (mapSet m k v).map (·.1) = if k ∈ m.map (·.1) then m.map (·.1) else m.map (·.1) ++ [k] := by
  induction m with
  | nil => rfl
  | cons p m ih =>
    obtain ⟨k', v'⟩ := p
    by_cases hk : k' = k
    · subst hk; simp [mapSet]
    · by_cases hm : k ∈ m.map (·.1) <;> simp [mapSet, hk, ih, hm, Ne.symm hk]

theorem nodup_keys_mapSet (m : List (κ × α)) (k : κ) (v : α) (h : (m.map (·.1)).Nodup) :
    ((mapSet m k v).map (·.1)).Nodup := by
  rw [keys_mapSet]
  split
  · exact h
  · exact List.nodup_append.2 ⟨h, List.nodup_singleton _, List.disjoint_singleton.2 ‹_›⟩

theorem mem_keys_mapSet (m : List (κ × α)) (k : κ) (v : α) (n : κ) :
    n ∈ (mapSet m k v).map (·.1) ↔ n ∈ m.map (·.1) ∨ n = k := by
  rw [keys_mapSet]
  split
  · exact ⟨.inl, fun h => h.elim id fun h => h ▸ ‹_›⟩
  · simp only [List.mem_append, List.mem_singleton]

theorem mem_mapSet {m : List (κ × α)} {k : κ} {v : α} {p : κ × α} (h : p ∈ mapSet m k v) : p = (k, v) ∨ p ∈ m := by
  induction m with
  | nil => exact .inl (List.mem_singleton.1 h)
  | cons q m ih =>
    obtain ⟨k', v'⟩ := q
    unfold mapSet at h
    split_ifs at h with hk
    · rcases List.mem_cons.1 h with rfl | h
      · exact .inl (by rw [hk])
      · exact .inr (List.mem_cons_of_mem _ h)
    · rcases List.mem_cons.1 h with rfl | h
      · exact .inr (List.mem_cons_self _ _)
      · exact (ih h).imp_right (List.mem_cons_of_mem _)

theorem mem_of_mapGet {m : List (κ × α)} {k : κ} {v : α} (h : mapGet m k = some v) : (k, v) ∈ m := by
  induction m with
  | nil => cases h
  | cons q m ih =>
    obtain ⟨k', v'⟩ := q
    rw [mapGet_cons] at h
    split_ifs at h with hk
    · cases h; subst hk; exact List.mem_cons_self _ _
    · exact List.mem_cons_of_mem _ (ih h)

theorem mapGet_of_mem {m : List (κ × α)} {k : κ} {v : α} (hnd : (m.map (·.1)).Nodup) (h : (k, v) ∈ m) :
    mapGet m k = some v := by
  induction m with
  | nil => cases h
  | cons q m ih =>
    obtain ⟨k', v'⟩ := q
    rw [List.map_cons, List.nodup_cons] at hnd
    rw [mapGet_cons]
    rcases List.mem_cons.1 h with h | h
    · cases h; exact if_pos rfl
    · have hk : k' ≠ k := fun hk => hnd.1 (hk ▸ List.mem_map_of_mem (·.1) h)
      rw [if_neg hk, ih hnd.2 h]

end Spacemesh
