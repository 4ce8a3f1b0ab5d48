import TradingPlatform.Lib.Keyed

/-!
# Insertion-ordered dictionaries

A dictionary is a list of key-value pairs with pairwise distinct keys. Setting a key that is
present replaces its value in place, setting a new one appends it, so `keys` and `values` come in
insertion order.
-/

/-- An insertion-ordered dictionary. -/
structure Dict (κ ν : Type*) where
  entries : List (κ × ν)
  nodup : (entries.map Prod.fst).Nodup

namespace Dict

variable {κ ν : Type*}

/-- Replace the value of `k` in place, or append it. -/
def setEntries [DecidableEq κ] (k : κ) (v : ν) : List (κ × ν) → List (κ × ν)
  | [] => [(k, v)]
  | e :: es => if e.1 = k then (k, v) :: es else e :: setEntries k v es

section Entries

variable [DecidableEq κ] {k k' : κ} {v : ν} {es : List (κ × ν)}

theorem map_fst_setEntries :
    (setEntries k v es).map Prod.fst =
      if k ∈ es.map Prod.fst then es.map Prod.fst else es.map Prod.fst ++ [k] := by
  induction es with
  | nil => simp [setEntries]
  | cons e es ih =>
    by_cases he : e.1 = k
    · simp [setEntries, he]
    · have hk : ¬ k = e.1 := fun h => he h.symm
      simp only [setEntries, if_neg he, List.map_cons, ih, List.mem_cons, hk, false_or]
      split <;> simp

theorem setEntries_of_not_mem (h : k ∉ es.map Prod.fst) :
    setEntries k v es = es ++ [(k, v)] := by
  induction es with
  | nil => rfl
  | cons e es ih =>
    rw [List.map_cons, List.mem_cons, not_or] at h
    rw [setEntries, if_neg (Ne.symm h.1), ih h.2, List.cons_append]

theorem setEntries_of_mem (hkeys : (es.map Prod.fst).Nodup) (h : k ∈ es.map Prod.fst) :
    setEntries k v es = es.map fun e => if e.1 = k then (k, v) else e := by
  induction es with
  | nil => cases h
  | cons e es ih =>
    rw [List.map_cons, List.nodup_cons] at hkeys
    rw [setEntries, List.map_cons]
    split
    · next he =>
      have hrest : es.map (fun e => if e.1 = k then (k, v) else e) = es.map id :=
        List.map_congr_left fun e' he' => if_neg fun hk : e'.1 = k =>
          hkeys.1 (he.trans hk.symm ▸ List.mem_map_of_mem he')
      rw [hrest, List.map_id]
    · next he =>
      rw [List.map_cons, List.mem_cons] at h
      rw [ih hkeys.2 (h.resolve_left (Ne.symm he))]

theorem nodup_setEntries (h : (es.map Prod.fst).Nodup) :
    ((setEntries k v es).map Prod.fst).Nodup := by
  rw [map_fst_setEntries]
  split
  · exact h
  · next hk => exact List.nodup_append.mpr ⟨h, List.nodup_singleton k, by
      rintro a ha b hb rfl
      exact hk (List.mem_singleton.mp hb ▸ ha)⟩

theorem find?_setEntries :
    (setEntries k v es).find? (fun e => decide (e.1 = k')) =
      if k = k' then some (k, v) else es.find? (fun e => decide (e.1 = k')) := by
  induction es with
  | nil => by_cases h : k = k' <;> simp [setEntries, h]
  | cons e es ih =>
    by_cases he : e.1 = k
    · by_cases h : k = k'
      · simp [setEntries, he, h]
      · have h' : ¬ e.1 = k' := fun h' => h (he ▸ h')
        simp [setEntries, he, h]
    · simp only [setEntries, if_neg he, List.find?_cons]
      by_cases he' : e.1 = k'
      · have h : ¬ k = k' := fun h => he (he'.trans h.symm)
        simp [he', h]
      · simp [he', ih]

end Entries

def keys (d : Dict κ ν) : List κ := d.entries.map Prod.fst

def values (d : Dict κ ν) : List ν := d.entries.map Prod.snd

/-- The empty dictionary. -/
def empty : Dict κ ν := ⟨[], List.nodup_nil⟩

instance : EmptyCollection (Dict κ ν) := ⟨empty⟩

/-- The dictionary with every value replaced. -/
def map {ν' : Type*} (f : ν → ν') (d : Dict κ ν) : Dict κ ν' :=
  ⟨d.entries.map fun e => (e.1, f e.2), by simpa [Function.comp_def] using d.nodup⟩

@[simp] theorem keys_empty : (∅ : Dict κ ν).keys = [] := rfl

@[simp] theorem values_empty : (∅ : Dict κ ν).values = [] := rfl

@[simp] theorem map_empty {ν' : Type*} {f : ν → ν'} : (∅ : Dict κ ν).map f = ∅ := rfl

theorem values_eq_nil_of_keys {d : Dict κ ν} (h : d.keys = []) : d.values = [] := by
  simpa [keys, values] using h

variable [DecidableEq κ]

instance [DecidableEq ν] : DecidableEq (Dict κ ν) := fun d d' =>
  decidable_of_iff (d.entries = d'.entries) (by cases d; cases d'; simp)

def get? (d : Dict κ ν) (k : κ) : Option ν :=
  (d.entries.find? fun e => decide (e.1 = k)).map Prod.snd

def getD (d : Dict κ ν) (k : κ) (default : ν) : ν := (d.get? k).getD default

def set (d : Dict κ ν) (k : κ) (v : ν) : Dict κ ν :=
  ⟨setEntries k v d.entries, nodup_setEntries d.nodup⟩

def erase (d : Dict κ ν) (k : κ) : Dict κ ν :=
  ⟨d.entries.filter fun e => decide (e.1 ≠ k), d.nodup.sublist (List.filter_sublist.map _)⟩

/-- The entries that satisfy `p`. -/
def filter (p : κ → ν → Bool) (d : Dict κ ν) : Dict κ ν :=
  ⟨d.entries.filter fun e => p e.1 e.2, d.nodup.sublist (List.filter_sublist.map _)⟩

variable {d : Dict κ ν} {k k' : κ} {v : ν}

@[simp] theorem get?_empty : (∅ : Dict κ ν).get? k = none := rfl

theorem get?_set : (d.set k v).get? k' = if k = k' then some v else d.get? k' := by
  simp only [get?, set, find?_setEntries]
  split <;> rfl

@[simp] theorem get?_set_self : (d.set k v).get? k = some v := by simp [get?_set]

theorem get?_set_of_ne (h : k ≠ k') : (d.set k v).get? k' = d.get? k' := by simp [get?_set, h]

theorem keys_set : (d.set k v).keys = if k ∈ d.keys then d.keys else d.keys ++ [k] :=
  map_fst_setEntries

/-- A new key is appended. -/
theorem keys_set_of_not_mem (h : k ∉ d.keys) : (d.set k v).keys = d.keys ++ [k] := by
  rw [keys_set, if_neg h]

/-- A new key's entry is appended. -/
theorem entries_set_of_not_mem (h : k ∉ d.keys) : (d.set k v).entries = d.entries ++ [(k, v)] :=
  setEntries_of_not_mem h

/-- Setting distinct new keys one after another lists them in that order. -/
theorem entries_foldl_set {es : List (κ × ν)} (h : (d.keys ++ es.map Prod.fst).Nodup) :
    (es.foldl (fun d e => d.set e.1 e.2) d).entries = d.entries ++ es := by
  induction es generalizing d with
  | nil => exact (List.append_nil _).symm
  | cons e es ih =>
    rw [List.map_cons] at h
    have hnew : e.1 ∉ d.keys := fun hmem =>
      List.disjoint_of_nodup_append h hmem List.mem_cons_self
    rw [List.foldl_cons, ih, entries_set_of_not_mem hnew, List.append_assoc]
    · rfl
    · rw [keys_set_of_not_mem hnew, List.append_assoc]
      exact h

theorem mem_keys_set : k' ∈ (d.set k v).keys ↔ k' = k ∨ k' ∈ d.keys := by
  rw [keys_set]
  split
  · next h => exact ⟨.inr, fun h' => h'.elim (fun e => e ▸ h) id⟩
  · simp [or_comm]

theorem keys_erase : (d.erase k).keys = d.keys.filter fun k' => decide (k' ≠ k) := by
  simp only [keys, erase, List.filter_map]
  rfl

theorem mem_keys_erase : k' ∈ (d.erase k).keys ↔ k' ∈ d.keys ∧ k' ≠ k := by
  rw [keys_erase, List.mem_filter, decide_eq_true_eq]

@[simp] theorem get?_erase_self : (d.erase k).get? k = none := by
  simp [get?, erase, List.find?_eq_none]

theorem mem_keys_iff : k ∈ d.keys ↔ d.get? k ≠ none := by
  simp [get?, keys, List.find?_eq_none]

theorem get?_erase_of_ne (h : k ≠ k') : (d.erase k).get? k' = d.get? k' := by
  simp only [get?, erase, List.find?_filter]
  congr 2
  funext e
  by_cases he : e.1 = k'
  · simp [he, h.symm]
  · simp [he]

/-- Replacing the values commutes with setting an entry. -/
theorem map_set {ν' : Type*} {f : ν → ν'} : (d.set k v).map f = (d.map f).set k (f v) := by
  have hentries : ∀ es : List (κ × ν), (setEntries k v es).map (fun e => (e.1, f e.2)) =
      setEntries k (f v) (es.map fun e => (e.1, f e.2)) := by
    intro es
    induction es with
    | nil => rfl
    | cons e es ih =>
      by_cases he : e.1 = k
      · simp [setEntries, he]
      · simp [setEntries, he, ih]
  rw [map, set, mk.injEq]
  exact hentries d.entries

theorem get?_map {ν' : Type*} {f : ν → ν'} : (d.map f).get? k = (d.get? k).map f := by
  simp only [get?, map, List.find?_map, Option.map_map]
  rfl

theorem mem_entries_iff : (k, v) ∈ d.entries ↔ d.get? k = some v := by
  constructor
  · intro he
    rw [get?, Keyed.find?_key_eq d.nodup he, Option.map_some]
  · intro hget
    obtain ⟨e, hfind, rfl⟩ := Option.map_eq_some_iff.mp hget
    have hkey : e.1 = k := by simpa using List.find?_some hfind
    exact hkey ▸ List.mem_of_find?_eq_some hfind

theorem eq_of_keys_of_get? {d d' : Dict κ ν}
    (hkeys : d.keys = d'.keys) (h : ∀ k ∈ d.keys, d.get? k = d'.get? k) : d = d' := by
  have hentries : ∀ d : Dict κ ν,
      d.entries = d.keys.filterMap fun k => (d.get? k).map fun v => (k, v) := by
    intro d
    rw [keys, List.filterMap_map]
    conv_lhs => rw [← List.filterMap_some (l := d.entries)]
    refine List.filterMap_congr fun e he => ?_
    rw [Function.comp_apply, mem_entries_iff.mp he]
    rfl
  have heq : d.entries = d'.entries := by
    rw [hentries d, hentries d', ← hkeys]
    exact List.filterMap_congr fun k hk => by rw [h k hk]
  cases d
  cases d'
  cases heq
  rfl

theorem get?_filter {p : κ → ν → Bool} :
    (d.filter p).get? k = some v ↔ d.get? k = some v ∧ p k v = true := by
  rw [← mem_entries_iff, ← mem_entries_iff, filter, List.mem_filter]

theorem mem_values_iff : v ∈ d.values ↔ ∃ k, d.get? k = some v := by
  constructor
  · intro hv
    obtain ⟨e, he, rfl⟩ := List.mem_map.mp hv
    exact ⟨e.1, by rw [get?, Keyed.find?_key_eq d.nodup he, Option.map_some]⟩
  · rintro ⟨k, hget⟩
    obtain ⟨e, hfind, rfl⟩ := Option.map_eq_some_iff.mp hget
    exact List.mem_map_of_mem (List.mem_of_find?_eq_some hfind)

end Dict
