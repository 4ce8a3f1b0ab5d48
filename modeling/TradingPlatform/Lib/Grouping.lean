import TradingPlatform.Lib.Dict

/-!
# Grouping a list by a key

The values of a list are collected under the keys of its elements. The groups together hold the
values of the list, so what is added up over the values of each group and then over the groups is
the sum over the list.
-/

namespace Dict

variable {α κ ν : Type*} [DecidableEq κ]

/-- Put a value at the end of the list of a key. -/
def push (d : Dict κ (List ν)) (k : κ) (v : ν) : Dict κ (List ν) := d.set k (d.getD k [] ++ [v])

/-- The values of a list under the keys of its elements. -/
def grouped (key : α → κ) (value : α → ν) (l : List α) : Dict κ (List ν) :=
  l.foldl (fun d x => d.push (key x) (value x)) ∅

variable {d : Dict κ (List ν)} {k : κ} {v : ν} {key : α → κ} {value : α → ν} {l : List α}

theorem flatten_setEntries_perm {es : List (κ × List ν)} :
    ((setEntries k (((es.find? fun e => decide (e.1 = k)).map Prod.snd).getD [] ++ [v])
      es).map Prod.snd).flatten.Perm (v :: (es.map Prod.snd).flatten) := by
  induction es with
  | nil => exact List.Perm.refl _
  | cons e es ih =>
    by_cases he : e.1 = k
    · simp only [setEntries, he, if_true, List.find?_cons, decide_true, List.map_cons,
        List.flatten_cons, Option.map_some, Option.getD_some, List.append_assoc]
      exact List.perm_middle
    · simp only [setEntries, he, if_false, List.find?_cons, decide_false, List.map_cons,
        List.flatten_cons]
      exact (ih.append_left e.2).trans List.perm_middle

theorem flatten_push_perm : (d.push k v).values.flatten.Perm (v :: d.values.flatten) :=
  flatten_setEntries_perm

theorem flatten_foldl_push_perm :
    (l.foldl (fun d x => d.push (key x) (value x)) d).values.flatten.Perm
      (l.map value ++ d.values.flatten) := by
  induction l generalizing d with
  | nil => exact List.Perm.refl _
  | cons x l ih =>
    rw [List.foldl_cons]
    exact ih.trans ((flatten_push_perm.append_left _).trans List.perm_middle)

/-- The groups hold the values of the list. -/
theorem flatten_grouped_perm : (grouped key value l).values.flatten.Perm (l.map value) := by
  have hperm : (grouped key value l).values.flatten.Perm
      (l.map value ++ (∅ : Dict κ (List ν)).values.flatten) := flatten_foldl_push_perm
  rwa [values_empty, List.flatten_nil, List.append_nil] at hperm

/-- A sum over the values is the sum over the groups of the sums over their values. -/
theorem sum_values_grouped {M : Type*} [AddCommMonoid M] (weight : ν → M) :
    ((grouped key value l).values.map fun vs => (vs.map weight).sum).sum =
      ((l.map value).map weight).sum := by
  have hperm : (grouped key value l).values.flatten.Perm (l.map value) := flatten_grouped_perm
  rw [← (hperm.map weight).sum_eq, List.map_flatten, List.sum_flatten,
    List.map_map]
  rfl

/-- The values of a dictionary in the order of its keys. -/
theorem map_getD_keys {d : Dict κ ν} : d.keys.map (d.getD · v) = d.values := by
  rw [keys, values, List.map_map]
  refine List.map_congr_left fun e he => ?_
  rw [Function.comp_apply, getD, mem_entries_iff.mp he, Option.getD_some]

end Dict
