import TradingPlatform.Lib.Dict

/-!
# Dictionaries with renamed keys

Under an injective renaming of the keys a dictionary keeps its values and their order, and it makes
no difference whether an entry is set or erased before the renaming or after it.
-/

namespace Dict

variable {κ κ' ν : Type*} {f : κ → κ'}

/-- The dictionary with every key renamed. -/
def rekey (f : κ → κ') (hf : Function.Injective f) (d : Dict κ ν) : Dict κ' ν :=
  ⟨d.entries.map (Prod.map f id), by
    have hkeys : (d.entries.map (Prod.map f id)).map Prod.fst = (d.entries.map Prod.fst).map f := by
      simp [Function.comp_def]
    exact hkeys ▸ d.nodup.map hf⟩

variable {hf : Function.Injective f} {d : Dict κ ν} {k : κ} {v : ν}

@[simp] theorem rekey_empty : (∅ : Dict κ ν).rekey f hf = ∅ := rfl

@[simp] theorem values_rekey : (d.rekey f hf).values = d.values := by
  simp [values, rekey, Function.comp_def]

variable [DecidableEq κ] [DecidableEq κ']

theorem map_setEntries (hf : Function.Injective f) {es : List (κ × ν)} :
    (setEntries k v es).map (Prod.map f id) = setEntries (f k) v (es.map (Prod.map f id)) := by
  induction es with
  | nil => rfl
  | cons e es ih =>
    by_cases he : e.1 = k
    · simp [setEntries, he]
    · simp [setEntries, he, hf.eq_iff, ih]

theorem rekey_set : (d.set k v).rekey f hf = (d.rekey f hf).set (f k) v := by
  rw [rekey, set, mk.injEq]
  exact map_setEntries hf

theorem rekey_erase : (d.erase k).rekey f hf = (d.rekey f hf).erase (f k) := by
  simp only [rekey, erase, List.filter_map, mk.injEq]
  congr 2
  funext e
  simp [hf.eq_iff]

theorem get?_rekey : (d.rekey f hf).get? (f k) = d.get? k := by
  simp only [get?, rekey, List.find?_map, Option.map_map]
  congr 2
  funext e
  simp [hf.eq_iff]

end Dict
