import TradingPlatform.Lib.Dict

/-!
# Documents

The data of a document: scalars, sequences, and mappings with texts for keys. An entry of a mapping
is replaced in place and a new one appended, as in a dictionary. A document is plain when no mapping
in it has a key twice.
-/

/-- The data of a document. -/
inductive Yaml
  | null
  | bool (value : Bool)
  | int (value : ℤ)
  | float (value : ℚ)
  | str (value : String)
  | date (text : String)
  | list (items : List Yaml)
  | map (entries : List (String × Yaml))

namespace Yaml

abbrev Entries := List (String × Yaml)

def get? (entries : Entries) (key : String) : Option Yaml :=
  (entries.find? fun e => decide (e.1 = key)).map Prod.snd

def put (key : String) (value : Yaml) (entries : Entries) : Entries :=
  Dict.setEntries key value entries

/-- The entries with those of the patch put in, one after another. -/
def update (patch entries : Entries) : Entries :=
  patch.foldl (fun entries e => put e.1 e.2 entries) entries

/-- No mapping has a key twice. -/
inductive Plain : Yaml → Prop
  | null : Plain .null
  | bool (value : Bool) : Plain (.bool value)
  | int (value : ℤ) : Plain (.int value)
  | float (value : ℚ) : Plain (.float value)
  | str (value : String) : Plain (.str value)
  | date (text : String) : Plain (.date text)
  | list {items : List Yaml} (h : ∀ y ∈ items, Plain y) : Plain (.list items)
  | map {entries : Entries} (hkeys : (entries.map Prod.fst).Nodup)
      (h : ∀ e ∈ entries, Plain e.2) : Plain (.map entries)

variable {entries patch : Entries} {key key' : String} {value : Yaml} {items : List Yaml}

theorem get?_put : get? (put key value entries) key' =
    if key = key' then some value else get? entries key' := by
  simp only [get?, put, Dict.find?_setEntries]
  split <;> rfl

@[simp] theorem get?_put_self : get? (put key value entries) key = some value := by
  rw [get?_put, if_pos rfl]

theorem get?_put_of_ne (h : key ≠ key') :
    get? (put key value entries) key' = get? entries key' := by
  rw [get?_put, if_neg h]

@[simp] theorem update_nil : update [] entries = entries := rfl

@[simp] theorem update_cons {e : String × Yaml} :
    update (e :: patch) entries = update patch (put e.1 e.2 entries) := rfl

/-- An update leaves the entries it has no key for. -/
theorem get?_update_of_notMem (h : key ∉ patch.map Prod.fst) :
    get? (update patch entries) key = get? entries key := by
  induction patch generalizing entries with
  | nil => rfl
  | cons e patch ih =>
    rw [List.map_cons, List.mem_cons, not_or] at h
    rw [update_cons, ih h.2, get?_put_of_ne (Ne.symm h.1)]

/-- An update with distinct keys puts its entries in. -/
theorem get?_update_of_mem (hkeys : (patch.map Prod.fst).Nodup) (h : (key, value) ∈ patch) :
    get? (update patch entries) key = some value := by
  induction patch generalizing entries with
  | nil => cases h
  | cons e patch ih =>
    rw [List.map_cons, List.nodup_cons] at hkeys
    rw [update_cons]
    rcases List.mem_cons.mp h with rfl | h
    · rw [get?_update_of_notMem hkeys.1, get?_put_self]
    · exact ih hkeys.2 h

/-! ## Plain documents -/

theorem plain_map : Plain (.map entries) ↔
    (entries.map Prod.fst).Nodup ∧ ∀ e ∈ entries, Plain e.2 :=
  ⟨fun | .map hkeys h => ⟨hkeys, h⟩, fun h => .map h.1 h.2⟩

theorem plain_list : Plain (.list items) ↔ ∀ y ∈ items, Plain y :=
  ⟨fun | .list h => h, .list⟩

theorem Plain.get? (h : Plain (.map entries)) (hget : get? entries key = some value) :
    Plain value := by
  obtain ⟨e, hfind, rfl⟩ := Option.map_eq_some_iff.mp hget
  exact (plain_map.mp h).2 e (List.mem_of_find?_eq_some hfind)

theorem mem_put {e : String × Yaml} (h : e ∈ put key value entries) :
    e = (key, value) ∨ e ∈ entries := by
  rw [put] at h
  induction entries with
  | nil => exact .inl (List.mem_singleton.mp h)
  | cons e' entries ih =>
    rw [Dict.setEntries] at h
    split at h
    · rcases List.mem_cons.mp h with rfl | h
      · exact .inl rfl
      · exact .inr (List.mem_cons_of_mem _ h)
    · rcases List.mem_cons.mp h with rfl | h
      · exact .inr List.mem_cons_self
      · exact (ih h).imp_right (List.mem_cons_of_mem _)

theorem Plain.put (h : Plain (.map entries)) (hvalue : Plain value) :
    Plain (.map (put key value entries)) := by
  obtain ⟨hkeys, hplain⟩ := plain_map.mp h
  refine .map (Dict.nodup_setEntries hkeys) fun e he => ?_
  rcases mem_put he with rfl | he
  · exact hvalue
  · exact hplain e he

theorem Plain.update (h : Plain (.map entries)) (hpatch : ∀ e ∈ patch, Plain e.2) :
    Plain (.map (update patch entries)) := by
  induction patch generalizing entries with
  | nil => exact h
  | cons e patch ih =>
    exact ih (h.put (hpatch e List.mem_cons_self)) fun e' he' =>
      hpatch e' (List.mem_cons_of_mem _ he')

/-! ## Plain documents, decided -/

mutual

def isPlain : Yaml → Bool
  | .list items => arePlain items
  | .map entries => decide (entries.map Prod.fst).Nodup && entriesPlain entries
  | _ => true

def arePlain : List Yaml → Bool
  | [] => true
  | y :: ys => isPlain y && arePlain ys

def entriesPlain : List (String × Yaml) → Bool
  | [] => true
  | e :: es => entryPlain e && entriesPlain es

def entryPlain : String × Yaml → Bool
  | (_, y) => isPlain y

end

mutual

theorem isPlain_iff : ∀ y : Yaml, isPlain y = true ↔ y.Plain
  | .null => iff_of_true rfl .null
  | .bool b => iff_of_true rfl (.bool b)
  | .int n => iff_of_true rfl (.int n)
  | .float q => iff_of_true rfl (.float q)
  | .str s => iff_of_true rfl (.str s)
  | .date s => iff_of_true rfl (.date s)
  | .list items => by rw [isPlain, arePlain_iff items, plain_list]
  | .map entries => by
    rw [isPlain, Bool.and_eq_true, decide_eq_true_eq, entriesPlain_iff entries, plain_map]

theorem arePlain_iff : ∀ items : List Yaml, arePlain items = true ↔ ∀ y ∈ items, y.Plain
  | [] => iff_of_true rfl (List.forall_mem_nil _)
  | y :: ys => by
    rw [arePlain, Bool.and_eq_true, isPlain_iff y, arePlain_iff ys, List.forall_mem_cons]

theorem entriesPlain_iff : ∀ entries : List (String × Yaml),
    entriesPlain entries = true ↔ ∀ e ∈ entries, e.2.Plain
  | [] => iff_of_true rfl (List.forall_mem_nil _)
  | e :: es => by
    rw [entriesPlain, Bool.and_eq_true, entryPlain_iff e, entriesPlain_iff es,
      List.forall_mem_cons]

theorem entryPlain_iff : ∀ e : String × Yaml, entryPlain e = true ↔ e.2.Plain
  | (_, y) => isPlain_iff y

end

instance : DecidablePred Plain := fun y => decidable_of_iff _ (isPlain_iff y)
end Yaml
