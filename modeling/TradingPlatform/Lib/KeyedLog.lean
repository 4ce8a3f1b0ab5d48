import Mathlib

/-!
# Logs read by a tag

The entries of a history write their events to one log. An event carries a tag, and the tag names
the key of the entry it belongs to. A reader that selects a tag gets the events of all entries with
the key that the tag names; it gets those of one entry when no other entry has its key.
-/

namespace KeyedLog

variable {ε τ κ ρ : Type*} [DecidableEq τ] [DecidableEq κ]

/-- Under the name of each key the log has the events of the entries with this key, in order. -/
def Written (tag : ε → τ) (name : κ → τ) (key : ρ → κ) (events : ρ → List ε) (log : List ε)
    (entries : List ρ) : Prop :=
  ∀ k, log.filter (tag · = name k) = (entries.filter (key · = k)).flatMap events

variable {tag : ε → τ} {name : κ → τ} {key : ρ → κ} {events : ρ → List ε} {log log' : List ε}
  {entries entries' : List ρ} {r : ρ}

theorem Written.nil : Written tag name key events [] [] := fun _ => rfl

theorem Written.append (h : Written tag name key events log entries)
    (h' : Written tag name key events log' entries') :
    Written tag name key events (log ++ log') (entries ++ entries') := by
  intro k
  rw [List.filter_append, h k, h' k, List.filter_append, List.flatMap_append]

/-- Events whose tags name no key belong to no entry. -/
theorem Written.foreign (h : ∀ e ∈ log, ∀ k, tag e ≠ name k) :
    Written tag name key events log [] := by
  intro k
  exact List.filter_eq_nil_iff.mpr fun e he => by simpa using h e he k

/-- An entry writes its events under its own key. -/
theorem Written.single (hname : Function.Injective name)
    (h : ∀ e ∈ events r, tag e = name (key r)) :
    Written tag name key events (events r) [r] := by
  intro k
  by_cases hk : key r = k
  · rw [List.filter_eq_self.mpr fun e he => by simpa [← hk] using h e he]
    simp [hk]
  · have hne : ∀ e ∈ events r, ¬ decide (tag e = name k) = true := by
      intro e he htag
      exact hk (hname ((h e he).symm.trans (of_decide_eq_true htag)))
    rw [List.filter_eq_nil_iff.mpr hne]
    simp [hk]

/-- Entries that write one after another. -/
theorem Written.flatMap (hname : Function.Injective name)
    (h : ∀ r ∈ entries, ∀ e ∈ events r, tag e = name (key r)) :
    Written tag name key events (entries.flatMap events) entries := by
  induction entries with
  | nil => exact .nil
  | cons r entries ih =>
    obtain ⟨hr, hrest⟩ := List.forall_mem_cons.mp h
    exact (Written.single hname hr).append (ih hrest)

/-- A key that is used once selects its entry. -/
theorem filter_key_of_nodup (hnodup : (entries.map key).Nodup) (hr : r ∈ entries) :
    entries.filter (key · = key r) = [r] := by
  induction entries with
  | nil => cases hr
  | cons first entries ih =>
    obtain ⟨hfirst, hnodup⟩ := List.nodup_cons.mp hnodup
    rcases List.mem_cons.mp hr with rfl | hr
    · have hne : ∀ s ∈ entries, ¬ decide (key s = key r) = true := fun s hs hkey =>
        hfirst (of_decide_eq_true hkey ▸ List.mem_map_of_mem hs)
      rw [List.filter_cons_of_pos (by simp), List.filter_eq_nil_iff.mpr hne]
    · have hne : key first ≠ key r := fun hkey => hfirst (hkey ▸ List.mem_map_of_mem hr)
      rw [List.filter_cons_of_neg (by simpa using hne), ih hnodup hr]

/-- Where every key is used once, a reader gets the events of one entry. -/
theorem Written.read (h : Written tag name key events log entries)
    (hnodup : (entries.map key).Nodup) (hr : r ∈ entries) :
    log.filter (tag · = name (key r)) = events r := by
  rw [h (key r), filter_key_of_nodup hnodup hr, List.flatMap_singleton]

end KeyedLog
