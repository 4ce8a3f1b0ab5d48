import TradingPlatform.Lib.Ordered

/-!
# Windows of a keyed collection

A window of a collection is what it holds between two bounds of an ordered key. Lists of rows are
put together with one row for each key and sorted by it. Where two windows are put together, nothing
is missing in between exactly when no row of the collection lies strictly between them.
-/

namespace Window

variable {α κ : Type*} [LinearOrder κ] (key : α → κ)

/-- One row for each key, the last of those that share it. -/
def keepLast : List α → List α
  | [] => []
  | x :: xs => if key x ∈ xs.map key then keepLast xs else x :: keepLast xs

/-- One row for each key, the first of those that share it. -/
def keepFirst (l : List α) : List α := (keepLast key l.reverse).reverse

def sortByKey (l : List α) : List α := l.mergeSort fun a b => decide (key a ≤ key b)

/-- Equal keys belong to equal rows. -/
def Unique (rows : α → Prop) : Prop := ∀ x y, rows x → rows y → key x = key y → x = y

/-- The list holds the rows from `lo` to `hi`. -/
def Holds (rows : α → Prop) (lo hi : κ) (l : List α) : Prop :=
  ∀ x, x ∈ l ↔ rows x ∧ lo ≤ key x ∧ key x ≤ hi

/-- The list holds every row between two of its own. -/
def Gapless (rows : α → Prop) (l : List α) : Prop :=
  ∀ x, rows x → ∀ a ∈ l, ∀ b ∈ l, key a ≤ key x → key x ≤ key b → x ∈ l

variable {key} {rows : α → Prop} {l l' m : List α} {lo hi lo' hi' : κ} {x : α}

/-! ## One row for each key -/

theorem mem_of_mem_keepLast (h : x ∈ keepLast key l) : x ∈ l := by
  induction l with
  | nil => exact h
  | cons y l ih =>
    rw [keepLast] at h
    split at h
    · exact List.mem_cons_of_mem _ (ih h)
    · rcases List.mem_cons.mp h with rfl | h
      · exact List.mem_cons_self
      · exact List.mem_cons_of_mem _ (ih h)

/-- No key is lost. -/
theorem key_mem_keepLast {k : κ} (h : k ∈ l.map key) : k ∈ (keepLast key l).map key := by
  induction l with
  | nil => exact h
  | cons y l ih =>
    rw [keepLast]
    rw [List.map_cons, List.mem_cons] at h
    split
    · next hlater => exact ih (h.elim (fun hk => hk ▸ hlater) id)
    · rw [List.map_cons, List.mem_cons]
      exact h.imp_right ih

theorem nodup_keepLast : ((keepLast key l).map key).Nodup := by
  induction l with
  | nil => exact List.nodup_nil
  | cons y l ih =>
    rw [keepLast]
    split
    · exact ih
    · next hnew =>
      rw [List.map_cons, List.nodup_cons]
      refine ⟨fun hmem => hnew ?_, ih⟩
      obtain ⟨z, hz, hkey⟩ := List.mem_map.mp hmem
      exact hkey ▸ List.mem_map_of_mem (mem_of_mem_keepLast hz)

/-- Rows that their keys tell apart are all kept. -/
theorem mem_keepLast (hunique : Unique key rows) (hl : ∀ x ∈ l, rows x) :
    x ∈ keepLast key l ↔ x ∈ l := by
  refine ⟨mem_of_mem_keepLast, fun hx => ?_⟩
  obtain ⟨y, hy, hkey⟩ := List.mem_map.mp (key_mem_keepLast (List.mem_map_of_mem (f := key) hx))
  rwa [← hunique y x (hl y (mem_of_mem_keepLast hy)) (hl x hx) hkey]

theorem nodup_keepFirst : ((keepFirst key l).map key).Nodup := by
  rw [keepFirst, List.map_reverse, List.nodup_reverse]
  exact nodup_keepLast

theorem mem_keepFirst (hunique : Unique key rows) (hl : ∀ x ∈ l, rows x) :
    x ∈ keepFirst key l ↔ x ∈ l := by
  rw [keepFirst, List.mem_reverse,
    mem_keepLast hunique fun y hy => hl y (List.mem_reverse.mp hy), List.mem_reverse]

theorem mem_sortByKey : x ∈ sortByKey key l ↔ x ∈ l := List.mem_mergeSort

/-- Rows with distinct keys are sorted strictly. -/
theorem pairwise_sortByKey (h : (l.map key).Nodup) :
    (sortByKey key l).Pairwise fun a b => key a < key b := by
  have hsorted : (sortByKey key l).Pairwise fun a b => decide (key a ≤ key b) = true :=
    List.pairwise_mergeSort
      (fun _ _ _ hab hbc => decide_eq_true ((of_decide_eq_true hab).trans (of_decide_eq_true hbc)))
      (fun a b => by simpa using le_total (key a) (key b)) l
  have hnodup : ((sortByKey key l).map key).Nodup :=
    ((List.mergeSort_perm l _).map key).nodup_iff.mpr h
  refine (hsorted.and (List.pairwise_map.mp hnodup)).imp fun {a b} hab => ?_
  exact (of_decide_eq_true hab.1).lt_of_ne hab.2

/-! ## Windows -/

theorem Holds.isRow (h : Holds key rows lo hi l) (hx : x ∈ l) : rows x := ((h x).mp hx).1

theorem Holds.gapless (h : Holds key rows lo hi l) : Gapless key rows l := by
  intro x hx a ha b hb hax hxb
  exact (h x).mpr ⟨hx, ((h a).mp ha).2.1.trans hax, hxb.trans ((h b).mp hb).2.2⟩

/-- A gapless list of rows holds the rows from its least key to its greatest. -/
theorem Gapless.holds (h : Gapless key rows l) (hl : ∀ x ∈ l, rows x) {first last : α}
    (hfirst : first ∈ l) (hlast : last ∈ l) (hle : ∀ x ∈ l, key first ≤ key x)
    (hge : ∀ x ∈ l, key x ≤ key last) : Holds key rows (key first) (key last) l := fun x =>
  ⟨fun hx => ⟨hl x hx, hle x hx, hge x hx⟩,
    fun ⟨hx, hlo, hhi⟩ => h x hx first hfirst last hlast hlo hhi⟩

/-- Two windows that meet make up a window. -/
theorem Holds.union (h : Holds key rows lo hi l) (h' : Holds key rows lo' hi' l')
    (hm : ∀ x, x ∈ m ↔ x ∈ l ∨ x ∈ l') (hmeet : lo' ≤ hi) (hmeet' : lo ≤ hi') :
    Holds key rows (min lo lo') (max hi hi') m := by
  intro x
  rw [hm, h, h', min_le_iff, le_max_iff]
  constructor
  · rintro (⟨hx, hlo, hhi⟩ | ⟨hx, hlo, hhi⟩)
    · exact ⟨hx, .inl hlo, .inl hhi⟩
    · exact ⟨hx, .inr hlo, .inr hhi⟩
  · rintro ⟨hx, hlo, hhi⟩
    by_cases hin : lo ≤ key x ∧ key x ≤ hi
    · exact .inl ⟨hx, hin⟩
    · refine .inr ⟨hx, ?_, ?_⟩
      · rcases hlo with hlo | hlo
        · exact hmeet.trans (not_le.mp fun hhi => hin ⟨hlo, hhi⟩).le
        · exact hlo
      · rcases hhi with hhi | hhi
        · exact (not_le.mp fun hlo => hin ⟨hlo, hhi⟩).le.trans hmeet'
        · exact hhi

/-- Two windows put together are gapless exactly when no row lies strictly between them. -/
theorem gapless_union_iff (h : Holds key rows lo hi l) (h' : Holds key rows lo' hi' l')
    (hm : ∀ x, x ∈ m ↔ x ∈ l ∨ x ∈ l') (hlo : ∃ a ∈ l, key a = lo) (hhi : ∃ b ∈ l, key b = hi)
    (hne : l' ≠ []) :
    Gapless key rows m ↔
      ∀ x, rows x → ¬ (hi < key x ∧ key x < lo') ∧ ¬ (hi' < key x ∧ key x < lo) := by
  obtain ⟨a, ha, rfl⟩ := hlo
  obtain ⟨b, hb, rfl⟩ := hhi
  obtain ⟨c, hc⟩ := List.exists_mem_of_ne_nil l' hne
  have hc' := (h' c).mp hc
  constructor
  · refine fun hgapless x hx => ⟨fun hbetween => ?_, fun hbetween => ?_⟩
    · rcases (hm x).mp (hgapless x hx b ((hm b).mpr (.inl hb)) c ((hm c).mpr (.inr hc))
        hbetween.1.le (hbetween.2.le.trans hc'.2.1)) with hold | hnew
      · exact hbetween.1.not_ge ((h x).mp hold).2.2
      · exact hbetween.2.not_ge ((h' x).mp hnew).2.1
    · rcases (hm x).mp (hgapless x hx c ((hm c).mpr (.inr hc)) a ((hm a).mpr (.inl ha))
        (hc'.2.2.trans hbetween.1.le) hbetween.2.le) with hold | hnew
      · exact hbetween.2.not_ge ((h x).mp hold).2.1
      · exact hbetween.1.not_ge ((h' x).mp hnew).2.2
  · intro hnone x hx p hp q hq hpx hxq
    obtain ⟨hright, hleft⟩ := hnone x hx
    have hlow : key a ≤ key x ∨ lo' ≤ key x := by
      rcases (hm p).mp hp with hp | hp
      · exact .inl (((h p).mp hp).2.1.trans hpx)
      · exact .inr (((h' p).mp hp).2.1.trans hpx)
    have hhigh : key x ≤ key b ∨ key x ≤ hi' := by
      rcases (hm q).mp hq with hq | hq
      · exact .inl (hxq.trans ((h q).mp hq).2.2)
      · exact .inr (hxq.trans ((h' q).mp hq).2.2)
    rw [hm, h, h']
    by_cases hin : key a ≤ key x ∧ key x ≤ key b
    · exact .inl ⟨hx, hin⟩
    · refine .inr ⟨hx, ?_, ?_⟩
      · rcases hlow with hlow | hlow
        · exact not_lt.mp fun hlt => hright ⟨not_le.mp fun hle => hin ⟨hlow, hle⟩, hlt⟩
        · exact hlow
      · rcases hhigh with hhigh | hhigh
        · exact not_lt.mp fun hlt => hleft ⟨hlt, not_le.mp fun hle => hin ⟨hle, hhigh⟩⟩
        · exact hhigh

end Window
