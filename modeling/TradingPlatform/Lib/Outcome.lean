import Mathlib

/-!
# Results of computations that may fail

What a bind that returned says of its two parts, passes over a list that may fail at an element,
and computations that fail alike.
-/

namespace Except

variable {ε α β : Type*}

theorem bind_eq_ok {x : Except ε α} {f : α → Except ε β} {b : β} :
    x.bind f = .ok b ↔ ∃ a, x = .ok a ∧ f a = .ok b := by
  cases x with
  | error e => exact ⟨fun h => (nomatch h), fun ⟨_, h, _⟩ => (nomatch h)⟩
  | ok a =>
    constructor
    · exact fun h => ⟨a, rfl, h⟩
    · rintro ⟨a', ha, hf⟩
      cases ha
      exact hf

theorem map_eq_ok {x : Except ε α} {f : α → β} {b : β} :
    x.map f = .ok b ↔ ∃ a, x = .ok a ∧ f a = b := by
  cases x with
  | error e => exact ⟨fun h => (nomatch h), fun ⟨_, h, _⟩ => (nomatch h)⟩
  | ok a =>
    constructor
    · exact fun h => ⟨a, rfl, Except.ok.inj h⟩
    · rintro ⟨a', ha, rfl⟩
      cases ha
      rfl

/-! ## Passes over a list -/

theorem mapM_eq_ok {f : α → Except ε β} {as : List α} {bs : List β} :
    as.mapM f = .ok bs ↔ List.Forall₂ (fun a b => f a = .ok b) as bs := by
  induction as generalizing bs with
  | nil =>
    rw [List.mapM_nil, List.forall₂_nil_left_iff]
    exact ⟨fun h => (Except.ok.inj h).symm, fun h => congrArg Except.ok h.symm⟩
  | cons a as ih =>
    rw [List.mapM_cons]
    constructor
    · intro h
      obtain ⟨b, hb, h⟩ := bind_eq_ok.mp h
      obtain ⟨bs', hbs, h⟩ := bind_eq_ok.mp h
      cases h
      exact .cons hb (ih.mp hbs)
    · rintro (_ | ⟨hb, hbs⟩)
      exact bind_eq_ok.mpr ⟨_, hb, bind_eq_ok.mpr ⟨_, ih.mpr hbs, rfl⟩⟩

theorem mem_of_mapM_eq_ok {f : α → Except ε β} {as : List α} {bs : List β} {b : β}
    (h : as.mapM f = .ok bs) (hb : b ∈ bs) : ∃ a ∈ as, f a = .ok b := by
  rw [mapM_eq_ok] at h
  induction h with
  | nil => cases hb
  | cons hab _ ih =>
    rcases List.mem_cons.mp hb with rfl | hb
    · exact ⟨_, List.mem_cons_self, hab⟩
    · obtain ⟨a, ha, hab⟩ := ih hb
      exact ⟨a, List.mem_cons_of_mem _ ha, hab⟩

theorem ok_of_mapM_eq_ok {f : α → Except ε β} {as : List α} {bs : List β} {a : α}
    (h : as.mapM f = .ok bs) (ha : a ∈ as) : ∃ b, f a = .ok b := by
  rw [mapM_eq_ok] at h
  induction h with
  | nil => cases ha
  | cons hab _ ih =>
    rcases List.mem_cons.mp ha with rfl | ha
    · exact ⟨_, hab⟩
    · exact ih ha

theorem mapM_eq_map {γ : Type*} {f : α → Except ε γ} {f' : α → Except ε β} {g : γ → β}
    {as : List α} (h : ∀ a ∈ as, f' a = (f a).map g) :
    as.mapM f' = (as.mapM f).map (List.map g) := by
  induction as with
  | nil => rfl
  | cons a as ih =>
    rw [List.mapM_cons, List.mapM_cons, h a List.mem_cons_self,
      ih fun b hb => h b (List.mem_cons_of_mem _ hb)]
    cases f a with
    | error e => rfl
    | ok c =>
      cases as.mapM f <;> rfl

/-- A pass over a list whose elements were read by `f`, and the list read again. -/
theorem mapM_rewritten {f : α → Except ε β} {g : α → Except ε α} {k : β → β}
    {P : α → Prop} {as : List α} {bs : List β} (h : as.mapM f = .ok bs)
    (hstep : ∀ a ∈ as, ∀ b, f a = .ok b → ∃ a', g a = .ok a' ∧ P a' ∧ f a' = .ok (k b)) :
    ∃ as', as.mapM g = .ok as' ∧ (∀ a' ∈ as', P a') ∧ as'.mapM f = .ok (bs.map k) := by
  simp only [mapM_eq_ok] at h ⊢
  induction h with
  | nil => exact ⟨[], .nil, List.forall_mem_nil _, .nil⟩
  | cons hb _ ih =>
    obtain ⟨a', hg, hP, hf⟩ := hstep _ List.mem_cons_self _ hb
    obtain ⟨as', hgs, hPs, hfs⟩ := ih fun a ha => hstep a (List.mem_cons_of_mem _ ha)
    exact ⟨a' :: as', .cons hg hgs, List.forall_mem_cons.mpr ⟨hP, hPs⟩, .cons hf hfs⟩

/-! ## Computations that fail alike -/

/-- Both fail with the same error, or both return, with related results. -/
inductive Rel (R : α → β → Prop) : Except ε α → Except ε β → Prop
  | error (e : ε) : Rel R (.error e) (.error e)
  | ok {a : α} {b : β} (h : R a b) : Rel R (.ok a) (.ok b)

section Rel

variable {R : α → β → Prop} {x : Except ε α} {y : Except ε β}

theorem Rel.refl (x : Except ε α) : Rel (· = ·) x x := by
  cases x with
  | error e => exact .error e
  | ok a => exact .ok rfl

theorem Rel.bind {γ δ : Type*} {S : γ → δ → Prop} {f : α → Except ε γ} {g : β → Except ε δ}
    (h : Rel R x y) (hf : ∀ a b, R a b → Rel S (f a) (g b)) : Rel S (x.bind f) (y.bind g) := by
  cases h with
  | error e => exact .error e
  | ok h => exact hf _ _ h

theorem Rel.map {γ δ : Type*} {S : γ → δ → Prop} {f : α → γ} {g : β → δ}
    (h : Rel R x y) (hf : ∀ a b, R a b → S (f a) (g b)) : Rel S (x.map f) (y.map g) := by
  cases h with
  | error e => exact .error e
  | ok h => exact .ok (hf _ _ h)

end Rel

end Except
