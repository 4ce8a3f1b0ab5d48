import TradingPlatform.Lib.Outcome

/-!
# Computations in lockstep

Two computations that draw identifiers from counters of their own may draw different numbers of
them, so their results agree up to the names of the identifiers at most. A `Renaming` pairs
identifiers of the left one-to-one with identifiers of the right, and is extended when both sides
draw an identifier that is to be paired. `Lockstep ρ R m m'` says that `m` and `m'`, run above the
identifiers of `ρ`, return results that are related by `R` under an extension of `ρ`.
-/

/-- A one-to-one correspondence between identifiers. -/
structure Renaming where
  rel : ℕ → ℕ → Prop
  oneToOne : Relator.BiUnique rel

namespace Renaming

variable {ρ σ : Renaming} {a b a' b' u u' v v' : ℕ}

instance : Preorder Renaming where
  le ρ σ := ∀ ⦃a b⦄, ρ.rel a b → σ.rel a b
  le_refl _ _ _ := id
  le_trans _ _ _ h h' _ _ hab := h' (h hab)

/-- The renaming of no identifier. -/
def empty : Renaming where
  rel _ _ := False
  oneToOne := ⟨fun _ _ _ h => h.elim, fun _ _ _ h => h.elim⟩

theorem eq_iff (ρ : Renaming) (h : ρ.rel a b) (h' : ρ.rel a' b') : a = a' ↔ b = b' :=
  Relator.rel_eq ρ.oneToOne h h'

/-- The renamed identifiers have been drawn. -/
def Below (ρ : Renaming) (u u' : ℕ) : Prop := ∀ ⦃a b⦄, ρ.rel a b → a < u ∧ b < u'

theorem Below.mono (h : ρ.Below u u') (hu : u ≤ v) (hu' : u' ≤ v') : ρ.Below v v' :=
  fun _ _ hab => ⟨(h hab).1.trans_le hu, (h hab).2.trans_le hu'⟩

theorem below_empty : empty.Below u u' := fun _ _ h => h.elim

/-- The renaming with a pair of identifiers that have not been drawn before. -/
def extend (ρ : Renaming) (h : ρ.Below u u') (ha : u ≤ a) (hb : u' ≤ b) : Renaming where
  rel x y := ρ.rel x y ∨ x = a ∧ y = b
  oneToOne := by
    have hne : ∀ {x y}, ρ.rel x y → x ≠ a ∧ y ≠ b := fun hxy =>
      ⟨((h hxy).1.trans_le ha).ne, ((h hxy).2.trans_le hb).ne⟩
    constructor
    · rintro x x' y (hxy | ⟨rfl, rfl⟩) (hxy' | ⟨rfl, hy⟩)
      · exact ρ.oneToOne.1 hxy hxy'
      · exact absurd hy (hne hxy).2
      · exact absurd rfl (hne hxy').2
      · rfl
    · rintro x y y' (hxy | ⟨rfl, rfl⟩) (hxy' | ⟨hx, rfl⟩)
      · exact ρ.oneToOne.2 hxy hxy'
      · exact absurd hx (hne hxy).1
      · exact absurd rfl (hne hxy').1
      · rfl

/-- `σ` has the pair and otherwise only the pairs of `ρ`. -/
structure Adds (ρ σ : Renaming) (a b : ℕ) : Prop where
  le : ρ ≤ σ
  pair : σ.rel a b
  only : ∀ {x y}, σ.rel x y → ρ.rel x y ∨ x = a ∧ y = b

theorem adds_extend (h : ρ.Below u u') (ha : u ≤ a) (hb : u' ≤ b) :
    Adds ρ (ρ.extend h ha hb) a b where
  le _ _ := .inl
  pair := .inr ⟨rfl, rfl⟩
  only := id

theorem below_extend (h : ρ.Below u u') (ha : u ≤ a) (hb : u' ≤ b) :
    (ρ.extend h ha hb).Below (a + 1) (b + 1) := by
  rintro x y (hxy | ⟨rfl, rfl⟩)
  · obtain ⟨hx, hy⟩ := h hxy
    exact ⟨by omega, by omega⟩
  · exact ⟨Nat.lt_succ_self _, Nat.lt_succ_self _⟩

/-! ## Lists of renamed elements -/

section Lists

variable {α β : Type*} {R : α → β → Prop} {key : α → ℕ} {key' : β → ℕ} {l : List α} {l' : List β}

theorem filter_ne (hR : ∀ x y, R x y → ρ.rel (key x) (key' y)) (hab : ρ.rel a b)
    (h : List.Forall₂ R l l') :
    List.Forall₂ R (l.filter (key · ≠ a)) (l'.filter (key' · ≠ b)) := by
  refine List.rel_filter (fun x y hxy => ?_) h
  simpa using not_congr (ρ.eq_iff (hR x y hxy) hab)

theorem find?_eq (hR : ∀ x y, R x y → ρ.rel (key x) (key' y)) (hab : ρ.rel a b)
    (h : List.Forall₂ R l l') :
    Option.Rel R (l.find? (key · = a)) (l'.find? (key' · = b)) := by
  induction h with
  | nil => exact .none
  | @cons x y l l' hxy _ ih =>
    have hiff := ρ.eq_iff (hR x y hxy) hab
    by_cases hx : key x = a
    · simpa [hx, hiff.mp hx] using Option.Rel.some hxy
    · simpa [hx, mt hiff.mpr hx] using ih

end Lists

end Renaming

/-! ## Computations -/

/-- Above the identifiers of `ρ` the computations return results that are related under an
extension of `ρ`. -/
def Lockstep {α β : Type} (ρ : Renaming) (R : Renaming → α → β → Prop) (m : StateM ℕ α)
    (m' : StateM ℕ β) : Prop :=
  ∀ u u', ρ.Below u u' → ∃ σ, ρ ≤ σ ∧ σ.Below (m u).2 (m' u').2 ∧ R σ (m u).1 (m' u').1

namespace Lockstep

variable {α β γ δ : Type} {ρ : Renaming} {R : Renaming → α → β → Prop} {m : StateM ℕ α}
  {m' : StateM ℕ β}

theorem pure {a : α} {b : β} (h : R ρ a b) : Lockstep ρ R (pure a) (pure b) :=
  fun _ _ hbelow => ⟨ρ, le_rfl, hbelow, h⟩

theorem bind {T : Renaming → γ → δ → Prop} {f : α → StateM ℕ γ} {f' : β → StateM ℕ δ}
    (h : Lockstep ρ R m m') (hf : ∀ σ a b, ρ ≤ σ → R σ a b → Lockstep σ T (f a) (f' b)) :
    Lockstep ρ T (m >>= f) (m' >>= f') := by
  intro u u' hbelow
  obtain ⟨σ, hσ, hbelowσ, hR⟩ := h u u' hbelow
  obtain ⟨τ, hτ, hbelowτ, hT⟩ := hf σ _ _ hσ hR _ _ hbelowσ
  exact ⟨τ, hσ.trans hτ, hbelowτ, hT⟩

/-- Identifiers that need no partner may be drawn freely, and what is drawn does not matter. -/
theorem free (h : ∀ u, u ≤ (m u).2) (h' : ∀ u, u ≤ (m' u).2)
    (hR : ∀ u u', R ρ (m u).1 (m' u').1) : Lockstep ρ R m m' :=
  fun u u' hbelow => ⟨ρ, le_rfl, hbelow.mono (h u) (h' u'), hR u u'⟩

end Lockstep
