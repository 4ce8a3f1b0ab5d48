import TradingPlatform.Lib.Dict

/-!
# Matching two lists by a tag

Two lists are read into dictionaries by a tag of their elements, so that of the elements with one
tag the last is kept, and the tags of both are counted under which the elements kept differ.
`count_eq_iff` says when the count comes to a given number however the lists are ordered.
-/

namespace Dict

variable {α κ : Type*} [DecidableEq κ] {key : α → κ} {l : List α} {a : α} {k : κ}

/-- `{key(a): a for a in l}` -/
def indexed (key : α → κ) (l : List α) : Dict κ α := l.foldl (fun d a => d.set (key a) a) ∅

/-- Of the elements with one key the last is kept. -/
theorem get?_indexed_concat : (indexed key (l ++ [a])).get? k =
    if key a = k then some a else (indexed key l).get? k := by
  rw [indexed, List.foldl_append]
  exact get?_set

theorem mem_of_get?_indexed (h : (indexed key l).get? k = some a) : a ∈ l ∧ key a = k := by
  induction l using List.reverseRecOn with
  | nil => cases h
  | append_singleton l b ih =>
    rw [get?_indexed_concat] at h
    split at h
    · next hk =>
      cases h
      exact ⟨List.mem_append_right l (List.mem_singleton_self _), hk⟩
    · exact ⟨List.mem_append_left _ (ih h).1, (ih h).2⟩

theorem exists_get?_indexed (key : α → κ) (ha : a ∈ l) :
    ∃ b, (indexed key l).get? (key a) = some b := by
  induction l using List.reverseRecOn with
  | nil => cases ha
  | append_singleton l b ih =>
    rw [get?_indexed_concat]
    split
    · exact ⟨b, rfl⟩
    · next hk =>
      rcases List.mem_append.mp ha with hmem | hlast
      · exact ih hmem
      · exact absurd (congrArg key (List.mem_singleton.mp hlast).symm) hk

theorem mem_keys_indexed : k ∈ (indexed key l).keys ↔ ∃ a ∈ l, key a = k := by
  rw [mem_keys_iff, Option.ne_none_iff_exists']
  constructor
  · rintro ⟨a, hget⟩
    exact ⟨a, mem_of_get?_indexed hget⟩
  · rintro ⟨a, ha, rfl⟩
    exact exists_get?_indexed key ha

/-- Elements with other keys do not matter. -/
theorem get?_indexed_cons_of_ne (hne : key a ≠ k) {l₁ l₂ : List α} :
    (indexed key (l₁ ++ a :: l₂)).get? k = (indexed key (l₁ ++ l₂)).get? k := by
  induction l₂ using List.reverseRecOn with
  | nil => rw [get?_indexed_concat, if_neg hne, List.append_nil]
  | append_singleton l₂ b ih =>
    rw [← List.cons_append, ← List.append_assoc, ← List.append_assoc, get?_indexed_concat,
      get?_indexed_concat, ih]

/-- An order of the list in which `a` is kept; under the other keys the same elements are kept. -/
theorem exists_perm_indexed (key : α → κ) (ha : a ∈ l) : ∃ l', l'.Perm l ∧
    (indexed key l').get? (key a) = some a ∧
      ∀ k, k ≠ key a → (indexed key l').get? k = (indexed key l).get? k := by
  obtain ⟨l₁, l₂, rfl⟩ := List.append_of_mem ha
  refine ⟨l₁ ++ l₂ ++ [a], ?_, ?_, fun k hk => ?_⟩
  · exact (List.perm_append_singleton a (l₁ ++ l₂)).trans List.perm_middle.symm
  · rw [get?_indexed_concat, if_pos rfl]
  · rw [get?_indexed_concat, if_neg hk.symm, get?_indexed_cons_of_ne hk.symm]

end Dict

namespace Matching

open Dict

variable {α β τ : Type*} [DecidableEq τ] {tag : α → τ} {tag' : β → τ} {differ : α → β → Prop}
  {as as' : List α} {bs bs' : List β} {a : α} {b : β} {t : τ}

/-- The tags of both lists. -/
def shared (tag : α → τ) (tag' : β → τ) (as : List α) (bs : List β) : Finset τ :=
  (as.map tag).toFinset ∩ (bs.map tag').toFinset

theorem mem_shared : t ∈ shared tag tag' as bs ↔
    (∃ a ∈ as, tag a = t) ∧ ∃ b ∈ bs, tag' b = t := by
  simp [shared]

theorem shared_perm (has : as'.Perm as) (hbs : bs'.Perm bs) :
    shared tag tag' as' bs' = shared tag tag' as bs := by
  ext t
  simp only [mem_shared, has.mem_iff, hbs.mem_iff]

/-- Under the tag the elements that are kept differ. -/
def Splits (tag : α → τ) (tag' : β → τ) (differ : α → β → Prop) (as : List α) (bs : List β)
    (t : τ) : Prop :=
  ∃ a, (indexed tag as).get? t = some a ∧ ∃ b, (indexed tag' bs).get? t = some b ∧ differ a b

theorem splits_iff (ha : (indexed tag as).get? t = some a)
    (hb : (indexed tag' bs).get? t = some b) :
    Splits tag tag' differ as bs t ↔ differ a b := by
  constructor
  · rintro ⟨a', ha', b', hb', h⟩
    cases ha.symm.trans ha'
    cases hb.symm.trans hb'
    exact h
  · exact fun h => ⟨a, ha, b, hb, h⟩

instance [∀ a b, Decidable (differ a b)] : Decidable (Splits tag tag' differ as bs t) :=
  decidable_of_iff (∃ a ∈ ((indexed tag as).get? t).toList,
    ∃ b ∈ ((indexed tag' bs).get? t).toList, differ a b) (by simp [Splits])

/-- Under each tag either all elements differ or none. -/
def Settled (tag : α → τ) (tag' : β → τ) (differ : α → β → Prop) (as : List α) (bs : List β) :
    Prop :=
  ∀ a ∈ as, ∀ b ∈ bs, ∀ a' ∈ as, ∀ b' ∈ bs,
    tag a = tag' b → tag a' = tag a → tag' b' = tag a → (differ a b ↔ differ a' b')

section

variable [∀ a b, Decidable (differ a b)]

/-- The number of tags under which the elements that are kept differ. -/
def count (tag : α → τ) (tag' : β → τ) (differ : α → β → Prop) [∀ a b, Decidable (differ a b)]
    (as : List α) (bs : List β) : ℕ :=
  ((shared tag tag' as bs).filter (Splits tag tag' differ as bs)).card

/-- The tags under which some elements differ. -/
def differing (tag : α → τ) (tag' : β → τ) (differ : α → β → Prop)
    [∀ a b, Decidable (differ a b)] (as : List α) (bs : List β) : Finset τ :=
  (shared tag tag' as bs).filter fun t =>
    ∃ a ∈ as, ∃ b ∈ bs, tag a = t ∧ tag' b = t ∧ differ a b

theorem mem_differing : t ∈ differing tag tag' differ as bs ↔
    ∃ a ∈ as, ∃ b ∈ bs, tag a = t ∧ tag' b = t ∧ differ a b := by
  rw [differing, Finset.mem_filter, mem_shared, and_iff_right_iff_imp]
  rintro ⟨a, ha, b, hb, htag, htag', -⟩
  exact ⟨⟨a, ha, htag⟩, b, hb, htag'⟩

/-- Where the elements under each tag agree on whether they differ, the order does not matter. -/
theorem Settled.count_eq (h : Settled tag tag' differ as bs) (has : as'.Perm as)
    (hbs : bs'.Perm bs) :
    count tag tag' differ as' bs' = (differing tag tag' differ as bs).card := by
  rw [count, shared_perm has hbs, differing]
  refine congrArg Finset.card (Finset.filter_congr fun t ht => ?_)
  obtain ⟨⟨a, ha, rfl⟩, b, hb, hab⟩ := mem_shared.mp ht
  obtain ⟨x, hx⟩ := exists_get?_indexed tag (has.mem_iff.mpr ha)
  obtain ⟨y, hy⟩ := exists_get?_indexed tag' (hbs.mem_iff.mpr hb)
  rw [hab] at hy
  obtain ⟨hxmem, hxtag⟩ := mem_of_get?_indexed hx
  obtain ⟨hymem, hytag⟩ := mem_of_get?_indexed hy
  rw [splits_iff hx hy]
  constructor
  · exact fun hdiffer =>
      ⟨x, has.mem_iff.mp hxmem, y, hbs.mem_iff.mp hymem, hxtag, hytag, hdiffer⟩
  · rintro ⟨a', ha', b', hb', htag, htag', hdiffer⟩
    refine (h a' ha' b' hb' x (has.mem_iff.mp hxmem) y (hbs.mem_iff.mp hymem) ?_ ?_ ?_).mp hdiffer
    · exact htag.trans htag'.symm
    · exact hxtag.trans htag.symm
    · exact hytag.trans htag.symm

/-- Two orders that keep the same elements but for one tag, and have the same count, agree on
whether the elements under that tag differ. -/
theorem splits_iff_of_count_eq {as₁ as₂ : List α} {bs₁ bs₂ : List β}
    (ht : t ∈ shared tag tag' as bs) (has₁ : as₁.Perm as) (has₂ : as₂.Perm as)
    (hbs₁ : bs₁.Perm bs) (hbs₂ : bs₂.Perm bs)
    (hothers : ∀ s, s ≠ t →
      (Splits tag tag' differ as₁ bs₁ s ↔ Splits tag tag' differ as₂ bs₂ s))
    (hcount : count tag tag' differ as₁ bs₁ = count tag tag' differ as₂ bs₂) :
    Splits tag tag' differ as₁ bs₁ t ↔ Splits tag tag' differ as₂ bs₂ t := by
  rw [count, count, shared_perm has₁ hbs₁, shared_perm has₂ hbs₂] at hcount
  have hfilter : ((shared tag tag' as bs).erase t).filter (Splits tag tag' differ as₁ bs₁) =
      ((shared tag tag' as bs).erase t).filter (Splits tag tag' differ as₂ bs₂) :=
    Finset.filter_congr fun s hs => hothers s (Finset.ne_of_mem_erase hs)
  have hnot : ∀ (p : τ → Prop) [DecidablePred p], t ∉ ((shared tag tag' as bs).erase t).filter p :=
    fun p _ hmem => Finset.notMem_erase t _ (Finset.mem_of_mem_filter t hmem)
  rw [← Finset.insert_erase ht, Finset.filter_insert, Finset.filter_insert, hfilter] at hcount
  by_cases h₁ : Splits tag tag' differ as₁ bs₁ t
  · by_cases h₂ : Splits tag tag' differ as₂ bs₂ t
    · exact iff_of_true h₁ h₂
    · rw [if_pos h₁, if_neg h₂, Finset.card_insert_of_notMem (hnot _)] at hcount
      omega
  · by_cases h₂ : Splits tag tag' differ as₂ bs₂ t
    · rw [if_neg h₁, if_pos h₂, Finset.card_insert_of_notMem (hnot _)] at hcount
      omega
    · exact iff_of_false h₁ h₂

/-- A count that is the same for every order is settled under each tag: any two elements with the
tag can be the ones that are kept. -/
theorem settled_of_count_eq {n : ℕ}
    (h : ∀ as' bs', as'.Perm as → bs'.Perm bs → count tag tag' differ as' bs' = n) :
    Settled tag tag' differ as bs := by
  intro a ha b hb a' ha' b' hb' hab haa' hab'
  obtain ⟨as₁, has₁, ha₁, hothers₁⟩ := exists_perm_indexed tag ha
  obtain ⟨as₂, has₂, ha₂, hothers₂⟩ := exists_perm_indexed tag ha'
  obtain ⟨bs₁, hbs₁, hb₁, hothers₁'⟩ := exists_perm_indexed tag' hb
  obtain ⟨bs₂, hbs₂, hb₂, hothers₂'⟩ := exists_perm_indexed tag' hb'
  rw [haa'] at ha₂ hothers₂
  rw [← hab] at hb₁ hothers₁'
  rw [hab'] at hb₂ hothers₂'
  have hkept₁ : Splits tag tag' differ as₁ bs₁ (tag a) ↔ differ a b := splits_iff ha₁ hb₁
  have hkept₂ : Splits tag tag' differ as₂ bs₂ (tag a) ↔ differ a' b' := splits_iff ha₂ hb₂
  rw [← hkept₁, ← hkept₂]
  refine splits_iff_of_count_eq (mem_shared.mpr ⟨⟨a, ha, rfl⟩, b, hb, hab.symm⟩) has₁ has₂ hbs₁
    hbs₂ (fun s hs => ?_) ((h _ _ has₁ hbs₁).trans (h _ _ has₂ hbs₂).symm)
  rw [Splits, Splits, hothers₁ s hs, hothers₂ s hs, hothers₁' s hs, hothers₂' s hs]

/-- In every order the count is `n` exactly if under each tag all elements differ or none, and there
are `n` tags of the first kind. -/
theorem count_eq_iff {n : ℕ} :
    (∀ as' bs', as'.Perm as → bs'.Perm bs → count tag tag' differ as' bs' = n) ↔
      Settled tag tag' differ as bs ∧ (differing tag tag' differ as bs).card = n := by
  constructor
  · intro h
    have hsettled := settled_of_count_eq h
    exact ⟨hsettled, (hsettled.count_eq (.refl as) (.refl bs)).symm.trans (h _ _ (.refl as)
      (.refl bs))⟩
  · rintro ⟨hsettled, hcard⟩ as' bs' has hbs
    exact (hsettled.count_eq has hbs).trans hcard

theorem count_comm {differ' : β → α → Prop} [∀ b a, Decidable (differ' b a)]
    (h : ∀ a b, differ' b a ↔ differ a b) :
    count tag' tag differ' bs as = count tag tag' differ as bs := by
  have hshared : shared tag' tag bs as = shared tag tag' as bs := Finset.inter_comm _ _
  rw [count, count, hshared]
  refine congrArg Finset.card (Finset.filter_congr fun t _ => ?_)
  constructor
  · rintro ⟨b, hb, a, ha, hdiffer⟩
    exact ⟨a, ha, b, hb, (h a b).mp hdiffer⟩
  · rintro ⟨a, ha, b, hb, hdiffer⟩
    exact ⟨b, hb, a, ha, (h a b).mpr hdiffer⟩

end

end Matching
