import Mathlib.Data.List.Infix

/-!
# Logs of orders

A log in which every entry is justified by those before it. The entries of interest are orders that
are submitted, fills that open a position on an order or close it again, and the bookings of the
fills under positions. Three rules extend a reconciled log: an order is submitted, a waiting order
is filled, a held position is left.
-/

/-- Every member of the list is as `P` says after those before it. -/
def Follows {α : Type*} (P : List α → α → Prop) (l : List α) : Prop :=
  ∀ before x, before ++ [x] <+: l → P before x

namespace Follows

variable {α β : Type*} {P : List α → α → Prop} {l : List α} {x y : α}

theorem nil : Follows P [] := by
  intro before x h
  exact absurd (List.prefix_nil.mp h) (List.append_ne_nil_of_right_ne_nil before (by simp))

theorem concat (h : Follows P l) (hx : P l x) : Follows P (l ++ [x]) := by
  intro before y hy
  rcases List.prefix_concat_iff.mp hy with heq | hy
  · obtain ⟨rfl, hlast⟩ := List.append_inj' heq rfl
    rwa [List.singleton_inj.mp hlast]
  · exact h before y hy

theorem init (h : Follows P (l ++ [x])) : Follows P l :=
  fun before y hy => h before y (List.prefix_append_of_prefix hy)

theorem last (h : Follows P (l ++ [x])) : P l x := h l x List.prefix_rfl

theorem exists_before (h : Follows P l) (hx : x ∈ l) : ∃ before, before ⊆ l ∧ P before x := by
  obtain ⟨before, after, rfl⟩ := List.append_of_mem hx
  refine ⟨before, List.subset_append_left _ _, h before x ⟨after, ?_⟩⟩
  rw [List.append_assoc, List.singleton_append]

/-- Members that exclude each other are one and the same. -/
theorem unique (h : Follows P l) (hx : x ∈ l) (hy : y ∈ l)
    (hxy : ∀ before, x ∈ before → ¬ P before y) (hyx : ∀ before, y ∈ before → ¬ P before x) :
    x = y := by
  induction l using List.reverseRecOn with
  | nil => cases hx
  | append_singleton l z ih =>
    rcases List.mem_append.mp hx with hx' | hx' <;> rcases List.mem_append.mp hy with hy' | hy'
    · exact ih h.init hx' hy'
    · obtain rfl := List.mem_singleton.mp hy'
      exact absurd h.last (hxy l hx')
    · obtain rfl := List.mem_singleton.mp hx'
      exact absurd h.last (hyx l hy')
    · rw [List.mem_singleton.mp hx', List.mem_singleton.mp hy']

/-- Of members that exclude each other there is one at most. -/
theorem countP_le_one (h : Follows P l) (p : α → Bool)
    (hp : ∀ before x, P before x → p x → ∀ y ∈ before, ¬ p y) : l.countP p ≤ 1 := by
  induction l using List.reverseRecOn with
  | nil => exact Nat.zero_le 1
  | append_singleton l x ih =>
    rw [List.countP_append]
    cases hx : p x with
    | false =>
      rw [List.countP_singleton, if_neg (by simp [hx])]
      exact ih h.init
    | true =>
      rw [List.countP_eq_zero.mpr (hp l x h.last hx), Nat.zero_add]
      exact List.countP_le_length

/-- What justifies the entries read from a list justifies the members of the list. -/
theorem of_filterMap {P : List β → β → Prop} {f : α → Option β} (h : Follows P (l.filterMap f)) :
    Follows (fun before x => ∀ y, f x = some y → P (before.filterMap f) y) l := by
  intro before x hx y hy
  refine h _ y ?_
  have := hx.filterMap f
  rwa [List.filterMap_append, List.filterMap_cons_some hy, List.filterMap_nil] at this

end Follows

namespace OrderLog

variable {ω φ π κ : Type*}

/-- An entry of a log: an order is submitted, an order is filled on the way in or out, or a fill is
booked under a position that it opens or closes. -/
inductive Entry (ω φ π κ : Type*)
  | submitted (order : ω)
  | filled (order : ω) (fill : φ) (quantity : κ) (exit : Bool)
  | booked (position : π) (fill : φ) (exit : Bool)
  deriving DecidableEq

/-- No entry names the fill. -/
structure Unused (log : List (Entry ω φ π κ)) (fill : φ) : Prop where
  filled : ∀ o q exit, .filled o fill q exit ∉ log
  booked : ∀ p exit, .booked p fill exit ∉ log

/-- What has come before an entry. An order is submitted once. It gets one fill on the way in and
after it one of the same quantity on the way out. Each fill is booked once, that of the way out
under the position of the way in. -/
def Justified (before : List (Entry ω φ π κ)) : Entry ω φ π κ → Prop
  | .submitted o => .submitted o ∉ before
  | .filled o f q exit => .submitted o ∈ before ∧ Unused before f ∧
      (∀ f' q', .filled o f' q' exit ∉ before) ∧
      (exit = true → ∃ f', .filled o f' q false ∈ before)
  | .booked p f exit => (∀ p' exit', .booked p' f exit' ∉ before) ∧
      (∀ f', .booked p f' exit ∉ before) ∧ ∃ o q, .filled o f q exit ∈ before ∧
      (exit = true → ∃ f' q', .filled o f' q' false ∈ before ∧ .booked p f' false ∈ before)

/-- Every entry is justified, and every fill is booked. -/
structure Reconciled (log : List (Entry ω φ π κ)) : Prop where
  justified : Follows Justified log
  settled : ∀ o f q exit, .filled o f q exit ∈ log → ∃ p, .booked p f exit ∈ log

/-- An order that is submitted and has not been filled. -/
structure Waiting (log : List (Entry ω φ π κ)) (order : ω) : Prop where
  submitted : .submitted order ∈ log
  unfilled : ∀ f q, .filled order f q false ∉ log

/-- A position opened on an order and not closed. -/
structure Held (log : List (Entry ω φ π κ)) (position : π) (order : ω) (quantity : κ) : Prop where
  entered : ∃ f, .filled order f quantity false ∈ log ∧ .booked position f false ∈ log
  unfilled : ∀ f q, .filled order f q true ∉ log

variable {log more : List (Entry ω φ π κ)} {o o' : ω} {f f' : φ} {p p' : π} {q q' : κ}
  {exit exit' : Bool}

/-! ## What a justified log says -/

section Justified

theorem submitted_of_filled (h : Follows Justified log) (hf : .filled o f q exit ∈ log) :
    .submitted o ∈ log := by
  obtain ⟨before, hsub, ho, _⟩ := h.exists_before hf
  exact hsub ho

/-- An order has one fill on the way in and one on the way out. -/
theorem filled_unique (h : Follows Justified log) (hf : .filled o f q exit ∈ log)
    (hf' : .filled o f' q' exit ∈ log) : f = f' ∧ q = q' := by
  have heq := h.unique hf hf' (fun _ hbefore hP => hP.2.2.1 _ _ hbefore)
    (fun _ hbefore hP => hP.2.2.1 _ _ hbefore)
  cases heq
  exact ⟨rfl, rfl⟩

/-- All the fills of an order are of one quantity. -/
theorem quantity_unique (h : Follows Justified log) (hf : .filled o f q exit ∈ log)
    (hf' : .filled o f' q' exit' ∈ log) : q = q' := by
  have hentry : ∀ {f q e}, .filled o f q e ∈ log → ∃ f₀, .filled o f₀ q false ∈ log := by
    intro f q e hf
    cases e with
    | false => exact ⟨f, hf⟩
    | true =>
      obtain ⟨before, hsub, _, _, _, hentry⟩ := h.exists_before hf
      obtain ⟨f₀, hf₀⟩ := hentry rfl
      exact ⟨f₀, hsub hf₀⟩
  obtain ⟨f₁, h₁⟩ := hentry hf
  obtain ⟨f₂, h₂⟩ := hentry hf'
  exact (filled_unique h h₁ h₂).2

/-- A fill fills one order. -/
theorem order_unique (h : Follows Justified log) (hf : .filled o f q exit ∈ log)
    (hf' : .filled o' f q' exit' ∈ log) : o = o' := by
  have heq := h.unique hf hf' (fun _ hbefore hP => hP.2.1.filled _ _ _ hbefore)
    (fun _ hbefore hP => hP.2.1.filled _ _ _ hbefore)
  cases heq
  rfl

/-- A fill is booked once. -/
theorem booked_unique (h : Follows Justified log) (hp : .booked p f exit ∈ log)
    (hp' : .booked p' f exit' ∈ log) : p = p' := by
  have heq := h.unique hp hp' (fun _ hbefore hP => hP.1 _ _ hbefore)
    (fun _ hbefore hP => hP.1 _ _ hbefore)
  cases heq
  rfl

/-- A position is opened once, and closed once. -/
theorem fill_unique (h : Follows Justified log) (hp : .booked p f exit ∈ log)
    (hp' : .booked p f' exit ∈ log) : f = f' := by
  have heq := h.unique hp hp' (fun _ hbefore hP => hP.2.1 _ hbefore)
    (fun _ hbefore hP => hP.2.1 _ hbefore)
  cases heq
  rfl

/-- A position is held on one order. -/
theorem Held.order_ne (h : Follows Justified log) (hp : Held log p o q) (hp' : Held log p' o' q')
    (hne : p' ≠ p) : o' ≠ o := by
  rintro rfl
  obtain ⟨f, hf, hbook⟩ := hp.entered
  obtain ⟨f', hf', hbook'⟩ := hp'.entered
  obtain ⟨rfl, _⟩ := filled_unique h hf hf'
  exact hne (booked_unique h hbook' hbook)

/-- A position that is held has not been closed. -/
theorem Held.not_closed (h : Follows Justified log) (hp : Held log p o q) :
    .booked p f true ∉ log := by
  intro hclosed
  obtain ⟨f₀, hf₀, hopened⟩ := hp.entered
  obtain ⟨before, hsub, _, _, o', q', hleft, hentry⟩ := h.exists_before hclosed
  obtain ⟨f₁, q₁, hf₁, hopened'⟩ := hentry rfl
  obtain rfl := fill_unique h hopened (hsub hopened')
  obtain rfl := order_unique h hf₀ (hsub hf₁)
  exact hp.unfilled _ _ (hsub hleft)

end Justified

/-! ## The rules -/

theorem Reconciled.nil : Reconciled ([] : List (Entry ω φ π κ)) where
  justified := .nil
  settled _ _ _ _ h := absurd h List.not_mem_nil

/-- An order is submitted. -/
theorem Reconciled.submit (h : Reconciled log) (ho : .submitted o ∉ log) :
    Reconciled (log ++ [.submitted o]) where
  justified := h.justified.concat ho
  settled o' f q exit hf := by
    rcases List.mem_append.mp hf with hf | hf
    · obtain ⟨p, hp⟩ := h.settled o' f q exit hf
      exact ⟨p, List.mem_append_left _ hp⟩
    · cases List.mem_singleton.mp hf

/-- A fill and its booking. -/
theorem Reconciled.fill (h : Reconciled log) (hf : Justified log (.filled o f q exit))
    (hp : ∀ f', .booked p f' exit ∉ log)
    (hentry : exit = true → ∃ f' q', .filled o f' q' false ∈ log ∧ .booked p f' false ∈ log) :
    Reconciled (log ++ [.filled o f q exit, .booked p f exit]) where
  justified := by
    rw [← List.singleton_append, ← List.append_assoc]
    refine (h.justified.concat hf).concat ⟨?_, ?_, o, q, ?_, ?_⟩
    · simpa using hf.2.1.booked
    · simpa using hp
    · exact List.mem_append_right _ (List.mem_singleton_self _)
    · intro hexit
      obtain ⟨f', q', hfilled, hbooked⟩ := hentry hexit
      exact ⟨f', q', List.mem_append_left _ hfilled, List.mem_append_left _ hbooked⟩
  settled o' f' q' exit' hf' := by
    rcases List.mem_append.mp hf' with hf' | hf'
    · obtain ⟨p', hp'⟩ := h.settled o' f' q' exit' hf'
      exact ⟨p', List.mem_append_left _ hp'⟩
    · rcases List.mem_cons.mp hf' with heq | hf'
      · cases heq
        exact ⟨p, by simp⟩
      · cases List.mem_singleton.mp hf'

/-- A waiting order is filled and its position opened. -/
theorem Reconciled.enter (h : Reconciled log) (ho : Waiting log o) (hf : Unused log f)
    (hp : ∀ f', .booked p f' false ∉ log) :
    Reconciled (log ++ [.filled o f q false, .booked p f false]) :=
  h.fill ⟨ho.submitted, hf, ho.unfilled, fun hexit => by cases hexit⟩ hp fun hexit => by cases hexit

/-- A held position is closed on its order. -/
theorem Reconciled.leave (h : Reconciled log) (hp : Held log p o q) (hf : Unused log f) :
    Reconciled (log ++ [.filled o f q true, .booked p f true]) := by
  obtain ⟨f₀, hf₀, hopened⟩ := hp.entered
  have hsubmitted := submitted_of_filled h.justified hf₀
  apply h.fill ⟨hsubmitted, hf, hp.unfilled, fun _ => ⟨f₀, hf₀⟩⟩
  · exact fun f' => hp.not_closed h.justified
  · exact fun _ => ⟨f₀, q, hf₀, hopened⟩

/-! ## What the rules leave waiting and held -/

theorem Waiting.append (h : Waiting log o) (hmore : ∀ f q, .filled o f q false ∉ more) :
    Waiting (log ++ more) o where
  submitted := List.mem_append_left _ h.submitted
  unfilled f q hf := (List.mem_append.mp hf).elim (h.unfilled f q) (hmore f q)

theorem Held.append (h : Held log p o q) (hmore : ∀ f q, .filled o f q true ∉ more) :
    Held (log ++ more) p o q where
  entered := by
    obtain ⟨f, hf, hp⟩ := h.entered
    exact ⟨f, List.mem_append_left _ hf, List.mem_append_left _ hp⟩
  unfilled f q hf := (List.mem_append.mp hf).elim (h.unfilled f q) (hmore f q)

theorem Reconciled.waiting_submit (h : Reconciled log) (ho : .submitted o ∉ log) :
    Waiting (log ++ [.submitted o]) o where
  submitted := List.mem_append_right _ (List.mem_singleton_self _)
  unfilled f q hf := by
    rcases List.mem_append.mp hf with hf | hf
    · exact ho (submitted_of_filled h.justified hf)
    · cases List.mem_singleton.mp hf

theorem Waiting.submit (h : Waiting log o) : Waiting (log ++ [.submitted o']) o :=
  h.append fun f q => by simp

theorem Held.submit (h : Held log p o q) : Held (log ++ [.submitted o']) p o q :=
  h.append fun f q => by simp

theorem Waiting.enter (h : Waiting log o) (hne : o ≠ o') :
    Waiting (log ++ [.filled o' f q false, .booked p f false]) o :=
  h.append fun f' q' => by simp [hne]

theorem Held.enter (h : Held log p o q) :
    Held (log ++ [.filled o' f q' false, .booked p' f false]) p o q :=
  h.append fun f' q' => by simp

/-- The position a waiting order opens is held. -/
theorem Reconciled.held_enter (h : Reconciled log) (ho : Waiting log o) :
    Held (log ++ [.filled o f q false, .booked p f false]) p o q where
  entered := ⟨f, List.mem_append_right _ (by simp), List.mem_append_right _ (by simp)⟩
  unfilled f' q' hf' := by
    rcases List.mem_append.mp hf' with hf' | hf'
    · obtain ⟨before, hsub, _, _, _, hentry⟩ := h.justified.exists_before hf'
      obtain ⟨f₀, hf₀⟩ := hentry rfl
      exact ho.unfilled f₀ q' (hsub hf₀)
    · simp at hf'

theorem Waiting.leave (h : Waiting log o) :
    Waiting (log ++ [.filled o' f q true, .booked p f true]) o :=
  h.append fun f' q' => by simp

theorem Held.leave (h : Held log p o q) (hlog : Reconciled log) (hleft : Held log p' o' q')
    (hne : p ≠ p') : Held (log ++ [.filled o' f q' true, .booked p' f true]) p o q :=
  h.append fun f' q'' => by simp [hleft.order_ne hlog.justified h hne]

/-! ## The fills of an order -/

section

variable [DecidableEq ω]

/-- The entry is a fill of the order on the way in, or out. -/
def Entry.fills (order : ω) (exit : Bool) : Entry ω φ π κ → Bool
  | .filled o _ _ exit' => decide (o = order) && decide (exit' = exit)
  | _ => false

/-- An order has one fill at most on the way in, and on the way out. -/
theorem countP_fills_le_one (h : Follows Justified log) (o : ω) (exit : Bool) :
    log.countP (·.fills o exit) ≤ 1 := by
  refine h.countP_le_one _ fun before x hx hfills y hy hfills' => ?_
  cases x with
  | submitted o' => cases hfills
  | booked p f e => cases hfills
  | filled o' f q e =>
    cases y with
    | submitted o'' => cases hfills'
    | booked p' f' e' => cases hfills'
    | filled o'' f' q' e' =>
      simp only [Entry.fills, Bool.and_eq_true, decide_eq_true_eq] at hfills hfills'
      obtain ⟨rfl, rfl⟩ := hfills
      obtain ⟨rfl, rfl⟩ := hfills'
      exact hx.2.2.1 f' q' hy

end

/-- The fill of an entry with its order and its quantity. -/
def Entry.fill? : Entry ω φ π κ → Option (φ × ω × κ)
  | .filled o f q _ => some (f, o, q)
  | _ => none

/-- The order that an entry submits. -/
def Entry.order? : Entry ω φ π κ → Option ω
  | .submitted o => some o
  | _ => none

theorem mem_fills : (f, o, q) ∈ log.filterMap (·.fill?) ↔ ∃ exit, .filled o f q exit ∈ log := by
  rw [List.mem_filterMap]
  constructor
  · rintro ⟨entry, hentry, hfill⟩
    cases entry with
    | submitted o' => cases hfill
    | booked p' f' e => cases hfill
    | filled o' f' q' e =>
      cases hfill
      exact ⟨e, hentry⟩
  · rintro ⟨exit, hentry⟩
    exact ⟨_, hentry, rfl⟩

theorem mem_orders : o ∈ log.filterMap (·.order?) ↔ .submitted o ∈ log := by
  rw [List.mem_filterMap]
  constructor
  · rintro ⟨entry, hentry, horder⟩
    cases entry with
    | submitted o' =>
      cases horder
      exact hentry
    | booked p' f' e => cases horder
    | filled o' f' q' e => cases horder
  · exact fun hentry => ⟨_, hentry, rfl⟩

/-- The fills of an order are those on the way in and those on the way out. -/
theorem countP_fill? [DecidableEq ω] (o : ω) (log : List (Entry ω φ π κ)) :
    (log.filterMap (·.fill?)).countP (fun fill => decide (fill.2.1 = o)) =
      log.countP (·.fills o false) + log.countP (·.fills o true) := by
  induction log with
  | nil => rfl
  | cons entry log ih =>
    cases entry with
    | submitted o' => exact ih
    | booked p' f' e => exact ih
    | filled o' f' q' e =>
      have hfill : (Entry.filled o' f' q' e : Entry ω φ π κ).fill? = some (f', o', q') := rfl
      rw [List.filterMap_cons_some hfill, List.countP_cons, List.countP_cons, List.countP_cons, ih]
      cases e with
      | false =>
        simp [Entry.fills]
        omega
      | true =>
        simp [Entry.fills]
        omega

/-! ## What a reconciled log says of a fill -/

section

variable [DecidableEq φ]

/-- The position an entry books the fill under. -/
def Entry.position? (f : φ) : Entry ω φ π κ → Option π
  | .booked p f' _ => if f' = f then some p else none
  | _ => none

/-- A fill is booked under one position, by one entry. -/
theorem Reconciled.exists_position (h : Reconciled log) (hf : .filled o f q exit ∈ log) :
    ∃ p, .booked p f exit ∈ log ∧ log.filterMap (·.position? f) = [p] := by
  obtain ⟨p, hp⟩ := h.settled o f q exit hf
  have hmem : p ∈ log.filterMap (·.position? f) :=
    List.mem_filterMap.mpr ⟨.booked p f exit, hp, if_pos rfl⟩
  have hlength : (log.filterMap (·.position? f)).length ≤ 1 := by
    rw [List.length_filterMap_eq_countP]
    refine h.justified.countP_le_one _ fun before x hx hposition y hy hposition' => ?_
    cases x with
    | submitted o' => cases hposition
    | filled o' f' q' e => cases hposition
    | booked p' f' e =>
      cases y with
      | submitted o' => cases hposition'
      | filled o' f'' q' e' => cases hposition'
      | booked p'' f'' e' =>
        obtain rfl : f' = f := by simpa [Entry.position?] using hposition
        obtain rfl : f'' = f' := by simpa [Entry.position?] using hposition'
        exact hx.1 p'' e' hy
  refine ⟨p, hp, ?_⟩
  obtain ⟨p', hp'⟩ := List.length_eq_one_iff.mp
    (le_antisymm hlength (List.length_pos_of_mem hmem))
  rw [hp'] at hmem ⊢
  rw [List.mem_singleton.mp hmem]

/-- The fill on the way out is booked under the position that the fill on the way in has opened. -/
theorem Reconciled.position_eq (h : Reconciled log) (hf : .filled o f q false ∈ log)
    (hf' : .filled o f' q' true ∈ log) : ∃ p, log.filterMap (·.position? f) = [p] ∧
      log.filterMap (·.position? f') = [p] := by
  obtain ⟨p, hp, hone⟩ := h.exists_position hf
  obtain ⟨p', hp', hone'⟩ := h.exists_position hf'
  obtain ⟨before, hsub, _, _, o', q₁, hleft, hentry⟩ := h.justified.exists_before hp'
  obtain ⟨f₀, q₀, hf₀, hopened⟩ := hentry rfl
  obtain rfl := order_unique h.justified hf' (hsub hleft)
  obtain ⟨rfl, _⟩ := filled_unique h.justified hf (hsub hf₀)
  obtain rfl := booked_unique h.justified hp (hsub hopened)
  exact ⟨p, hone, hone'⟩

end

end OrderLog
