import TradingPlatform.Lib.Dict

/-!
# JSON documents

A document is a tree of texts, truth values and numbers. A floating-point number can be infinite,
which JSON has no text for, so an encoder that keeps to the standard refuses a document in which
some number is not finite.
-/

/-- A number of a document. -/
inductive Number
  | finite (value : ℚ)
  | infinite
  deriving DecidableEq

inductive Json
  | null
  | bool (value : Bool)
  | number (value : Number)
  | text (value : String)
  | list (items : List Json)
  | object (entries : List (String × Json))

namespace Json

abbrev rat (q : ℚ) : Json := .number (.finite q)

abbrev nat (n : ℕ) : Json := rat n

/-- A text, or null. -/
def optText : Option String → Json
  | none => null
  | some s => text s

/-- A dictionary with texts for keys. -/
def dict {α : Type} (value : α → Json) (d : Dict String α) : Json :=
  object (d.entries.map fun e => (e.1, value e.2))

mutual

/-- All numbers of a document. -/
def numbers : Json → List Number
  | .number value => [value]
  | .list items => itemNumbers items
  | .object entries => entriesNumbers entries
  | _ => []

def itemNumbers : List Json → List Number
  | [] => []
  | y :: ys => numbers y ++ itemNumbers ys

def entriesNumbers : List (String × Json) → List Number
  | [] => []
  | e :: es => entryNumbers e ++ entriesNumbers es

def entryNumbers : String × Json → List Number
  | (_, y) => numbers y

end

/-- Every number of the document is finite. -/
def Finite (j : Json) : Prop := ∀ x ∈ j.numbers, x ≠ .infinite

instance : DecidablePred Finite := fun j => inferInstanceAs (Decidable (∀ x ∈ j.numbers, _))

variable {key : String} {y : Json} {items ys : List Json} {entries es : List (String × Json)}

@[simp] theorem finite_null : Finite null := fun _ h => absurd h List.not_mem_nil

@[simp] theorem finite_text (value : String) : Finite (text value) :=
  fun _ h => absurd h List.not_mem_nil

@[simp] theorem finite_optText (value : Option String) : Finite (optText value) := by
  cases value with
  | none => exact finite_null
  | some s => exact finite_text s

@[simp] theorem finite_number {value : Number} : Finite (number value) ↔ value ≠ .infinite := by
  simp [Finite, numbers]

theorem finite_list : Finite (list items) ↔ ∀ y ∈ items, Finite y := by
  change (∀ x ∈ itemNumbers items, x ≠ .infinite) ↔ _
  induction items with
  | nil => exact iff_of_true (fun _ h => absurd h List.not_mem_nil) (List.forall_mem_nil _)
  | cons y ys ih =>
    rw [itemNumbers, List.forall_mem_append, ih, List.forall_mem_cons]
    rfl

theorem finite_object : Finite (object entries) ↔ ∀ e ∈ entries, Finite e.2 := by
  change (∀ x ∈ entriesNumbers entries, x ≠ .infinite) ↔ _
  induction entries with
  | nil => exact iff_of_true (fun _ h => absurd h List.not_mem_nil) (List.forall_mem_nil _)
  | cons e es ih =>
    obtain ⟨key, y⟩ := e
    rw [entriesNumbers, List.forall_mem_append, ih, List.forall_mem_cons]
    rfl

@[simp] theorem finite_object_nil : Finite (object []) := finite_object.mpr (List.forall_mem_nil _)

@[simp] theorem finite_object_cons :
    Finite (object ((key, y) :: entries)) ↔ Finite y ∧ Finite (object entries) := by
  rw [finite_object, finite_object, List.forall_mem_cons]

theorem finite_object_append :
    Finite (object (entries ++ es)) ↔ Finite (object entries) ∧ Finite (object es) := by
  rw [finite_object, finite_object, finite_object, List.forall_mem_append]

/-- The document is a list of documents that are finite whatever they are made from. -/
theorem finite_list_map {α : Type*} {f : α → Json} (h : ∀ a, Finite (f a)) (l : List α) :
    Finite (list (l.map f)) :=
  finite_list.mpr fun y hy => by
    obtain ⟨a, -, rfl⟩ := List.mem_map.mp hy
    exact h a

theorem finite_dict {α : Type} {value : α → Json} (h : ∀ a, Finite (value a))
    (d : Dict String α) : Finite (dict value d) :=
  finite_object.mpr fun e he => by
    obtain ⟨a, -, rfl⟩ := List.mem_map.mp he
    exact h a.2

end Json
