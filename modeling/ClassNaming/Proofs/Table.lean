/-
Tables that change: what is found in one after a name is set, and which names it has.

- `lookup_set`: under the name that is set the new value is found, under any other what was found before.
- `set_of_notMem`: a name that is not there goes last.
- `nodup_set`: no name comes twice if none did before.
-/
import Mathlib.Data.List.Nodup
import ClassNaming.Table

namespace ClassNaming.Table

variable {α : Type}

theorem lookup_set (name other : String) (value : α) (table : List (String × α)) :
    (set name value table).lookup other = if other = name then some value else table.lookup other := by
  induction table with
  | nil =>
    by_cases h : other = name
    · simp [set, h]
    · have hb : (other == name) = false := by simpa using h
      simp [set, List.lookup_cons, h, hb]
  | cons entry table ih =>
    obtain ⟨n, v⟩ := entry
    by_cases hn : n = name
    · subst hn
      by_cases ho : other = n
      · simp [set, ho]
      · have hb : (other == n) = false := by simpa using ho
        simp [set, List.lookup_cons, ho, hb]
    · by_cases ho : other = n
      · subst ho
        simp [set, hn]
      · have hb : (other == n) = false := by simpa using ho
        simp [set, List.lookup_cons, hn, hb, ih]

theorem mem_names_iff (name : String) (table : List (String × α)) :
    name ∈ table.map (·.1) ↔ (table.lookup name).isSome = true := by
  simp only [List.lookup_isSome_iff, List.mem_map, beq_iff_eq, eq_comm (a := name)]

theorem set_of_notMem {name : String} {table : List (String × α)} (h : name ∉ table.map (·.1)) (value : α) :
    set name value table = table ++ [(name, value)] := by
  induction table with
  | nil => rfl
  | cons entry table ih =>
    simp only [List.map_cons, List.mem_cons, not_or] at h
    simp [set, Ne.symm h.1, ih h.2]

theorem nodup_set {table : List (String × α)} (name : String) (value : α) (h : (table.map (·.1)).Nodup) :
    ((set name value table).map (·.1)).Nodup := by
  induction table with
  | nil => simp [set]
  | cons entry table ih =>
    obtain ⟨n, v⟩ := entry
    obtain ⟨hn, hrest⟩ := List.nodup_cons.1 h
    by_cases hname : n = name
    · simpa [set, hname] using h
    · have hnew : n ∉ (set name value table).map (·.1) := by
        rw [mem_names_iff, lookup_set, if_neg hname, ← mem_names_iff]
        exact hn
      simpa [set, hname] using List.nodup_cons.2 ⟨hnew, ih hrest⟩

end ClassNaming.Table
