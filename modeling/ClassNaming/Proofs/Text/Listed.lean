/-
Lists in one line.

A list of texts is written with commas between them. It is read as the parts between commas, without the blanks around
them, and without the empty ones. There is no way to write a text that such a reading would cut or trim.

- `split_eq_splitOn`: cutting a text is what the library has for lists.
- `plain_of_mem_listed`: what is read is plain: not empty, without commas, without blanks at its ends.
- `listed_line_iff`: a list that is written in one line is read as it was exactly if its texts are plain.
-/
import ClassNaming.Proofs.Extract.Lines
import ClassNaming.Proofs.Extract.Runs
import ClassNaming.Text.Split

namespace ClassNaming.Text

/-! ## Parts -/

theorem split_eq_splitOn (gap : Char) (cs : List Char) : split gap cs = cs.splitOn gap := by
  rw [List.splitOn]
  induction cs with
  | nil => rfl
  | cons c cs ih =>
    rw [split, ih, List.splitOnP_cons_eq_if_modifyHead]
    split_ifs
    · rfl
    · cases hparts : List.splitOnP (· == gap) cs with
      | nil => exact absurd hparts (List.splitOnP_ne_nil _ _)
      | cons part parts => rfl

theorem notMem_of_mem_split {gap : Char} {cs part : List Char} (h : part ∈ split gap cs) : gap ∉ part := by
  induction cs generalizing part with
  | nil =>
    obtain rfl : part = [] := List.mem_singleton.1 h
    exact List.not_mem_nil
  | cons c cs ih =>
    rw [split] at h
    split_ifs at h with hc
    · rcases List.mem_cons.1 h with rfl | h
      · exact List.not_mem_nil
      · exact ih h
    · cases hparts : split gap cs with
      | nil => exact absurd (split_eq_splitOn gap cs ▸ hparts) (List.splitOn_ne_nil _ _)
      | cons first parts =>
        rw [hparts] at h ih
        rcases List.mem_cons.1 h with rfl | h
        · rw [List.mem_cons, not_or]
          exact ⟨fun heq => hc (beq_iff_eq.2 heq.symm), ih List.mem_cons_self⟩
        · exact ih (List.mem_cons_of_mem first h)

/-! ## Plain texts -/

/-- a text that is read from a line as it is written there -/
structure Plain (s : String) : Prop where
  notEmpty : s.toList ≠ []
  noComma : ',' ∉ s.toList
  first : ∀ c ∈ s.toList.head?, isBlank c = false
  last : ∀ c ∈ s.toList.getLast?, isBlank c = false

theorem plain_iff (s : String) : Plain s ↔ s.toList ≠ [] ∧ ',' ∉ s.toList ∧
    (∀ c ∈ s.toList.head?, isBlank c = false) ∧ ∀ c ∈ s.toList.getLast?, isBlank c = false :=
  ⟨fun h => ⟨h.notEmpty, h.noComma, h.first, h.last⟩, fun h => ⟨h.1, h.2.1, h.2.2.1, h.2.2.2⟩⟩

/-- by the character at the end: the library's other way is to go through all characters -/
instance decidableEnd (end? : Option Char) : Decidable (∀ c ∈ end?, isBlank c = false) :=
  @Option.decidableForallMem _ _ inferInstance end?

instance (s : String) : Decidable (Plain s) := decidable_of_iff' _ (plain_iff s)

theorem trim_of_plain {s : String} (h : Plain s) : trim s.toList = s.toList := by
  have hbetween := Extract.trim_between (a := []) (b := []) (by simp) (by simp) h.first h.last h.notEmpty
  rwa [List.nil_append, List.append_nil] at hbetween

/-- a text that is trimmed starts and ends with no blank -/
theorem ends_of_trim (cs : List Char) :
    (∀ c ∈ (trim cs).head?, isBlank c = false) ∧ ∀ c ∈ (trim cs).getLast?, isBlank c = false := by
  constructor
  · intro c hc
    -- dropping at the end leaves the first character, if it leaves any
    have hprefix : trim cs <+: cs.dropWhile isBlank := by
      rw [← List.reverse_suffix, trim, dropEndWhile, List.reverse_reverse]
      exact List.dropWhile_suffix isBlank
    obtain ⟨rest, hrest⟩ := hprefix
    have hhead : c ∈ (cs.dropWhile isBlank).head? := by
      rw [← hrest, List.head?_append, Option.mem_def.1 hc]
      rfl
    exact Extract.head_dropWhile c hhead
  · intro c hc
    rw [trim, dropEndWhile, List.getLast?_reverse] at hc
    exact Extract.head_dropWhile c hc

/-! ## Reading a line -/

theorem plain_of_mem_listed {s t : String} (h : t ∈ listed s) : Plain t := by
  obtain ⟨part, hpart, rfl⟩ := List.mem_map.1 h
  obtain ⟨hmem, hne⟩ := List.mem_filter.1 hpart
  obtain ⟨raw, hraw, rfl⟩ := List.mem_map.1 hmem
  obtain ⟨hfirst, hlast⟩ := ends_of_trim raw
  constructor <;> rw [String.toList_ofList]
  · simpa using hne
  · exact fun hc => notMem_of_mem_split hraw (Extract.mem_of_mem_trim hc)
  · exact hfirst
  · exact hlast

/-- the line of a list -/
def line (items : List String) : String := ",".intercalate items

theorem split_line {items : List String} (hne : items ≠ []) (h : ∀ t ∈ items, Plain t) :
    split ',' (line items).toList = items.map String.toList := by
  have hcomma : ",".toList = [','] := rfl
  rw [line, String.toList_intercalate, hcomma, split_eq_splitOn]
  refine List.splitOn_intercalate ',' ?_ (by simpa using hne)
  intro cs hcs
  obtain ⟨t, ht, rfl⟩ := List.mem_map.1 hcs
  exact (h t ht).noComma

theorem listed_line {items : List String} (h : ∀ t ∈ items, Plain t) : listed (line items) = items := by
  rcases eq_or_ne items [] with rfl | hne
  · rfl
  have htrim : (items.map String.toList).map trim = items.map String.toList := by
    rw [List.map_map]
    exact List.map_congr_left fun t ht => trim_of_plain (h t ht)
  have hkeep : (items.map String.toList).filter (!·.isEmpty) = items.map String.toList := by
    refine List.filter_eq_self.2 ?_
    intro cs hcs
    obtain ⟨t, ht, rfl⟩ := List.mem_map.1 hcs
    simpa using (h t ht).notEmpty
  rw [listed, split_line hne h, htrim, hkeep, List.map_map]
  simp [Function.comp_def]

/-- **A list that is written in one line is read as it was exactly if its texts are plain.** -/
theorem listed_line_iff (items : List String) : listed (line items) = items ↔ ∀ t ∈ items, Plain t := by
  constructor
  · intro h t ht
    rw [← h] at ht
    exact plain_of_mem_listed ht
  · exact listed_line

end ClassNaming.Text
