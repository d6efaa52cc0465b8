/-
The camel-case form that is suggested for a token with the prefix of a state.

The form leaves out the separators after the prefix and puts the next character in upper case. The two steps change the
token only if there is something to change. A digit has no upper-case form of its own, and a capital beyond ASCII is in
upper case already although it does not count as the capital of a state.

- `camelForm?_iff`: for which tokens there is a form, and which.
- `upper_ne_append`: dropped separators do not come back with the upper-case form, so a token with them changes.
- `camel_form_changes_iff`: the form differs from the token exactly if a separator comes after the prefix or the next
  character has another upper-case form.
- `same_form_suggested`: a token that fails, and to which itself is suggested.
-/
import ClassNaming.Proofs.Extract.Runs
import ClassNaming.Proofs.Naming.Suggestions

namespace ClassNaming

open Diagnosis

/-! ## The form -/

/-- a token cut at its prefix and behind the separators that follow; a character right after the prefix is no capital -/
structure CamelParts (lead w gap : List Char) (c : Char) (rest : List Char) : Prop where
  text : w = lead ++ (gap ++ c :: rest)
  separators : ∀ d ∈ gap, d = '-' ∨ d = '_'
  first : c ≠ '-' ∧ c ≠ '_'
  small : gap = [] → isCapital c = false

theorem camelForm?_iff (lead w form : List Char) : camelForm? lead w = some form ↔
    ∃ gap c rest, CamelParts lead w gap c rest ∧ form = lead ++ (Text.upper c ++ rest) := by
  have hbool : ∀ d : Char, (d == '-' || d == '_') = true ↔ d = '-' ∨ d = '_' := by simp
  constructor
  · intro h
    unfold camelForm? at h
    split_ifs at h with hlead
    rw [Bool.not_eq_true', Bool.not_eq_false, List.isPrefixOf_iff_prefix] at hlead
    obtain ⟨after, rfl⟩ := hlead
    rw [List.drop_left] at h
    dsimp only at h
    split_ifs at h with hcapital
    cases hrest : after.dropWhile fun d => d == '-' || d == '_' with
    | nil =>
      rw [hrest] at h
      cases h
    | cons c rest =>
      rw [hrest] at h
      have hfirst : (c == '-' || c == '_') = false := Extract.head_dropWhile c (by rw [hrest]; rfl)
      have hcut : after = after.takeWhile (fun d => d == '-' || d == '_') ++ c :: rest := by
        rw [← hrest, List.takeWhile_append_dropWhile]
      refine ⟨after.takeWhile fun d => d == '-' || d == '_', c, rest, ⟨?_, ?_, ?_, ?_⟩, (Option.some.inj h).symm⟩
      · rw [← hcut]
      · intro d hd
        exact (hbool d).1 (List.all_eq_true.1 List.all_takeWhile d hd)
      · rwa [← not_or, ← hbool, Bool.not_eq_true]
      · intro hgap
        rw [hgap, List.nil_append] at hcut
        rw [hcut] at hcapital
        simpa using hcapital
  · rintro ⟨gap, c, rest, hparts, rfl⟩
    have hdrop : (gap ++ c :: rest).dropWhile (fun d => d == '-' || d == '_') = c :: rest := by
      refine Extract.dropWhile_append_stop (fun d hd => (hbool d).2 (hparts.separators d hd)) ?_
      intro d hd
      obtain rfl := Option.some.inj hd
      rw [← Bool.not_eq_true, hbool, not_or]
      exact hparts.first
    have hcapital : ((gap ++ c :: rest).head?.map isCapital).getD false = false := by
      cases gap with
      | nil => exact hparts.small rfl
      | cons d gap =>
        rcases hparts.separators d List.mem_cons_self with rfl | rfl <;> rfl
    have hlead : lead.isPrefixOf w = true := List.isPrefixOf_iff_prefix.2 ⟨_, hparts.text.symm⟩
    unfold camelForm?
    rw [hlead, hparts.text, List.drop_left]
    dsimp only
    rw [hcapital, hdrop]
    rfl

/-- an upper-case form of several characters does not end with the character it is the form of -/
theorem last_upperSequences :
    ∀ entry ∈ Text.upperSequences, (entry.2.map Char.ofNat).getLast? ≠ some (Char.ofNat entry.1) := by
  decide +kernel

theorem upper_ne_append {gap : List Char} (hgap : gap ≠ []) (c : Char) : Text.upper c ≠ gap ++ [c] := by
  intro h
  unfold Text.upper at h
  split at h
  · rename_i codes hfound
    have hmem := List.mem_of_find?_eq_some hfound
    have hcode := List.find?_some hfound
    rw [beq_iff_eq] at hcode
    apply last_upperSequences _ hmem
    rw [h, hcode, Char.ofNat_toNat, List.getLast?_concat]
  · have hlength := congrArg List.length h
    rw [List.length_append, List.length_singleton] at hlength
    exact hgap (List.length_eq_zero_iff.1 (Nat.succ_injective hlength).symm)

theorem upperSequences_high : ∀ entry ∈ Text.upperSequences, 0x61 ≤ entry.1 := by decide +kernel

theorem upperRuns_high : ∀ run ∈ Text.upperRuns.toList, 0x61 ≤ run.1 := by decide +kernel

/-- what stands before the small letters in ASCII, digits and capitals among it, is its own upper case -/
theorem upper_of_low {c : Char} (h : c.toNat < 0x61) : Text.upper c = [c] := by
  unfold Text.upper
  split
  · rename_i codes hfound
    have hhigh := upperSequences_high _ (List.mem_of_find?_eq_some hfound)
    have hcode := List.find?_some hfound
    rw [beq_iff_eq] at hcode
    omega
  · unfold Text.mapRuns
    split
    · rename_i lo hi step delta hfound
      have hhigh := upperRuns_high _ (Array.mem_toList_iff.2 (Array.mem_of_find?_eq_some hfound))
      have hrun := Array.find?_some hfound
      simp only [Bool.and_eq_true, decide_eq_true_eq] at hrun
      omega
    · rw [Char.ofNat_toNat]

/-- the form is the token itself only if nothing is left out and nothing put in upper case -/
theorem CamelParts.same_iff {lead w gap rest : List Char} {c : Char} (h : CamelParts lead w gap c rest) :
    lead ++ (Text.upper c ++ rest) = w ↔ gap = [] ∧ Text.upper c = [c] := by
  have hcut : gap ++ c :: rest = gap ++ [c] ++ rest := List.append_cons gap c rest
  rw [h.text, hcut, List.append_right_inj, List.append_left_inj]
  constructor
  · intro hform
    have hgap : gap = [] := by
      by_contra hne
      exact upper_ne_append hne c hform
    rw [hgap] at hform
    exact ⟨hgap, hform⟩
  · rintro ⟨rfl, hform⟩
    exact hform

/-! ## The suggestion -/

/-- the suggestion to write a state in camel case, with the form it quotes -/
def inCamelCase (lead : String) (form : List Char) : Suggestion :=
  ⟨lead ++ "-prefix", "State classes should use camelCase: \"" ++ String.ofList form ++ "\""⟩

theorem mem_diagnose_camel {t lead : String} (hlead : lead = "is" ∨ lead = "has") {s : Suggestion} :
    s ∈ diagnose t ∧ s.check = lead ++ "-prefix" ↔ ∃ form, camelForm? lead.toList t.toList = some form ∧
      s = inCamelCase lead form := by
  have hnamed : (lead ++ "-prefix", camelState lead) ∈ namedChecks := by
    rcases hlead with rfl | rfl <;> simp [namedChecks]
  rw [mem_diagnose_named hnamed, camelState, Option.map_eq_some_iff]
  exact exists_congr fun form => and_congr_right fun _ => eq_comm

theorem mem_diagnose_of_parts {t lead : String} (hlead : lead = "is" ∨ lead = "has") {gap rest : List Char} {c : Char}
    (h : CamelParts lead.toList t.toList gap c rest) :
    inCamelCase lead (lead.toList ++ (Text.upper c ++ rest)) ∈ diagnose t :=
  ((mem_diagnose_camel hlead).2 ⟨_, (camelForm?_iff _ _ _).2 ⟨gap, c, rest, h, rfl⟩, rfl⟩).1

/-- **When the camel-case suggestion proposes a change.** It quotes the token without the separators after its prefix
and with the next character in upper case. That is another text than the token exactly if there are such separators or
the character has an upper-case form other than itself. -/
theorem camel_form_changes_iff (t lead : String) (hlead : lead = "is" ∨ lead = "has") (s : Suggestion)
    (hs : s ∈ diagnose t) (hcheck : s.check = lead ++ "-prefix") :
    ∃ gap c rest, CamelParts lead.toList t.toList gap c rest ∧
      s = inCamelCase lead (lead.toList ++ (Text.upper c ++ rest)) ∧
      (String.ofList (lead.toList ++ (Text.upper c ++ rest)) ≠ t ↔ gap ≠ [] ∨ Text.upper c ≠ [c]) := by
  obtain ⟨form, hform, rfl⟩ := (mem_diagnose_camel hlead).1 ⟨hs, hcheck⟩
  obtain ⟨gap, c, rest, hparts, rfl⟩ := (camelForm?_iff _ _ _).1 hform
  refine ⟨gap, c, rest, hparts, rfl, ?_⟩
  rw [Ne, ← String.toList_inj, String.toList_ofList, hparts.same_iff, not_and_or]

/-- a separator makes the difference even before a character without another case -/
theorem camel_form_changes_digit :
    inCamelCase "has" ("has".toList ++ (Text.upper '1' ++ [])) ∈ diagnose "has-1" ∧
    ∃ gap c rest, CamelParts "has".toList "has-1".toList gap c rest ∧
      inCamelCase "has" ("has".toList ++ (Text.upper '1' ++ [])) =
        inCamelCase "has" ("has".toList ++ (Text.upper c ++ rest)) ∧
      (String.ofList ("has".toList ++ (Text.upper c ++ rest)) ≠ "has-1" ↔ gap ≠ [] ∨ Text.upper c ≠ [c]) := by
  have hparts : CamelParts "has".toList "has-1".toList ['-'] '1' [] := ⟨by simp, by simp, by decide, by decide⟩
  have hmem := mem_diagnose_of_parts (Or.inr rfl) hparts
  exact ⟨hmem, camel_form_changes_iff "has-1" "has" (Or.inr rfl) _ hmem rfl⟩

/-- **A token may be suggested for itself.** A digit after the prefix is no capital, and its upper-case form is the
digit; the underscore at the end makes the token fail. -/
theorem same_form_suggested :
    (judge .default "is1_").valid = false ∧ inCamelCase "is" "is1_".toList ∈ diagnose "is1_" ∧
      String.ofList "is1_".toList = "is1_" := by
  have hname : ∀ n : Name, n.text ≠ "is1_".toList := by
    intro n h
    apply n.last_ne_underscore
    rw [h]
    decide
  have hutility : isUtility [] "is1_" = false := by
    rw [Bool.eq_false_iff]
    intro h
    have hopen := (accepts_underscore_iff (by decide)).1 ((isUtility_catalog_iff _).1 h)
    exact absurd (hopen.head_mem 'i' (by decide)) (by decide)
  have hkind : classify .default "is1_" = none := by
    rw [classify_of_unnamed hname, hutility]
    rfl
  have hparts : CamelParts "is".toList "is1_".toList [] '1' ['_'] := ⟨by simp, by simp, by decide, by decide⟩
  have hmem := mem_diagnose_of_parts (Or.inl rfl) hparts
  rw [upper_of_low (by decide)] at hmem
  refine ⟨?_, hmem, String.ofList_toList⟩
  rw [judge, hkind]
  rfl

end ClassNaming
