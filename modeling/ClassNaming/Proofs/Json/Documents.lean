/-
JSON documents, written over several lines or on one, and read back.

- `writes_pretty`, `writes_compact`: the two layouts, several lines with a member on each and one line.
- `readChars_pretty`, `readChars_compact`: a written document is read as what was written.
- `readChars_plain`: what is read is plain.
-/
import Mathlib.Data.List.TakeWhile
import ClassNaming.Proofs.Fault
import ClassNaming.Proofs.Json.Layouts

namespace ClassNaming.Json

/-! ## Members on lines of their own -/

/-- the break before a member at a depth, as characters -/
def breakChars (depth : ℕ) : List Char := '\n' :: List.replicate (2 * depth) ' '

theorem lineBreak_toList (depth : ℕ) : (lineBreak depth).toList = breakChars depth := by
  simp [lineBreak, breakChars]

/-- what stands after a member: the members that follow it and the closing bracket -/
def tailChars (closing : Char) (depth : ℕ) (members : List (List Char)) : List Char :=
  members.flatMap (fun m => ',' :: breakChars (depth + 1) ++ m) ++ breakChars depth ++ [closing]

theorem intercalate_cons (sep : List Char) (m : List Char) (ms : List (List Char)) :
    sep.intercalate (m :: ms) = m ++ ms.flatMap (sep ++ ·) := by
  induction ms generalizing m with
  | nil => simp
  | cons n ms ih => rw [List.intercalate_cons_cons, ih]; simp

theorem bracketed_cons (opening closing : Char) (depth : ℕ) (m : String) (ms : List String) :
    (bracketed (String.ofList [opening]) (String.ofList [closing]) depth (m :: ms)).toList =
      opening :: breakChars (depth + 1) ++ m.toList ++ tailChars closing depth (ms.map String.toList) := by
  simp [bracketed, tailChars, lineBreak_toList, String.toList_intercalate, intercalate_cons]

theorem breakChars_blank (depth : ℕ) : ∀ c ∈ breakChars depth, isSpace c = true := by
  intro c hc
  rcases List.mem_cons.1 hc with rfl | hc
  · rfl
  · rw [List.eq_of_mem_replicate hc]
    rfl

/-- the characters of a value at a depth -/
def valueChars (depth : ℕ) (v : Value) : List Char := (prettyAt depth v).toList

/-- the characters of a member at a depth, its name before it -/
def memberChars (depth : ℕ) (e : Scalar × Value) : List Char :=
  (keyText e.1).toList ++ ':' :: ' ' :: valueChars depth e.2

theorem prettyItems_eq (depth : ℕ) (items : List Value) : prettyItems depth items = items.map (prettyAt (depth + 1)) := by
  induction items with
  | nil => rw [prettyItems]; rfl
  | cons v items ih => rw [prettyItems, ih]; rfl

theorem prettyEntries_eq (depth : ℕ) (es : Entries) :
    prettyEntries depth es = es.map fun e => keyText e.1 ++ ": " ++ prettyAt (depth + 1) e.2 := by
  induction es with
  | nil => rw [prettyEntries]; rfl
  | cons e es ih => rw [prettyEntries, ih]; rfl

theorem valueChars_list_nil (depth : ℕ) : valueChars depth (.list []) = ['[', ']'] := by
  simp [valueChars, prettyAt, prettyItems, bracketed]

theorem valueChars_map_nil (depth : ℕ) : valueChars depth (.map []) = ['\x7b', '\x7d'] := by
  simp [valueChars, prettyAt, prettyEntries, bracketed]

theorem valueChars_list_cons (depth : ℕ) (v : Value) (items : List Value) : valueChars depth (.list (v :: items)) =
    '[' :: breakChars (depth + 1) ++ valueChars (depth + 1) v ++
      tailChars ']' depth (items.map (valueChars (depth + 1))) := by
  have hbracket := bracketed_cons '[' ']' depth (prettyAt (depth + 1) v) (items.map (prettyAt (depth + 1)))
  rw [List.map_map] at hbracket
  rw [valueChars, prettyAt, prettyItems_eq]
  exact hbracket

theorem valueChars_map_cons (depth : ℕ) (e : Scalar × Value) (es : Entries) : valueChars depth (.map (e :: es)) =
    '\x7b' :: breakChars (depth + 1) ++ memberChars (depth + 1) e ++
      tailChars '\x7d' depth (es.map (memberChars (depth + 1))) := by
  have hmember : ∀ e : Scalar × Value, (keyText e.1 ++ ": " ++ prettyAt (depth + 1) e.2).toList =
      memberChars (depth + 1) e := fun e => by simp [memberChars, valueChars]
  have hbracket := bracketed_cons '\x7b' '\x7d' depth (keyText e.1 ++ ": " ++ prettyAt (depth + 1) e.2)
    (es.map fun e => keyText e.1 ++ ": " ++ prettyAt (depth + 1) e.2)
  simp only [List.map_map, Function.comp_def, hmember] at hbracket
  rw [valueChars, prettyAt, prettyEntries_eq]
  exact hbracket

/-- a line for each member, two blanks deeper than its bracket -/
def lines : Spacing where
  first depth := breakChars (depth + 1)
  next depth := breakChars (depth + 1)
  last := breakChars
  first_blank depth := breakChars_blank (depth + 1)
  next_blank depth := breakChars_blank (depth + 1)
  last_blank := breakChars_blank

theorem writes_pretty : Writes lines valueChars where
  scalar depth x := by rw [valueChars, prettyAt]
  noItems := valueChars_list_nil
  items := valueChars_list_cons
  noMembers := valueChars_map_nil
  members := valueChars_map_cons

/-- **Documents read back:** the text of a plain value is read as the value, whatever blanks stand after it. -/
theorem readChars_pretty {v : Value} (h : Plain v) {blanks : List Char} (hblanks : ∀ c ∈ blanks, isSpace c = true) :
    readChars ((pretty v).toList ++ blanks) = .ok v :=
  writes_pretty.readChars h hblanks

/-! ## All members on one line -/

theorem allDigits_whole {cs whole rest : List Char} (h : readWhole? cs = some (whole, rest)) :
    AllDigits whole ∧ whole ≠ [] := by
  unfold readWhole? at h
  split at h
  · cases h
    exact ⟨allDigits_zeros 1, List.cons_ne_nil _ _⟩
  · by_cases hempty : (cs.takeWhile isAsciiDigit).isEmpty = true
    · simp [spanDigits, hempty] at h
    · obtain ⟨rfl, -⟩ : cs.takeWhile isAsciiDigit = whole ∧ _ := by simpa [spanDigits, hempty] using h
      exact ⟨fun c hc => List.mem_takeWhile_imp hc, by simpa using hempty⟩

/-- a number is read in its form, and an integer has not too many digits -/
theorem readNumber_plain {cs rest : List Char} {v : Value} (h : readNumber cs = .ok (v, rest)) : Plain v := by
  unfold readNumber at h
  dsimp only at h
  split at h
  · cases h
  · rename_i whole more hwhole
    obtain ⟨hdigits, hne⟩ := allDigits_whole hwhole
    have hlen := length_digitText_natOfDigits hdigits hne
    by_cases hinteger : ((readPart more).1.isEmpty && (readPower (readPart more).2).1.isNone) = true
    · rw [if_pos hinteger] at h
      by_cases hlong : maxIntDigits < whole.length
      · rw [if_pos hlong] at h
        cases h
      · rw [if_neg hlong] at h
        cases h
        refine .scalar (.int ?_)
        have habs : ((if (cs.head? == some '-') = true then -(natOfDigits whole : ℤ) else natOfDigits whole) : ℤ).natAbs =
            natOfDigits whole := by
          split_ifs <;> simp
        rw [habs]
        omega
    · rw [if_neg hinteger] at h
      cases h
      exact .scalar (.real (Real64.ofDecimal_isCanonical _ _ _))

theorem readWord?_plain {cs rest : List Char} {v : Value} (h : readWord? cs = some (v, rest)) : Plain v := by
  unfold readWord? at h
  obtain ⟨⟨w, v'⟩, hmem, hfound⟩ := List.exists_of_findSome?_eq_some h
  dsimp only at hfound
  split_ifs at hfound
  cases hfound
  simp only [words, List.mem_cons, Prod.mk.injEq, List.not_mem_nil, or_false] at hmem
  rcases hmem with ⟨-, rfl⟩ | ⟨-, rfl⟩ | ⟨-, rfl⟩ | ⟨-, rfl⟩ | ⟨-, rfl⟩ | ⟨-, rfl⟩
  · exact .scalar .null
  · exact .scalar (.bool true)
  · exact .scalar (.bool false)
  all_goals exact .scalar (.real trivial)

/-- entries of which a mapping of JSON can be made -/
structure PlainEntries (es : Entries) : Prop where
  keys : ∀ e ∈ es, ∃ name, e.1 = .text name
  distinct : es.Distinct
  values : ∀ e ∈ es, Plain e.2

theorem PlainEntries.plain {es : Entries} (h : PlainEntries es) : Plain (.map es) :=
  .map h.keys h.distinct h.values

theorem plainEntries_of_plain {es : Entries} (h : Plain (.map es)) : PlainEntries es := by
  cases h with
  | map keys distinct h => exact ⟨keys, distinct, h⟩

theorem key_insert {es : Entries} {key : Scalar} {v : Value} {e : Scalar × Value} (h : e ∈ Entries.insert es key v) :
    e.1 = key ∨ ∃ f ∈ es, e.1 = f.1 := by
  induction es with
  | nil =>
    obtain rfl : e = (key, v) := by simpa [Entries.insert] using h
    exact Or.inl rfl
  | cons f es ih =>
    simp only [Entries.insert] at h
    split_ifs at h
    · rcases List.mem_cons.1 h with rfl | h
      · exact Or.inr ⟨f, List.mem_cons_self, rfl⟩
      · exact Or.inr ⟨e, List.mem_cons_of_mem _ h, rfl⟩
    · rcases List.mem_cons.1 h with rfl | h
      · exact Or.inr ⟨_, List.mem_cons_self, rfl⟩
      · rcases ih h with heq | ⟨g, hg, heq⟩
        · exact Or.inl heq
        · exact Or.inr ⟨g, List.mem_cons_of_mem _ hg, heq⟩

/-- a member that is set leaves a mapping of JSON one -/
theorem PlainEntries.insert {es : Entries} (h : PlainEntries es) (name : String) {v : Value} (hv : Plain v) :
    PlainEntries (Entries.insert es (.text name) v) where
  keys := fun e he => by
    rcases key_insert he with hkey | ⟨f, hf, hkey⟩
    · exact ⟨name, hkey⟩
    · exact hkey ▸ h.keys f hf
  distinct := h.distinct.insert _ _
  values := fun e he => (Entries.mem_insert he).elim (fun heq => heq ▸ hv) (h.values e)

/-- what a reader gives is plain, if what it is given is -/
structure ReadsPlain (fuel : ℕ) : Prop where
  value : ∀ {cs rest : List Char} {v : Value}, readValue fuel cs = .ok (v, rest) → Plain v
  items : ∀ {done : List Value} {cs rest : List Char} {v : Value}, (∀ w ∈ done, Plain w) →
    readItems fuel done cs = .ok (v, rest) → Plain v
  members : ∀ {done : Entries} {cs rest : List Char} {v : Value}, PlainEntries done →
    readMembers fuel done cs = .ok (v, rest) → Plain v

theorem plainEntries_nil : PlainEntries [] := ⟨by simp, List.nodup_nil, by simp⟩

/-- **The reader gives plain values only.** -/
theorem readsPlain (fuel : ℕ) : ReadsPlain fuel := by
  induction fuel with
  | zero =>
    refine ⟨fun h => ?_, fun _ h => ?_, fun _ h => ?_⟩
    · rw [readValue] at h; cases h
    · rw [readItems] at h; cases h
    · rw [readMembers] at h; cases h
  | succ fuel ih =>
    refine ⟨fun {cs rest v} h => ?_, fun {done cs rest v} hdone h => ?_, fun {done cs rest v} hdone h => ?_⟩
    · cases cs with
      | nil => rw [readValue] at h; cases h
      | cons c cs =>
        rw [readValue] at h
        split_ifs at h with hquote hbrace hbracket
        · obtain ⟨⟨s, more⟩, -, h⟩ := bind_eq_ok h
          cases h
          exact .scalar (.text s)
        · split at h
          · cases h
            exact plainEntries_nil.plain
          · exact ih.members plainEntries_nil h
        · split at h
          · cases h
            exact .list (by simp)
          · exact ih.items (by simp) h
        · split at h
          · rename_i hword
            cases h
            exact readWord?_plain hword
          · exact readNumber_plain h
    · rw [readItems] at h
      obtain ⟨⟨w, more⟩, hw, h⟩ := bind_eq_ok h
      have hdone' : ∀ u ∈ w :: done, Plain u := List.forall_mem_cons.2 ⟨ih.value hw, hdone⟩
      dsimp only at h
      split at h
      · cases h
        exact .list fun u hu => hdone' u (List.mem_reverse.1 hu)
      · exact ih.items hdone' h
      · cases h
    · unfold readMembers at h
      split at h
      · obtain ⟨⟨name, more⟩, -, h⟩ := bind_eq_ok h
        dsimp only at h
        split at h
        · obtain ⟨⟨w, more⟩, hw, h⟩ := bind_eq_ok h
          have hdone' := hdone.insert name (ih.value hw)
          dsimp only at h
          split at h
          · cases h
            exact hdone'.plain
          · exact ih.members hdone' h
          · cases h
        · cases h
      · cases h

/-- what is read from a document is plain -/
theorem readChars_plain {cs : List Char} {v : Value} (h : readChars cs = .ok v) : Plain v := by
  unfold readChars at h
  split_ifs at h
  · cases h
  · obtain ⟨⟨w, more⟩, hw, h⟩ := bind_eq_ok h
    dsimp only at h
    split at h
    · cases h
      exact (readsPlain _).value hw
    · cases h

/-! ## Line ends -/

theorem digits_noReturn {cs : List Char} (h : AllDigits cs) : '\r' ∉ cs :=
  fun hmem => absurd (h _ hmem) (by decide)

theorem stringChar_noReturn (c : Char) : '\r' ∉ stringChar c := by
  unfold stringChar
  split
  case h_8 =>
    split_ifs with hcontrol
    · obtain ⟨a, b, c', d, hdigits, -⟩ := hexUnit?_hexDigits (n := c.toNat) (by omega)
      have hdigit : ∀ n < 16, n.digitChar ≠ '\r' := by decide
      have hmem : ∀ x ∈ Text.hexDigits 4 c.toNat, x ≠ '\r' := by
        simp only [Text.hexDigits, List.nil_append, List.cons_append, List.forall_mem_cons, List.not_mem_nil,
          false_imp_iff, implies_true, and_true]
        exact ⟨hdigit _ (Nat.mod_lt _ (by decide)), hdigit _ (Nat.mod_lt _ (by decide)),
          hdigit _ (Nat.mod_lt _ (by decide)), hdigit _ (Nat.mod_lt _ (by decide))⟩
      simpa using fun hr => hmem _ hr rfl
    · rw [List.mem_singleton]
      rintro rfl
      exact hcontrol (by decide)
  all_goals decide

theorem stringText_noReturn (s : String) : '\r' ∉ (stringText s).toList := by
  rw [stringText_toList]
  simp only [stringRest, List.mem_cons, List.mem_append, List.mem_flatMap, List.not_mem_nil, or_false, not_or]
  refine ⟨by decide, ?_, by decide⟩
  rintro ⟨c, -, hc⟩
  exact stringChar_noReturn c hc

theorem chars_noReturn {n : Numeral} (h : n.WellFormed) : '\r' ∉ n.chars := by
  have hwhole : '\r' ∉ n.whole := by
    rcases h.whole with hw | ⟨hw, -⟩
    · rw [hw]; decide
    · exact digits_noReturn hw
  have hpoint : '\r' ∉ n.pointText := by
    unfold Numeral.pointText
    split_ifs
    · exact List.not_mem_nil
    · simpa using digits_noReturn h.part
  have hpower : '\r' ∉ n.powerText := by
    unfold Numeral.powerText
    cases hp : n.power with
    | none => exact List.not_mem_nil
    | some p =>
      obtain ⟨negative, digits⟩ := p
      have hdigits := digits_noReturn (h.power _ hp).1
      cases negative <;> simpa using hdigits
  simp [Numeral.chars, hwhole, hpoint, hpower]

theorem scalarText_noReturn {s : Scalar} (h : PlainScalar s) : '\r' ∉ (scalarText realText s).toList := by
  cases h with
  | null => decide
  | bool b => cases b <;> decide
  | @int n h =>
    have hdigits := digits_noReturn (allDigits_digitText n.natAbs)
    simp only [scalarText, intText, String.toList_ofList, List.mem_append, not_or]
    exact ⟨by split_ifs <;> decide, hdigits⟩
  | @real x h =>
    cases x with
    | nan => decide
    | infinite negative => cases negative <;> decide
    | finite negative m e =>
      obtain ⟨n, hchars, hwell, -⟩ := exists_decimal h negative
      rw [scalarText, hchars, List.mem_append, not_or]
      exact ⟨by cases negative <;> decide, chars_noReturn hwell⟩
  | text s => exact stringText_noReturn s

theorem breakChars_noReturn (depth : ℕ) : '\r' ∉ breakChars depth := by
  simp [breakChars]

theorem tailChars_noReturn {closing : Char} (hc : closing ≠ '\r') (depth : ℕ) {members : List (List Char)}
    (h : ∀ m ∈ members, '\r' ∉ m) : '\r' ∉ tailChars closing depth members := by
  simp only [tailChars, List.mem_append, List.mem_flatMap, List.mem_cons, List.not_mem_nil, or_false, not_or,
    not_exists, not_and]
  exact ⟨⟨fun m hm => ⟨⟨by decide, breakChars_noReturn _⟩, h m hm⟩, breakChars_noReturn _⟩, hc.symm⟩

/-- the text of a plain value has no carriage return, so that a file gives it back as it is -/
theorem valueChars_noReturn {v : Value} (h : Plain v) (depth : ℕ) : '\r' ∉ valueChars depth v := by
  induction h generalizing depth with
  | scalar h =>
    rw [valueChars, prettyAt]
    exact scalarText_noReturn h
  | @list items h ih =>
    cases items with
    | nil => rw [valueChars_list_nil]; decide
    | cons v items =>
      rw [valueChars_list_cons]
      have hitems := tailChars_noReturn (show ']' ≠ '\r' by decide) depth
        (List.forall_mem_map.2 fun w hw => ih w (List.mem_cons_of_mem _ hw) (depth + 1))
      simp [breakChars_noReturn, ih v List.mem_cons_self, hitems]
  | @map es keys distinct h ih =>
    have hmember : ∀ e ∈ es, ∀ depth, '\r' ∉ memberChars depth e := by
      intro e he depth
      obtain ⟨name, hname⟩ := keys e he
      rw [memberChars, hname, keyText]
      simpa using ⟨stringText_noReturn name, ih e he depth⟩
    cases es with
    | nil => rw [valueChars_map_nil]; decide
    | cons e es =>
      rw [valueChars_map_cons]
      have htail := tailChars_noReturn (show '\x7d' ≠ '\r' by decide) depth
        (List.forall_mem_map.2 fun u hu => hmember u (List.mem_cons_of_mem _ hu) (depth + 1))
      simp [breakChars_noReturn, hmember e List.mem_cons_self, htail]

end ClassNaming.Json
