/-
Numbers, strings and words of JSON, written and read back.

Each literal is read off the front of what follows it. A number ends where no character could continue it.

- `readNumber_numeral`, `readNumber_intText`: a numeral is read as its value rounded, an integer as itself.
- `readString_stringText`: the escapes of a string are read as its characters.
- `readValue_scalarText`: so a scalar is read as itself.
-/
import ClassNaming.Json.Reader
import ClassNaming.Json.Writer
import ClassNaming.Proofs.Decimal.Numerals
import ClassNaming.Proofs.Decimal.Shortest

namespace ClassNaming.Json

/-! ## Numbers -/

/-- no digit in front -/
def NoDigit (rest : List Char) : Prop := ∀ c ∈ rest.head?, isAsciiDigit c = false

/-- nothing in front that could continue a number -/
structure Ends (rest : List Char) : Prop where
  noDigit : NoDigit rest
  noPoint : rest.head? ≠ some '.'
  noMark : rest.head? ≠ some 'e' ∧ rest.head? ≠ some 'E'

theorem spanDigits_append {ds rest : List Char} (hds : AllDigits ds) (hrest : NoDigit rest) :
    spanDigits (ds ++ rest) = (ds, rest) := by
  unfold spanDigits
  rw [List.takeWhile_append_of_pos hds, List.dropWhile_append_of_pos hds]
  cases rest with
  | nil => simp
  | cons c rest =>
    have hc := hrest c rfl
    simp [hc]

open Numeral in
theorem readWhole?_append {ds rest : List Char} (hds : IsWhole ds) (hrest : NoDigit rest) :
    readWhole? (ds ++ rest) = some (ds, rest) := by
  rcases hds with rfl | ⟨hds, c, cs, rfl, hc⟩
  · rfl
  · have hspan := spanDigits_append hds hrest
    rw [List.cons_append] at hspan ⊢
    unfold readWhole?
    split
    · rename_i heq
      injection heq with heq
      exact absurd heq hc
    · simp [hspan]

theorem readPart_pointText (n : Numeral) (hpart : AllDigits n.part) {rest : List Char} (hrest : NoDigit rest)
    (hpoint : rest.head? ≠ some '.') : readPart (n.pointText ++ rest) = (n.part, rest) := by
  unfold Numeral.pointText
  split_ifs with hnil
  · rw [List.nil_append, hnil]
    unfold readPart
    split
    · exact absurd rfl hpoint
    · rfl
  · simp [readPart, spanDigits_append hpart hrest, hnil]

theorem readPower_powerText (n : Numeral) (hpower : ∀ p ∈ n.power, AllDigits p.2 ∧ p.2 ≠ []) {rest : List Char}
    (hrest : Ends rest) : readPower (n.powerText ++ rest) = (n.power.map fun _ => n.exponent, rest) := by
  unfold Numeral.powerText Numeral.exponent
  cases hp : n.power with
  | none =>
    cases rest with
    | nil => rfl
    | cons c rest =>
      have hmark := hrest.noMark
      simp only [List.head?_cons, ne_eq, Option.some.injEq] at hmark
      simp [readPower, hmark]
  | some p =>
    obtain ⟨negative, digits⟩ := p
    obtain ⟨hdigits, hne⟩ := hpower _ hp
    cases negative <;> simp [readPower, splitSign, spanDigits_append hdigits hrest.noDigit, hne]

theorem isAsciiDigit_ne {c d : Char} (hc : isAsciiDigit c = true) (hd : isAsciiDigit d = false) : c ≠ d := by
  rintro rfl
  rw [hc] at hd
  cases hd

open Numeral in
/-- the sign of a number is taken off, and the digits before the point -/
theorem readNumber_signed (negative : Bool) {whole rest : List Char} (hwhole : IsWhole whole) (hrest : NoDigit rest) :
    readNumber ((if negative then ['-'] else []) ++ whole ++ rest) =
      let part := (readPart rest).1
      let power := (readPower (readPart rest).2).1
      let rest := (readPower (readPart rest).2).2
      if part.isEmpty && power.isNone then
        if maxIntDigits < whole.length then throw (.longInteger whole.length)
        else pure (.int (if negative then -(natOfDigits whole : ℤ) else natOfDigits whole), rest)
      else
        pure (.real (Real64.ofDecimal negative (natOfDigits (whole ++ part)) (power.getD 0 - part.length)), rest) := by
  have hhead : ∃ c cs, whole = c :: cs ∧ c ≠ '-' := by
    rcases hwhole with rfl | ⟨hds, c, cs, rfl, -⟩
    · exact ⟨'0', [], rfl, by decide⟩
    · exact ⟨c, cs, rfl, isAsciiDigit_ne (hds c List.mem_cons_self) rfl⟩
  have hread := readWhole?_append hwhole hrest
  obtain ⟨c, cs, rfl, hc⟩ := hhead
  have hc' : (c == '-') = false := by simpa using hc
  rw [List.cons_append] at hread
  cases negative with
  | true => simp [readNumber, hread]
  | false => simp [readNumber, hread, hc']

theorem noDigit_pointText (n : Numeral) {rest : List Char} (hrest : NoDigit rest) : NoDigit (n.pointText ++ rest) := by
  unfold Numeral.pointText
  split_ifs
  · exact hrest
  · rintro c ⟨⟩
    rfl

/-- what stands after the part is neither a digit nor a point -/
theorem powerText_head (n : Numeral) {rest : List Char} (hrest : Ends rest) :
    NoDigit (n.powerText ++ rest) ∧ (n.powerText ++ rest).head? ≠ some '.' := by
  unfold Numeral.powerText
  cases n.power with
  | none => exact ⟨hrest.noDigit, hrest.noPoint⟩
  | some p => exact ⟨by rintro c ⟨⟩; rfl, by simp⟩

/-- a numeral is read as its value rounded -/
theorem readNumber_numeral (negative : Bool) {n : Numeral} (h : n.WellFormed) {rest : List Char} (hrest : Ends rest) :
    readNumber ((if negative then ['-'] else []) ++ n.chars ++ rest) =
      .ok (.real (Real64.rounded negative n.value), rest) := by
  obtain ⟨hdigit, hpoint⟩ := powerText_head n hrest
  have hpart := readPart_pointText n h.part hdigit hpoint
  have hpower := readPower_powerText n h.power hrest
  have hform : (n.part.isEmpty && (n.power.map fun _ => n.exponent).isNone) = false := by
    rcases h.fractional with hp | hp
    · simp [hp]
    · simp [Option.isNone_eq_false_iff, Option.isSome_iff_ne_none, hp]
  have hexponent : (n.power.map fun _ => n.exponent).getD 0 = n.exponent := by
    unfold Numeral.exponent
    cases n.power <;> rfl
  have hchars : (if negative then ['-'] else []) ++ n.chars ++ rest =
      (if negative then ['-'] else []) ++ n.whole ++ (n.pointText ++ (n.powerText ++ rest)) := by
    simp [Numeral.chars]
  rw [hchars, readNumber_signed negative h.whole (noDigit_pointText n hdigit)]
  simp only [hpart, hpower, hform, hexponent, Bool.false_eq_true, if_false, Real64.ofDecimal_eq]
  rfl

/-- an integer is read as itself, if it has not too many digits -/
theorem readNumber_intText {n : ℤ} (h : (digitText n.natAbs).length ≤ maxIntDigits) {rest : List Char}
    (hrest : Ends rest) : readNumber ((intText n).toList ++ rest) = .ok (.int n, rest) := by
  have hpart := readPart_pointText ⟨[], [], none⟩ (by simp [AllDigits]) hrest.noDigit hrest.noPoint
  have hpower := readPower_powerText ⟨[], [], none⟩ (by simp) hrest
  simp only [Numeral.pointText, Numeral.powerText, if_true, List.nil_append, Option.map_none] at hpart hpower
  have hvalue : (if decide (n < 0) = true then -(n.natAbs : ℤ) else n.natAbs) = n := by
    simp only [decide_eq_true_eq]
    split_ifs <;> omega
  have hread := readNumber_signed (decide (n < 0)) (Numeral.isWhole_digitText n.natAbs) hrest.noDigit
  simp only [hpart, hpower, List.isEmpty_nil, Option.isNone_none, Bool.and_self, if_true, if_neg (not_lt.2 h),
    natOfDigits_digitText, hvalue] at hread
  simp only [intText, String.toList_ofList, decide_eq_true_eq] at hread ⊢
  exact hread

/-! ## Strings -/

theorem hexValue?_digitChar {n : ℕ} (h : n < 16) : Text.hexValue? n.digitChar = some n := by
  interval_cases n <;> rfl

/-- four digits are read as the number they write -/
theorem hexUnit?_hexDigits {n : ℕ} (h : n < 0x10000) :
    ∃ a b c d, Text.hexDigits 4 n = [a, b, c, d] ∧ hexUnit? a b c d = some n := by
  refine ⟨_, _, _, _, rfl, ?_⟩
  simp only [hexUnit?, hexValue?_digitChar (Nat.mod_lt _ (show 0 < 16 by decide)), Option.pure_def, Option.bind_eq_bind,
    Option.bind_some, Option.some.injEq]
  omega

/-- a unit that is no half of a pair stands for its character, whatever follows -/
theorem readUnit?_single {a b c d : Char} {n : ℕ} (h : hexUnit? a b c d = some n) (hn : n < 0xd800)
    (rest : List Char) : readUnit? (a :: b :: c :: d :: rest) = some (Char.ofNat n, rest) := by
  have hhigh : isHighUnit n = false := by simp [isHighUnit, hn]
  have hlow : isLowUnit n = false := by
    simp only [isLowUnit, Bool.and_eq_false_iff, decide_eq_false_iff_not]
    omega
  have hchar : unitChar n = Char.ofNat n := by simp [unitChar, hhigh, hlow]
  simp only [readUnit?, h, hchar]
  split
  · split <;> simp [hhigh]
  · rfl

/-- one character of a string, written and read -/
theorem readString_stringChar (start fuel : ℕ) (done : List Char) (c : Char) {more : List Char} (h : more ≠ []) :
    readString start (fuel + 1) done (stringChar c ++ more) = readString start fuel (c :: done) more := by
  have hlen : 0 < more.length := List.length_pos_iff.2 h
  unfold stringChar
  split
  case h_8 hquote hbackslash _ _ _ _ _ =>
    split_ifs with hcontrol
    · obtain ⟨a, b, c', d, hdigits, hunit⟩ := hexUnit?_hexDigits (n := c.toNat) (by omega)
      have hread := readUnit?_single hunit (by omega) more
      rw [Char.ofNat_toNat] at hread
      have hshort : ¬ more.length + 1 + 1 + 1 + 1 < 5 := by omega
      simp [hdigits, readString, hread, hshort]
    · have hquote' : c ≠ '"' := hquote
      have hbackslash' : c ≠ '\\' := hbackslash
      simp [readString, hquote', hbackslash', hcontrol]
  all_goals simp [readString, escapeLetter?]

theorem readString_flatMap (start : ℕ) (cs : List Char) (rest : List Char) (fuel : ℕ) (h : cs.length < fuel)
    (done : List Char) : readString start fuel done (cs.flatMap stringChar ++ '"' :: rest) =
      .ok (String.ofList (done.reverse ++ cs), rest) := by
  induction cs generalizing fuel done with
  | nil =>
    obtain ⟨fuel, rfl⟩ := Nat.exists_eq_succ_of_ne_zero (show fuel ≠ 0 by omega)
    simp [readString]
    rfl
  | cons c cs ih =>
    obtain ⟨fuel, rfl⟩ := Nat.exists_eq_succ_of_ne_zero (show fuel ≠ 0 by omega)
    rw [List.flatMap_cons, List.append_assoc, readString_stringChar _ _ _ _ (by simp),
      ih _ (Nat.lt_of_succ_lt_succ h)]
    simp

theorem length_le_flatMap_stringChar (cs : List Char) : cs.length ≤ (cs.flatMap stringChar).length := by
  induction cs with
  | nil => exact Nat.le_refl _
  | cons c cs ih =>
    have hpos : 0 < (stringChar c).length := by
      unfold stringChar
      split
      case h_8 => split_ifs <;> simp
      all_goals simp
    simp only [List.flatMap_cons, List.length_append, List.length_cons]
    omega

/-- the opening quote of a string, and the rest of it -/
def stringRest (s : String) : List Char := s.toList.flatMap stringChar ++ ['"']

theorem stringText_toList (s : String) : (stringText s).toList = '"' :: stringRest s := by
  simp [stringText, stringRest]

/-- the rest of a string after its opening quote is read as the string -/
theorem readString_stringRest (start : ℕ) (s : String) (rest : List Char) (fuel : ℕ)
    (h : (stringRest s).length ≤ fuel) : readString start fuel [] (stringRest s ++ rest) = .ok (s, rest) := by
  have hlen := length_le_flatMap_stringChar s.toList
  simp only [stringRest, List.length_append, List.length_singleton] at h
  have hread := readString_flatMap start s.toList rest fuel (by omega) []
  simpa [stringRest] using hread

/-! ## Scalars -/

/-- a scalar that JSON has: no day or path, no integer beyond what is read, and a number in its form -/
inductive PlainScalar : Scalar → Prop
  | null : PlainScalar .null
  | bool (b : Bool) : PlainScalar (.bool b)
  | int {n : ℤ} (h : (digitText n.natAbs).length ≤ maxIntDigits) : PlainScalar (.int n)
  | real {x : Real64} (h : x.IsCanonical) : PlainScalar (.real x)
  | text (s : String) : PlainScalar (.text s)

/-- a number starts with none of the words, not even after its sign -/
theorem readWord?_number (negative : Bool) {c : Char} (h : isAsciiDigit c = true) (cs : List Char) :
    readWord? ((if negative then ['-'] else []) ++ c :: cs) = none := by
  have hn := isAsciiDigit_ne h (d := 'n') rfl
  have ht := isAsciiDigit_ne h (d := 't') rfl
  have hf := isAsciiDigit_ne h (d := 'f') rfl
  have hN := isAsciiDigit_ne h (d := 'N') rfl
  have hI := isAsciiDigit_ne h (d := 'I') rfl
  have hm := isAsciiDigit_ne h (d := '-') rfl
  cases negative <;> simp [readWord?, words, hn.symm, ht.symm, hf.symm, hN.symm, hI.symm, hm.symm]

/-- a text that starts like a number is read as one -/
theorem readValue_number (negative : Bool) {c : Char} (h : isAsciiDigit c = true) (cs : List Char) (fuel : ℕ) :
    readValue (fuel + 1) ((if negative then ['-'] else []) ++ c :: cs) =
      readNumber ((if negative then ['-'] else []) ++ c :: cs) := by
  have hword := readWord?_number negative h cs
  have hquote := isAsciiDigit_ne h (d := '"') rfl
  have hbrace := isAsciiDigit_ne h (d := '\x7b') rfl
  have hbracket := isAsciiDigit_ne h (d := '[') rfl
  cases negative with
  | true =>
    simp only [if_true, List.cons_append, List.nil_append] at hword ⊢
    simp [readValue, hword]
  | false =>
    simp only [Bool.false_eq_true, if_false, List.nil_append] at hword ⊢
    simp [readValue, hword, hquote, hbrace, hbracket]

theorem chars_head {n : Numeral} (h : n.WellFormed) : ∃ c cs, n.chars = c :: cs ∧ isAsciiDigit c = true := by
  rcases h.whole with hw | ⟨hds, c, cs, hw, -⟩
  · exact ⟨'0', _, by rw [Numeral.chars, hw]; rfl, rfl⟩
  · exact ⟨c, _, by rw [Numeral.chars, hw]; rfl, hds c (hw ▸ List.mem_cons_self)⟩

/-- the decimal of a number in its form -/
theorem exists_decimal {m : ℕ} {e : ℤ} (h : Real64.Normal m e) (negative : Bool) :
    ∃ n : Numeral, (realText (.finite negative m e)).toList = (if negative then ['-'] else []) ++ n.chars ∧
      n.WellFormed ∧ Real64.rounded negative n.value = .finite negative m e := by
  rcases Nat.eq_zero_or_pos m with rfl | hm
  · obtain ⟨n, hchars, hwell, hvalue⟩ := Real64.exists_numeral 0 0 (fun _ => rfl) negative
    refine ⟨n, hchars, hwell, ?_⟩
    have he : e = Real64.minExponent := h.full.resolve_left (by norm_num)
    rw [hvalue, he, Nat.cast_zero, zero_mul, Real64.rounded, if_pos rfl]
  · have hpos := Real64.shortest_pos h hm
    obtain ⟨n, hchars, hwell, hvalue⟩ :=
      Real64.exists_numeral (Real64.shortest m e).1 (Real64.shortest m e).2 (fun h0 => absurd h0 hpos.ne') negative
    refine ⟨n, ?_, hwell, by rw [hvalue, Real64.shortest_readsBack h hm]⟩
    have hm' : (m == 0) = false := by simpa using hm.ne'
    simp only [realText, Real64.text, hm', Bool.false_eq_true, if_false, hchars]

/-- **Numbers read back:** a number in its form is read from its text. -/
theorem readValue_realText {x : Real64} (h : x.IsCanonical) (fuel : ℕ) {rest : List Char} (hrest : Ends rest) :
    readValue (fuel + 1) ((realText x).toList ++ rest) = .ok (.real x, rest) := by
  cases x with
  | nan => simp [realText, readValue, readWord?, words]; rfl
  | infinite negative => cases negative <;> simp [realText, readValue, readWord?, words] <;> rfl
  | finite negative m e =>
    obtain ⟨n, hchars, hwell, hvalue⟩ := exists_decimal h negative
    obtain ⟨c, cs, hhead, hc⟩ := chars_head hwell
    have hread := readNumber_numeral negative hwell hrest
    rw [hvalue] at hread
    rw [hchars, ← hread, hhead, List.append_assoc, List.cons_append, readValue_number negative hc]

theorem readValue_intText {n : ℤ} (h : (digitText n.natAbs).length ≤ maxIntDigits) (fuel : ℕ) {rest : List Char}
    (hrest : Ends rest) : readValue (fuel + 1) ((intText n).toList ++ rest) = .ok (.int n, rest) := by
  obtain ⟨c, cs, hcs⟩ := List.exists_cons_of_ne_nil (digitText_ne_nil n.natAbs)
  have hc : isAsciiDigit c = true := allDigits_digitText n.natAbs c (hcs ▸ List.mem_cons_self)
  have htext : (intText n).toList = (if decide (n < 0) = true then ['-'] else []) ++ c :: cs := by
    simp [intText, hcs]
  rw [← readNumber_intText h hrest, htext, List.append_assoc, List.cons_append, readValue_number _ hc]

/-- **Scalars read back:** a scalar that JSON has is read from its text, with what follows left over. -/
theorem readValue_scalarText {s : Scalar} (h : PlainScalar s) (fuel : ℕ) {rest : List Char} (hrest : Ends rest) :
    readValue (fuel + 1) ((scalarText realText s).toList ++ rest) = .ok (.scalar s, rest) := by
  cases h with
  | null => simp [scalarText, readValue, readWord?, words]; rfl
  | bool b => cases b <;> simp [scalarText, readValue, readWord?, words] <;> rfl
  | int h => exact readValue_intText h fuel hrest
  | real h => exact readValue_realText h fuel hrest
  | text s =>
    have hread := readString_stringRest ((stringRest s ++ rest).length + 1) s rest
      ((stringRest s ++ rest).length + 1) (by simp only [List.length_append]; omega)
    rw [List.length_append] at hread
    rw [scalarText, stringText_toList, List.cons_append, readValue]
    simp [hread]

/-- a text that a value can start with: something that is neither a blank, a closing bracket nor a byte order mark -/
def Opens (cs : List Char) : Prop := ∃ c more, cs = c :: more ∧ isSpace c = false ∧ c ≠ ']' ∧ c ≠ Char.ofNat 0xfeff

theorem isSpace_digit {c : Char} (h : isAsciiDigit c = true) : isSpace c = false := by
  simp [isSpace, isAsciiDigit_ne h (d := ' ') rfl, isAsciiDigit_ne h (d := '\t') rfl,
    isAsciiDigit_ne h (d := '\n') rfl, isAsciiDigit_ne h (d := '\r') rfl]

theorem opens_number (negative : Bool) {c : Char} (h : isAsciiDigit c = true) (cs : List Char) :
    Opens ((if negative then ['-'] else []) ++ c :: cs) := by
  cases negative with
  | true => exact ⟨'-', c :: cs, rfl, rfl, by decide, by decide⟩
  | false => exact ⟨c, cs, rfl, isSpace_digit h, isAsciiDigit_ne h rfl, isAsciiDigit_ne h rfl⟩

theorem opens_scalarText {s : Scalar} (h : PlainScalar s) : Opens (scalarText realText s).toList := by
  cases h with
  | null => exact ⟨'n', _, rfl, rfl, by decide, by decide⟩
  | bool b => cases b <;> exact ⟨_, _, rfl, rfl, by decide, by decide⟩
  | @int n h =>
    obtain ⟨c, cs, hcs⟩ := List.exists_cons_of_ne_nil (digitText_ne_nil n.natAbs)
    have hc : isAsciiDigit c = true := allDigits_digitText n.natAbs c (hcs ▸ List.mem_cons_self)
    have hopens := opens_number (decide (n < 0)) hc cs
    simpa [scalarText, intText, hcs] using hopens
  | @real x h =>
    cases x with
    | nan => exact ⟨'N', _, rfl, rfl, by decide, by decide⟩
    | infinite negative => cases negative <;> exact ⟨_, _, rfl, rfl, by decide, by decide⟩
    | finite negative m e =>
      obtain ⟨n, hchars, hwell, -⟩ := exists_decimal h negative
      obtain ⟨c, cs, hhead, hc⟩ := chars_head hwell
      rw [scalarText, hchars, hhead]
      exact opens_number negative hc cs
  | text s => exact ⟨'"', _, stringText_toList s, rfl, by decide, by decide⟩

end ClassNaming.Json
