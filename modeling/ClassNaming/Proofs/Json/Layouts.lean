/-
JSON text, whatever its blanks.

Between the members of a bracket a writer puts blanks, so many as its layout says. The reader skips them: so a text is
read back by one proof for every layout, and a layout only has to say where its blanks stand.

- `Plain`: a value that JSON has, with scalars of its kinds, lists, and mappings with distinct texts as keys.
- `Spacing`, `Writes`: the blanks of a layout, and the texts of values that are laid out so.
- `Writes.reads`: a plain value is read off its text at any depth, with what follows left over.
- `Writes.readChars`: a document is read as what was written.
-/
import ClassNaming.Proofs.Json.Literals
import ClassNaming.Proofs.Value.Layering

namespace ClassNaming.Json

/-- a value that JSON has -/
inductive Plain : Value → Prop
  | scalar {s : Scalar} (h : PlainScalar s) : Plain (.scalar s)
  | list {items : List Value} (h : ∀ v ∈ items, Plain v) : Plain (.list items)
  | map {es : Entries} (keys : ∀ e ∈ es, ∃ name, e.1 = .text name) (distinct : es.Distinct)
      (h : ∀ e ∈ es, Plain e.2) : Plain (.map es)

theorem plain_object {fields : List (String × Value)} (hd : (fields.map Prod.fst).Nodup)
    (h : ∀ f ∈ fields, Plain f.2) : Plain (.object fields) := by
  refine .map ?_ (Entries.distinct_fields hd) ?_
  · exact List.forall_mem_map.2 fun f _ => ⟨f.1, rfl⟩
  · exact List.forall_mem_map.2 h

theorem plain_texts (items : List String) : Plain (.texts items) :=
  .list (List.forall_mem_map.2 fun s _ => .scalar (.text s))

/-! ## Blanks -/

/-- no blank in front -/
def NoSpace (cs : List Char) : Prop := ∀ c ∈ cs.head?, isSpace c = false

theorem skipSpace_of_noSpace {cs : List Char} (h : NoSpace cs) : skipSpace cs = cs := by
  cases cs with
  | nil => rfl
  | cons c cs => simp [skipSpace, h c rfl]

theorem skipSpace_append {blanks cs : List Char} (hblanks : ∀ c ∈ blanks, isSpace c = true) (h : NoSpace cs) :
    skipSpace (blanks ++ cs) = cs := by
  rw [skipSpace, List.dropWhile_append_of_pos hblanks]
  exact skipSpace_of_noSpace h

theorem Opens.noSpace {cs : List Char} (h : Opens cs) (rest : List Char) : NoSpace (cs ++ rest) := by
  obtain ⟨c, more, rfl, hc, -⟩ := h
  rintro d ⟨⟩
  exact hc

theorem opens_length {cs : List Char} (h : Opens cs) : 0 < cs.length := by
  obtain ⟨c, more, rfl, -⟩ := h
  exact Nat.succ_pos _

/-- nothing but blanks could not continue a number -/
theorem ends_of_blank {blanks : List Char} (hblanks : ∀ c ∈ blanks, isSpace c = true) : Ends blanks := by
  have hhead : ∀ d, isSpace d = false → blanks.head? ≠ some d := fun d hd heq => by
    have hspace := hblanks d (List.mem_of_head? heq)
    rw [hd] at hspace
    cases hspace
  refine ⟨fun c hc => ?_, hhead '.' rfl, hhead 'e' rfl, hhead 'E' rfl⟩
  by_contra hdigit
  exact hhead c (isSpace_digit (by simpa using hdigit)) hc

/-! ## Layouts -/

/-- the blanks in a bracket that stands at a depth: after it opens, after each comma, and before it closes -/
structure Spacing where
  first : ℕ → List Char
  next : ℕ → List Char
  last : ℕ → List Char
  first_blank : ∀ depth, ∀ c ∈ first depth, isSpace c = true
  next_blank : ∀ depth, ∀ c ∈ next depth, isSpace c = true
  last_blank : ∀ depth, ∀ c ∈ last depth, isSpace c = true

/-- what stands after a member: the members that follow it and the closing bracket -/
def Spacing.tail (s : Spacing) (closing : Char) (depth : ℕ) (members : List (List Char)) : List Char :=
  members.flatMap (fun m => ',' :: s.next depth ++ m) ++ s.last depth ++ [closing]

/-- a member of a mapping: its name and the text of its value -/
def named (key : Scalar) (value : List Char) : List Char := (keyText key).toList ++ ':' :: ' ' :: value

/-- the texts of values at a depth, their blanks as the layout says -/
structure Writes (s : Spacing) (chars : ℕ → Value → List Char) : Prop where
  scalar : ∀ depth x, chars depth (.scalar x) = (scalarText realText x).toList
  noItems : ∀ depth, chars depth (.list []) = ['[', ']']
  items : ∀ depth v items, chars depth (.list (v :: items)) =
    '[' :: s.first depth ++ chars (depth + 1) v ++ s.tail ']' depth (items.map (chars (depth + 1)))
  noMembers : ∀ depth, chars depth (.map []) = ['\x7b', '\x7d']
  members : ∀ depth e es, chars depth (.map (e :: es)) =
    '\x7b' :: s.first depth ++ named e.1 (chars (depth + 1) e.2) ++
      s.tail '\x7d' depth (es.map fun e => named e.1 (chars (depth + 1) e.2))

theorem Writes.opens {s : Spacing} {chars : ℕ → Value → List Char} (hw : Writes s chars) {v : Value} (h : Plain v)
    (depth : ℕ) : Opens (chars depth v) := by
  cases h with
  | scalar h =>
    rw [hw.scalar]
    exact opens_scalarText h
  | @list items h =>
    cases items with
    | nil => exact ⟨'[', [']'], hw.noItems depth, rfl, by decide, by decide⟩
    | cons v items => exact ⟨'[', _, hw.items depth v items, rfl, by decide, by decide⟩
  | @map es keys distinct h =>
    cases es with
    | nil => exact ⟨'\x7b', ['\x7d'], hw.noMembers depth, rfl, by decide, by decide⟩
    | cons e es => exact ⟨'\x7b', _, hw.members depth e es, rfl, by decide, by decide⟩

/-! ## What stands after a member -/

section

variable (s : Spacing)

/-- blanks and then a closing bracket or a comma do not continue a number -/
theorem ends_append {blanks : List Char} (hblanks : ∀ c ∈ blanks, isSpace c = true) {c : Char} {rest : List Char}
    (hc : Ends (c :: rest)) : Ends (blanks ++ c :: rest) := by
  cases blanks with
  | nil => exact hc
  | cons d blanks =>
    have hends := ends_of_blank hblanks
    exact ⟨hends.noDigit, hends.noPoint, hends.noMark⟩

theorem Spacing.ends_tail {closing : Char} (hc : ∀ rest, Ends (closing :: rest)) (depth : ℕ)
    (members : List (List Char)) (rest : List Char) : Ends (s.tail closing depth members ++ rest) := by
  cases members with
  | nil => simpa [tail] using ends_append (s.last_blank depth) (hc rest)
  | cons m members => exact ⟨by rintro c ⟨⟩; rfl, by simp [tail], by simp [tail]⟩

theorem ends_bracket (rest : List Char) : Ends (']' :: rest) := ⟨by rintro c ⟨⟩; rfl, by simp, by simp⟩

theorem ends_brace (rest : List Char) : Ends ('\x7d' :: rest) := ⟨by rintro c ⟨⟩; rfl, by simp, by simp⟩

theorem Spacing.skipSpace_tail_nil {closing : Char} (hc : isSpace closing = false) (depth : ℕ) (rest : List Char) :
    skipSpace (s.tail closing depth [] ++ rest) = closing :: rest := by
  have hskip := skipSpace_append (s.last_blank depth) (show NoSpace (closing :: rest) by rintro c ⟨⟩; exact hc)
  simpa [tail] using hskip

theorem Spacing.skipSpace_tail_cons (closing : Char) (depth : ℕ) (m : List Char) (ms : List (List Char))
    (rest : List Char) : skipSpace (s.tail closing depth (m :: ms) ++ rest) =
      ',' :: (s.next depth ++ (m ++ (s.tail closing depth ms ++ rest))) := by
  rw [skipSpace_of_noSpace (by rintro c ⟨⟩; rfl)]
  simp [tail]

end

/-! ## Reading what was written -/

/-- the value is read off its text, if the fuel is the length of the text at least -/
def Reads (text : List Char) (v : Value) : Prop :=
  ∀ (fuel : ℕ) (rest : List Char), text.length ≤ fuel → Ends rest → readValue fuel (text ++ rest) = .ok (v, rest)

section

variable (s : Spacing) {chars : Value → List Char}

/-- the items of a list from one of them on, up to the closing bracket -/
theorem readItems_tail (depth : ℕ) (items : List Value) {v : Value} (hreads : ∀ w ∈ v :: items, Reads (chars w) w)
    (hopens : ∀ w ∈ v :: items, Opens (chars w)) (fuel : ℕ) (done : List Value) (rest : List Char)
    (h : (chars v ++ s.tail ']' depth (items.map chars)).length ≤ fuel) :
    readItems fuel done (chars v ++ (s.tail ']' depth (items.map chars) ++ rest)) =
      .ok (.list (done.reverse ++ v :: items), rest) := by
  induction items generalizing v done fuel with
  | nil =>
    simp only [List.map_nil, Spacing.tail, List.length_append, List.length_singleton] at h
    obtain ⟨fuel, rfl⟩ := Nat.exists_eq_succ_of_ne_zero (show fuel ≠ 0 by omega)
    have hread := hreads v List.mem_cons_self fuel (s.tail ']' depth [] ++ rest) (by omega)
      (s.ends_tail ends_bracket _ _ _)
    rw [readItems, List.map_nil, hread]
    simp only [bind, Except.bind, s.skipSpace_tail_nil (show isSpace ']' = false from rfl)]
    simp
    rfl
  | cons w items ih =>
    simp only [List.map_cons, Spacing.tail, List.flatMap_cons, List.length_append, List.length_cons,
      List.length_nil] at h
    obtain ⟨fuel, rfl⟩ := Nat.exists_eq_succ_of_ne_zero (show fuel ≠ 0 by omega)
    have hread := hreads v List.mem_cons_self fuel (s.tail ']' depth ((w :: items).map chars) ++ rest) (by omega)
      (s.ends_tail ends_bracket _ _ _)
    have hblank := skipSpace_append (s.next_blank depth)
      ((hopens w (List.mem_cons_of_mem _ List.mem_cons_self)).noSpace (s.tail ']' depth (items.map chars) ++ rest))
    have hrest := ih (fun u hu => hreads u (List.mem_cons_of_mem _ hu))
      (fun u hu => hopens u (List.mem_cons_of_mem _ hu)) fuel (v :: done) (by
        simp only [Spacing.tail, List.length_append, List.length_singleton]
        omega)
    rw [readItems, hread]
    simp only [bind, Except.bind, List.map_cons, s.skipSpace_tail_cons]
    rw [hblank, hrest]
    simp

theorem insert_of_notMem {es : Entries} {key : Scalar} (h : key.keyForm ∉ es.map fun e => e.1.keyForm) (v : Value) :
    Entries.insert es key v = es ++ [(key, v)] := by
  induction es with
  | nil => rfl
  | cons e es ih =>
    simp only [List.map_cons, List.mem_cons, not_or] at h
    have hne : e.1.sameKey key = false := by simpa [Scalar.sameKey] using fun heq : e.1.keyForm = _ => h.1 heq.symm
    simp [Entries.insert, hne, ih h.2]

theorem distinct_snoc {done es : Entries} {e : Scalar × Value} (h : Entries.Distinct (done ++ e :: es)) :
    e.1.keyForm ∉ (done.map fun e => e.1.keyForm) ∧ Entries.Distinct ((done ++ [e]) ++ es) := by
  refine ⟨?_, by simpa using h⟩
  simp only [Entries.Distinct, List.map_append, List.map_cons] at h
  exact fun hmem => (List.nodup_append.1 h).2.2 _ hmem _ List.mem_cons_self rfl

theorem named_eq (name : String) (value : List Char) :
    named (.text name) value = '"' :: (stringRest name ++ ':' :: ' ' :: value) := by
  simp [named, keyText, stringText_toList]

theorem noSpace_named (name : String) (value rest : List Char) : NoSpace (named (.text name) value ++ rest) := by
  rw [named_eq]
  rintro c ⟨⟩
  rfl

/-- one member is read: its name, and its value after a blank -/
theorem readMembers_step {fuel : ℕ} {name : String} {value : List Char} {v : Value} {done : Entries} {rest : List Char}
    (hread : readValue fuel (value ++ rest) = .ok (v, rest)) (hopens : Opens value)
    (hnew : (Scalar.text name).keyForm ∉ done.map fun e => e.1.keyForm) :
    readMembers (fuel + 1) done (named (.text name) value ++ rest) =
      match skipSpace rest with
      | '\x7d' :: more => .ok (.map (done ++ [(.text name, v)]), more)
      | ',' :: more => readMembers fuel (done ++ [(.text name, v)]) (skipSpace more)
      | more => .error (.fault .comma more.length) := by
  have hchars : named (.text name) value ++ rest = '"' :: (stringRest name ++ ':' :: ' ' :: (value ++ rest)) := by
    simp [named_eq]
  have hname : ∀ start fuel, (stringRest name).length ≤ fuel →
      readString start fuel [] (stringRest name ++ ':' :: ' ' :: (value ++ rest)) =
        .ok (name, ':' :: ' ' :: (value ++ rest)) :=
    fun start fuel h => readString_stringRest start name _ fuel h
  have hcolon : skipSpace (':' :: ' ' :: (value ++ rest)) = ':' :: ' ' :: (value ++ rest) := rfl
  have hblank : skipSpace (' ' :: (value ++ rest)) = value ++ rest :=
    skipSpace_append (show ∀ c ∈ [' '], isSpace c = true by simp [isSpace]) (hopens.noSpace rest)
  rw [hchars, readMembers]
  simp only [bind, Except.bind]
  rw [hname _ _ (by simp only [List.length_cons, List.length_append]; omega)]
  simp only [hcolon, hblank, hread, insert_of_notMem hnew]
  rfl

/-- the members of a mapping from one of them on, up to the closing brace -/
theorem readMembers_tail (depth : ℕ) (es : Entries) {name : String} {v : Value}
    (keys : ∀ e ∈ es, ∃ name, e.1 = .text name) (hreads : ∀ e ∈ (.text name, v) :: es, Reads (chars e.2) e.2)
    (hopens : ∀ e ∈ (.text name, v) :: es, Opens (chars e.2)) (fuel : ℕ) (done : Entries) (rest : List Char)
    (hdistinct : Entries.Distinct (done ++ (.text name, v) :: es))
    (h : (named (.text name) (chars v) ++
      s.tail '\x7d' depth (es.map fun e => named e.1 (chars e.2))).length ≤ fuel) :
    readMembers fuel done (named (.text name) (chars v) ++
      (s.tail '\x7d' depth (es.map fun e => named e.1 (chars e.2)) ++ rest)) =
        .ok (.map (done ++ (.text name, v) :: es), rest) := by
  induction es generalizing name v done fuel with
  | nil =>
    obtain ⟨hnew, -⟩ := distinct_snoc hdistinct
    simp only [List.map_nil, Spacing.tail, List.length_append, named, List.length_cons] at h
    obtain ⟨fuel, rfl⟩ := Nat.exists_eq_succ_of_ne_zero (show fuel ≠ 0 by omega)
    have hread := hreads _ List.mem_cons_self fuel (s.tail '\x7d' depth [] ++ rest) (by dsimp only; omega)
      (s.ends_tail ends_brace _ _ _)
    rw [List.map_nil, readMembers_step hread (hopens _ List.mem_cons_self) hnew,
      s.skipSpace_tail_nil (show isSpace '\x7d' = false from rfl)]
    rfl
  | cons e es ih =>
    obtain ⟨hnew, hdistinct'⟩ := distinct_snoc hdistinct
    obtain ⟨key, w⟩ := e
    obtain ⟨name', hname'⟩ := keys _ List.mem_cons_self
    obtain rfl : key = .text name' := hname'
    simp only [List.map_cons, Spacing.tail, List.flatMap_cons, List.length_append, List.length_cons, List.length_nil,
      named] at h
    obtain ⟨fuel, rfl⟩ := Nat.exists_eq_succ_of_ne_zero (show fuel ≠ 0 by omega)
    have hread := hreads _ List.mem_cons_self fuel
      (s.tail '\x7d' depth (((.text name', w) :: es).map fun e => named e.1 (chars e.2)) ++ rest)
      (by dsimp only; omega) (s.ends_tail ends_brace _ _ _)
    have hblank := skipSpace_append (s.next_blank depth) (noSpace_named name' (chars w)
      (s.tail '\x7d' depth (es.map fun e => named e.1 (chars e.2)) ++ rest))
    have hrest := ih (fun u hu => keys u (List.mem_cons_of_mem _ hu))
      (fun u hu => hreads u (List.mem_cons_of_mem _ hu)) (fun u hu => hopens u (List.mem_cons_of_mem _ hu))
      fuel (done ++ [(.text name, v)]) hdistinct' (by
        simp only [Spacing.tail, List.length_append, named, List.length_cons, List.length_nil]
        omega)
    rw [readMembers_step hread (hopens _ List.mem_cons_self) hnew, List.map_cons, s.skipSpace_tail_cons]
    change readMembers fuel (done ++ [(.text name, v)]) (skipSpace (s.next depth ++ _)) = _
    rw [hblank, hrest]
    simp

end

/-- a bracket with something in it opens a list -/
theorem readValue_bracket (fuel : ℕ) {inner cs : List Char} {c : Char} (hskip : skipSpace inner = c :: cs)
    (hc : c ≠ ']') : readValue (fuel + 1) ('[' :: inner) = readItems fuel [] (c :: cs) := by
  rw [readValue, if_neg (by decide), if_neg (by decide), if_pos (beq_self_eq_true _), hskip]
  split
  · rename_i heq
    injection heq with heq
    exact absurd heq hc
  · rfl

/-- a brace with a name in it opens a mapping -/
theorem readValue_brace (fuel : ℕ) {inner cs : List Char} (hskip : skipSpace inner = '"' :: cs) :
    readValue (fuel + 1) ('\x7b' :: inner) = readMembers fuel [] ('"' :: cs) := by
  rw [readValue, if_neg (by decide), if_pos (beq_self_eq_true _), hskip]
  rfl

section

variable {s : Spacing} {chars : ℕ → Value → List Char}

/-- **Values read back:** a plain value is read off its text at any depth, whatever the layout, and what follows is
left over. -/
theorem Writes.reads (hw : Writes s chars) {v : Value} (h : Plain v) (depth : ℕ) : Reads (chars depth v) v := by
  induction h generalizing depth with
  | scalar h =>
    intro fuel rest hfuel hrest
    have hpos := opens_length (hw.opens (.scalar h) depth)
    obtain ⟨fuel, rfl⟩ := Nat.exists_eq_succ_of_ne_zero (show fuel ≠ 0 by omega)
    rw [hw.scalar]
    exact readValue_scalarText h fuel hrest
  | @list items h ih =>
    intro fuel rest hfuel hrest
    cases items with
    | nil =>
      rw [hw.noItems] at hfuel ⊢
      obtain ⟨fuel, rfl⟩ := Nat.exists_eq_succ_of_ne_zero (show fuel ≠ 0 by rintro rfl; simp at hfuel)
      rfl
    | cons v items =>
      rw [hw.items] at hfuel ⊢
      simp only [List.length_append, List.length_cons] at hfuel
      obtain ⟨fuel, rfl⟩ := Nat.exists_eq_succ_of_ne_zero (show fuel ≠ 0 by omega)
      have hopens : ∀ w ∈ v :: items, Opens (chars (depth + 1) w) := fun w hmem => hw.opens (h w hmem) _
      have hlength : (chars (depth + 1) v ++ s.tail ']' depth (items.map (chars (depth + 1)))).length ≤ fuel := by
        simp only [List.length_append]
        omega
      have hitems := readItems_tail s depth items (fun w hmem => ih w hmem (depth + 1)) hopens fuel [] rest hlength
      have hblank := skipSpace_append (s.first_blank depth) ((hopens v List.mem_cons_self).noSpace
        (s.tail ']' depth (items.map (chars (depth + 1))) ++ rest))
      obtain ⟨c, more, hc, -, hbracket, -⟩ := hopens v List.mem_cons_self
      simp only [hc, List.cons_append, List.append_assoc] at hblank hitems ⊢
      rw [readValue_bracket fuel hblank hbracket, hitems]
      rfl
  | @map es keys distinct h ih =>
    intro fuel rest hfuel hrest
    cases es with
    | nil =>
      rw [hw.noMembers] at hfuel ⊢
      obtain ⟨fuel, rfl⟩ := Nat.exists_eq_succ_of_ne_zero (show fuel ≠ 0 by rintro rfl; simp at hfuel)
      rfl
    | cons e es =>
      obtain ⟨key, v⟩ := e
      obtain ⟨name, hname⟩ := keys _ List.mem_cons_self
      obtain rfl : key = .text name := hname
      rw [hw.members] at hfuel ⊢
      simp only [List.length_append, List.length_cons] at hfuel
      obtain ⟨fuel, rfl⟩ := Nat.exists_eq_succ_of_ne_zero (show fuel ≠ 0 by omega)
      have hmembers := readMembers_tail s depth es (fun u hu => keys u (List.mem_cons_of_mem _ hu))
        (fun u hu => ih u hu (depth + 1)) (fun u hu => hw.opens (h u hu) _) fuel [] rest distinct (by
          simp only [List.length_append]
          omega)
      have hblank := skipSpace_append (s.first_blank depth) (noSpace_named name (chars (depth + 1) v)
        (s.tail '\x7d' depth (es.map fun e => named e.1 (chars (depth + 1) e.2)) ++ rest))
      simp only [named_eq name, List.cons_append, List.append_assoc] at hblank hmembers ⊢
      rw [readValue_brace fuel hblank, hmembers]
      rfl

/-- **Documents read back:** the text of a plain value is read as the value, whatever blanks stand after it. -/
theorem Writes.readChars (hw : Writes s chars) {v : Value} (h : Plain v) {blanks : List Char}
    (hblanks : ∀ c ∈ blanks, isSpace c = true) : Json.readChars (chars 0 v ++ blanks) = .ok v := by
  have hopens := hw.opens h 0
  have hread := hw.reads h 0 ((chars 0 v ++ blanks).length + 1) blanks (by simp only [List.length_append]; omega)
    (ends_of_blank hblanks)
  have hmark : ¬ ((chars 0 v ++ blanks).head? == some (Char.ofNat 0xfeff)) = true := by
    obtain ⟨c, more, hc, -, -, hbom⟩ := hopens
    simpa [hc] using hbom
  have hend : skipSpace blanks = [] := by
    have hskip := skipSpace_append hblanks (show NoSpace [] by rintro c ⟨⟩)
    rwa [List.append_nil] at hskip
  rw [Json.readChars, if_neg hmark, skipSpace_of_noSpace (hopens.noSpace blanks), hread]
  simp only [bind, Except.bind, hend]
  rfl

end

end ClassNaming.Json
