/-
What settings texts read and write, whatever the value.

- `read_keyed`: a value that is read has no key twice in any of its mappings.
- `write_printable`: a text that is written has printable ASCII characters and line feeds only.
- `sorted_same`: the entries of mappings are put in order, and nothing else changes.
-/
import ClassNaming.Proofs.Fault
import ClassNaming.Proofs.Settings.Codec
import ClassNaming.Yaml.Codec

namespace ClassNaming.Yaml

/-! ## What is read -/

theorem distinct_foldl_insert (more : Entries) {es : Entries} (h : es.Distinct) :
    Entries.Distinct (more.foldl (fun es e => Entries.insert es e.1 e.2) es) := by
  induction more generalizing es with
  | nil => exact h
  | cons e more ih => exact ih (h.insert e.1 e.2)

theorem mem_foldl_insert {more es : Entries} {e : Scalar × Value}
    (h : e ∈ more.foldl (fun es e => Entries.insert es e.1 e.2) es) : (∃ f ∈ more, f.2 = e.2) ∨ e ∈ es := by
  induction more generalizing es with
  | nil => exact Or.inr h
  | cons f more ih =>
    rcases ih h with ⟨g, hg, hv⟩ | h
    · exact Or.inl ⟨g, List.mem_cons_of_mem _ hg, hv⟩
    · rcases Entries.mem_insert h with hv | h
      · exact Or.inl ⟨f, List.mem_cons_self, hv.symm⟩
      · exact Or.inr h

/-- a mapping put together entry by entry -/
theorem keyed_foldl_insert {more : Entries} (h : ∀ e ∈ more, e.2.Keyed) :
    Value.Keyed (.map (more.foldl (fun es e => Entries.insert es e.1 e.2) [])) := by
  refine .map (distinct_foldl_insert more List.nodup_nil) ?_
  intro e he
  rcases mem_foldl_insert he with ⟨f, hf, hv⟩ | he
  · exact hv ▸ h f hf
  · exact absurd he List.not_mem_nil

mutual

theorem value_keyed : ∀ {n : Node} {v : Value}, n.value = .ok v → v.Keyed
  | .scalar tag text, v, h => by
    rw [Node.value] at h
    obtain ⟨s, -, hs⟩ := bind_eq_ok (f := fun s => .ok (Value.scalar s)) h
    cases hs
    exact .scalar s
  | .sequence tag items, v, h => by
    rw [Node.value] at h
    split_ifs at h
    obtain ⟨vs, hvs, hv⟩ := bind_eq_ok (f := fun vs => .ok (Value.list vs)) h
    cases hv
    exact .list (values_keyed hvs)
  | .mapping tag entries, v, h => by
    rw [Node.value] at h
    split_ifs at h
    obtain ⟨⟨merged, own⟩, hp, hv⟩ := bind_eq_ok h
    cases hv
    exact keyed_foldl_insert fun e he => pairs_keyed hp e he

theorem values_keyed : ∀ {ns : List Node} {vs : List Value}, Node.values ns = .ok vs → ∀ v ∈ vs, v.Keyed
  | [], vs, h => by
    rw [Node.values] at h
    cases h
    simp
  | n :: ns, vs, h => by
    rw [Node.values] at h
    obtain ⟨v, hv, h⟩ := bind_eq_ok h
    obtain ⟨rest, hrest, h⟩ := bind_eq_ok h
    cases h
    exact List.forall_mem_cons.2 ⟨value_keyed hv, values_keyed hrest⟩

theorem pairs_keyed : ∀ {ps : List (Node × Node)} {merged own : Entries}, Node.pairs ps = .ok (merged, own) →
    ∀ e ∈ merged ++ own, e.2.Keyed
  | [], merged, own, h => by
    rw [Node.pairs] at h
    cases h
    simp
  | (key, item) :: ps, merged, own, h => by
    rw [Node.pairs] at h
    split_ifs at h
    · obtain ⟨brought, hb, h⟩ := bind_eq_ok h
      obtain ⟨⟨more, own'⟩, hp, h⟩ := bind_eq_ok h
      cases h
      have hmore := pairs_keyed hp
      intro e he
      rw [List.append_assoc] at he
      rcases List.mem_append.1 he with he | he
      · exact entriesOf_keyed hb e he
      · exact hmore e he
    · obtain ⟨k, -, h⟩ := bind_eq_ok h
      obtain ⟨v, hv, h⟩ := bind_eq_ok h
      obtain ⟨⟨more, own'⟩, hp, h⟩ := bind_eq_ok h
      cases h
      have hmore := pairs_keyed hp
      intro e he
      rcases List.mem_append.1 he with he | he
      · exact hmore e (List.mem_append_left _ he)
      · rcases List.mem_cons.1 he with rfl | he
        · exact value_keyed hv
        · exact hmore e (List.mem_append_right _ he)

theorem entriesOf_keyed : ∀ {n : Node} {es : Entries}, Node.entriesOf n = .ok es → ∀ e ∈ es, e.2.Keyed
  | .mapping tag entries, es, h => by
    rw [Node.entriesOf] at h
    obtain ⟨⟨merged, own⟩, hp, h⟩ := bind_eq_ok h
    cases h
    exact pairs_keyed hp
  | .sequence tag items, es, h => by
    rw [Node.entriesOf] at h
    exact entriesOfEach_keyed h
  | .scalar tag text, es, h => by
    rw [Node.entriesOf] at h
    cases h

theorem entriesOfEach_keyed : ∀ {ns : List Node} {es : Entries}, Node.entriesOfEach ns = .ok es →
    ∀ e ∈ es, e.2.Keyed
  | [], es, h => by
    rw [Node.entriesOfEach] at h
    cases h
    simp
  | .mapping tag entries :: ns, es, h => by
    rw [Node.entriesOfEach] at h
    obtain ⟨⟨merged, own⟩, hp, h⟩ := bind_eq_ok h
    obtain ⟨rest, hrest, h⟩ := bind_eq_ok h
    cases h
    intro e he
    rcases List.mem_append.1 he with he | he
    · exact entriesOfEach_keyed hrest e he
    · exact pairs_keyed hp e he
  | .scalar tag text :: ns, es, h => by
    rw [Node.entriesOfEach] at h
    · cases h
    · simp
  | .sequence tag items :: ns, es, h => by
    rw [Node.entriesOfEach] at h
    · cases h
    · simp

end

theorem read_keyed {cs : List Char} {v : Value} (h : read cs = .ok v) : v.Keyed := by
  obtain ⟨ts, -, h⟩ := bind_eq_ok h
  obtain ⟨n, -, h⟩ := bind_eq_ok h
  exact value_keyed h

/-! ## What is written -/

/-- a line feed or a printable ASCII character -/
def Printable (c : Char) : Prop := c = '\n' ∨ (' '.toNat ≤ c.toNat ∧ c.toNat ≤ '~'.toNat)

instance (c : Char) : Decidable (Printable c) := inferInstanceAs (Decidable (_ ∨ _))

/-- only printable characters are written so far -/
def Pen.Clean (p : Pen) : Prop := ∀ c ∈ p.out, Printable c

namespace Pen.Clean

variable {p : Pen}

theorem put (h : p.Clean) {cs : List Char} (hcs : ∀ c ∈ cs, Printable c) : (p.put cs).Clean := by
  intro c hc
  rcases List.mem_append.1 hc with hc | hc
  · exact hcs c (List.mem_reverse.1 hc)
  · exact h c hc

theorem newLine (h : p.Clean) : p.newLine.Clean :=
  List.forall_mem_cons.2 ⟨Or.inl rfl, h⟩

theorem indentTo (h : p.Clean) (column : Nat) : (p.indentTo column).Clean := by
  obtain ⟨q, hq, heq⟩ : ∃ q : Pen, q.Clean ∧ p.indentTo column =
      if q.column < column then { q.put (List.replicate (column - q.column) ' ') with blank := true } else q := by
    refine ⟨if !p.indented || column < p.column || (p.column == column && !p.blank) then p.newLine else p, ?_, rfl⟩
    split_ifs
    · exact h.newLine
    · exact h
  rw [heq]
  split_ifs
  · refine hq.put fun c hc => ?_
    rw [List.eq_of_mem_replicate hc]
    decide
  · exact hq

theorem mark (h : p.Clean) {cs : List Char} (hcs : ∀ c ∈ cs, Printable c) (needsBlank opens : Bool) :
    (p.mark cs needsBlank opens).Clean := by
  have hblank : ∀ c ∈ ' ' :: cs, Printable c := List.forall_mem_cons.2 ⟨by decide, hcs⟩
  unfold Pen.mark
  split_ifs
  · exact h.put hcs
  · exact h.put hblank

theorem markOne (h : p.Clean) {c : Char} (hc : Printable c) (needsBlank opens : Bool) :
    (p.mark [c] needsBlank opens).Clean :=
  h.mark (List.forall_mem_singleton.2 hc) needsBlank opens

end Pen.Clean

/-! ### Scalars -/

theorem mem_runs {cs run : List Char} {kind : RunKind} (h : (kind, run) ∈ runs cs) : ∀ c ∈ run, c ∈ cs := by
  induction cs generalizing kind run with
  | nil => simp [runs] at h
  | cons d cs ih =>
    unfold runs at h
    split at h
    · rename_i first word more heq
      split_ifs at h
      · rcases List.mem_cons.1 h with hhead | h
        · cases hhead
          rintro c hc
          rcases List.mem_cons.1 hc with rfl | hc
          · exact List.mem_cons_self
          · exact List.mem_cons_of_mem _ (ih (heq ▸ List.mem_cons_self) c hc)
        · exact fun c hc => List.mem_cons_of_mem _ (ih (heq ▸ List.mem_cons_of_mem _ h) c hc)
      · rcases List.mem_cons.1 h with hhead | h
        · cases hhead
          simp
        · exact fun c hc => List.mem_cons_of_mem _ (ih (heq ▸ h) c hc)
    · obtain ⟨rfl, rfl⟩ : kind = runKind d ∧ run = [d] := by simpa using h
      simp

theorem putPlain_clean {indent : Nat} {fold : Bool} {pieces : List (RunKind × List Char)}
    (hp : ∀ piece ∈ pieces, ∀ c ∈ piece.2, Printable c) {p : Pen} (h : p.Clean) :
    (putPlain indent fold p pieces).Clean := by
  induction pieces generalizing p with
  | nil => exact h
  | cons piece pieces ih =>
    obtain ⟨hpiece, hmore⟩ := List.forall_mem_cons.1 hp
    unfold putPlain
    refine ih hmore ?_
    split_ifs
    · exact h.indentTo indent
    · exact h.put hpiece

theorem foldl_newLine_clean (run : List Char) {p : Pen} (h : p.Clean) :
    (run.foldl (fun p _ => p.newLine) p).Clean := by
  induction run generalizing p with
  | nil => exact h
  | cons c run ih => exact ih h.newLine

theorem putSingle_clean {indent : Nat} {fold first : Bool} {pieces : List (RunKind × List Char)}
    (hp : ∀ piece ∈ pieces, ∀ c ∈ piece.2, Printable c) {p : Pen} (h : p.Clean) :
    (putSingle indent fold first p pieces).Clean := by
  induction pieces generalizing p first with
  | nil => exact h
  | cons piece pieces ih =>
    obtain ⟨kind, run⟩ := piece
    obtain ⟨hpiece, hmore⟩ := List.forall_mem_cons.1 hp
    unfold putSingle
    refine ih hmore ?_
    cases kind with
    | word => exact h.put hpiece
    | space =>
      dsimp only
      split_ifs
      · exact h.indentTo indent
      · exact h.put hpiece
    | «break» => exact (foldl_newLine_clean run h.newLine).indentTo indent
    | quote =>
      refine h.put fun c hc => ?_
      obtain ⟨d, hd, hcd⟩ := List.mem_flatMap.1 hc
      obtain rfl : c = d := by simpa using hcd
      exact hpiece c hd

/-- upper-case hexadecimal digits are printable -/
theorem hexDigits_printable (width n : Nat) : ∀ c ∈ (Text.hexDigits width n).map Char.toUpper, Printable c := by
  induction width generalizing n with
  | zero => simp [Text.hexDigits]
  | succ width ih =>
    intro c hc
    rw [Text.hexDigits, List.map_append] at hc
    rcases List.mem_append.1 hc with hc | hc
    · exact ih (n / 16) c hc
    · obtain rfl : (Nat.digitChar (n % 16)).toUpper = c := by simpa [eq_comm] using hc
      have hlt : n % 16 < 16 := Nat.mod_lt n (by decide)
      generalize n % 16 = d at hlt
      revert d
      decide

theorem doubleEscape?_none {c : Char} (h : doubleEscape? c = none) : Printable c := by
  unfold doubleEscape? at h
  dsimp only at h
  split at h
  · simp at h
  · split_ifs at h with hc
    · simp only [Bool.and_eq_true, decide_eq_true_eq] at hc
      exact Or.inr hc
    · split at h <;> simp at h

theorem doubleEscape?_some {c : Char} {escape : List Char} (h : doubleEscape? c = some escape) :
    ∀ d ∈ escape, Printable d := by
  unfold doubleEscape? at h
  dsimp only at h
  split at h
  · rename_i letter hletter
    obtain rfl := Option.some.inj h
    obtain ⟨before, after, hsplit, -⟩ := List.lookup_eq_some_iff.1 hletter
    have hall : ∀ e ∈ before ++ (c, letter) :: after, Printable e.2 := by
      rw [← hsplit]
      decide
    have hprint : Printable letter := hall (c, letter) (by simp)
    exact List.forall_mem_cons.2 ⟨by decide, List.forall_mem_cons.2 ⟨hprint, by simp⟩⟩
  · split_ifs at h
    unfold Text.numericEscape at h
    split_ifs at h
    all_goals
      obtain rfl := Option.some.inj h
      exact List.forall_mem_cons.2 ⟨by decide, List.forall_mem_cons.2 ⟨by decide, hexDigits_printable _ _⟩⟩

theorem putDouble_clean {indent : Nat} {fold first : Bool} {pending cs : List Char}
    (hpending : ∀ c ∈ pending, Printable c) {p : Pen} (h : p.Clean) :
    (putDouble indent fold first pending p cs).Clean := by
  have hslash : ∀ c ∈ ['\\'], Printable c := List.forall_mem_singleton.2 (by decide)
  induction cs generalizing first pending p with
  | nil => exact h.put fun c hc => hpending c (List.mem_reverse.1 hc)
  | cons c cs ih =>
    have hflushed : (p.put pending.reverse).Clean := h.put fun c hc => hpending c (List.mem_reverse.1 hc)
    unfold putDouble
    dsimp only
    split
    · rename_i escape hescape
      have hput := hflushed.put (doubleEscape?_some hescape)
      refine ih (by simp) ?_
      split_ifs
      · exact (Pen.Clean.indentTo (hput.put hslash) indent).put hslash
      · exact Pen.Clean.indentTo (hput.put hslash) indent
      · exact hput
    · rename_i hplain
      have hc := doubleEscape?_none hplain
      have hfold : (p.put (pending.reverse ++ ['\\'])).Clean := by
        refine h.put fun d hd => ?_
        rcases List.mem_append.1 hd with hd | hd
        · exact hpending d (List.mem_reverse.1 hd)
        · exact hslash d hd
      split_ifs
      · exact ih (List.forall_mem_singleton.2 hc) (Pen.Clean.put (hfold.indentTo indent) hslash)
      · exact ih (List.forall_mem_singleton.2 hc) (hfold.indentTo indent)
      · exact ih (List.forall_mem_cons.2 ⟨hc, hpending⟩) h

/-- only printable text is written without double quotes -/
theorem printable_of_styleOf {implied key : Bool} {cs : List Char} (h : styleOf implied key cs ≠ .double) :
    ∀ c ∈ cs, Printable c := by
  have hneeds : needsDouble cs = false := by
    by_contra hc
    have hc : needsDouble cs = true := by simpa using hc
    exact h (by simp [styleOf, hc])
  intro c hc
  have hall := (Bool.or_eq_false_iff.1 hneeds).1
  have hone := List.any_eq_false.1 hall c hc
  by_cases hline : c = '\n'
  · exact Or.inl hline
  · have hbetween : ' ' ≤ c ∧ c ≤ '~' := by simpa [hline] using hone
    exact Or.inr hbetween

theorem putScalar_clean (indent : Option Nat) (key : Bool) (s : Scalar) {p : Pen} (h : p.Clean) :
    (putScalar indent key s p).Clean := by
  have hquote : ∀ c ∈ ['\''], Printable c := List.forall_mem_singleton.2 (by decide)
  have hdouble : ∀ c ∈ ['"'], Printable c := List.forall_mem_singleton.2 (by decide)
  unfold putScalar
  dsimp only
  generalize (scalarText s).1 = cs
  generalize hstyle : styleOf (scalarText s).2 key cs = style
  have hruns : style ≠ .double → ∀ piece ∈ runs cs, ∀ c ∈ piece.2, Printable c :=
    fun hne piece hpiece c hc => printable_of_styleOf (hstyle ▸ hne) c (mem_runs hpiece c hc)
  cases style with
  | plain =>
    unfold putStyled
    dsimp only
    split_ifs
    · exact h
    · exact putPlain_clean (hruns (by decide)) h
    · exact putPlain_clean (hruns (by decide)) (h.put (List.forall_mem_singleton.2 (by decide)))
  | single => exact (putSingle_clean (hruns (by decide)) (h.mark hquote true false)).mark hquote false false
  | double => exact (putDouble_clean (by simp) (h.mark hdouble true false)).mark hdouble false false

/-! ### Values -/

mutual

theorem putValue_clean : ∀ (v : Value) (indent : Option Nat) (inMapping : Bool) {p : Pen}, p.Clean →
    (putValue indent inMapping p v).Clean
  | .scalar s, indent, inMapping, p, h => by
    rw [putValue]
    exact putScalar_clean indent false s h
  | .list [], indent, inMapping, p, h => by
    rw [putValue]
    exact (h.markOne (by decide) true false).markOne (by decide) false false
  | .list (v :: items), indent, inMapping, p, h => by
    unfold putValue
    exact putItems_clean (v :: items) _ h
  | .map [], indent, inMapping, p, h => by
    rw [putValue]
    exact (h.markOne (by decide) true false).markOne (by decide) false false
  | .map (e :: entries), indent, inMapping, p, h => by
    unfold putValue
    exact putEntries_clean (e :: entries) _ h
  | .record name shown entries, indent, inMapping, p, h => by
    rw [putValue]
    exact h

theorem putItems_clean : ∀ (items : List Value) (indent : Nat) {p : Pen}, p.Clean → (putItems indent p items).Clean
  | [], indent, p, h => by
    rw [putItems]
    exact h
  | v :: items, indent, p, h => by
    rw [putItems]
    exact putItems_clean items indent
      (putValue_clean v (some indent) false ((h.indentTo indent).markOne (by decide) true true))

theorem putEntries_clean : ∀ (entries : List (Scalar × Value)) (indent : Nat) {p : Pen}, p.Clean →
    (putEntries indent p entries).Clean
  | [], indent, p, h => by
    rw [putEntries]
    exact h
  | (key, v) :: entries, indent, p, h => by
    rw [putEntries]
    refine putEntries_clean entries indent (putValue_clean v (some indent) true ?_)
    split_ifs
    · exact (putScalar_clean (some indent) true key (h.indentTo indent)).markOne (by decide) false false
    · have hopened : ((p.indentTo indent).mark ['?'] true true).Clean :=
        (h.indentTo indent).markOne (by decide) true true
      have hkey := putScalar_clean (some indent) false key hopened
      exact (hkey.indentTo indent).markOne (by decide) true true

end

theorem write_printable (v : Value) : ∀ c ∈ write v, Printable c := by
  have hstart : Pen.start.Clean := by simp [Pen.Clean, Pen.start]
  have hclean := (putValue_clean (sorted v) none false hstart).indentTo 0
  exact fun c hc => hclean c (List.mem_reverse.1 hc)

theorem write_noReturn (v : Value) : '\r' ∉ write v := by
  intro h
  rcases write_printable v _ h with h | ⟨h, -⟩
  · exact absurd h (by decide)
  · exact absurd h (by decide)

/-! ## What comes back -/

theorem inOrder_perm {α : Type} (le : α → α → Bool) (items : List α) : (inOrder le items).Perm items := by
  induction items with
  | nil => exact .refl _
  | cons item rest ih => exact (List.perm_insertIdx item _ List.findIdx_le_length).trans (ih.cons item)

/-- a sort key for every entry, and sorting by it only moves the entries -/
theorem inOrder_keys_perm {κ : Type} (le : κ × Scalar × Value → κ × Scalar × Value → Bool)
    {f : Scalar × Value → Option (κ × Scalar × Value)} (hf : ∀ e x, f e = some x → x.2 = e) {es : Entries}
    (h : (es.filterMap f).length = es.length) : ((inOrder le (es.filterMap f)).map (·.2)).Perm es := by
  suffices hback : (es.filterMap f).map (·.2) = es by
    have := (inOrder_perm le (es.filterMap f)).map (·.2)
    rwa [hback] at this
  induction es with
  | nil => rfl
  | cons e es ih =>
    cases he : f e with
    | none =>
      rw [List.filterMap_cons_none he, List.length_cons] at h
      have := List.length_filterMap_le f es
      omega
    | some x =>
      rw [List.filterMap_cons_some he, List.length_cons, List.length_cons] at h
      rw [List.filterMap_cons_some he, List.map_cons, ih (by omega), hf e x he]

theorem sortEntries_perm (es : Entries) : (sortEntries es).Perm es := by
  unfold sortEntries
  dsimp only
  split_ifs with htexts hints
  · refine inOrder_keys_perm _ (fun e x hx => ?_) (by simpa using htexts)
    obtain ⟨k, v⟩ := e
    cases k <;> simp_all
    rw [← hx]
  · refine inOrder_keys_perm _ (fun e x hx => ?_) (by simpa using hints)
    obtain ⟨k, v⟩ := e
    cases k <;> simp_all <;> rw [← hx]
  · exact .refl _

theorem sortedItems_eq (items : List Value) : sortedItems items = items.map sorted := by
  induction items with
  | nil => rfl
  | cons v rest ih => rw [sortedItems, ih, List.map_cons]

theorem sortedEntries_eq (es : Entries) : sortedEntries es = es.map fun e => (e.1, sorted e.2) := by
  induction es with
  | nil => rfl
  | cons e rest ih => rw [sortedEntries, ih, List.map_cons]

theorem lookup?_sortedEntries (es : Entries) (key : Scalar) :
    Entries.lookup? (sortedEntries es) key = (Entries.lookup? es key).map sorted := by
  induction es with
  | nil => rfl
  | cons e rest ih =>
    simp only [sortedEntries, Entries.lookup?, ih]
    split_ifs <;> rfl

/-- sorting moves entries and nothing else -/
theorem sorted_same {v : Value} (hv : v.Keyed) : (sorted v).Same v := by
  intro path
  simp only [Option.bind_some]
  induction path generalizing v with
  | nil => cases v <;> simp [sorted, Value.shapeAt, Value.shape, sortedItems_eq]
  | cons step path ih =>
    cases hv with
    | scalar s => rfl
    | @list items h =>
      cases step with
      | entry key => simp [sorted, Value.shapeAt]
      | item i =>
        simp only [sorted, sortedItems_eq, Value.shapeAt, List.getElem?_map]
        cases hi : items[i]? with
        | none => rfl
        | some w => exact ih (h w (List.mem_of_getElem? hi))
    | @map es hd h =>
      cases step with
      | item i => simp [sorted, Value.shapeAt]
      | entry key =>
        have hkeys : Entries.Distinct (sortedEntries es) := by
          simpa [Entries.Distinct, sortedEntries_eq, Function.comp_def] using hd
        simp only [sorted, Value.shapeAt]
        rw [Entries.lookup?_perm (sortEntries_perm _).symm hkeys, lookup?_sortedEntries]
        cases hk : Entries.lookup? es key with
        | none => rfl
        | some w => exact ih (Value.Keyed.lookup? (.map hd h) hk)

instance : LawfulCodec where
  keyed {cs v} h := by
    cases hread : read cs with
    | error stop => simp [Codec.load, hread, Except.mapError] at h
    | ok w =>
      obtain rfl : w = v := by simpa [Codec.load, hread, Except.mapError] using h
      exact read_keyed hread
  noReturn := write_noReturn

theorem kept_of_read {v : Value} (hv : v.Keyed) (h : (read (write v)).toOption = some (sorted v)) : Codec.Kept v := by
  refine ⟨sorted v, ?_, sorted_same hv⟩
  cases hr : read (write v) with
  | error stop => simp [hr, Except.toOption] at h
  | ok w =>
    obtain rfl : w = sorted v := by simpa [hr, Except.toOption] using h
    exact congrArg (Except.mapError Stop.unloaded) hr

end ClassNaming.Yaml
