/-
A closed block whose opening line is not read.

A line such as `&:hover {` opens no rule here, but the line that closes its block closes one all the same: the innermost
rule that was read. So the block acts as its closing line alone, and what comes below it is read in the rule outside.

- `foldl_block`: reading the block closes the innermost open rule and records nothing.
- `step_alike`, `foldl_alike`: two stacks that differ only in selectors without a dot are never told apart.
- `foldl_probe`: lines that tell apart any stack with a dotted selector from the same stack with one rule less.
- `block_closes_enclosing`: the block is its closing line alone, and it goes unnoticed by everything below it exactly if
  no open selector starts with a dot.
- `hover_block_noticed`: a text where it is noticed.
-/
import ClassNaming.Proofs.Extract.Sheets

namespace ClassNaming.Extract

/-! ## Blocks that are not read -/

/-- a block whose opening line is no list of selectors, with declaration lines only -/
structure UnreadBlock where
  opening : List Char
  body : List (List Char)
  close : Closing
  opening_oneLine : '\n' ∉ opening
  opening_brace : ∃ before, opening = before ++ ['\x7b'] ∧ '\x7b' ∉ before ∧ '\x7d' ∉ before
  opening_unread : opening? (Text.trim opening) = none
  body_oneLine : ∀ line ∈ body, '\n' ∉ line
  body_noBrace : ∀ line ∈ body, '\x7b' ∉ line ∧ '\x7d' ∉ line
  body_unread : ∀ line ∈ body, opening? (Text.trim line) = none

def UnreadBlock.lines (block : UnreadBlock) : List (List Char) := block.opening :: block.body ++ [block.close.1]

/-- the classes of texts one below the other -/
def nestedBelow (texts : List (List Char)) : List String := nested (String.ofList (joined texts))

/-- the open rules after a text, and what it recorded -/
def readText (p : List Char) : Nest := (linesOf p).foldl Nest.step Nest.start

theorem nestedBelow_eq (p : List Char) (texts : List (List Char)) :
    nestedBelow (p :: texts) = (((texts.flatMap linesOf).foldl Nest.step (readText p)).found).map String.ofList := by
  rw [nestedBelow, nested_eq, linesOf_joined, List.flatMap_cons, expandLines, List.foldl_append]
  rfl

/-- the texts are told apart exactly if what they record is -/
theorem nestedBelow_inj {p : List Char} {texts texts' : List (List Char)} :
    nestedBelow (p :: texts) = nestedBelow (p :: texts') ↔
      ((texts.flatMap linesOf).foldl Nest.step (readText p)).found =
        ((texts'.flatMap linesOf).foldl Nest.step (readText p)).found := by
  rw [nestedBelow_eq, nestedBelow_eq]
  refine ⟨fun h => ?_, fun h => by rw [h]⟩
  exact List.map_injective_iff.2 (fun a b hab => String.ofList_injective hab) h

/-- a block that is not read closes the innermost open rule -/
theorem foldl_block (block : UnreadBlock) (n : Nest) :
    (block.lines.flatMap linesOf).foldl Nest.step n = ⟨n.stack.tail, n.found⟩ := by
  have hclean : ∀ line ∈ block.lines, '\n' ∉ line := by
    intro line hl
    simp only [UnreadBlock.lines, List.cons_append, List.mem_cons, List.mem_append, List.not_mem_nil, or_false] at hl
    rcases hl with rfl | hl | rfl
    · exact block.opening_oneLine
    · exact block.body_oneLine line hl
    · exact block.close.2.2
  have hplain : ∀ line ∈ block.opening :: block.body, opening? (Text.trim line) = none ∧ '\x7d' ∉ line := by
    intro line hl
    rcases List.mem_cons.1 hl with rfl | hl
    · obtain ⟨before, hb, -, hno⟩ := block.opening_brace
      exact ⟨block.opening_unread, by simp [hb, hno]⟩
    · exact ⟨block.body_unread line hl, (block.body_noBrace line hl).2⟩
  rw [flatMap_linesOf hclean, UnreadBlock.lines, List.foldl_append, foldl_plain n hplain, List.foldl_cons,
    List.foldl_nil, step_closing n block.close.2.1]

/-! ## What no later line can tell apart -/

/-- a selector that names no class -/
def Undotted (s : List Char) : Prop := s.head? ≠ some '.'

/-- the same selector, or two that name no class -/
def Alike (s t : List Char) : Prop := s = t ∨ (Undotted s ∧ Undotted t)

/-- the same classes recorded, and open selectors that are alike at every depth, where no selector is open also -/
structure Nest.Alike (m n : Nest) : Prop where
  stack : ∀ i, Extract.Alike (m.stack.getD i []) (n.stack.getD i [])
  found : m.found = n.found

theorem Alike.className? {s t : List Char} (h : Alike s t) : className? s = Extract.className? t := by
  rcases h with rfl | ⟨hs, ht⟩
  · rfl
  · rw [className?_eq_none hs, className?_eq_none ht]

/-- a selector behind `&` is put together from name characters -/
def IsPart (part : List Char) : Prop := ∀ rest, part = '&' :: rest → ∀ c ∈ rest, isNamePart c = true

theorem IsSelector.isPart {part : List Char} (h : IsSelector part) : IsPart part := by
  obtain ⟨mark, first, rest, -, rfl⟩ := h
  intro tail htail
  cases mark with
  | dot => exact absurd (List.cons.inj htail).1 (by decide)
  | hash => exact absurd (List.cons.inj htail).1 (by decide)
  | bare =>
    obtain rfl := (List.cons.inj htail).2
    exact rest.2

theorem opening?_isPart {line : List Char} {parts : List (List Char)} (h : opening? line = some parts) :
    ∀ part ∈ parts, IsPart part :=
  fun part hp => (opening?_selectors h part hp).isPart

/-- name characters bring no dot to the front -/
theorem Undotted.append {s rest : List Char} (hs : Undotted s) (hrest : ∀ c ∈ rest, isNamePart c = true) :
    Undotted (s ++ rest) := by
  cases s with
  | nil =>
    cases rest with
    | nil => exact hs
    | cons c rest =>
      intro hc
      obtain rfl : c = '.' := by simpa using hc
      exact absurd (hrest '.' (by simp)) (by decide)
  | cons c s => simpa [Undotted] using hs

theorem Alike.resolve {s t part : List Char} (h : Alike s t) (hp : IsPart part) :
    Alike (resolve s part) (Extract.resolve t part) := by
  unfold Extract.resolve
  split
  · rename_i rest
    rcases h with rfl | ⟨hs, ht⟩
    · exact Or.inl rfl
    · exact Or.inr ⟨hs.append (hp rest rfl), ht.append (hp rest rfl)⟩
  · exact Or.inl rfl

theorem headD_eq_getD (stack : List (List Char)) : stack.headD [] = stack.getD 0 [] := by
  cases stack <;> rfl

theorem getD_tail (stack : List (List Char)) (i : Nat) : stack.tail.getD i [] = stack.getD (i + 1) [] := by
  cases stack <;> rfl

/-- opening a rule keeps stacks alike -/
theorem push_alike {m n : Nest} (h : m.Alike n) {parts : List (List Char)} (hp : ∀ part ∈ parts, IsPart part) :
    (m.push parts).Alike (n.push parts) := by
  have hhead : Alike (m.stack.headD []) (n.stack.headD []) := by
    rw [headD_eq_getD, headD_eq_getD]
    exact h.stack 0
  refine ⟨?_, ?_⟩
  · intro i
    cases i with
    | zero =>
      cases parts with
      | nil => exact Or.inl rfl
      | cons part parts => exact hhead.resolve (hp part (by simp))
    | succ i => exact h.stack i
  · have hclasses : (parts.map (resolve (m.stack.headD []))).filterMap className? =
        (parts.map (resolve (n.stack.headD []))).filterMap className? := by
      rw [List.filterMap_map, List.filterMap_map]
      exact List.filterMap_congr fun part hpart => (hhead.resolve (hp part hpart)).className?
    simp only [Nest.push, h.found, hclasses]

/-- closing a rule keeps stacks alike, also where one of them has none left -/
theorem tail_alike {m n : Nest} (h : m.Alike n) :
    Nest.Alike { m with stack := m.stack.tail } { n with stack := n.stack.tail } := by
  refine ⟨?_, h.found⟩
  intro i
  simp only [getD_tail]
  exact h.stack (i + 1)

theorem step_alike {m n : Nest} (h : m.Alike n) (line : List Char) : (m.step line).Alike (n.step line) := by
  cases hopen : opening? (Text.trim line) with
  | none =>
    simp only [Nest.step, hopen]
    split_ifs
    · exact tail_alike h
    · exact h
  | some parts =>
    have hpush := push_alike h (opening?_isPart hopen)
    simp only [Nest.step, hopen]
    split_ifs
    · exact tail_alike hpush
    · exact hpush

theorem foldl_alike {m n : Nest} (h : m.Alike n) (lines : List (List Char)) :
    (lines.foldl Nest.step m).Alike (lines.foldl Nest.step n) := by
  induction lines generalizing m n with
  | nil => exact h
  | cons line lines ih => exact ih (step_alike h line)

/-- without a dotted selector, one rule less is not noticed -/
theorem tail_alike_of_undotted {n : Nest} (h : ∀ s ∈ n.stack, Undotted s) :
    Nest.Alike ⟨n.stack.tail, n.found⟩ n := by
  have hget : ∀ i, Undotted (n.stack.getD i []) := by
    intro i
    rw [List.getD_eq_getElem?_getD]
    cases hi : n.stack[i]? with
    | none => simp [Undotted]
    | some s => exact h s (List.mem_of_getElem? hi)
  refine ⟨?_, rfl⟩
  intro i
  rw [getD_tail]
  exact Or.inr ⟨hget (i + 1), hget i⟩

/-! ## Lines that tell stacks apart -/

/-- close some rules, then ask for the innermost open selector -/
def probe (depth : Nat) : List Char := joined (List.replicate depth ['\x7d'] ++ [['&']])

theorem foldl_closings (depth : Nat) (n : Nest) :
    (List.replicate depth ['\x7d']).foldl Nest.step n = ⟨n.stack.drop depth, n.found⟩ := by
  induction depth generalizing n with
  | zero => rfl
  | succ depth ih =>
    rw [List.replicate_succ, List.foldl_cons, step_closing n (by decide), ih]
    simp [List.drop_tail]

/-- the probe records the class of the selector at its depth, if that is one -/
theorem foldl_probe (depth : Nat) (n : Nest) : ((linesOf (probe depth)).foldl Nest.step n).found =
    n.found ++ (className? (n.stack.getD depth [])).toList := by
  have hclean : ∀ line ∈ List.replicate depth ['\x7d'] ++ [['&']], '\n' ∉ line := by
    intro line hl
    rcases List.mem_append.1 hl with hl | hl
    · rw [List.eq_of_mem_replicate hl]; decide
    · rw [List.mem_singleton.1 hl]; decide
  have hopen : opening? (Text.trim ['&']) = some [['&']] := by decide
  rw [probe, foldl_linesOf_joined hclean, List.foldl_append, foldl_closings, List.foldl_cons, List.foldl_nil,
    step_opening _ hopen (by decide)]
  have hhead : (n.stack.drop depth).headD [] = n.stack.getD depth [] := by
    rw [headD_eq_getD, List.getD_eq_getElem?_getD, List.getElem?_drop, List.getD_eq_getElem?_getD, Nat.add_zero]
  simp only [Nest.push, hhead, List.map_cons, List.map_nil, resolve, List.append_nil]
  cases hclass : className? (n.stack.getD depth []) with
  | none => rw [List.filterMap_cons_none hclass]; rfl
  | some name => rw [List.filterMap_cons_some hclass]; rfl

/-- of several selectors of which one is dotted, one is the last -/
theorem exists_last_dotted {stack : List (List Char)} (h : ∃ s ∈ stack, ¬ Undotted s) :
    ∃ i, ¬ Undotted (stack.getD i []) ∧ Undotted (stack.getD (i + 1) []) := by
  induction stack with
  | nil => simp at h
  | cons s stack ih =>
    by_cases hrest : ∃ t ∈ stack, ¬ Undotted t
    · obtain ⟨i, hi, hnext⟩ := ih hrest
      exact ⟨i + 1, hi, hnext⟩
    · obtain ⟨t, ht, hdot⟩ := h
      have hs : t = s := by
        rcases List.mem_cons.1 ht with rfl | ht
        · rfl
        · exact absurd ⟨t, ht, hdot⟩ hrest
      refine ⟨0, hs ▸ hdot, ?_⟩
      cases stack with
      | nil => simp [Undotted]
      | cons t' stack =>
        by_contra hc
        exact hrest ⟨t', by simp, hc⟩

theorem className?_ne_none {s : List Char} (h : ¬ Undotted s) : className? s ≠ none := by
  cases s with
  | nil => simp [Undotted] at h
  | cons c s =>
    obtain rfl : c = '.' := by simpa [Undotted] using h
    simp [className?]

/-- one rule less goes unnoticed exactly if no open selector is dotted -/
theorem tail_unnoticed_iff (n : Nest) :
    (∀ q, ((linesOf q).foldl Nest.step ⟨n.stack.tail, n.found⟩).found = ((linesOf q).foldl Nest.step n).found) ↔
      ∀ s ∈ n.stack, Undotted s := by
  refine ⟨fun h => ?_, fun h q => (foldl_alike (tail_alike_of_undotted h) (linesOf q)).found⟩
  by_contra hdot
  push Not at hdot
  obtain ⟨i, hi, hnext⟩ := exists_last_dotted hdot
  -- asked for the selector at depth `i`, the full stack answers with a class and the other one does not
  have hq := h (probe i)
  rw [foldl_probe, foldl_probe, getD_tail, className?_eq_none hnext] at hq
  have hnone : (className? (n.stack.getD i [])).toList = [] := by simpa using hq.symm
  exact className?_ne_none hi (by simpa using hnone)

/-! ## The block below a text -/

/-- **An unread block is its closing line.** Below any text `p`, a closed block whose opening line is not read acts as a
line with a closing brace: whatever stands below is read with one rule less. It goes unnoticed by everything that may
stand below exactly if no selector open after `p` starts with a dot. -/
theorem block_closes_enclosing (block : UnreadBlock) (p : List Char) :
    (∀ q, nestedBelow (p :: block.lines ++ [q]) = nestedBelow [p, ['\x7d'], q]) ∧
      ((∀ q, nestedBelow (p :: block.lines ++ [q]) = nestedBelow [p, q]) ↔
        ∀ s ∈ (readText p).stack, Undotted s) := by
  have hblock : ∀ q, (((block.lines ++ [q]).flatMap linesOf).foldl Nest.step (readText p)).found =
      ((linesOf q).foldl Nest.step ⟨(readText p).stack.tail, (readText p).found⟩).found := by
    intro q
    rw [List.flatMap_append, List.foldl_append, foldl_block, List.flatMap_singleton]
  have hclose : ∀ q, (([['\x7d'], q].flatMap linesOf).foldl Nest.step (readText p)).found =
      ((linesOf q).foldl Nest.step ⟨(readText p).stack.tail, (readText p).found⟩).found := by
    intro q
    have hone : linesOf ['\x7d'] = [['\x7d']] := linesOf_single (by decide)
    rw [List.flatMap_cons, List.foldl_append, hone, List.foldl_cons, List.foldl_nil, step_closing _ (by decide),
      List.flatMap_singleton]
  refine ⟨fun q => ?_, ?_⟩
  · rw [List.cons_append, nestedBelow_inj, hblock, hclose]
  · rw [← tail_unnoticed_iff]
    refine forall_congr' fun q => ?_
    rw [List.cons_append, nestedBelow_inj, hblock, List.flatMap_singleton]

/-- a block for a state of the element, which is no selector here -/
def hoverBlock : UnreadBlock where
  opening := "&:hover \x7b".toList
  body := ["color: red;".toList]
  close := ⟨['\x7d'], by decide⟩
  opening_oneLine := by decide
  opening_brace := ⟨"&:hover ".toList, by decide⟩
  opening_unread := by decide
  body_oneLine := by decide
  body_noBrace := by decide
  body_unread := by decide

/-- **A hover block is noticed.** Below it, `&` no longer stands for the rule around it. -/
theorem hover_block_noticed :
    nestedBelow (".card \x7b".toList :: hoverBlock.lines ++ ["&_info \x7b".toList]) = ["card"] ∧
      nestedBelow [".card \x7b".toList, "&_info \x7b".toList] = ["card", "card_info"] := by
  decide +kernel

end ClassNaming.Extract
