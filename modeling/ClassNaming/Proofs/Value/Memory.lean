/-
Laying mappings over one another in memory.

Mappings that can be written to have places, and an entry of one refers to another by its place. Layering copies the
lower mapping and writes into the copy; a nested mapping is shared until something is laid over it, and then it is
copied in turn.

- `Shows.mono`: a mapping that is shown is shown by every memory that has the same mappings at its places.
- `put_shows`: one write leaves every place but that of the copy as it was.
- `lay_shows`: layering in memory gives what `Entries.over` does, and leaves every mapping that was there as it was.
- `lay_apart`: so the result has a place of its own, and both layers are as before.
-/
import Mathlib.Order.Nat
import ClassNaming.Proofs.Value.Layering

namespace ClassNaming

/-! ## Mappings with places -/

/-- what stands under a key: something that is no mapping, or the place of one -/
inductive Cell where
  | leaf (v : Value)
  | node (place : Nat)

/-- a mapping in memory -/
abbrev Cells := List (Scalar × Cell)

namespace Cells

/-- what stands under a key -/
def lookup? : Cells → Scalar → Option Cell
  | [], _ => none
  | (k, c) :: rest, key => if k.sameKey key then some c else lookup? rest key

/-- write under a key: in its place if it is there, else last -/
def insert : Cells → Scalar → Cell → Cells
  | [], key, cell => [(key, cell)]
  | (k, c) :: rest, key, cell => if k.sameKey key then (k, cell) :: rest else (k, c) :: insert rest key cell

end Cells

/-- the mappings there are, by place -/
abbrev Memory := List Cells

namespace Memory

/-- write an entry of the upper mapping into the copy; where both have a mapping, what comes of layering them -/
def put (lay : Memory → Nat → Nat → Option (Memory × Nat)) (copy : Nat) (mem : Memory) (e : Scalar × Cell) :
    Option Memory := do
  let done ← mem[copy]?
  match done.lookup? e.1, e.2 with
  | some (.node lower), .node upper =>
    let (mem, place) ← lay mem lower upper
    return mem.modify copy (·.insert e.1 (.node place))
  | _, cell => return mem.modify copy (·.insert e.1 cell)

/-- lay the mapping at one place over that at another, in a copy of the latter; mappings may be nested `depth` deep -/
def lay : Nat → Memory → Nat → Nat → Option (Memory × Nat)
  | 0, _, _, _ => none
  | depth + 1, mem, lower, upper => do
    let base ← mem[lower]?
    let cells ← mem[upper]?
    let mem' ← cells.foldlM (put (lay depth) mem.length) (mem ++ [base])
    return (mem', mem.length)

/-- the memory as it is seen with some places out of sight -/
def without (mem : Memory) (hidden : List Nat) (place : Nat) : Option Cells :=
  if place ∈ hidden then none else mem[place]?

end Memory

mutual

/-- a cell shows a value, in what is seen of a memory -/
inductive Shows (seen : Nat → Option Cells) : Cell → Value → Prop
  | leaf {v : Value} (h : ¬ v.IsMap) : Shows seen (.leaf v) v
  | node {place : Nat} {cells : Cells} {es : Entries} (there : seen place = some cells)
      (each : ShowsEach seen cells es) : Shows seen (.node place) (.map es)

/-- cells show entries one by one -/
inductive ShowsEach (seen : Nat → Option Cells) : Cells → Entries → Prop
  | nil : ShowsEach seen [] []
  | cons {key : Scalar} {c : Cell} {v : Value} {cells : Cells} {es : Entries} (first : Shows seen c v)
      (rest : ShowsEach seen cells es) : ShowsEach seen ((key, c) :: cells) ((key, v) :: es)

end

section

variable {seen other : Nat → Option Cells}

mutual

/-- what is shown is shown by every memory that has the same mappings at its places -/
theorem Shows.mono (h : ∀ place cells, seen place = some cells → other place = some cells) {c : Cell} {v : Value} :
    Shows seen c v → Shows other c v
  | .leaf hv => .leaf hv
  | .node there each => .node (h _ _ there) (each.mono h)

theorem ShowsEach.mono (h : ∀ place cells, seen place = some cells → other place = some cells) {cells : Cells}
    {es : Entries} : ShowsEach seen cells es → ShowsEach other cells es
  | .nil => .nil
  | .cons first rest => .cons (first.mono h) (rest.mono h)

end

/-- both have nothing under a key, or the cell there shows the value there -/
theorem ShowsEach.lookup? {cells : Cells} {es : Entries} (h : ShowsEach seen cells es) (key : Scalar) :
    (cells.lookup? key = none ∧ Entries.lookup? es key = none) ∨
      ∃ c v, cells.lookup? key = some c ∧ Entries.lookup? es key = some v ∧ Shows seen c v := by
  induction cells generalizing es with
  | nil =>
    cases h
    exact .inl ⟨rfl, rfl⟩
  | cons e cells ih =>
    cases h with
    | @cons k c v _ es first rest =>
      by_cases hk : k.sameKey key = true
      · exact .inr ⟨c, v, by simp [Cells.lookup?, hk], by simp [Entries.lookup?, hk], first⟩
      · simpa [Cells.lookup?, Entries.lookup?, hk] using ih rest

theorem ShowsEach.insert {cells : Cells} {es : Entries} (h : ShowsEach seen cells es) (key : Scalar) {c : Cell}
    {v : Value} (hc : Shows seen c v) : ShowsEach seen (cells.insert key c) (Entries.insert es key v) := by
  induction cells generalizing es with
  | nil =>
    cases h
    exact .cons hc .nil
  | cons e cells ih =>
    cases h with
    | @cons k d w _ es first rest =>
      by_cases hk : k.sameKey key = true
      · simpa [Cells.insert, Entries.insert, hk] using ShowsEach.cons hc rest
      · simpa [Cells.insert, Entries.insert, hk] using ShowsEach.cons first (ih rest)

end

/-! ## One write -/

namespace Memory

/-- nothing is taken away, and every mapping that was there is as it was, except at one place -/
structure Keeps (copy : Nat) (mem mem' : Memory) : Prop where
  length_le : mem.length ≤ mem'.length
  same : ∀ place ≠ copy, place < mem.length → mem'[place]? = mem[place]?

/-- the copy has these entries, shown without a look at the copy itself or the other places that are out of sight -/
structure Holds (copy : Nat) (hidden : List Nat) (mem : Memory) (es : Entries) : Prop where
  below : ∀ place ∈ copy :: hidden, place < mem.length
  shown : ∃ cells, mem[copy]? = some cells ∧ ShowsEach (mem.without (copy :: hidden)) cells es

/-- layering of mappings up to a size comes to what `Entries.over` makes of them, whatever is out of sight, and leaves
every mapping that was there as it was -/
def Lays (lay : Memory → Nat → Nat → Option (Memory × Nat)) (size : Nat) : Prop :=
  ∀ (mem : Memory) (hidden : List Nat) (lower upper : Nat) (ls us : Entries), (∀ place ∈ hidden, place < mem.length) →
    sizeOf us < size → Shows (mem.without hidden) (.node lower) (.map ls) →
    Shows (mem.without hidden) (.node upper) (.map us) →
    ∃ mem' place, lay mem lower upper = some (mem', place) ∧ mem <+: mem' ∧
      Shows (mem'.without hidden) (.node place) (.map (Entries.over ls us))

variable {copy : Nat} {hidden : List Nat} {mem mem' : Memory} {ls us : Entries}

theorem lt_of_without {place : Nat} {cells : Cells} (h : mem.without hidden place = some cells) :
    place ∉ hidden ∧ place < mem.length ∧ mem[place]? = some cells := by
  unfold Memory.without at h
  split_ifs at h with hplace
  exact ⟨hplace, (List.getElem?_eq_some_iff.1 h).1, h⟩

theorem Keeps.trans {mem'' : Memory} (h : Keeps copy mem mem') (h' : Keeps copy mem' mem'') : Keeps copy mem mem'' where
  length_le := h.length_le.trans h'.length_le
  same place hne hlt := (h'.same place hne (hlt.trans_le h.length_le)).trans (h.same place hne hlt)

theorem keeps_of_extends (h : mem <+: mem') (copy : Nat) : Keeps copy mem mem' where
  length_le := h.length_le
  same place _ hlt := by
    obtain ⟨more, rfl⟩ := h
    exact List.getElem?_append_left hlt

theorem Keeps.seen (h : Keeps copy mem mem') (place : Nat) (cells : Cells)
    (hseen : mem.without (copy :: hidden) place = some cells) : mem'.without (copy :: hidden) place = some cells := by
  obtain ⟨hplace, hlt, hcells⟩ := lt_of_without hseen
  have hne : place ≠ copy := fun heq => hplace (heq ▸ List.mem_cons_self)
  rw [Memory.without, if_neg hplace, h.same place hne hlt, hcells]

theorem Holds.extended (h : Holds copy hidden mem ls) (hmem : mem <+: mem') : Holds copy hidden mem' ls where
  below place hplace := (h.below place hplace).trans_le hmem.length_le
  shown := by
    obtain ⟨cells, hcells, heach⟩ := h.shown
    refine ⟨cells, ?_, heach.mono (keeps_of_extends hmem copy).seen⟩
    obtain ⟨more, rfl⟩ := hmem
    rw [List.getElem?_append_left (h.below copy List.mem_cons_self), hcells]

/-- writing into the copy something that is shown without a look at the copy -/
theorem Holds.modify (h : Holds copy hidden mem ls) (key : Scalar) {c : Cell} {v : Value}
    (hc : Shows (mem.without (copy :: hidden)) c v) :
    Keeps copy mem (mem.modify copy (·.insert key c)) ∧
      Holds copy hidden (mem.modify copy (·.insert key c)) (Entries.insert ls key v) := by
  have hkeeps : Keeps copy mem (mem.modify copy (·.insert key c)) := by
    refine ⟨(List.length_modify ..).ge, fun place hne _ => ?_⟩
    simp [hne.symm]
  obtain ⟨cells, hcells, heach⟩ := h.shown
  refine ⟨hkeeps, fun place hplace => (h.below place hplace).trans_le hkeeps.length_le, cells.insert key c, ?_, ?_⟩
  · simp [hcells]
  · exact (heach.insert key hc).mono hkeeps.seen

section

variable {lay : Memory → Nat → Nat → Option (Memory × Nat)} {size : Nat}

/-- **One entry.** It is laid over what the copy has under its key, and only the copy is written to. -/
theorem put_shows (hlay : Lays lay size) (h : Holds copy hidden mem ls) (key : Scalar) {c : Cell} {v : Value}
    (hc : Shows (mem.without (copy :: hidden)) c v) (hsize : sizeOf v ≤ size) :
    ∃ mem', put lay copy mem (key, c) = some mem' ∧ Keeps copy mem mem' ∧
      Holds copy hidden mem' (Entries.insert ls key (Value.over (Entries.lookup? ls key) v)) := by
  obtain ⟨cells, hcells, heach⟩ := h.shown
  -- unless both are mappings, the cell itself is written
  have hplain (hput : put lay copy mem (key, c) = some (mem.modify copy (·.insert key c)))
      (hover : Value.over (Entries.lookup? ls key) v = v) : ∃ mem', put lay copy mem (key, c) = some mem' ∧
        Keeps copy mem mem' ∧
        Holds copy hidden mem' (Entries.insert ls key (Value.over (Entries.lookup? ls key) v)) := by
    rw [hover]
    exact ⟨_, hput, h.modify key hc⟩
  have hlookup := heach.lookup? key
  cases hc with
  | leaf hv =>
    refine hplain ?_ (Value.over_of_not_isMap hv _)
    simp [put, hcells]
  | @node upper _ us there each =>
    rcases hlookup with ⟨hnone, hentry⟩ | ⟨d, w, hsome, hentry, hd⟩
    · refine hplain ?_ (by rw [hentry, Value.over_none])
      simp [put, hcells, hnone]
    · cases hd with
      | leaf hw =>
        refine hplain ?_ (by rw [hentry, Value.over_of_lower_not_isMap hw])
        simp [put, hcells, hsome]
      | @node lower _ ws there' each' =>
        have hlt : sizeOf us < size := by
          simp only [Value.map.sizeOf_spec] at hsize
          omega
        obtain ⟨mem', place, hlaid, hprefix, hshows⟩ :=
          hlay mem (copy :: hidden) lower upper ws us h.below hlt (.node there' each') (.node there each)
        obtain ⟨hkeeps, hholds⟩ := (h.extended hprefix).modify key hshows
        refine ⟨_, ?_, (keeps_of_extends hprefix copy).trans hkeeps, ?_⟩
        · simp [put, hcells, hsome, hlaid]
        · rw [hentry, Value.over_map_map]
          exact hholds

/-- **All entries**, one after the other -/
theorem foldlM_put_shows (hlay : Lays lay size) {cells : Cells} (h : Holds copy hidden mem ls)
    (hcells : ShowsEach (mem.without (copy :: hidden)) cells us) (hsize : ∀ e ∈ us, sizeOf e.2 ≤ size) :
    ∃ mem', cells.foldlM (put lay copy) mem = some mem' ∧ Keeps copy mem mem' ∧
      Holds copy hidden mem' (Entries.over ls us) := by
  induction cells generalizing mem ls us with
  | nil =>
    cases hcells
    exact ⟨mem, rfl, ⟨le_rfl, fun _ _ _ => rfl⟩, by rwa [Entries.over]⟩
  | cons e cells ih =>
    cases hcells with
    | @cons key c v _ us first rest =>
      obtain ⟨mid, hput, hkeeps, hholds⟩ := put_shows hlay h key first (hsize (key, v) List.mem_cons_self)
      obtain ⟨mem', hfold, hkeeps', hholds'⟩ :=
        ih hholds (rest.mono hkeeps.seen) fun e he => hsize e (List.mem_cons_of_mem _ he)
      refine ⟨mem', ?_, hkeeps.trans hkeeps', by rwa [Entries.over]⟩
      simp [List.foldlM_cons, hput, hfold]

end

/-! ## Layering -/

/-- **Layering in memory** comes to what `Entries.over` does, with a depth that is more than the size of the upper
mapping. It leaves every mapping that was there as it was. -/
theorem lay_shows (depth : Nat) : Lays (lay depth) depth := by
  induction depth with
  | zero => exact fun _ _ _ _ _ _ _ hsize => absurd hsize (Nat.not_lt_zero _)
  | succ depth ih =>
    intro mem hidden lower upper ls us hhidden hsize hlower hupper
    cases hlower with
    | @node _ base _ hbase heach =>
      cases hupper with
      | @node _ cells _ hcells heach' =>
        -- what is seen now is seen when the copy is there and out of sight
        have hseen : ∀ place shown, mem.without hidden place = some shown →
            (mem ++ [base]).without (mem.length :: hidden) place = some shown := by
          intro place shown h
          obtain ⟨hplace, hlt, hshown⟩ := lt_of_without h
          rw [Memory.without, if_neg (by simp [hplace, hlt.ne]), List.getElem?_append_left hlt, hshown]
        have hholds : Holds mem.length hidden (mem ++ [base]) ls := by
          refine ⟨fun place hplace => ?_, base, by simp, heach.mono hseen⟩
          rw [List.length_append, List.length_singleton]
          rcases List.mem_cons.1 hplace with rfl | hplace
          · exact Nat.lt_succ_self _
          · exact (hhidden place hplace).trans (Nat.lt_succ_self _)
        have hsizes : ∀ e ∈ us, sizeOf e.2 ≤ depth := by
          intro e he
          have hlt := List.sizeOf_lt_of_mem he
          have hpair : sizeOf e = 1 + sizeOf e.1 + sizeOf e.2 := rfl
          omega
        obtain ⟨mem', hfold, hkeeps, hholds'⟩ := foldlM_put_shows ih hholds (heach'.mono hseen) hsizes
        obtain ⟨done, hdone, hshown⟩ := hholds'.shown
        have hlower := (lt_of_without hbase).2.2
        have hupper := (lt_of_without hcells).2.2
        refine ⟨mem', mem.length, by simp [lay, hlower, hupper, hfold], ?_, .node ?_ (hshown.mono ?_)⟩
        · rw [List.prefix_iff_getElem?]
          intro place hlt
          rw [hkeeps.same place hlt.ne (by simp; omega), List.getElem?_append_left hlt, List.getElem?_eq_getElem hlt]
        · rw [Memory.without, if_neg fun hmem => (hhidden _ hmem).ne rfl, hdone]
        · intro place shown h
          obtain ⟨hplace, -, hcells⟩ := lt_of_without h
          rw [Memory.without, if_neg fun hmem => hplace (List.mem_cons_of_mem _ hmem), hcells]

/-- the place shows this mapping -/
def MapAt (mem : Memory) (place : Nat) (es : Entries) : Prop := Shows (mem.without []) (.node place) (.map es)

theorem MapAt.extended {place : Nat} {es : Entries} (h : mem.MapAt place es) (hmem : mem <+: mem') :
    mem'.MapAt place es := by
  refine Shows.mono (fun other cells hseen => ?_) h
  obtain ⟨more, rfl⟩ := hmem
  obtain ⟨hother, hlt, hcells⟩ := lt_of_without hseen
  rw [Memory.without, if_neg hother, List.getElem?_append_left hlt, hcells]

/-- **Layering leaves both mappings as they were:** the result has a place of its own, and every place that was there
holds what it held. -/
theorem lay_apart {lower upper depth : Nat} (hdepth : sizeOf us < depth) (hlower : mem.MapAt lower ls)
    (hupper : mem.MapAt upper us) :
    ∃ mem' place, mem.lay depth lower upper = some (mem', place) ∧ mem <+: mem' ∧
      mem'.MapAt place (Entries.over ls us) ∧ mem'.MapAt lower ls ∧ mem'.MapAt upper us := by
  obtain ⟨mem', place, hlaid, hprefix, hshows⟩ :=
    lay_shows depth mem [] lower upper ls us (by simp) hdepth hlower hupper
  exact ⟨mem', place, hlaid, hprefix, hshows, hlower.extended hprefix, hupper.extended hprefix⟩

end Memory

end ClassNaming
