/-
Writing settings files: block style, keys sorted, lines folded at blanks past column 80.

Text is written plain where it reads back as the same text, else in single quotes, and in double quotes if it has
characters outside printable ASCII or blanks next to line ends. The items of a list stand at the indentation of the key
they belong to. A value that stands in two places is written twice, and one that YAML is not asked to name is written as
the text it is shown as.
-/
import ClassNaming.Value.Shown
import ClassNaming.Yaml.Implicit

namespace ClassNaming.Yaml

/-- a place in the text being written: what is written so far (last first), the column, whether a blank or nothing
comes before it on the line, and whether only indentation and its marks do -/
structure Pen where
  out : List Char
  column : Nat
  blank : Bool
  indented : Bool

namespace Pen

def start : Pen := ⟨[], 0, true, true⟩

/-- write characters without line ends -/
def put (p : Pen) (cs : List Char) : Pen :=
  { p with out := cs.reverse ++ p.out, column := p.column + cs.length }

/-- write characters inside a scalar -/
def putText (p : Pen) (cs : List Char) : Pen :=
  { p.put cs with blank := false, indented := false }

def newLine (p : Pen) : Pen :=
  ⟨'\n' :: p.out, 0, true, true⟩

/-- go to a column, on a new line if something is written here already -/
def indentTo (p : Pen) (column : Nat) : Pen :=
  let p := if !p.indented || column < p.column || (p.column == column && !p.blank) then p.newLine else p
  if p.column < column then { p.put (List.replicate (column - p.column) ' ') with blank := true } else p

/-- write a mark, after a blank if it needs one; `opens` keeps the place one of indentation -/
def mark (p : Pen) (cs : List Char) (needsBlank opens : Bool) : Pen :=
  { p.put (if p.blank || !needsBlank then cs else ' ' :: cs) with blank := false, indented := p.indented && opens }

end Pen

/-- the column past which lines are folded -/
def bestWidth : Nat := 80

/-! ## How text is written -/

inductive Style where
  | plain
  | single
  | double
deriving DecidableEq, Repr

/-- some two neighbours satisfy `p` -/
def anyNeighbours (p : Char → Char → Bool) : List Char → Bool
  | a :: b :: rest => p a b || anyNeighbours p (b :: rest)
  | _ => false

/-- a blank at the end of a line, or at the start of the next, or a character outside printable ASCII -/
def needsDouble (cs : List Char) : Bool :=
  cs.any (fun c => !(c == '\n' || (' ' ≤ c && c ≤ '~')))
    || anyNeighbours (fun a b => (a == ' ' && b == '\n') || (a == '\n' && b == ' ')) cs

/-- a mark that plain text cannot have: one that opens a token, a colon before a gap, a comment -/
def hasIndicator (cs : List Char) : Bool :=
  let opening := match cs with
    | [] => false
    | c :: rest =>
      let gap := isGap (rest.headD '\x00')
      indicators.contains c || (['?', ':', '-'].contains c && gap)
  let colon := anyNeighbours (fun a b => a == ':' && isGap b) cs || cs.getLast? == some ':'
  let comment := anyNeighbours (fun a b => isGap a && b == '#') cs
  opening || colon || comment || ["---", "..."].any fun s => s.toList == cs.take 3

/-- blanks or line ends at the ends of a text -/
def hasEdgeSpace (cs : List Char) : Bool :=
  let isEdge (c : Option Char) : Bool := c == some ' ' || c == some '\n'
  isEdge cs.head? || isEdge cs.getLast?

/-- how a scalar is written, `implied` telling whether plain text would read back as it, and `key` whether it is a key
on the line of its value -/
def styleOf (implied key : Bool) (cs : List Char) : Style :=
  let broken := cs.contains '\n'
  if implied && !(key && (cs.isEmpty || broken)) && !broken && !needsDouble cs && !hasEdgeSpace cs && !hasIndicator cs
  then .plain
  else if !needsDouble cs && !(key && broken) then .single
  else .double

/-! ## The three styles -/

/-- what a run of characters is made of -/
inductive RunKind where
  | word
  | space
  | break
  | quote
deriving DecidableEq, Repr

def runKind (c : Char) : RunKind :=
  if c == ' ' then .space else if c == '\n' then .break else if c == '\'' then .quote else .word

/-- runs of characters of one kind -/
def runs : List Char → List (RunKind × List Char)
  | [] => []
  | c :: rest =>
    match runs rest with
    | (kind, run) :: more => if kind == runKind c then (kind, c :: run) :: more else (runKind c, [c]) :: (kind, run) :: more
    | [] => [(runKind c, [c])]

/-- plain text; a single blank past the best width becomes a line end -/
def putPlain (indent : Nat) (fold : Bool) (p : Pen) : List (RunKind × List Char) → Pen
  | [] => p
  | (kind, run) :: rest =>
    let p := if kind == .space && run.length == 1 && bestWidth < p.column && fold then
        { p.indentTo indent with blank := false, indented := false }
      else p.putText run
    putPlain indent fold p rest

/-- text in single quotes, the quotes apart; a line end is written as an empty line -/
def putSingle (indent : Nat) (fold : Bool) (first : Bool) (p : Pen) : List (RunKind × List Char) → Pen
  | [] => p
  | (kind, run) :: rest =>
    let p := match kind with
      | .space =>
        if run.length == 1 && bestWidth < p.column && fold && !first && !rest.isEmpty then p.indentTo indent
        else p.put run
      | .break => (run.foldl (fun p _ => p.newLine) p.newLine).indentTo indent
      | .quote => p.put (run.flatMap fun c => [c, c])
      | .word => p.put run
    putSingle indent fold false p rest

/-- the escape of a character in double quotes, if it needs one -/
def doubleEscape? (c : Char) : Option (List Char) :=
  let letters := [('\x00', '0'), ('\x07', 'a'), ('\x08', 'b'), ('\t', 't'), ('\n', 'n'), ('\x0b', 'v'), ('\x0c', 'f'),
    ('\r', 'r'), ('\x1b', 'e'), ('"', '"'), ('\\', '\\'), ('\x85', 'N'), ('\xa0', '_'), ('\u2028', 'L'),
    ('\u2029', 'P')]
  match letters.lookup c with
  | some letter => some ['\\', letter]
  | none =>
    if ' ' ≤ c && c ≤ '~' then none
    else match Text.numericEscape c.toNat with
      | slash :: letter :: digits => some (slash :: letter :: digits.map Char.toUpper)
      | short => some short

/-- text in double quotes, the quotes apart, from a character on; `pending` holds what is not written yet (last first).
A line is folded after a backslash, at a blank or an escape that is neither first nor last -/
def putDouble (indent : Nat) (fold first : Bool) (pending : List Char) (p : Pen) : List Char → Pen
  | [] => p.put pending.reverse
  | c :: rest =>
    let foldable := fold && !first && !rest.isEmpty
    match doubleEscape? c with
    | some escape =>
      let p := (p.put pending.reverse).put escape
      let p := if foldable && bestWidth + 1 < p.column then
          let p := { (p.put ['\\']).indentTo indent with blank := false, indented := false }
          if rest.head? == some ' ' then p.put ['\\'] else p
        else p
      putDouble indent fold false [] p rest
    | none =>
      if foldable && (c == ' ' || pending.isEmpty) && bestWidth < p.column + pending.length then
        let p := { (p.put (pending.reverse ++ ['\\'])).indentTo indent with blank := false, indented := false }
        let p := if c == ' ' then p.put ['\\'] else p
        putDouble indent fold false [c] p rest
      else putDouble indent fold false (c :: pending) p rest

/-- text in a style, at an indentation for its further lines -/
def putStyled (indent : Nat) (fold : Bool) (style : Style) (cs : List Char) (p : Pen) : Pen :=
  match style with
  | .plain =>
    if cs.isEmpty then p
    else
      let p := if p.blank then p else p.put [' ']
      putPlain indent fold { p with blank := false, indented := false } (runs cs)
  | .single => (putSingle indent fold true (p.mark ['\''] true false) (runs cs)).mark ['\''] false false
  | .double => (putDouble indent fold true [] (p.mark ['"'] true false) cs).mark ['"'] false false

/-! ## Values -/

/-- a floating point number, always with a point -/
def realText : Real64 → List Char
  | .nan => ".nan".toList
  | .infinite negative => (if negative then "-.inf" else ".inf").toList
  | x =>
    let cs := x.text.toList
    if cs.contains '.' then cs
    else cs.takeWhile (· != 'e') ++ (if cs.contains 'e' then ".0".toList else []) ++ cs.dropWhile (· != 'e')

/-- the text of a scalar, and whether plain text would read back as it -/
def scalarText : Scalar → List Char × Bool
  | .null => ("null".toList, true)
  | .bool b => ((if b then "true" else "false").toList, true)
  | .int n => ((intText n).toList, true)
  | .real x => (realText x, true)
  | .text s => (s.toList, implicitTag s.toList == .text)
  | s => (s.shown.toList, true)

/-- the indentation inside a node -/
def deeper : Option Nat → Nat
  | none => 2
  | some i => i + 2

/-- a scalar; `key` tells whether it is a key on the line of its value -/
def putScalar (indent : Option Nat) (key : Bool) (s : Scalar) (p : Pen) : Pen :=
  let (cs, implied) := scalarText s
  putStyled (deeper indent) (!key) (styleOf implied key cs) cs p

/-- a key that fits on the line of its value: short, not empty, and on one line -/
def isShortKey (s : Scalar) : Bool :=
  let cs := (scalarText s).1
  let tag := match s with
    | .text _ | .int _ => 5
    | .bool _ | .null => 6
    | .real _ => 7
    | _ => 11
  cs.length + tag < 128 && !cs.isEmpty && !cs.contains '\n'

/-- items in order, each before the first that it need not follow. A sort that recurses on lengths, as `List.mergeSort`
does, would not evaluate inside a proof. -/
def inOrder {α : Type} (le : α → α → Bool) (items : List α) : List α :=
  items.foldr (fun item done => done.insertIdx (done.findIdx (le item)) item) []

/-- entries sorted by their keys, if those can be compared with each other -/
def sortEntries (entries : Entries) : Entries :=
  let texts := entries.filterMap fun (k, v) => match k with
    | .text s => some (s, k, v)
    | _ => none
  let ints := entries.filterMap fun (k, v) => match k with
    | .int n => some (n, k, v)
    | .bool b => some (if b then 1 else 0, k, v)
    | _ => none
  if texts.length == entries.length then (inOrder (fun a b => decide (a.1 ≤ b.1)) texts).map (·.2)
  else if ints.length == entries.length then (inOrder (fun a b => decide (a.1 ≤ b.1)) ints).map (·.2)
  else entries

mutual

/-- the value with the entries of every mapping sorted -/
def sorted : Value → Value
  | .list items => .list (sortedItems items)
  | .map entries => .map (sortEntries (sortedEntries entries))
  | v => v

def sortedItems : List Value → List Value
  | [] => []
  | v :: rest => sorted v :: sortedItems rest

def sortedEntries : List (Scalar × Value) → List (Scalar × Value)
  | [] => []
  | (k, v) :: rest => (k, sorted v) :: sortedEntries rest

end

mutual

/-- a value whose mappings are sorted; `inMapping` tells whether it is a value of a mapping -/
def putValue (indent : Option Nat) (inMapping : Bool) (p : Pen) : Value → Pen
  | .scalar s => putScalar indent false s p
  | .list [] => (p.mark ['['] true false).mark [']'] false false
  | .list items =>
    let inner := match indent with
      | none => 0
      | some i => if inMapping && !p.indented then i else i + 2
    putItems inner p items
  | .map [] => (p.mark ['\x7b'] true false).mark ['\x7d'] false false
  | .map entries =>
    let inner := match indent with
      | none => 0
      | some i => i + 2
    putEntries inner p entries
  | .record _ _ _ => p

def putItems (indent : Nat) (p : Pen) : List Value → Pen
  | [] => p
  | v :: rest => putItems indent (putValue (some indent) false ((p.indentTo indent).mark ['-'] true true) v) rest

def putEntries (indent : Nat) (p : Pen) : List (Scalar × Value) → Pen
  | [] => p
  | (k, v) :: rest =>
    let p := p.indentTo indent
    let p := if isShortKey k then (putScalar (some indent) true k p).mark [':'] false false
      else ((putScalar (some indent) false k (p.mark ['?'] true true)).indentTo indent).mark [':'] true true
    putEntries indent (putValue (some indent) true p v) rest

end

/-- the text of a settings file -/
def write (v : Value) : List Char :=
  ((putValue none false .start (sorted v)).indentTo 0).out.reverse

end ClassNaming.Yaml
