/-
Filling lines with words.

A text is cut into chunks: words, the blanks between them, and the parts of a hyphenated word. A line takes chunks as
long as they fit; a chunk wider than a whole line is cut where the line is full, or after its last hyphen before that.
One blank chunk is dropped at each end of a line. Letters are those of ASCII, the only ones in the texts that are
filled.
-/

namespace ClassNaming.Text

/-- a hyphen between `before`, last character first, and `after` ends a chunk: it stands between letters -/
def breaksAtHyphen (before after : List Char) : Bool :=
  (match before with
    | a :: b :: _ => a.isAlpha && b.isAlpha
    | _ => false)
  && (match after with
    | a :: b :: _ => a.isAlpha && b.isAlpha
    | _ => false)

/-- the parts of a word, `part` being the characters of the current one, last first -/
def hyphenParts (part : List Char) : List Char → List (List Char)
  | [] => if part.isEmpty then [] else [part.reverse]
  | c :: rest =>
    if c == '-' && breaksAtHyphen part rest then (c :: part).reverse :: hyphenParts [] rest
    else hyphenParts (c :: part) rest

/-- the words between blanks, `word` being the characters of the current one, last first -/
def wordsFrom (word : List Char) : List Char → List (List Char)
  | [] => if word.isEmpty then [] else [word.reverse]
  | c :: rest =>
    if c != ' ' then wordsFrom (c :: word) rest
    else if word.isEmpty then wordsFrom [] rest
    else word.reverse :: wordsFrom [] rest

/-- the chunks of a text: the parts of its words, and a blank between words -/
def chunks (cs : List Char) : List (List Char) :=
  (((wordsFrom [] cs).map (hyphenParts [])).intersperse [[' ']]).flatten

def isBlankChunk (chunk : List Char) : Bool :=
  chunk.all (· == ' ')

/-- the chunks that fit into `width`, and those that are left -/
def takeFitting (width : Nat) : List (List Char) → List (List Char) × List (List Char)
  | [] => ([], [])
  | chunk :: rest =>
    if chunk.length ≤ width then
      let fitting := takeFitting (width - chunk.length) rest
      (chunk :: fitting.1, fitting.2)
    else ([], chunk :: rest)

/-- where a chunk that is too wide is cut to fit into `room` -/
def cutAt (room : Nat) (chunk : List Char) : Nat :=
  let fitting := chunk.take room
  let afterHyphen := (fitting.reverse.takeWhile (· != '-')).length
  let upToHyphen := fitting.length - afterHyphen
  if (fitting.take (upToHyphen - 1)).any (· != '-') then upToHyphen else room

/-- drop the last chunk of a line if it is blank -/
def dropLastBlank (line : List (List Char)) : List (List Char) :=
  match line.getLast? with
  | some chunk => if isBlankChunk chunk then line.dropLast else line
  | none => line

/-- drop the first chunk if it is blank -/
def dropFirstBlank : List (List Char) → List (List Char)
  | chunk :: rest => if isBlankChunk chunk then rest else chunk :: rest
  | [] => []

/-- lines of chunks; the fuel is the number of characters and chunks -/
def fillFrom (width : Nat) : Nat → List (List Char) → List (List Char)
  | 0, _ => []
  | fuel + 1, cs =>
    let fitting := takeFitting width (dropFirstBlank cs)
    let (line, left) := match fitting.2 with
      | chunk :: rest =>
        if width < chunk.length then
          let place := cutAt (width - fitting.1.flatten.length) chunk
          (fitting.1 ++ [chunk.take place], chunk.drop place :: rest)
        else fitting
      | [] => fitting
    let line := dropLastBlank line
    let lines := if left.isEmpty then [] else fillFrom width fuel left
    if line.isEmpty then lines else line.flatten :: lines

/-- the lines of a text within a width of at least one -/
def fill (width : Nat) (s : String) : List String :=
  let parts := chunks s.toList
  (fillFrom width (s.length + parts.length + 1) parts).map String.ofList

end ClassNaming.Text
