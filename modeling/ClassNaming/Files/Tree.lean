/-
Directory trees, and what happens to files in them.

A tree is a file with its bytes or a directory with named entries. Paths are walked name by name: a name has to be in a
directory, and two dots lead back to the directory above. Every path is read from the root of the tree, where a run puts
all that it works on, the user's directory under a name of its own: an anchored path is not there, nor is what lies
outside the tree.
-/
import ClassNaming.Files.Path
import ClassNaming.Table
import ClassNaming.Text.Utf8

namespace ClassNaming

/-- a file or a directory -/
inductive Tree where
  | file (content : List UInt8)
  | dir (entries : List (String × Tree))
deriving Repr, Inhabited

namespace Tree

/-- a directory without entries -/
def empty : Tree := .dir []

def isDir : Tree → Bool
  | .dir _ => true
  | .file _ => false

/-- the entry of a name -/
def child? : Tree → String → Option Tree
  | .dir entries, name => entries.lookup name
  | .file _, _ => none

/-- what stands at a chain of names -/
def at? (t : Tree) : List String → Option Tree
  | [] => some t
  | name :: rest => (t.child? name).bind (at? · rest)

/-- put something at a chain of names, with the directories that lead to it -/
def put : Tree → List String → Tree → Tree
  | _, [], new => new
  | .dir entries, name :: rest, new =>
    .dir (Table.set name (put ((entries.lookup name).getD empty) rest new) entries)
  | .file _, name :: rest, new => .dir [(name, put empty rest new)]

/-- the chain of names a path leads to, `trail` being the names walked so far -/
def locate (t : Tree) (trail : List String) : List String → Except FileError (List String)
  | [] => .ok trail
  | name :: rest =>
    match t.at? trail with
    | some (.dir entries) =>
      if name == ".." then
        if trail.isEmpty then .error .missing else locate t trail.dropLast rest
      else if (entries.lookup name).isSome then locate t (trail ++ [name]) rest
      else .error .missing
    | some (.file _) => .error .notDirectory
    | none => .error .missing

/-- what a path leads to -/
def find (t : Tree) (p : Path) : Except FileError Tree := do
  if !p.anchor.isEmpty then throw .missing
  let trail ← t.locate [] p.parts
  match t.at? trail with
  | some found => return found
  | none => throw .missing

def isFile (t : Tree) (p : Path) : Bool :=
  match t.find p with
  | .ok (.file _) => true
  | _ => false

def isDirectory (t : Tree) (p : Path) : Bool :=
  match t.find p with
  | .ok (.dir _) => true
  | _ => false

/-- there is something at the path -/
def has (t : Tree) (p : Path) : Bool :=
  match t.find p with
  | .ok _ => true
  | .error _ => false

/-- the bytes of a file -/
def readBytes (t : Tree) (p : Path) : Except Fault (List UInt8) :=
  match t.find p with
  | .ok (.file content) => .ok content
  | .ok (.dir _) => .error (.file .isDirectory p.text)
  | .error e => .error (.file e p.text)

/-- the text of a file, its line ends unified -/
def readText (t : Tree) (p : Path) : Except Fault (List Char) := do
  return Text.unifyLineEnds (← Utf8.decode (← t.readBytes p))

/-- where the last name of a path would stand: the chain of names of its directory and the name -/
def place (t : Tree) (p : Path) : Except FileError (List String × String) := do
  if !p.anchor.isEmpty then throw .missing
  match p.parts.getLast? with
  | none => throw .isDirectory
  | some name =>
    let trail ← t.locate [] p.parts.dropLast
    match t.at? trail with
    | some (.dir _) => if name == ".." then throw .isDirectory else return (trail, name)
    | _ => throw .notDirectory

/-- write a file; its directory must be there -/
def writeBytes (t : Tree) (p : Path) (content : List UInt8) : Except Fault Tree :=
  match t.place p with
  | .error e => .error (.file e p.text)
  | .ok (trail, name) =>
    match t.at? (trail ++ [name]) with
    | some (.dir _) => .error (.file .isDirectory p.text)
    | _ => .ok (t.put (trail ++ [name]) (.file content))

/-- write a text file -/
def writeText (t : Tree) (p : Path) (text : String) : Except Fault Tree :=
  t.writeBytes p (Utf8.encode text.toList)

/-- make one directory -/
def makeDir (t : Tree) (p : Path) : Except FileError Tree := do
  if p.parts.isEmpty then throw .exists
  let (trail, name) ← match t.place p with
    | .error .isDirectory => throw FileError.exists
    | other => other
  match t.at? (trail ++ [name]) with
  | some _ => throw .exists
  | none => return t.put (trail ++ [name]) empty

/-- make a directory and those that lead to it, given by the reverse of its names; one that is there already is fine -/
def makeDirsRev (t : Tree) : List String → Except Fault Tree
  | [] => .ok t
  | name :: above =>
    let p : Path := ⟨"", (name :: above).reverse⟩
    match t.makeDir p with
    | .ok made => .ok made
    | .error .missing =>
      match makeDirsRev t above with
      | .error f => .error f
      | .ok t =>
        match t.makeDir p with
        | .ok made => .ok made
        | .error e => if t.isDirectory p then .ok t else .error (.file e p.text)
    | .error e => if t.isDirectory p then .ok t else .error (.file e p.text)

/-- make a directory and those that lead to it -/
def makeDirs (t : Tree) (p : Path) : Except Fault Tree :=
  if p.anchor.isEmpty then makeDirsRev t p.parts.reverse else .error (.file .missing p.text)

mutual

/-- every file, with the chain of names that leads to it -/
def files : Tree → List (List String × List UInt8)
  | .file content => [([], content)]
  | .dir entries => filesEach entries

def filesEach : List (String × Tree) → List (List String × List UInt8)
  | [] => []
  | (name, t) :: rest => (files t).map (fun f => (name :: f.1, f.2)) ++ filesEach rest

end

/-- the files that are new in `after` or have other bytes than before -/
def changes (before after : Tree) : List (List String × List UInt8) :=
  let old := before.files
  after.files.filter fun f => old.lookup f.1 != some f.2

end Tree

end ClassNaming
