/-
Which files are read, and how: sources with their extensions, and the registry that routes a file to its source.

The registry keeps two maps: sources by name, in the order they came, and the name an extension in lower case is
reserved for. A registration is refused if one of its extensions is reserved for another name. Dropping a source frees
the extensions it has now, so an extension of an earlier registration under the same name stays reserved.
-/
import ClassNaming.Extract.Markup
import ClassNaming.Extract.Selector
import ClassNaming.Fault
import ClassNaming.Files.Path
import ClassNaming.Table
import ClassNaming.Text.Case

namespace ClassNaming

/-- what comes of looking for tokens in a text; an extractor may fail, or not answer before it is stopped -/
inductive Extraction where
  | tokens (found : List String)
  | fails (cause : Fault)
  | stalls
deriving Repr

/-- a family of source files -/
structure Source where
  name : String
  category : String
  extensions : List String
  extract : String → Extraction

namespace Source

/-- the source lists the extension, given in any letter case, as it is written in lower case -/
def matchesExtension (s : Source) (extension : String) : Bool :=
  s.extensions.contains (Text.lower extension)

def markup : Source := ⟨"Markup", "markup", [".jsx", ".tsx", ".js", ".ts"], fun s => .tokens (Extract.markup s)⟩

def stylesheet : Source :=
  ⟨"Stylesheet", "stylesheet", [".css", ".scss", ".sass"], fun s => .tokens (Extract.stylesheet s)⟩

def html : Source := ⟨"HTML", "html", [".html"], fun s => .tokens (Extract.html s)⟩

end Source

/-- sources by name, and names by extension -/
structure Registry where
  sources : List (String × Source)
  owners : List (String × String)

namespace Registry

def empty : Registry := ⟨[], []⟩

/-- the name an extension is reserved for -/
def owner? (r : Registry) (extension : String) : Option String :=
  r.owners.lookup (Text.lower extension)

/-- the first extension that is reserved for a name other than `name`, with that name -/
def conflict? (r : Registry) (name : String) : List String → Option (String × String)
  | [] => none
  | extension :: rest =>
    match r.owner? extension with
    | some owner => if owner == name then conflict? r name rest else some (extension, owner)
    | none => conflict? r name rest

/-- register a source, or leave everything as it is -/
def register (r : Registry) (s : Source) : Except Fault Registry :=
  match r.conflict? s.name s.extensions with
  | some (extension, owner) => .error (.extensionTaken extension owner s.name)
  | none => .ok ⟨Table.set s.name s r.sources,
      s.extensions.foldl (fun owners e => Table.set (Text.lower e) s.name owners) r.owners⟩

/-- the source of a name -/
def byName? (r : Registry) (name : String) : Option Source :=
  r.sources.lookup name

/-- drop the source of a name and free its extensions; tells whether it was there -/
def unregister (r : Registry) (name : String) : Bool × Registry :=
  match r.byName? name with
  | none => (false, r)
  | some s =>
    (true, ⟨r.sources.filter fun entry => entry.1 != name,
      r.owners.filter fun entry => !(entry.2 == name && s.extensions.any fun e => Text.lower e == entry.1)⟩)

/-- the source for a file -/
def sourceFor? (r : Registry) (p : Path) : Option Source :=
  match r.owner? p.suffix with
  | some name => if name.isEmpty then none else r.byName? name
  | none => none

/-- the extension of a file is reserved -/
def isSupported (r : Registry) (p : Path) : Bool :=
  (r.owner? p.suffix).isSome

/-- the reserved extensions, sorted -/
def extensions (r : Registry) : List String :=
  (r.owners.map (·.1)).mergeSort fun a b => decide (a ≤ b)

/-- the registered names, in the order they came -/
def names (r : Registry) : List String :=
  r.sources.map (·.1)

/-- register sources one after the other -/
def registerAll (r : Registry) : List Source → Except Fault Registry
  | [] => .ok r
  | s :: rest => do (← r.register s).registerAll rest

/-- markup, stylesheets and HTML -/
def builtin : Registry :=
  match empty.registerAll [.markup, .stylesheet, .html] with
  | .ok r => r
  | .error _ => empty

end Registry

end ClassNaming
