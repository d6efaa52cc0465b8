/-
Finding the files of a scan.

In each directory the files come first, by name, and then what is found in the kept subdirectories, by their names, so
the order in which a directory lists its entries does not matter.
-/
import ClassNaming.Files.Tree
import ClassNaming.Source.Exclusion
import ClassNaming.Source.Registry

namespace ClassNaming

/-- named things in the order of their names -/
def sortByName {α : Type} (named : List (String × α)) : List (String × α) :=
  named.mergeSort fun a b => decide (a.1 ≤ b.1)

namespace Tree

/-- the names of the wanted files among entries -/
def fileNames (wanted : String → Bool) : List (String × Tree) → List (String × List String)
  | [] => []
  | (name, .file _) :: rest => if wanted name then (name, [name]) :: fileNames wanted rest else fileNames wanted rest
  | (_, .dir _) :: rest => fileNames wanted rest

mutual

/-- the chains of names to the wanted files below a directory, not entering those that are skipped -/
def wantedBelow (skips wanted : String → Bool) : Tree → List (List String)
  | .file _ => []
  | .dir entries =>
    (sortByName (fileNames wanted entries)).map (·.2)
      ++ (sortByName (wantedBelowEach skips wanted entries)).flatMap (·.2)

/-- for each kept directory among entries, the chains of names to what is below it -/
def wantedBelowEach (skips wanted : String → Bool) : List (String × Tree) → List (String × List (List String))
  | [] => []
  | (name, t) :: rest =>
    if t.isDir && !skips name then
      (name, (wantedBelow skips wanted t).map (name :: ·)) :: wantedBelowEach skips wanted rest
    else wantedBelowEach skips wanted rest

end

end Tree

/-- the supported files under a root, or the root itself if it is one -/
def discover (registry : Registry) (exclusion : Exclusion) (files : Tree) (root : Path) : Except Fault (List Path) :=
  match files.find root with
  | .error _ => .error (.noRoot root.text)
  | .ok (.file _) => .ok (if registry.isSupported root then [root] else [])
  | .ok t =>
    .ok ((t.wantedBelow exclusion.skips fun name => registry.isSupported ⟨"", [name]⟩).map root.append)

end ClassNaming
