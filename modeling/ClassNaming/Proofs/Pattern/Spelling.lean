/-
Texts with their characters written out.

To evaluate what a source is read into, its characters have to be at hand: taking them off the text is slow, and a proof
by evaluation would do it again at every look. A spelling holds the characters beside the text. For a literal they are
found by unification, and spellings of parts are put together like the parts.

- `Spelling.read_eq`: a source is read by reading its spelling.
-/
import ClassNaming.Pattern.Reader

namespace ClassNaming

/-- the characters of a text -/
abbrev Spelling (text : String) := { cs : List Char // text = String.ofList cs }

namespace Spelling

variable {a b : String}

def literal {cs : List Char} : Spelling (String.ofList cs) := ⟨cs, rfl⟩

def append (x : Spelling a) (y : Spelling b) : Spelling (a ++ b) :=
  ⟨x.1 ++ y.1, by rw [String.ofList_append, ← x.2, ← y.2]⟩

theorem read_eq (x : Spelling a) : Pattern.read a = Pattern.readChars x.1 := by
  obtain ⟨cs, rfl⟩ := x
  rw [Pattern.read, String.toList_ofList]

end Spelling

/-- the characters of each of several texts -/
abbrev Spellings (texts : List String) := { css : List (List Char) // texts = css.map String.ofList }

namespace Spellings

theorem cons {cs : List Char} {css : List (List Char)} {texts : List String} (h : texts = css.map String.ofList) :
    String.ofList cs :: texts = (cs :: css).map String.ofList := by
  rw [h, List.map_cons]

theorem map_eq {α : Type} {texts : List String} (x : Spellings texts) (f : String → α) :
    texts.map f = x.1.map fun cs => f (String.ofList cs) := by
  obtain ⟨css, rfl⟩ := x
  rw [List.map_map]
  rfl

end Spellings

end ClassNaming
