/-
The built-in registry: markup, stylesheets and HTML, each under extensions of its own.

- `builtin_ok`: none of the three registrations is refused.
- `sourceFor?_builtin_iff`: so a file is read by the source that has its extension, in any letter case.
- `builtin_agrees`: a source matches the files that it reads, and no other source does.
-/
import ClassNaming.Proofs.Source.Routing

namespace ClassNaming

namespace Registry

theorem lowered_markup : Source.markup.lowered = [".jsx", ".tsx", ".js", ".ts"] := lowered_of_small (by decide)

theorem lowered_stylesheet : Source.stylesheet.lowered = [".css", ".scss", ".sass"] := lowered_of_small (by decide)

theorem lowered_html : Source.html.lowered = [".html"] := lowered_of_small (by decide)

theorem builtin_apart : [Source.markup, .stylesheet, .html].Pairwise Apart := by
  have hmarkup : Apart .markup .stylesheet ∧ Apart .markup .html := by
    unfold Apart
    rw [lowered_markup, lowered_stylesheet, lowered_html]
    decide
  have hstylesheet : Apart .stylesheet .html := by
    unfold Apart
    rw [lowered_stylesheet, lowered_html]
    decide
  simp [hmarkup, hstylesheet]

theorem builtin_named : ∀ s ∈ [Source.markup, .stylesheet, .html], s.name ≠ "" := by
  simp only [List.forall_mem_cons]
  exact ⟨by decide, by decide, by decide, by simp⟩

theorem builtin_eq_of_ok {r : Registry} (h : empty.registerAll [.markup, .stylesheet, .html] = .ok r) :
    builtin = r := by
  unfold builtin
  simp only [h]

theorem builtin_ok : empty.registerAll [.markup, .stylesheet, .html] = .ok builtin := by
  obtain ⟨r, hok, -⟩ := sourceFor?_registerAll_iff builtin_apart builtin_named (List.Perm.refl _)
  rw [builtin_eq_of_ok hok]
  exact hok

/-- a file is read by the source that has its extension, in any letter case -/
theorem sourceFor?_builtin_iff (p : Path) (s : Source) :
    builtin.sourceFor? p = some s ↔ s ∈ [Source.markup, .stylesheet, .html] ∧ Text.lower p.suffix ∈ s.lowered := by
  obtain ⟨r, hok, hr⟩ := sourceFor?_registerAll_iff builtin_apart builtin_named (List.Perm.refl _)
  rw [builtin_eq_of_ok hok]
  exact hr p s

theorem sourceFor?_html {p : Path} (h : Text.lower p.suffix = ".html") : builtin.sourceFor? p = some .html := by
  refine (sourceFor?_builtin_iff p .html).2 ⟨by simp, ?_⟩
  rw [h, lowered_html]
  exact List.mem_singleton_self _

theorem isSupported_html {p : Path} (h : Text.lower p.suffix = ".html") : builtin.isSupported p = true :=
  isSupported_of_sourceFor? (by rw [sourceFor?_html h, Option.isSome_some])

theorem sourceFor?_markup {p : Path} (h : Text.lower p.suffix ∈ Source.markup.lowered) :
    builtin.sourceFor? p = some .markup :=
  (sourceFor?_builtin_iff p .markup).2 ⟨by simp, h⟩

theorem builtin_agrees : builtin.Agrees := by
  refine agrees_of_lowered builtin_apart builtin_named ?_ builtin_ok
  simp only [List.forall_mem_cons]
  exact ⟨lowered_markup, lowered_stylesheet, lowered_html, by simp⟩

end Registry

end ClassNaming
