import LaunchEditor.Proofs.Editor.Retype
import LaunchEditor.Proofs.Session.Outcome
import LaunchEditor.Proofs.Session.Trace

/-! # Edits that are given up

An edit changes nothing but itself until it is confirmed, and no key but Enter, Tab, Escape and the
interrupt ends it. So whatever has been typed, giving it up leads back to where it was begun.
-/
namespace LaunchEditor.Editor

theorem stays_type {e : Editor} {edit : Edit} (he : e.edit = some edit) {ks : List Key}
    (hks : ∀ k ∈ ks, k ∉ editKeys) : e.Stays ks := by
  induction ks generalizing e edit with
  | nil => trivial
  | cons k ks ih =>
    obtain ⟨hk, hks⟩ := List.forall_mem_cons.mp hks
    rw [Stays, update_type he hk]
    exact ⟨rfl, ih rfl hks⟩

theorem cancelEdit_eq_self {e : Editor} (he : e.edit = none) : e.cancelEdit = e := by
  rw [cancelEdit, ← he]

section
variable {e : Editor} {p : Parameter} (he : e.edit = none) (hp : e.current? = some p) {c : Char}
  (hc : Key.isEditStart c = true) {ks : List Key} (hks : ∀ k ∈ ks, k ∉ editKeys)
include he hp hc hks

theorem stays_begin : e.Stays (.char c :: ks) := by
  rw [Stays, update_begin he hp hc]
  exact ⟨rfl, stays_type rfl hks⟩

theorem pressed_begin : e.pressed (.char c :: ks) =
    { e with edit := some (ks.foldl Edit.type (.start c p.segments?)) } :=
  run_begin he hp hc hks

theorem update_pressed_begin :
    (e.pressed (.char c :: ks)).update (.key .escape) = (e, .stay) ∧
      (e.pressed (.char c :: ks)).update (.key .interrupt) = (e, .quit) := by
  rw [pressed_begin he hp hc hks]
  constructor
  · change (e.cancelEdit, Transition.stay) = _
    rw [cancelEdit_eq_self he]
  · change (e.cancelEdit, Transition.quit) = _
    rw [cancelEdit_eq_self he]

end

/-- Wherever a run has led the editor to be browsed, an edit that is begun there goes on whatever is
typed, and nothing but the edit changes. Escape then brings the very same editor back and an
interrupt quits with it, so that what is selected is the same as without the edit. -/
theorem run_abandoned (catalog : Catalog) (image : String) (messages : List Message)
    (hmode : ((new catalog image).run messages).mode = .browsing)
    (hfailure : ((new catalog image).run messages).failure = none)
    (hne : ((new catalog image).run messages).parameters ≠ []) {c : Char}
    (hc : c.isAlphanum = true) {ks : List Key} (hks : ∀ k ∈ ks, k ∉ editKeys) :
    let e := (new catalog image).run messages
    let live := e.pressed (.char c :: ks)
    live.mode = .editing ∧ { live with edit := e.edit } = e ∧ e.Stays (.char c :: ks) ∧
      live.update (.key .escape) = (e, .stay) ∧ live.update (.key .interrupt) = (e, .quit) ∧
      ∃ selections, e.commit = .ok selections ∧
        (live.update (.key .escape)).1.commit = .ok selections ∧
        (live.update (.key .interrupt)).1.commit = .ok selections := by
  intro e live
  have he : e.edit = none := edit_of_browsing hmode
  have hconsistent : e.Consistent := run_consistent catalog image messages
  obtain ⟨p, hp⟩ := hconsistent.exists_current? hne
  have hlive := pressed_begin he hp hc hks
  obtain ⟨hescape, hinterrupt⟩ := update_pressed_begin he hp hc hks
  obtain ⟨selections, hcommit⟩ := exists_commit_eq he hfailure
  refine ⟨?_, ?_, stays_begin he hp hc hks, hescape, hinterrupt, selections, hcommit, ?_, ?_⟩
  · simp only [live, hlive, mode]
    rfl
  · simp only [live, hlive]
  · rw [hescape, hcommit]
  · rw [hinterrupt, hcommit]

/-- Keys that lead from one parameter to another in browsing do not do so while an edit is live. -/
theorem run_abandoned_arrows :
    let e := (new .builtin "postgres").run [.key .down, .key .down]
    let ks : List Key := [.up, .char 'c', .left, .backTab, .backspace, .char '!', .down, .other]
    e.mode = .browsing ∧ e.failure = none ∧ e.parameters ≠ [] ∧ 's'.isAlphanum = true ∧
      (∀ k ∈ ks, k ∉ editKeys) ∧
      (e.pressed (.char 's' :: ks)).edit.map (·.buffer) = some "!c" ∧
      (e.pressed (.char 's' :: ks)).update (.key .escape) = (e, .stay) := by
  intro e ks
  have hmode : e.mode = .browsing := rfl
  have hfailure : e.failure = none := rfl
  have hne : e.parameters ≠ [] := by decide
  have hc : 's'.isAlphanum = true := by decide
  have hks : ∀ k ∈ ks, k ∉ editKeys := by decide
  obtain ⟨_, _, _, hescape, _⟩ :=
    run_abandoned .builtin "postgres" [.key .down, .key .down] hmode hfailure hne hc hks
  exact ⟨hmode, hfailure, hne, hc, hks, by decide, hescape⟩

end LaunchEditor.Editor
