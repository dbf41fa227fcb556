import LaunchEditor.Editor
import Mathlib.Data.List.Basic

/-! # The steps of the editor

Everything that one message can do to the editor, by the mode that it arrives in. A property of
every state that the editor reaches is proved once for each kind of step.
-/
namespace LaunchEditor.Editor

/-- Keys that an edit does not put into its line. -/
def editKeys : List Key := [.enter, .tab, .escape, .interrupt]

inductive Step (e : Editor) : Message → Editor → Transition → Prop where
  | fail (reason : String) : Step e (.failure reason) { e with failure := some reason } .quit
  | leave {k : Key} (he : e.edit = none) (hk : k ∈ [.escape, .interrupt, .enter]) :
      Step e (.key k) e .quit
  | previous {k : Key} (he : e.edit = none) (hk : k ∈ [.left, .up, .backTab]) :
      Step e (.key k) e.selectPrevious .stay
  | next {k : Key} (he : e.edit = none) (hk : k ∈ [.right, .down, .tab]) :
      Step e (.key k) e.selectNext .stay
  | begin {c : Char} (he : e.edit = none) (hc : Key.isEditStart c = true) :
      Step e (.key (.char c)) (e.beginEdit c) .stay
  | ignore {k : Key} (he : e.edit = none)
      (hk : k = .backspace ∨ k = .other ∨ ∃ c, k = .char c ∧ Key.isEditStart c = false) :
      Step e (.key k) e .stay
  | confirm {edit : Edit} (he : e.edit = some edit) : Step e (.key .enter) e.commitEdit .stay
  | advance {edit : Edit} (he : e.edit = some edit) :
      Step e (.key .tab) e.commitEdit.selectNext .stay
  | cancel {edit : Edit} (he : e.edit = some edit) : Step e (.key .escape) e.cancelEdit .stay
  | abandon {edit : Edit} (he : e.edit = some edit) :
      Step e (.key .interrupt) e.cancelEdit .quit
  | type {edit : Edit} {k : Key} (he : e.edit = some edit) (hk : k ∉ editKeys) :
      Step e (.key k) { e with edit := some (edit.type k) } .stay

theorem browse_step (e : Editor) (k : Key) (he : e.edit = none) :
    e.Step (.key k) (e.browse k).1 (e.browse k).2 := by
  cases k with
  | enter | escape | interrupt => exact .leave he (by simp)
  | left | up | backTab => exact .previous he (by simp)
  | right | down | tab => exact .next he (by simp)
  | backspace => exact .ignore he (.inl rfl)
  | other => exact .ignore he (.inr (.inl rfl))
  | char c =>
    cases hc : Key.isEditStart c with
    | true => simpa [browse, hc] using Step.begin he hc
    | false => simpa [browse, hc] using Step.ignore he (.inr (.inr ⟨c, rfl, hc⟩))

theorem continueEdit_step (e : Editor) {edit : Edit} (k : Key) (he : e.edit = some edit) :
    e.Step (.key k) (e.continueEdit edit k).1 (e.continueEdit edit k).2 := by
  cases k with
  | enter => exact .confirm he
  | tab => exact .advance he
  | escape => exact .cancel he
  | interrupt => exact .abandon he
  | _ => exact .type he (by simp [editKeys])

theorem update_step (e : Editor) (m : Message) : e.Step m (e.update m).1 (e.update m).2 := by
  cases m with
  | failure reason => exact .fail reason
  | key k =>
    cases he : e.edit with
    | none => simpa [update, he] using browse_step e k he
    | some edit => simpa [update, he] using continueEdit_step e k he

theorem edit_of_browsing {e : Editor} (h : e.mode = .browsing) : e.edit = none := by
  cases he : e.edit with
  | none => rfl
  | some edit => simp [mode, he] at h

theorem run_cons (e : Editor) (m : Message) (ms : List Message) :
    e.run (m :: ms) = (e.update m).1.run ms := rfl

/-- What every step preserves holds of every state of a run. -/
theorem run_preserves {P : Editor → Prop}
    (hP : ∀ {e m f t}, P e → Step e m f t → P f) {e : Editor} (h : P e)
    (messages : List Message) : P (e.run messages) := by
  induction messages generalizing e with
  | nil => exact h
  | cons m ms ih => exact ih (hP h (e.update_step m))

@[simp] theorem selectPrevious_parameters (e : Editor) :
    e.selectPrevious.parameters = e.parameters := by
  unfold selectPrevious
  split <;> rfl

@[simp] theorem selectPrevious_edit (e : Editor) : e.selectPrevious.edit = e.edit := by
  unfold selectPrevious
  split <;> rfl

@[simp] theorem selectNext_parameters (e : Editor) : e.selectNext.parameters = e.parameters := by
  unfold selectNext
  split <;> rfl

@[simp] theorem selectNext_edit (e : Editor) : e.selectNext.edit = e.edit := by
  unfold selectNext
  split <;> rfl

@[simp] theorem beginEdit_parameters (e : Editor) (c : Char) :
    (e.beginEdit c).parameters = e.parameters := by
  unfold beginEdit
  split <;> rfl

@[simp] theorem beginEdit_selected (e : Editor) (c : Char) :
    (e.beginEdit c).selected = e.selected := by
  unfold beginEdit
  split <;> rfl

@[simp] theorem commitEdit_edit (e : Editor) : e.commitEdit.edit = none := by
  unfold commitEdit
  split
  · assumption
  · rfl

@[simp] theorem commitEdit_selected (e : Editor) : e.commitEdit.selected = e.selected := by
  unfold commitEdit
  split <;> rfl

@[simp] theorem commitEdit_length (e : Editor) :
    e.commitEdit.parameters.length = e.parameters.length := by
  unfold commitEdit
  split <;> simp

@[simp] theorem cancelEdit_edit (e : Editor) : e.cancelEdit.edit = none := rfl

@[simp] theorem selectPrevious_failure (e : Editor) : e.selectPrevious.failure = e.failure := by
  unfold selectPrevious
  split <;> rfl

@[simp] theorem selectNext_failure (e : Editor) : e.selectNext.failure = e.failure := by
  unfold selectNext
  split <;> rfl

@[simp] theorem beginEdit_failure (e : Editor) (c : Char) :
    (e.beginEdit c).failure = e.failure := by
  unfold beginEdit
  split <;> rfl

@[simp] theorem commitEdit_failure (e : Editor) : e.commitEdit.failure = e.failure := by
  unfold commitEdit
  split <;> rfl

end LaunchEditor.Editor
