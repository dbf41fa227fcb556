import LaunchEditor.Proofs.Editor.Color
import LaunchEditor.Proofs.Session.Outcome

/-! # Failures of the session around the editor

A failure is kept beside everything else: keys go on to work as they would without it, and it goes
on to stand for whatever the editor would show or select, until a later failure takes its place.
-/
namespace LaunchEditor

namespace Message

def failure? : Message → Option String
  | failure reason => some reason
  | key _ => none

def isKey : Message → Bool
  | failure _ => false
  | key _ => true

end Message

namespace Editor

/-- The failures among some messages, in order. -/
def failures (messages : List Message) : List String := messages.filterMap (·.failure?)

theorem run_failure (e : Editor) (messages : List Message) :
    (e.run messages).failure = (failures messages).getLast?.or e.failure := by
  induction messages generalizing e with
  | nil => rfl
  | cons m ms ih =>
    rw [run_cons, ih]
    cases m with
    | failure reason =>
      have hfailures : failures (.failure reason :: ms) = reason :: failures ms := rfl
      rw [hfailures, List.getLast?_cons]
      cases (failures ms).getLast? <;> rfl
    | key k =>
      have hfailures : failures (.key k :: ms) = failures ms := rfl
      rw [hfailures, (e.update_step (.key k)).failure_eq]

def withFailure (e : Editor) (failure : Option String) : Editor := { e with failure }

section
variable (e : Editor) (failure : Option String)

theorem selectPrevious_withFailure :
    (e.withFailure failure).selectPrevious = e.selectPrevious.withFailure failure := by
  have hparameters : (e.withFailure failure).parameters = e.parameters := rfl
  unfold selectPrevious
  rw [hparameters]
  split <;> rfl

theorem selectNext_withFailure :
    (e.withFailure failure).selectNext = e.selectNext.withFailure failure := by
  have hparameters : (e.withFailure failure).parameters = e.parameters := rfl
  unfold selectNext
  rw [hparameters]
  split <;> rfl

theorem beginEdit_withFailure (c : Char) :
    (e.withFailure failure).beginEdit c = (e.beginEdit c).withFailure failure := by
  have hcurrent : (e.withFailure failure).current? = e.current? := rfl
  simp only [beginEdit, hcurrent]
  cases e.current? <;> rfl

theorem commitEdit_withFailure :
    (e.withFailure failure).commitEdit = e.commitEdit.withFailure failure := by
  have hedit : (e.withFailure failure).edit = e.edit := rfl
  simp only [commitEdit, hedit]
  cases e.edit <;> rfl

/-- A key does the same to an editor whatever its failure. -/
theorem update_withFailure (k : Key) : ((e.withFailure failure).update (.key k)).1 =
    (e.update (.key k)).1.withFailure failure := by
  have hedit : (e.withFailure failure).edit = e.edit := rfl
  simp only [update, hedit]
  cases he : e.edit with
  | none =>
    cases k with
    | char c =>
      simp only [browse]
      split
      · exact e.beginEdit_withFailure failure c
      · rfl
    | left | up | backTab => exact e.selectPrevious_withFailure failure
    | right | down | tab => exact e.selectNext_withFailure failure
    | _ => rfl
  | some edit =>
    cases k with
    | enter => exact e.commitEdit_withFailure failure
    | tab =>
      simp only [continueEdit, commitEdit_withFailure, selectNext_withFailure]
    | _ => rfl

end

/-- Failures leave no mark on what the keys make of the editor. -/
theorem run_withFailure (e : Editor) (failure : Option String) (messages : List Message) :
    (e.run messages).withFailure failure =
      (e.withFailure failure).run (messages.filter (·.isKey)) := by
  induction messages generalizing e with
  | nil => rfl
  | cons m ms ih =>
    rw [run_cons, ih]
    cases m with
    | failure reason => rfl
    | key k =>
      rw [← update_withFailure]
      rfl

/-- Once a session around it has failed, all that an editor shows or selects is its last failure.
Otherwise it selects something unless an edit is live. Whether one is depends on the keys alone. -/
theorem commit_run (c : Catalog) (image : String) (messages : List Message) :
    let e := (new c image).run messages
    e.edit = ((new c image).run (messages.filter (·.isKey))).edit ∧
      match (failures messages).getLast? with
      | some reason => e.commit = .error (.session reason) ∧ e.frame ⟨false⟩ = reason ++ "\n"
      | none =>
        ((∃ detail, e.commit = .error (.unfinished detail)) ↔ e.edit.isSome) ∧
          ((∃ selections, e.commit = .ok selections) ↔ e.edit.isNone) := by
  intro e
  have hfailure : e.failure = (failures messages).getLast? := by
    rw [run_failure]
    exact Option.or_none
  constructor
  · exact congrArg (·.edit) (run_withFailure (new c image) none messages)
  · rw [← hfailure]
    cases hf : e.failure with
    | some reason =>
      refine ⟨by simp [commit, hf], ?_⟩
      simp only [frame, hf, paint_plain]
    | none =>
      cases he : e.edit with
      | none => simp [commit, hf, he]
      | some edit => simp [commit, hf, he]

end Editor
end LaunchEditor
