import LaunchEditor.Proofs.Editor.Line
import LaunchEditor.Proofs.Editor.Step

/-! # What every state of the editor has in common

The selection points at a parameter, and a live edit is an edit of that parameter: its segments
are those of the value shown, and the line stands in the place of one of them.
-/
namespace LaunchEditor

theorem ParameterKind.editable_lt_length_pad (k : ParameterKind) (segments : List String) :
    k.editable < (k.pad segments).length := by
  simp only [pad, List.length_append, List.length_replicate]
  omega

/-- An edit of the parameter `p`. -/
structure Edit.Fits (edit : Edit) (p : Parameter) : Prop where
  line : edit.line.WellFormed
  segments : edit.segments = p.segments?

theorem Edit.Fits.editable_lt {edit : Edit} {p : Parameter} (h : edit.Fits p)
    {segments : List String} (hs : segments ∈ edit.segments) :
    p.kind.editable < segments.length := by
  rw [h.segments, Parameter.segments?, ParameterKind.split?] at hs
  obtain ⟨sep, _, rfl⟩ := Option.map_eq_some_iff.mp hs
  exact p.kind.editable_lt_length_pad _

namespace Editor

structure Consistent (e : Editor) : Prop where
  selected : e.selected < e.parameters.length ∨ e.parameters = [] ∧ e.selected = 0
  edit : ∀ edit ∈ e.edit, ∃ p, e.current? = some p ∧ edit.Fits p

theorem new_consistent (c : Catalog) (image : String) : (new c image).Consistent where
  selected := by
    rcases Nat.eq_zero_or_pos (new c image).parameters.length with h | h
    · exact .inr ⟨List.length_eq_zero_iff.mp h, rfl⟩
    · exact .inl h
  edit := by
    intro edit h
    cases h

namespace Consistent
variable {e : Editor}

theorem exists_current? (h : e.Consistent) (hne : e.parameters ≠ []) :
    ∃ p, e.current? = some p := by
  have hlt : e.selected < e.parameters.length := h.selected.resolve_right fun h => hne h.1
  exact ⟨e.parameters[e.selected], List.getElem?_eq_getElem hlt⟩

theorem selectPrevious (h : e.Consistent) (he : e.edit = none) :
    e.selectPrevious.Consistent where
  selected := by
    by_cases hp : e.parameters = []
    · simpa [Editor.selectPrevious, hp] using h.selected
    · have hlen := List.length_pos_iff.mpr hp
      have hs := h.selected.resolve_right (fun h => hp h.1)
      left
      simp only [Editor.selectPrevious, if_neg hp]
      split <;> omega
  edit := by simp [he]

theorem selectNext (h : e.Consistent) (he : e.edit = none) : e.selectNext.Consistent where
  selected := by
    by_cases hp : e.parameters = []
    · simpa [Editor.selectNext, hp] using h.selected
    · left
      simpa [Editor.selectNext, hp] using Nat.mod_lt _ (List.length_pos_iff.mpr hp)
  edit := by simp [he]

theorem beginEdit (h : e.Consistent) {c : Char} (hc : Key.isEditStart c = true) :
    (e.beginEdit c).Consistent := by
  cases hp : e.current? with
  | none => simpa [Editor.beginEdit, hp] using h
  | some p =>
    simp only [Editor.beginEdit, hp]
    refine ⟨h.selected, ?_⟩
    rintro edit ⟨⟩
    exact ⟨p, hp, Edit.start_wellFormed hc _, rfl⟩

theorem commitEdit (h : e.Consistent) : e.commitEdit.Consistent where
  selected := by
    simpa [← List.length_eq_zero_iff] using h.selected
  edit := by simp

theorem cancelEdit (h : e.Consistent) : e.cancelEdit.Consistent := ⟨h.selected, by simp⟩

theorem type (h : e.Consistent) {edit : Edit} (he : e.edit = some edit) (k : Key) :
    ({ e with edit := some (edit.type k) } : Editor).Consistent where
  selected := h.selected
  edit := by
    rintro _ ⟨⟩
    obtain ⟨p, hp, hf⟩ := h.edit edit he
    exact ⟨p, hp, Edit.type_wellFormed hf.line k, (edit.type_segments k).trans hf.segments⟩

theorem step (h : e.Consistent) {m : Message} {f : Editor} {t : Transition} (hs : e.Step m f t) :
    f.Consistent := by
  cases hs with
  | fail reason => exact ⟨h.selected, h.edit⟩
  | leave he hk => exact h
  | previous he hk => exact h.selectPrevious he
  | next he hk => exact h.selectNext he
  | begin he hc => exact h.beginEdit hc
  | ignore he hk => exact h
  | confirm he => exact h.commitEdit
  | advance he => exact h.commitEdit.selectNext (by simp)
  | cancel he => exact h.cancelEdit
  | abandon he => exact h.cancelEdit
  | type he hk => exact h.type he _

end Consistent

theorem run_consistent (c : Catalog) (image : String) (messages : List Message) :
    ((new c image).run messages).Consistent :=
  run_preserves (fun h hs => h.step hs) (new_consistent c image) messages

end Editor
end LaunchEditor
