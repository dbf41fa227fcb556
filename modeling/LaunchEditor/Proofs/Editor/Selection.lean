import LaunchEditor.Proofs.Editor.Consistent
import Mathlib.Data.Int.ModEq

/-! # Which parameter is selected

The selection goes round the parameters. Where it is after a run is the number of keys that moved it
on less the number of those that moved it back, modulo the number of parameters.
-/
namespace LaunchEditor.Editor

/-- The messages of a run, each with the mode that it arrives in. -/
def received (e : Editor) : List Message → List (Mode × Message)
  | [] => []
  | m :: ms => (e.mode, m) :: (e.update m).1.received ms

/-- The keys that select the next parameter. During an edit it is only the one that confirms it. -/
def isNext : Mode × Message → Bool
  | (.browsing, .key .right) | (.browsing, .key .down) | (.browsing, .key .tab) => true
  | (.editing, .key .tab) => true
  | _ => false

/-- The keys that select the previous parameter. -/
def isPrevious : Mode × Message → Bool
  | (.browsing, .key .left) | (.browsing, .key .up) | (.browsing, .key .backTab) => true
  | _ => false

/-- How far one message moves the selection. -/
def turn (m : Mode × Message) : ℤ :=
  (if isNext m then 1 else 0) - (if isPrevious m then 1 else 0)

theorem sum_turn (l : List (Mode × Message)) :
    (l.map turn).sum = (l.countP isNext : ℤ) - l.countP isPrevious := by
  induction l with
  | nil => rfl
  | cons m l ih =>
    rw [List.map_cons, List.sum_cons, ih, List.countP_cons, List.countP_cons, turn]
    push_cast
    omega

theorem turn_failure (mode : Mode) (reason : String) : turn (mode, .failure reason) = 0 := by
  cases mode <;> rfl

theorem turn_previous {k : Key} (hk : k ∈ [.left, .up, .backTab]) :
    turn (.browsing, .key k) = -1 := by
  revert k
  decide

theorem turn_next {k : Key} (hk : k ∈ [.right, .down, .tab]) : turn (.browsing, .key k) = 1 := by
  revert k
  decide

theorem turn_browsing {k : Key} (hnext : k ∉ [.right, .down, .tab])
    (hprevious : k ∉ [.left, .up, .backTab]) : turn (.browsing, .key k) = 0 := by
  cases k with
  | right | down | tab => simp at hnext
  | left | up | backTab => simp at hprevious
  | _ => rfl

theorem turn_editing {k : Key} (hk : k ≠ .tab) : turn (.editing, .key k) = 0 := by
  cases k with
  | tab => exact absurd rfl hk
  | _ => rfl

section
variable {e : Editor}

theorem mode_of_edit_eq_none (he : e.edit = none) : e.mode = .browsing := by
  rw [mode, he]
  rfl

theorem mode_of_edit_eq_some {edit : Edit} (he : e.edit = some edit) : e.mode = .editing := by
  rw [mode, he]
  rfl

theorem selectNext_modEq (hpos : 0 < e.parameters.length) :
    (e.selectNext.selected : ℤ) ≡ e.selected + 1 [ZMOD e.parameters.length] := by
  rw [selectNext, if_neg (List.ne_nil_of_length_pos hpos)]
  push_cast
  exact Int.mod_modEq _ _

theorem selectPrevious_modEq (hpos : 0 < e.parameters.length) :
    (e.selectPrevious.selected : ℤ) ≡ e.selected - 1 [ZMOD e.parameters.length] := by
  rw [selectPrevious, if_neg (List.ne_nil_of_length_pos hpos)]
  by_cases hs : e.selected = 0
  · simp only [hs, ↓reduceIte, Nat.cast_sub hpos, Nat.cast_zero, Nat.cast_one]
    exact (Int.modEq_zero_iff_dvd.mpr dvd_rfl).sub_right 1
  · simp only [if_neg hs, Nat.cast_sub (Nat.one_le_iff_ne_zero.mpr hs)]
    exact Int.ModEq.refl _

/-- One message moves the selection by its turn, round the parameters. -/
theorem Step.selected_modEq {f : Editor} {m : Message} {t : Transition} (hs : e.Step m f t)
    (hpos : 0 < e.parameters.length) :
    (f.selected : ℤ) ≡ e.selected + turn (e.mode, m) [ZMOD e.parameters.length] := by
  cases hs with
  | previous he hk =>
    rw [mode_of_edit_eq_none he, turn_previous hk]
    exact selectPrevious_modEq hpos
  | next he hk =>
    rw [mode_of_edit_eq_none he, turn_next hk]
    exact selectNext_modEq hpos
  | advance he =>
    have hlength : e.commitEdit.parameters.length = e.parameters.length := e.commitEdit_length
    have hnext := selectNext_modEq (hpos.trans_eq hlength.symm)
    rw [hlength, commitEdit_selected] at hnext
    rw [mode_of_edit_eq_some he]
    exact hnext
  | fail reason => rw [turn_failure, add_zero]
  | leave he hk =>
    simp only [List.mem_cons, List.not_mem_nil, or_false] at hk
    rw [mode_of_edit_eq_none he]
    rcases hk with rfl | rfl | rfl <;> rw [turn_browsing (by simp) (by simp), add_zero]
  | ignore he hk =>
    rw [mode_of_edit_eq_none he]
    rcases hk with rfl | rfl | ⟨c, rfl, _⟩ <;> rw [turn_browsing (by simp) (by simp), add_zero]
  | begin he hc =>
    rw [mode_of_edit_eq_none he, turn_browsing (by simp) (by simp), add_zero, beginEdit_selected]
  | confirm he =>
    rw [mode_of_edit_eq_some he, commitEdit_selected, turn_editing (by decide), add_zero]
  | cancel he | abandon he =>
    rw [mode_of_edit_eq_some he, turn_editing (by decide), add_zero]
    rfl
  | type he hk =>
    rw [mode_of_edit_eq_some he, turn_editing, add_zero]
    rintro rfl
    simp [editKeys] at hk

theorem Step.length_parameters {f : Editor} {m : Message} {t : Transition} (hs : e.Step m f t) :
    f.parameters.length = e.parameters.length := by
  cases hs with
  | previous | next | begin | confirm | advance => simp
  | _ => rfl

theorem length_run (e : Editor) (messages : List Message) :
    (e.run messages).parameters.length = e.parameters.length :=
  run_preserves (P := fun f => f.parameters.length = e.parameters.length)
    (fun h hs => hs.length_parameters.trans h) rfl messages

theorem selected_run_modEq (hpos : 0 < e.parameters.length) (messages : List Message) :
    ((e.run messages).selected : ℤ) ≡ e.selected + ((e.received messages).map turn).sum
      [ZMOD e.parameters.length] := by
  induction messages generalizing e with
  | nil =>
    rw [received, List.map_nil, List.sum_nil, add_zero]
    rfl
  | cons m ms ih =>
    have hs := e.update_step m
    have hlength := hs.length_parameters
    have hrest := ih (hpos.trans_eq hlength.symm)
    rw [hlength] at hrest
    rw [run_cons, received, List.map_cons, List.sum_cons, ← add_assoc]
    exact hrest.trans ((hs.selected_modEq hpos).add_right _)

end

/-- After every run the place of the selected parameter is the number of keys on less the number of
keys back, modulo the number of parameters that the image offers; it is zero if there are none. -/
theorem run_selected (c : Catalog) (image : String) (messages : List Message) :
    let n := (c.profile image).parameters.length
    let keys := (new c image).received messages
    (((new c image).run messages).selected : ℤ) =
      if n = 0 then 0 else ((keys.countP isNext : ℤ) - keys.countP isPrevious) % n := by
  intro n keys
  have hoffered : (new c image).parameters.length = n := List.length_map _
  have hlength : ((new c image).run messages).parameters.length = n :=
    (length_run _ messages).trans hoffered
  have hselected := (run_consistent c image messages).selected
  rw [← List.length_eq_zero_iff, hlength] at hselected
  by_cases hn : n = 0
  · rw [if_pos hn]
    omega
  · rw [if_neg hn, ← sum_turn]
    have hmod := selected_run_modEq ((Nat.pos_of_ne_zero hn).trans_eq hoffered.symm) messages
    have hstart : (new c image).selected = 0 := rfl
    rw [hoffered, hstart, Nat.cast_zero, zero_add] at hmod
    have hlt : ((new c image).run messages).selected < n :=
      hselected.resolve_right fun h => hn h.1
    rw [← hmod.eq, Int.emod_eq_of_lt (by omega) (by omega)]

/-- Back from the first of three parameters to the last, and on to the first by confirming. -/
example : ((new .builtin "alpine").run
    [.key .up, .key (.char 'x'), .key .right, .key .tab]).selected = 0 := by decide

end LaunchEditor.Editor
