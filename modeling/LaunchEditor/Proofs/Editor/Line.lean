import LaunchEditor.Editor

/-! # Lines that an edit can hold

The line of a live edit is printable ASCII with the cursor somewhere in it or at its end, whatever
keys it is given.
-/
namespace LaunchEditor

/-- From the space to the tilde. -/
def Printable (c : Char) : Prop := 0x20 ≤ c.toNat ∧ c.toNat ≤ 0x7E

instance (c : Char) : Decidable (Printable c) := inferInstanceAs (Decidable (_ ∧ _))

theorem printable_iff_isInsertable (c : Char) : Printable c ↔ Key.isInsertable c = true := by
  simp only [Printable, Key.isInsertable, Bool.and_eq_true, decide_eq_true_eq, Char.le_def,
    UInt32.le_iff_toNat_le, Char.toNat]
  exact Iff.rfl

theorem printable_of_isEditStart {c : Char} (h : Key.isEditStart c = true) : Printable c := by
  have hranges : (decide (c.val ≥ 'A'.val ∧ c.val ≤ 'Z'.val) ||
      (c.val ≥ 'a'.val && c.val ≤ 'z'.val) || (c.val ≥ '0'.val && c.val ≤ '9'.val)) = true := h
  simp only [Bool.or_eq_true, Bool.and_eq_true, decide_eq_true_eq, ge_iff_le,
    UInt32.le_iff_toNat_le, Char.reduceVal, UInt32.reduceToNat] at hranges
  simp only [Printable, Char.toNat]
  omega

theorem Printable.utf8Size_eq {c : Char} (h : Printable c) : c.utf8Size = 1 := by
  rw [Char.utf8Size_eq_one_iff, UInt32.le_iff_toNat_le]
  exact Nat.le_trans h.2 (by decide)

namespace LineBuffer

structure WellFormed (b : LineBuffer) : Prop where
  printable : ∀ c ∈ b.text, Printable c
  cursor_le : b.cursor ≤ b.text.length

theorem wellFormed_empty : empty.WellFormed where
  printable := by simp [empty]
  cursor_le := Nat.le_refl _

theorem WellFormed.insert {b : LineBuffer} (h : b.WellFormed) {c : Char} (hc : Printable c) :
    (b.insert c).WellFormed where
  printable := by
    intro x hx
    simp only [LineBuffer.insert, List.mem_append, List.mem_cons] at hx
    rcases hx with hx | rfl | hx
    · exact h.printable x (List.mem_of_mem_take hx)
    · exact hc
    · exact h.printable x (List.mem_of_mem_drop hx)
  cursor_le := by
    have hb := h.cursor_le
    simp only [LineBuffer.insert, List.length_append, List.length_take, List.length_cons,
      List.length_drop]
    omega

theorem WellFormed.deleteLeft {b : LineBuffer} (h : b.WellFormed) : b.deleteLeft.WellFormed := by
  unfold LineBuffer.deleteLeft
  split
  · exact h
  · refine ⟨fun x hx => h.printable x (List.mem_of_mem_eraseIdx hx), ?_⟩
    have hb := h.cursor_le
    simp only [List.length_eraseIdx]
    split <;> omega

theorem WellFormed.moveLeft {b : LineBuffer} (h : b.WellFormed) : b.moveLeft.WellFormed :=
  ⟨h.printable, Nat.le_trans (Nat.sub_le _ _) h.cursor_le⟩

theorem WellFormed.moveRight {b : LineBuffer} (h : b.WellFormed) : b.moveRight.WellFormed :=
  ⟨h.printable, Nat.min_le_right _ _⟩

end LineBuffer

namespace Edit

@[simp] theorem type_segments (e : Edit) (k : Key) : (e.type k).segments = e.segments := by
  unfold type
  split
  · rfl
  · rfl
  · rfl
  · split <;> rfl
  · rfl

theorem start_wellFormed {c : Char} (hc : Key.isEditStart c = true)
    (segments : Option (List String)) : (start c segments).line.WellFormed :=
  LineBuffer.wellFormed_empty.insert (printable_of_isEditStart hc)

theorem type_wellFormed {e : Edit} (h : e.line.WellFormed) (k : Key) :
    (e.type k).line.WellFormed := by
  cases k with
  | backspace => exact h.deleteLeft
  | left => exact h.moveLeft
  | right => exact h.moveRight
  | char c =>
    by_cases hc : Key.isInsertable c = true
    · simpa [type, hc] using h.insert ((printable_iff_isInsertable c).mpr hc)
    · simpa [type, hc] using h
  | _ => exact h

theorem foldl_type_wellFormed {e : Edit} (h : e.line.WellFormed) (ks : List Key) :
    (ks.foldl type e).line.WellFormed := by
  induction ks generalizing e with
  | nil => exact h
  | cons k ks ih => exact ih (type_wellFormed h k)

end Edit
end LaunchEditor
