import LaunchEditor.Text.Pieces
import Mathlib.Data.List.TakeWhile

/-! # Splitting a text and joining its pieces

The pieces of a text are its segments between the occurrences of a separator, in order. Putting
another text in the place of the first one changes nothing from the first separator on.
-/
namespace LaunchEditor.Text

theorem pieces_eq_splitOnP (p : Char → Bool) (cs : List Char) : pieces p cs = cs.splitOnP p := by
  induction cs with
  | nil => rfl
  | cons c r ih =>
    rw [pieces, ih, List.splitOnP_cons_eq_if_modifyHead]
    by_cases hc : p c = true
    · simp [hc]
    · cases hr : r.splitOnP p with
      | nil => exact absurd hr (List.splitOnP_ne_nil p r)
      | cons w ws => simp [hc]

theorem splitOn_eq (sep : Char) (s : String) :
    splitOn sep s = (s.toList.splitOn sep).map String.ofList := by
  rw [splitOn, pieces_eq_splitOnP, List.splitOn_eq_splitOnP]

theorem splitOn_ne_nil (sep : Char) (s : String) : splitOn sep s ≠ [] := by
  simp [splitOn_eq]

theorem splitOn_of_notMem {sep : Char} {s : String} (h : sep ∉ s.toList) :
    splitOn sep s = [s] := by
  simp [splitOn_eq, List.splitOn_eq_singleton h]

theorem splitOn_append {sep : Char} {a : String} (h : sep ∉ a.toList) (b : String) :
    splitOn sep (a ++ String.singleton sep ++ b) = a :: splitOn sep b := by
  simp [splitOn_eq, List.splitOn_append_cons_self_of_not_mem h]

theorem intercalate_splitOn (sep : Char) (s : String) :
    (String.singleton sep).intercalate (splitOn sep s) = s := by
  apply String.toList_inj.mp
  rw [String.toList_intercalate, splitOn_eq, List.map_map]
  simp [Function.comp_def, List.intercalate_splitOn]

/-- Texts without the separator are cut off one after the other. -/
theorem splitOn_intercalate_append {sep : Char} {l : List String} (hne : l ≠ [])
    (h : ∀ s ∈ l, sep ∉ s.toList) (r : String) :
    splitOn sep ((String.singleton sep).intercalate l ++ String.singleton sep ++ r) =
      l ++ splitOn sep r := by
  induction l with
  | nil => exact absurd rfl hne
  | cons s l ih =>
    obtain ⟨hs, hl⟩ := List.forall_mem_cons.mp h
    cases l with
    | nil => simpa using splitOn_append hs r
    | cons t l =>
      have hrest := ih (by simp) hl
      have hsplit := splitOn_append hs
        ((String.singleton sep).intercalate (t :: l) ++ String.singleton sep ++ r)
      rw [String.intercalate_cons_cons, List.cons_append, ← hrest, ← hsplit]
      simp only [String.append_assoc]

/-- The text in front of the first separator. -/
def upTo (sep : Char) (s : String) : String := String.ofList (s.toList.takeWhile (· != sep))

/-- The text from the first separator on. -/
def onward (sep : Char) (s : String) : String := String.ofList (s.toList.dropWhile (· != sep))

/-- The text behind the first separator. -/
def past (sep : Char) (s : String) : String :=
  String.ofList ((s.toList.dropWhile (· != sep)).drop 1)

private theorem all_ne {sep : Char} {s : String} (h : sep ∉ s.toList) :
    ∀ c ∈ s.toList, (c != sep) = true := by
  intro c hc
  exact bne_iff_ne.mpr fun hcs => h (hcs ▸ hc)

section
variable {sep : Char} {s : String} (h : sep ∉ s.toList)
include h

theorem upTo_of_notMem : upTo sep s = s := by
  rw [upTo, List.takeWhile_eq_self_iff.mpr (all_ne h), String.ofList_toList]

theorem onward_of_notMem : onward sep s = "" := by
  rw [onward, List.dropWhile_eq_nil_iff.mpr (all_ne h), String.ofList_nil]

theorem past_of_notMem : past sep s = "" := by
  rw [past, List.dropWhile_eq_nil_iff.mpr (all_ne h), List.drop_nil, String.ofList_nil]

theorem upTo_append (b : String) : upTo sep (s ++ String.singleton sep ++ b) = s := by
  simp [upTo, List.takeWhile_append_of_pos (all_ne h)]

theorem onward_append (b : String) :
    onward sep (s ++ String.singleton sep ++ b) = String.singleton sep ++ b := by
  simp [onward, List.dropWhile_append_of_pos (all_ne h), String.ofList_cons]

theorem onward_append_of_notMem (r : String) : onward sep (s ++ r) = onward sep r := by
  simp [onward, List.dropWhile_append_of_pos (all_ne h)]

theorem past_append (b : String) : past sep (s ++ String.singleton sep ++ b) = b := by
  simp [past, List.dropWhile_append_of_pos (all_ne h)]

end

theorem exists_eq_append_of_mem {sep : Char} {s : String} (h : sep ∈ s.toList) :
    ∃ a b, sep ∉ a.toList ∧ s = a ++ String.singleton sep ++ b := by
  obtain ⟨a, b, hs, ha⟩ := List.eq_append_cons_of_mem h
  refine ⟨.ofList a, .ofList b, by simpa using ha, ?_⟩
  apply String.toList_inj.mp
  simpa using hs

theorem upTo_append_onward (sep : Char) (s : String) : upTo sep s ++ onward sep s = s := by
  rw [upTo, onward, ← String.ofList_append, List.takeWhile_append_dropWhile, String.ofList_toList]

theorem notMem_upTo (sep : Char) (s : String) : sep ∉ (upTo sep s).toList := by
  intro h
  have hne := List.mem_takeWhile_imp (by simpa [upTo] using h)
  simp at hne

theorem onward_onward (sep : Char) (s : String) : onward sep (onward sep s) = onward sep s := by
  by_cases h : sep ∈ s.toList
  · obtain ⟨a, b, ha, rfl⟩ := exists_eq_append_of_mem h
    have hb : onward sep ("" ++ String.singleton sep ++ b) = String.singleton sep ++ b :=
      onward_append (by simp) b
    rw [onward_append ha]
    simpa using hb
  · rw [onward_of_notMem h]
    exact onward_of_notMem (by simp)

theorem onward_append_of_mem {sep : Char} {s : String} (h : sep ∈ s.toList) (r : String) :
    onward sep (s ++ r) = onward sep s ++ r := by
  obtain ⟨a, b, ha, rfl⟩ := exists_eq_append_of_mem h
  rw [String.append_assoc, onward_append ha, onward_append ha, String.append_assoc]

theorem onward_eq_empty_iff {sep : Char} {s : String} : onward sep s = "" ↔ sep ∉ s.toList := by
  constructor
  · intro h hmem
    obtain ⟨a, b, ha, rfl⟩ := exists_eq_append_of_mem hmem
    rw [onward_append ha] at h
    simp at h
  · exact onward_of_notMem

theorem append_left_eq_self_iff {s r : String} : s ++ r = r ↔ s = "" := by
  rw [← String.toList_inj, String.toList_append, List.append_left_eq_self, String.toList_eq_nil_iff]

/-- A text in front of a separator is cut off again unless it holds a separator itself. -/
theorem onward_append_onward_eq_iff {sep : Char} {s r : String} :
    onward sep (s ++ onward sep r) = onward sep r ↔ sep ∉ s.toList := by
  by_cases h : sep ∈ s.toList
  · rw [onward_append_of_mem h, append_left_eq_self_iff, onward_eq_empty_iff]
  · rw [onward_append_of_notMem h, onward_onward]
    exact iff_of_true rfl h

/-- What begins at a separator stays as it is behind any other text. -/
theorem exists_onward_append {sep : Char} {r : String} (hr : onward sep r = r) (x : String) :
    ∃ y, onward sep (x ++ r) = y ++ r := by
  by_cases h : sep ∈ x.toList
  · obtain ⟨a, b, ha, rfl⟩ := exists_eq_append_of_mem h
    refine ⟨String.singleton sep ++ b, ?_⟩
    rw [String.append_assoc, onward_append ha, String.append_assoc]
  · exact ⟨"", by rw [onward_append_of_notMem h, hr, String.empty_append]⟩

theorem intercalate_set_zero (sep : Char) (v b : String) :
    (String.singleton sep).intercalate ((splitOn sep v).set 0 b) = b ++ onward sep v := by
  by_cases h : sep ∈ v.toList
  · obtain ⟨x, y, hx, rfl⟩ := exists_eq_append_of_mem h
    rw [splitOn_append hx, onward_append hx, List.set_cons_zero,
      String.intercalate_cons_of_ne_nil (splitOn_ne_nil sep y), intercalate_splitOn,
      String.append_assoc]
  · rw [splitOn_of_notMem h, onward_of_notMem h]
    simp

theorem intercalate_cons_eq (sep b : String) (l : List String) :
    sep.intercalate (b :: l) = b ++ String.join (l.map (sep ++ ·)) := by
  induction l generalizing b with
  | nil => simp
  | cons x l ih =>
    rw [String.intercalate_cons_cons, ih, List.map_cons, String.join_cons]
    simp only [String.append_assoc]

theorem intercalate_append_cons (sep b : String) (xs ys : List String) :
    sep.intercalate (xs ++ b :: ys) =
      String.join (xs.map (· ++ sep)) ++ b ++ String.join (ys.map (sep ++ ·)) := by
  induction xs with
  | nil => simpa using intercalate_cons_eq sep b ys
  | cons x xs ih =>
    rw [List.cons_append, String.intercalate_cons_of_ne_nil (by simp), ih, List.map_cons,
      String.join_cons]
    simp only [String.append_assoc]

/-- What stands around a segment does not depend on the segment. -/
theorem intercalate_set {sep : String} {l : List String} {i : Nat} (h : i < l.length) (b : String) :
    sep.intercalate (l.set i b) =
      String.join ((l.take i).map (· ++ sep)) ++ b ++
        String.join ((l.drop (i + 1)).map (sep ++ ·)) := by
  rw [List.set_eq_take_append_cons_drop, if_pos h, intercalate_append_cons]

end LaunchEditor.Text
