import LaunchEditor.Text.Similarity
import Mathlib.Data.List.Basic

/-! # Finding a pattern in a text

A pattern is found in a text just in case its characters occur there in their order. The leftmost
occurrence is found if there is any at all, and its positions lie in the text, one behind the other.
-/
namespace LaunchEditor.Text

/-- The characters of the pattern occur in the text, in their order. Capitals and small ASCII letters
are told apart only if the pattern has a capital. -/
def Within (pattern choice : List Char) : Prop :=
  if pattern.any Char.isUpper then pattern.Sublist choice
  else (pattern.map Char.toLower).Sublist (choice.map Char.toLower)

instance (pattern choice : List Char) : Decidable (Within pattern choice) :=
  inferInstanceAs (Decidable (if pattern.any Char.isUpper then pattern.Sublist choice
    else (pattern.map Char.toLower).Sublist (choice.map Char.toLower)))

example : Within "Gre".toList "PostGres".toList ∧ ¬ Within "GRE".toList "PostGres".toList ∧
    Within "gre".toList "PostGres".toList := by decide

theorem Within.length_le {pattern choice : List Char} (h : Within pattern choice) :
    pattern.length ≤ choice.length := by
  unfold Within at h
  split at h
  · exact h.length_le
  · simpa using h.length_le

theorem leftmost_isSome_iff (f : Char → Char) (pattern choice : List Char) (n : Nat) :
    (leftmost (fun p c => f p == f c) pattern choice n).isSome = true ↔
      (pattern.map f).Sublist (choice.map f) := by
  induction choice generalizing pattern n with
  | nil => cases pattern <;> simp [leftmost]
  | cons c cs ih =>
    cases pattern with
    | nil => simp [leftmost]
    | cons p ps =>
      by_cases h : f p = f c
      · simp [leftmost, h, ih]
      · have hskip := ih (p :: ps) (n + 1)
        rw [List.map_cons] at hskip
        simp [leftmost, h, hskip, List.cons_sublist_cons']

theorem leftmost_comparison_isSome_iff (pattern choice : List Char) (n : Nat) :
    (leftmost (comparison pattern) pattern choice n).isSome = true ↔ Within pattern choice := by
  by_cases h : pattern.any Char.isUpper = true
  · have hsame : comparison pattern = fun p c => id p == id c := by
      funext p c
      simp [comparison, h]
    rw [hsame, leftmost_isSome_iff, Within, if_pos h, List.map_id, List.map_id]
  · have hsame : comparison pattern = fun p c => p.toLower == c.toLower := by
      funext p c
      simp [comparison, h]
    rw [hsame, leftmost_isSome_iff, Within, if_neg h]

/-- Whether a comparison gives a score has nothing to do with the table. -/
theorem similarity?_isSome_iff (t : ScoreTable) (choice pattern : List Char) :
    (similarity? t choice pattern).1.isSome = true ↔ Within pattern choice := by
  rw [← leftmost_comparison_isSome_iff pattern choice 0]
  simp only [similarity?]
  split <;> rename_i h <;> simp [h]

/-- A comparison without a score leaves the table as it is. -/
theorem similarity?_of_not_within (t : ScoreTable) {choice pattern : List Char}
    (h : ¬ Within pattern choice) : similarity? t choice pattern = (none, t) := by
  have hnone : leftmost (comparison pattern) pattern choice 0 = none := by
    rw [← Option.not_isSome_iff_eq_none, leftmost_comparison_isSome_iff]
    exact h
  simp only [similarity?, hnone]

theorem leftmost_spec {same : Char → Char → Bool} {pattern choice : List Char} {n : Nat}
    {fs : List Nat} (h : leftmost same pattern choice n = some fs) :
    fs.length = pattern.length ∧ fs.Pairwise (· < ·) ∧
      ∀ f ∈ fs, n ≤ f ∧ f < n + choice.length := by
  induction choice generalizing pattern n fs with
  | nil =>
    cases pattern with
    | nil => simp_all [leftmost]
    | cons p ps => cases h
  | cons c cs ih =>
    cases pattern with
    | nil => simp_all [leftmost]
    | cons p ps =>
      rw [leftmost] at h
      split at h
      · obtain ⟨gs, hgs, rfl⟩ := Option.map_eq_some_iff.mp h
        obtain ⟨hlen, hsorted, hrange⟩ := ih hgs
        refine ⟨by simp [hlen], List.pairwise_cons.mpr ⟨fun g hg => (hrange g hg).1, hsorted⟩, ?_⟩
        simp only [List.mem_cons, List.length_cons]
        rintro f (rfl | hf)
        · omega
        · have := hrange f hf
          omega
      · obtain ⟨hlen, hsorted, hrange⟩ := ih h
        refine ⟨hlen, hsorted, fun f hf => ?_⟩
        have := hrange f hf
        rw [List.length_cons]
        omega

end LaunchEditor.Text
