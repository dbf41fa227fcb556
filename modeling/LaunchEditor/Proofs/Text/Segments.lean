import LaunchEditor.Parameter
import LaunchEditor.Proofs.Text.Split

/-! # Segments of a composite value

The segments of a value are the texts between its separators, and empty ones behind them until there
is one to edit. Joined again they are the value with a separator for each segment that was added,
and texts without separators are the segments of the value that joins them.
-/
namespace LaunchEditor

namespace Text

theorem length_pieces (p : Char → Bool) (cs : List Char) :
    (pieces p cs).length = cs.countP p + 1 := by
  rw [pieces_eq_splitOnP]
  induction cs with
  | nil => rfl
  | cons c r ih =>
    rw [List.splitOnP_cons_eq_if_modifyHead, List.countP_cons]
    split <;> simp [ih]

/-- Each character at which a text is cut is gone. -/
theorem eq_false_of_mem_pieces {p : Char → Bool} {cs w : List Char} (hw : w ∈ pieces p cs) :
    ∀ c ∈ w, p c = false := by
  induction cs generalizing w with
  | nil =>
    obtain rfl : w = [] := by simpa [pieces] using hw
    simp
  | cons x r ih =>
    rw [pieces] at hw
    split at hw
    · rcases List.mem_cons.mp hw with rfl | hw
      · simp
      · exact ih hw
    · rename_i hx
      cases hr : pieces p r with
      | nil => exact absurd hr (pieces_ne_nil p r)
      | cons v vs =>
        rw [hr] at hw ih
        rcases List.mem_cons.mp hw with rfl | hw
        · simpa [hx] using ih List.mem_cons_self
        · exact ih (List.mem_cons_of_mem v hw)

theorem length_splitOn (sep : Char) (s : String) :
    (splitOn sep s).length = s.toList.count sep + 1 := by
  rw [splitOn, List.length_map, length_pieces]
  rfl

theorem notMem_of_mem_splitOn {sep : Char} {s t : String} (ht : t ∈ splitOn sep s) :
    sep ∉ t.toList := by
  obtain ⟨w, hw, rfl⟩ := List.mem_map.mp ht
  intro hsep
  have hne := eq_false_of_mem_pieces hw sep (by simpa using hsep)
  simp at hne

theorem splitOn_intercalate {sep : Char} {l : List String} (hne : l ≠ [])
    (h : ∀ s ∈ l, sep ∉ s.toList) : splitOn sep ((String.singleton sep).intercalate l) = l := by
  have hlists : ∀ cs ∈ l.map String.toList, sep ∉ cs := List.forall_mem_map.mpr h
  rw [splitOn_eq, String.toList_intercalate, String.toList_singleton,
    List.splitOn_intercalate sep hlists (by simpa using hne), List.map_map]
  simp [Function.comp_def]

/-- Each empty text behind others puts one more separator to the end. -/
theorem intercalate_append_replicate (sep : Char) {l : List String} (hne : l ≠ []) (n : Nat) :
    (String.singleton sep).intercalate (l ++ List.replicate n "") =
      (String.singleton sep).intercalate l ++ String.ofList (List.replicate n sep) := by
  induction n with
  | zero => simp
  | succ n ih =>
    have hshort : l ++ List.replicate n "" ≠ [] := by simp [hne]
    rw [List.replicate_succ', ← List.append_assoc,
      String.intercalate_append_of_ne_nil hshort (by simp), ih, String.intercalate_singleton,
      String.append_empty, String.append_assoc, List.replicate_succ', String.ofList_append,
      String.singleton_eq_ofList]

end Text

open Text

namespace ParameterKind

theorem pad_of_editable_lt {k : ParameterKind} {segments : List String}
    (h : k.editable < segments.length) : k.pad segments = segments := by
  rw [pad, Nat.sub_eq_zero_of_le h, List.replicate_zero, List.append_nil]

theorem length_pad (k : ParameterKind) (segments : List String) :
    (k.pad segments).length = max segments.length (k.editable + 1) := by
  simp only [pad, List.length_append, List.length_replicate]
  omega

theorem notMem_of_mem_pad {k : ParameterKind} {sep : Char} {v s : String}
    (hs : s ∈ k.pad (splitOn sep v)) : sep ∉ s.toList := by
  rcases List.mem_append.mp hs with hs | hs
  · exact notMem_of_mem_splitOn hs
  · rw [List.eq_of_mem_replicate hs]
    simp

theorem intercalate_pad (k : ParameterKind) (sep : Char) (v : String) :
    (String.singleton sep).intercalate (k.pad (splitOn sep v)) =
      v ++ String.ofList (List.replicate (k.editable + 1 - (splitOn sep v).length) sep) := by
  rw [pad, intercalate_append_replicate sep (splitOn_ne_nil sep v), intercalate_splitOn]

/-- Splitting takes a value to segments without separators: as many as there are between its
separators, and at least up to the one to edit. Joining them gives the value back with a separator
for each segment that was added, and splitting what joins enough such segments gives those back. -/
theorem split?_join {k : ParameterKind} {sep : Char} (hsep : k.separator? = some sep) :
    (∀ v, ∃ segments, k.split? v = some segments ∧ (∀ s ∈ segments, sep ∉ s.toList) ∧
      segments.length = max (v.toList.count sep + 1) (k.editable + 1) ∧
      (String.singleton sep).intercalate segments =
        v ++ String.ofList (List.replicate (segments.length - (v.toList.count sep + 1)) sep)) ∧
    ∀ segments, (∀ s ∈ segments, sep ∉ s.toList) → k.editable < segments.length →
      k.split? ((String.singleton sep).intercalate segments) = some segments := by
  have hsplit (v : String) : k.split? v = some (k.pad (splitOn sep v)) := by
    rw [split?, hsep, Option.map_some]
  constructor
  · intro v
    have hlength : (k.pad (splitOn sep v)).length =
        max (v.toList.count sep + 1) (k.editable + 1) := by
      rw [length_pad, length_splitOn]
    have hadded : (k.pad (splitOn sep v)).length - (v.toList.count sep + 1) =
        k.editable + 1 - (splitOn sep v).length := by
      rw [hlength, length_splitOn]
      omega
    refine ⟨k.pad (splitOn sep v), hsplit v, fun s hs => notMem_of_mem_pad hs, hlength, ?_⟩
    rw [hadded, intercalate_pad]
  · intro segments hsegments hlt
    have hne : segments ≠ [] := List.ne_nil_of_length_pos (Nat.zero_lt_of_lt hlt)
    rw [hsplit, splitOn_intercalate hne hsegments, pad_of_editable_lt hlt]

/-- A variable without a value has an empty segment added, and one whose value is empty has not. -/
theorem split?_join_variable :
    (∃ segments, env.split? "KEY" = some segments ∧ segments.length = 2 ∧
      "=".intercalate segments = "KEY=") ∧
    env.split? "KEY=" = some ["KEY", ""] ∧ env.split? "=a==" = some ["", "a", "", ""] := by
  have hsep : env.separator? = some '=' := rfl
  obtain ⟨hsplit, hjoin⟩ := split?_join hsep
  obtain ⟨segments, hsegments, -, hlength, hvalue⟩ := hsplit "KEY"
  have htwo : segments.length = 2 := hlength
  refine ⟨⟨segments, hsegments, htwo, ?_⟩, ?_, ?_⟩
  · rw [htwo] at hvalue
    exact hvalue
  · exact hjoin ["KEY", ""] (by decide) (by decide)
  · exact hjoin ["", "a", "", ""] (by decide) (by decide)

end ParameterKind
end LaunchEditor
