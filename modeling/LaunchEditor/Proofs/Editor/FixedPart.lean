import LaunchEditor.Proofs.Editor.Commit
import LaunchEditor.Proofs.Text.Split

/-! # The fixed part of a composite value

Only one segment of a composite value can be edited. What stands around that segment in the default
stands around the edited text in every later value too, whatever is typed and however often.
-/
namespace LaunchEditor
open Text

namespace ParameterKind

theorem pad_splitOn_of_editable_eq_zero {k : ParameterKind} (hk : k.editable = 0) (sep : Char)
    (v : String) : k.pad (splitOn sep v) = splitOn sep v := by
  have hlen := List.length_pos_iff.mpr (splitOn_ne_nil sep v)
  simp only [pad, hk, Nat.zero_add, Nat.sub_eq_zero_of_le hlen, List.replicate_zero,
    List.append_nil]

/-- An edit in front replaces what stands before the first separator. -/
theorem assemble_split?_of_editable_eq_zero {k : ParameterKind} {sep : Char}
    (hsep : k.separator? = some sep) (hk : k.editable = 0) (v b : String) :
    k.assemble (k.split? v) b = b ++ onward sep v := by
  simp only [split?, assemble, hsep, Option.map_some, hk, pad_splitOn_of_editable_eq_zero hk]
  exact intercalate_set_zero sep v b

/-- The edit of a variable replaces what stands between its name and the second separator. -/
theorem assemble_split?_env (v b : String) :
    env.assemble (env.split? v) b = upTo '=' v ++ "=" ++ b ++ onward '=' (past '=' v) := by
  have hset (x : String) (l : List String) : (x :: l).set 1 b = x :: l.set 0 b := rfl
  by_cases h : '=' ∈ v.toList
  · obtain ⟨x, y, hx, rfl⟩ := exists_eq_append_of_mem h
    have hpos := List.length_pos_iff.mpr (splitOn_ne_nil '=' y)
    have hpad : env.pad (x :: splitOn '=' y) = x :: splitOn '=' y := by
      simp [pad, editable, Nat.sub_eq_zero_of_le hpos]
    simp only [split?, separator?, assemble, Option.map_some, splitOn_append hx, hpad, editable,
      hset, upTo_append hx, past_append hx]
    rw [String.intercalate_cons_of_ne_nil, intercalate_set_zero]
    · simp only [String.append_assoc]
      rfl
    · simp [splitOn_ne_nil]
  · have hend : onward '=' "" = "" := onward_of_notMem (by simp)
    simp only [split?, separator?, assemble, Option.map_some, splitOn_of_notMem h,
      upTo_of_notMem h, past_of_notMem h, hend, String.append_empty]
    rfl

end ParameterKind

namespace Parameter

def KeepsTail (p : Parameter) : Prop := ∃ x, p.effective = x ++ onward ':' p.default

/-- The value stands for the default or assigns to the name that the default assigns to, and ends
in what the default has from its second separator on. -/
def KeepsName (p : Parameter) : Prop :=
  p.value = "" ∨
    ∃ x, p.value = upTo '=' p.default ++ "=" ++ x ++ onward '=' (past '=' p.default)

def KeepsFixedPart (p : Parameter) : Prop :=
  (p.kind = .volume ∨ p.kind = .port → p.KeepsTail) ∧ (p.kind = .env → p.KeepsName)

theorem put_effective (p : Parameter) (b : String) :
    (p.put b).effective =
      let value := p.kind.assemble p.segments? b
      if value = "" then p.default else value := by
  simp only [effective, put_default, put_value]
  by_cases h : p.kind.assemble p.segments? b = "" <;> simp [h]

theorem KeepsTail.put {p : Parameter} (h : p.KeepsTail) (hsep : p.kind.separator? = some ':')
    (hk : p.kind.editable = 0) (b : String) : (p.put b).KeepsTail := by
  obtain ⟨x, hx⟩ := h
  -- `x` may have been typed and hold separators of its own; what is behind them still ends in the
  -- tail of the default.
  obtain ⟨y, hy⟩ := exists_onward_append (onward_onward ':' p.default) x
  have hvalue : p.kind.assemble p.segments? b = b ++ y ++ onward ':' p.default := by
    rw [segments?, ParameterKind.assemble_split?_of_editable_eq_zero hsep hk, hx, hy,
      String.append_assoc]
  rw [KeepsTail, put_effective, put_default]
  by_cases hv : p.kind.assemble p.segments? b = ""
  · simp only [if_pos hv]
    exact ⟨upTo ':' p.default, (upTo_append_onward ':' p.default).symm⟩
  · simp only [if_neg hv]
    exact ⟨b ++ y, hvalue⟩

theorem value_ne_empty_of_eq {p : Parameter} {x : String}
    (hx : p.value = upTo '=' p.default ++ "=" ++ x ++ onward '=' (past '=' p.default)) :
    p.value ≠ "" := by
  intro h
  rw [hx] at h
  simp at h

theorem KeepsName.exists_assemble_eq {p : Parameter} (h : p.KeepsName) (hk : p.kind = .env)
    (b : String) : ∃ x, p.kind.assemble p.segments? b =
      upTo '=' p.default ++ "=" ++ x ++ onward '=' (past '=' p.default) := by
  rw [segments?, hk, ParameterKind.assemble_split?_env]
  rcases h with h | ⟨x, hx⟩
  · exact ⟨b, by rw [effective, if_pos h]⟩
  · have hvalue : p.effective = upTo '=' p.default ++ String.singleton '=' ++
        (x ++ onward '=' (past '=' p.default)) := by
      rw [effective, if_neg (value_ne_empty_of_eq hx), hx]
      exact String.append_assoc
    have hname : upTo '=' p.effective = upTo '=' p.default := by
      rw [hvalue, upTo_append (notMem_upTo '=' p.default)]
    have hrest : past '=' p.effective = x ++ onward '=' (past '=' p.default) := by
      rw [hvalue, past_append (notMem_upTo '=' p.default)]
    obtain ⟨y, hy⟩ := exists_onward_append (onward_onward '=' (past '=' p.default)) x
    refine ⟨b ++ y, ?_⟩
    rw [hname, hrest, hy]
    simp only [String.append_assoc]

theorem KeepsName.put {p : Parameter} (h : p.KeepsName) (hk : p.kind = .env) (b : String) :
    (p.put b).KeepsName := by
  obtain ⟨x, hx⟩ := h.exists_assemble_eq hk b
  have hne : p.kind.assemble p.segments? b ≠ "" := by
    rw [hx]
    simp
  right
  refine ⟨x, ?_⟩
  rw [put_value]
  exact (if_neg hne).trans hx

theorem KeepsFixedPart.put {p : Parameter} (h : p.KeepsFixedPart) (b : String) :
    (p.put b).KeepsFixedPart := by
  refine ⟨?_, fun hk => (h.2 hk).put hk b⟩
  intro hk
  have hk' : p.kind = .volume ∨ p.kind = .port := hk
  have hsep : p.kind.separator? = some ':' := by
    rcases hk' with hk' | hk' <;> rw [hk'] <;> rfl
  have hzero : p.kind.editable = 0 := by
    rcases hk' with hk' | hk' <;> rw [hk'] <;> rfl
  exact (h.1 hk').put hsep hzero b

theorem keepsFixedPart_of_value_eq_empty {p : Parameter} (h : p.value = "") : p.KeepsFixedPart := by
  refine ⟨fun _ => ⟨upTo ':' p.default, ?_⟩, fun _ => .inl h⟩
  rw [effective, if_pos h, upTo_append_onward]

end Parameter

namespace Editor

/-- After every run the kinds and candidates are those of the profile, and what surrounds the
segment to edit is what surrounds it in the default. -/
theorem run_keeps_fixed_part (c : Catalog) (image : String) (messages : List Message) :
    let e := (new c image).run messages
    e.parameters.map (fun p => (p.kind, p.candidates)) =
        (c.profile image).parameters.map (fun p => (p.kind, p.candidates)) ∧
      ∀ p ∈ e.parameters,
        (p.kind = .volume ∨ p.kind = .port → ∃ x, p.effective = x ++ onward ':' p.default) ∧
        (p.kind = .env → p.value = "" ∨
          ∃ x, p.value = upTo '=' p.default ++ "=" ++ x ++ onward '=' (past '=' p.default)) := by
  intro e
  constructor
  · have hmap := run_map_parameters (f := fun p => (p.kind, p.candidates)) (fun _ _ => rfl)
      (new_consistent c image) messages
    rw [hmap]
    simp [new, ofProfile]
  · refine run_forall_parameters (P := Parameter.KeepsFixedPart) (fun p b h => h.put b)
      (new_consistent c image) ?_ messages
    intro p hp
    obtain ⟨q, _, rfl⟩ := List.mem_map.mp hp
    exact Parameter.keepsFixedPart_of_value_eq_empty rfl

end Editor
end LaunchEditor
