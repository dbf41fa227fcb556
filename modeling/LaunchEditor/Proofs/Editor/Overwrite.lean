import LaunchEditor.Proofs.Editor.FixedPart
import LaunchEditor.Proofs.Editor.Retype
import LaunchEditor.Proofs.Options.Preview

/-! # Editing a parameter twice

A second edit starts from the value that the first one stored. It leaves nothing of the first text
unless that text held a separator: then what stands behind the separator has become part of what an
edit keeps.
-/
namespace LaunchEditor
open Text

namespace Parameter

theorem put_put_value_of_simple {p : Parameter} (hk : p.kind.separator? = none) (a b : String) :
    ((p.put a).put b).value = (p.put b).value := by
  have hassemble (q : Parameter) (hq : q.kind.separator? = none) :
      q.kind.assemble q.segments? b = b := by
    simp only [ParameterKind.assemble, hq]
    split <;> first | rfl | contradiction
  have hput : (p.put a).kind.separator? = none := hk
  simp only [put_value _ b, hassemble p hk, hassemble _ hput, put_default]

/-- A value without a separator stands for a default without one. -/
theorem KeepsTail.notMem_default {p : Parameter} (h : p.KeepsTail)
    (hv : ':' ∉ p.effective.toList) : ':' ∉ p.default.toList := by
  obtain ⟨x, hx⟩ := h
  intro hmem
  have hd := upTo_append_onward ':' p.default
  rw [← hd, String.toList_append, List.mem_append] at hmem
  apply hv
  rw [hx, String.toList_append, List.mem_append]
  exact .inr (hmem.resolve_left (notMem_upTo ':' p.default))

section
variable {p : Parameter} (hsep : p.kind.separator? = some ':') (hk : p.kind.editable = 0)
include hsep hk

theorem assemble_segments?_of_editable_eq_zero (b : String) :
    p.kind.assemble p.segments? b = b ++ onward ':' p.effective := by
  rw [segments?, ParameterKind.assemble_split?_of_editable_eq_zero hsep hk]

theorem put_value_of_ne_empty {b : String} (hb : b ++ onward ':' p.effective ≠ "") :
    (p.put b).value = b ++ onward ':' p.effective := by
  rw [put_value, assemble_segments?_of_editable_eq_zero hsep hk]
  exact if_neg hb

theorem put_value_of_eq_empty {b : String} (hb : b ++ onward ':' p.effective = "") :
    (p.put b).value = p.default := by
  rw [put_value, assemble_segments?_of_editable_eq_zero hsep hk]
  exact if_pos hb

theorem KeepsTail.put_put_value_of_notMem (h : p.KeepsTail) {a : String} (ha : ':' ∉ a.toList)
    (b : String) : ((p.put a).put b).value = (p.put b).value := by
  have htail : onward ':' (p.put a).effective = onward ':' p.effective := by
    rw [put_effective, assemble_segments?_of_editable_eq_zero hsep hk]
    by_cases hw : a ++ onward ':' p.effective = ""
    · obtain ⟨_, hv⟩ := String.append_eq_empty_iff.mp hw
      rw [if_pos hw, hv]
      exact onward_of_notMem (h.notMem_default (onward_eq_empty_iff.mp hv))
    · rw [if_neg hw]
      exact onward_append_onward_eq_iff.mpr ha
  have hagain := assemble_segments?_of_editable_eq_zero (p := p.put a) hsep hk b
  rw [put_value, put_value p, hagain, assemble_segments?_of_editable_eq_zero hsep hk, htail,
    put_default]

theorem KeepsTail.put_put_value_ne (h : p.KeepsTail) {a : String} (ha : ':' ∈ a.toList)
    (b : String) : ((p.put a).put b).value ≠ (p.put b).value := by
  have hstale : onward ':' a ≠ "" := fun hs => onward_eq_empty_iff.mp hs ha
  have hne : a ≠ "" := by
    rintro rfl
    simp at ha
  have htail : onward ':' (p.put a).effective = onward ':' a ++ onward ':' p.effective := by
    rw [put_effective, assemble_segments?_of_editable_eq_zero hsep hk]
    simp only [String.append_eq_empty_iff, hne, false_and, ↓reduceIte]
    exact onward_append_of_mem ha _
  have htwice : ((p.put a).put b).value = b ++ (onward ':' a ++ onward ':' p.effective) := by
    rw [← htail]
    exact put_value_of_ne_empty (p := p.put a) hsep hk (by simp [htail, hstale])
  rw [htwice]
  intro heq
  by_cases hb : b ++ onward ':' p.effective = ""
  · -- The edit in one go falls back to the default, which has no separator.
    obtain ⟨rfl, hv⟩ := String.append_eq_empty_iff.mp hb
    have hd := h.notMem_default (onward_eq_empty_iff.mp hv)
    rw [put_value_of_eq_empty hsep hk hb, hv, String.append_empty, String.empty_append] at heq
    rw [← onward_eq_empty_iff, ← heq, onward_onward] at hd
    exact hstale hd
  · rw [put_value_of_ne_empty hsep hk hb, String.append_right_inj, append_left_eq_self_iff] at heq
    exact hstale heq

end

theorem put_put_value_iff_of_env {p : Parameter} (hk : p.kind = .env) (a b : String) :
    ((p.put a).put b).value = (p.put b).value ↔ '=' ∉ a.toList := by
  have hassemble (q : Parameter) (hq : q.kind = .env) (t : String) :
      (q.put t).value = upTo '=' q.effective ++ "=" ++ t ++ onward '=' (past '=' q.effective) := by
    rw [put_value, segments?, hq, ParameterKind.assemble_split?_env]
    simp
  have heffective : (p.put a).effective =
      upTo '=' p.effective ++ String.singleton '=' ++ (a ++ onward '=' (past '=' p.effective)) := by
    rw [effective, hassemble p hk, if_neg (by simp), String.append_assoc]
    rfl
  have hname := notMem_upTo '=' p.effective
  have hput : (p.put a).kind = .env := hk
  rw [hassemble _ hput, hassemble p hk, heffective, upTo_append hname, past_append hname]
  rw [String.append_right_inj]
  exact onward_append_onward_eq_iff

/-- A second edit makes up for the first one unless that has put a separator into the value. -/
theorem KeepsFixedPart.put_put_value_iff {p : Parameter} (h : p.KeepsFixedPart) (a b : String) :
    ((p.put a).put b).value = (p.put b).value ↔
      p.kind ∈ [.name, .entrypoint] ∨ ∃ sep, p.kind.separator? = some sep ∧ sep ∉ a.toList := by
  obtain ⟨htail, _⟩ := h
  cases hk : p.kind with
  | name | entrypoint =>
    have hsimple : p.kind.separator? = none := by rw [hk]; rfl
    exact iff_of_true (put_put_value_of_simple hsimple a b) (.inl (by simp))
  | env =>
    rw [put_put_value_iff_of_env hk]
    simp [ParameterKind.separator?]
  | volume | port =>
    have hsep : p.kind.separator? = some ':' := by rw [hk]; rfl
    have hzero : p.kind.editable = 0 := by rw [hk]; rfl
    have hkeeps : p.KeepsTail := htail (by simp [hk])
    simp only [ParameterKind.separator?, List.mem_cons, reduceCtorEq, List.not_mem_nil, or_self,
      false_or, Option.some.injEq, exists_eq_left']
    constructor
    · exact fun heq ha => hkeeps.put_put_value_ne hsep hzero ha b heq
    · exact fun ha => hkeeps.put_put_value_of_notMem hsep hzero ha b

end Parameter

namespace Editor

theorem run_keepsFixedPart (c : Catalog) (image : String) (messages : List Message) :
    ∀ p ∈ ((new c image).run messages).parameters, p.KeepsFixedPart := by
  refine run_forall_parameters (fun p b h => h.put b) (new_consistent c image) ?_ messages
  intro p hp
  obtain ⟨q, _, rfl⟩ := List.mem_map.mp hp
  exact Parameter.keepsFixedPart_of_value_eq_empty rfl

/-- Wherever a run has led the editor to be browsed, the selected parameter can be edited to any
printable text. Editing it to one text and then to another stores what editing it to the second one
alone stores, if and only if its values have no separator or the first text does not hold it. -/
theorem edits_edits_iff (c : Catalog) (image : String) (messages : List Message)
    (hmode : ((new c image).run messages).mode = .browsing)
    (hne : ((new c image).run messages).parameters ≠ []) {t₁ t₂ : String}
    (h₁ : ∀ x ∈ t₁.toList, Printable x) (h₂ : ∀ x ∈ t₂.toList, Printable x) :
    let e := (new c image).run messages
    (∃ f g, e.Edits t₁ f ∧ f.Edits t₂ g) ∧ (∃ g, e.Edits t₂ g) ∧
      ∃ p, e.current? = some p ∧ ∀ f g g', e.Edits t₁ f → f.Edits t₂ g → e.Edits t₂ g' →
        ∃ q q', g.parameters[e.selected]? = some q ∧ g'.parameters[e.selected]? = some q' ∧
          (q.value = q'.value ↔ p.kind ∈ [.name, .entrypoint] ∨
            ∃ sep, p.kind.separator? = some sep ∧ sep ∉ t₁.toList) := by
  intro e
  have he : e.edit = none := edit_of_browsing hmode
  have hc : e.Consistent := run_consistent c image messages
  have hlt : e.selected < e.parameters.length := hc.selected.resolve_right fun h => hne h.1
  have hp : e.current? = some e.parameters[e.selected] := List.getElem?_eq_getElem hlt
  have hkeeps : e.parameters[e.selected].KeepsFixedPart :=
    run_keepsFixedPart c image messages _ (List.getElem_mem hlt)
  refine ⟨?_, exists_edits he hp h₂, _, hp, ?_⟩
  · obtain ⟨f, hf⟩ := exists_edits he hp h₁
    obtain ⟨g, hg⟩ := exists_edits (hf.edit_eq_none hc hp) (hf.current? hc hp) h₂
    exact ⟨f, g, hf, hg⟩
  · intro f g g' hf hg hg'
    have hq := hg.current? (hf.consistent hc hp) (hf.current? hc hp)
    have hq' := hg'.current? hc hp
    have hselected : g.selected = e.selected :=
      (hg.selected_eq (hf.consistent hc hp) (hf.current? hc hp)).trans (hf.selected_eq hc hp)
    rw [current?, hselected] at hq
    rw [current?, hg'.selected_eq hc hp] at hq'
    exact ⟨_, _, hq, hq', hkeeps.put_put_value_iff t₁ t₂⟩

/-- Of a port typed with a colon, what stands behind the colon is kept by the next edit. -/
theorem edits_edits_iff_port :
    let e := (new .builtin "alpine").run [.key .down]
    e.mode = .browsing ∧ e.parameters ≠ [] ∧
      ∃ f g g', e.Edits "9:9" f ∧ f.Edits "7" g ∧ e.Edits "7" g' ∧
        ∃ q q', g.parameters[1]? = some q ∧ g'.parameters[1]? = some q' ∧ q.value ≠ q'.value := by
  intro e
  have hmode : e.mode = .browsing := rfl
  have hne : e.parameters ≠ [] := by decide
  have hprintable (t : String) (ht : t.toList.all Key.isInsertable = true) :
      ∀ x ∈ t.toList, Printable x := by
    intro x hx
    exact (printable_iff_isInsertable x).mpr (List.all_eq_true.mp ht x hx)
  obtain ⟨⟨f, g, hf, hg⟩, ⟨g', hg'⟩, p, hp, hall⟩ :=
    edits_edits_iff .builtin "alpine" [.key .down] hmode hne (hprintable "9:9" (by decide))
      (hprintable "7" (by decide))
  obtain ⟨q, q', hq, hq', hiff⟩ := hall f g g' hf hg hg'
  refine ⟨hmode, hne, f, g, g', hf, hg, hg', q, q', hq, hq', fun heq => ?_⟩
  have hport : p = { kind := .port, candidates := ["8080:80"] } := (Option.some.inj hp).symm
  rw [hport] at hiff
  rcases hiff.mp heq with hk | ⟨sep, hsep, hnotMem⟩
  · exact absurd hk (by decide)
  · obtain rfl : sep = ':' := (Option.some.inj hsep).symm
    exact hnotMem (by decide)

end Editor
end LaunchEditor
