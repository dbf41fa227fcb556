import LaunchEditor.Proofs.Editor.Consistent

/-! # What an edit leaves behind

Confirming an edit puts its line into the selected parameter; no other message changes any value.
A property of parameters that survives this holds of all of them after every run.
-/
namespace LaunchEditor

namespace Parameter

/-- The value with `b` in place of its editable segment, or `b` if the kind has no segments. -/
def withSegment (p : Parameter) (b : String) : String :=
  match p.kind.separator? with
  | none => b
  | some sep =>
    let segments := (p.kind.split? p.effective).getD []
    (String.singleton sep).intercalate (segments.set p.kind.editable b)

/-- The parameter after an edit that was confirmed with `b` in its line. -/
def put (p : Parameter) (b : String) : Parameter :=
  { p with value := if p.withSegment b = "" then p.default else p.withSegment b }

/-- The segments that an edit keeps make up the same value. -/
theorem assemble_segments? (p : Parameter) (b : String) :
    p.kind.assemble p.segments? b = p.withSegment b := by
  unfold ParameterKind.assemble segments? withSegment ParameterKind.split?
  cases p.kind.separator? <;> rfl

theorem put_eq (p : Parameter) (b : String) : p.put b =
    let value := p.kind.assemble p.segments? b
    { p with value := if value = "" then p.default else value } := by
  rw [assemble_segments?]
  rfl

@[simp] theorem put_kind (p : Parameter) (b : String) : (p.put b).kind = p.kind := rfl

@[simp] theorem put_candidates (p : Parameter) (b : String) :
    (p.put b).candidates = p.candidates := rfl

@[simp] theorem put_default (p : Parameter) (b : String) : (p.put b).default = p.default := rfl

theorem put_value (p : Parameter) (b : String) : (p.put b).value =
    let value := p.kind.assemble p.segments? b
    if value = "" then p.default else value := by
  rw [put_eq]

end Parameter

namespace Editor

theorem Consistent.commitEdit_eq {e : Editor} (h : e.Consistent) {edit : Edit}
    (he : e.edit = some edit) :
    e.commitEdit =
      { e with
        edit := none
        parameters := e.parameters.modify e.selected (·.put edit.buffer) } := by
  obtain ⟨p, hp, hf⟩ := h.edit edit he
  simp only [Editor.commitEdit, he, Edit.value]
  congr 1
  apply List.ext_getElem?
  intro i
  simp only [List.getElem?_modify]
  by_cases hi : e.selected = i
  · subst hi
    have hp' : e.parameters[e.selected]? = some p := hp
    simp [hp', Parameter.put_eq, hf.segments]
  · simp [hi]

/-- A step changes no parameter but the selected one, and that one only by confirming an edit. -/
theorem Step.parameters_eq {e f : Editor} {m : Message} {t : Transition} (h : e.Consistent)
    (hs : e.Step m f t) :
    f.parameters = e.parameters ∨
      ∃ edit, e.edit = some edit ∧
        f.parameters = e.parameters.modify e.selected (·.put edit.buffer) := by
  cases hs with
  | confirm he => exact .inr ⟨_, he, by rw [h.commitEdit_eq he]⟩
  | advance he => exact .inr ⟨_, he, by rw [selectNext_parameters, h.commitEdit_eq he]⟩
  | previous | next | begin => exact .inl (by simp)
  | _ => exact .inl rfl

theorem forall_mem_modify {α : Type} {P : α → Prop} {f : α → α} (hf : ∀ a, P a → P (f a))
    {l : List α} (h : ∀ a ∈ l, P a) (i : Nat) : ∀ a ∈ l.modify i f, P a := by
  intro a ha
  obtain ⟨j, hj⟩ := List.mem_iff_getElem?.mp ha
  rw [List.getElem?_modify] at hj
  obtain ⟨b, hb, rfl⟩ := Option.map_eq_some_iff.mp hj
  have hPb := h b (List.mem_of_getElem? hb)
  split
  · exact hf b hPb
  · exact hPb

/-- What confirming a line of printable characters preserves of a parameter, every run preserves of
all of them. -/
theorem run_forall_parameters_of_printable {P : Parameter → Prop}
    (hput : ∀ p b, (∀ c ∈ b.toList, Printable c) → P p → P (p.put b)) {e : Editor}
    (he : e.Consistent) (h : ∀ p ∈ e.parameters, P p) (messages : List Message) :
    ∀ p ∈ (e.run messages).parameters, P p := by
  refine (run_preserves (P := fun e => e.Consistent ∧ ∀ p ∈ e.parameters, P p) ?_ ⟨he, h⟩
    messages).2
  rintro e m f t ⟨hc, hp⟩ hs
  refine ⟨hc.step hs, ?_⟩
  rcases hs.parameters_eq hc with heq | ⟨edit, hedit, heq⟩ <;> rw [heq]
  · exact hp
  · obtain ⟨_, _, hfits⟩ := hc.edit edit hedit
    have hb : ∀ c ∈ edit.buffer.toList, Printable c := by
      simpa [Edit.buffer] using hfits.line.printable
    exact forall_mem_modify (fun p => hput p edit.buffer hb) hp e.selected

theorem run_forall_parameters {P : Parameter → Prop} (hput : ∀ p b, P p → P (p.put b))
    {e : Editor} (he : e.Consistent) (h : ∀ p ∈ e.parameters, P p) (messages : List Message) :
    ∀ p ∈ (e.run messages).parameters, P p :=
  run_forall_parameters_of_printable (fun p b _ => hput p b) he h messages

/-- What confirming an edit leaves as it is, every run leaves as it is. -/
theorem run_map_parameters {α : Type} {f : Parameter → α} (hput : ∀ p b, f (p.put b) = f p)
    {e : Editor} (he : e.Consistent) (messages : List Message) :
    (e.run messages).parameters.map f = e.parameters.map f := by
  refine (run_preserves
    (P := fun e' => e'.Consistent ∧ e'.parameters.map f = e.parameters.map f) ?_ ⟨he, rfl⟩
    messages).2
  rintro e' m g t ⟨hc, hp⟩ hs
  refine ⟨hc.step hs, ?_⟩
  rw [← hp]
  rcases hs.parameters_eq hc with heq | ⟨edit, _, heq⟩ <;> rw [heq]
  apply List.ext_getElem?
  intro i
  simp only [List.getElem?_map, List.getElem?_modify]
  split
  · cases e'.parameters[i]? <;> simp [hput]
  · simp

end Editor
end LaunchEditor
