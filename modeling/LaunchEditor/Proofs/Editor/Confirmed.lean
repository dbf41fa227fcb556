import LaunchEditor.Proofs.Editor.Commit

/-! # What a run makes of each parameter

The lines that are confirmed while a parameter is selected, put into it one after the other, make
up its value. Whatever else happens in between, also to other parameters, leaves no trace on it.
-/
namespace LaunchEditor.Editor

/-- The line of a live edit of the parameter at `i`. -/
def lineAt? (e : Editor) (i : Nat) : Option String :=
  if e.selected = i then e.edit.map (·.buffer) else none

/-- The line that a message confirms for the parameter at `i`. -/
def confirmed? (e : Editor) (i : Nat) : Message → Option String
  | .key .enter | .key .tab => e.lineAt? i
  | _ => none

/-- The lines that a run confirms for the parameter at `i`, in order. -/
def confirmed (e : Editor) (i : Nat) : List Message → List String
  | [] => []
  | m :: ms => (e.confirmed? i m).toList ++ (e.update m).1.confirmed i ms

theorem confirmed?_of_browsing {e : Editor} (he : e.edit = none) (i : Nat) (m : Message) :
    e.confirmed? i m = none := by
  unfold confirmed?
  split <;> simp [lineAt?, he]

theorem confirmed?_of_notMem_editKeys (e : Editor) (i : Nat) {k : Key} (hk : k ∉ editKeys) :
    e.confirmed? i (.key k) = none := by
  cases k with
  | enter | tab => simp [editKeys] at hk
  | _ => rfl

theorem Consistent.getElem?_commitEdit {e : Editor} (h : e.Consistent) {edit : Edit}
    (he : e.edit = some edit) (i : Nat) :
    e.commitEdit.parameters[i]? = e.parameters[i]?.map fun p => (e.lineAt? i).elim p p.put := by
  rw [h.commitEdit_eq he, List.getElem?_modify, lineAt?, he]
  split <;> rfl

/-- The line that a message confirms is all that it brings to a parameter. -/
theorem Step.getElem?_parameters {e f : Editor} {m : Message} {t : Transition}
    (h : e.Consistent) (hs : e.Step m f t) (i : Nat) :
    f.parameters[i]? = e.parameters[i]?.map fun p => (e.confirmed? i m).elim p p.put := by
  have hkept : e.parameters[i]? =
      e.parameters[i]?.map fun p => (none : Option String).elim p p.put := Option.map_id'.symm
  cases hs with
  | confirm he => exact h.getElem?_commitEdit he i
  | advance he =>
    rw [selectNext_parameters]
    exact h.getElem?_commitEdit he i
  | previous he | next he | begin he => simp [confirmed?_of_browsing he]
  | leave he | ignore he =>
    rw [confirmed?_of_browsing he]
    exact hkept
  | type he hk =>
    rw [confirmed?_of_notMem_editKeys e i hk]
    exact hkept
  | fail | cancel | abandon => exact hkept

theorem Consistent.getElem?_run {e : Editor} (h : e.Consistent) (messages : List Message)
    (i : Nat) : (e.run messages).parameters[i]? =
      e.parameters[i]?.map fun p => (e.confirmed i messages).foldl Parameter.put p := by
  induction messages generalizing e with
  | nil => exact Option.map_id'.symm
  | cons m ms ih =>
    have hs := e.update_step m
    rw [run_cons, ih (h.step hs), hs.getElem?_parameters h, Option.map_map]
    congr 1
    funext p
    cases hc : e.confirmed? i m <;> simp [confirmed, hc]

/-- What no message has a say in. -/
def invocation (e : Editor) : String × String × List RunFlag := (e.program, e.image, e.flags)

@[simp] theorem selectPrevious_invocation (e : Editor) :
    e.selectPrevious.invocation = e.invocation := by
  unfold selectPrevious
  split <;> rfl

@[simp] theorem selectNext_invocation (e : Editor) : e.selectNext.invocation = e.invocation := by
  unfold selectNext
  split <;> rfl

@[simp] theorem beginEdit_invocation (e : Editor) (c : Char) :
    (e.beginEdit c).invocation = e.invocation := by
  unfold beginEdit
  split <;> rfl

@[simp] theorem commitEdit_invocation (e : Editor) : e.commitEdit.invocation = e.invocation := by
  unfold commitEdit
  split <;> rfl

theorem Step.invocation_eq {e f : Editor} {m : Message} {t : Transition} (hs : e.Step m f t) :
    f.invocation = e.invocation := by
  cases hs with
  | previous | next | begin | confirm | advance => simp
  | _ => rfl

theorem run_invocation (e : Editor) (messages : List Message) :
    (e.run messages).invocation = e.invocation :=
  run_preserves (P := fun f => f.invocation = e.invocation)
    (fun h hs => hs.invocation_eq.trans h) rfl messages

/-- After every run each parameter is what the lines confirmed for it make of its default, in their
order. A further message brings a line only to the parameter that it confirms an edit of, and all
but the values is what the catalog has for the image. -/
theorem run_parameter (c : Catalog) (image : String) (messages : List Message) :
    let start := new c image
    let e := start.run messages
    (∀ i, e.parameters[i]? = (c.profile image).parameters[i]?.map fun p =>
        (start.confirmed i messages).foldl Parameter.put { p with value := "" }) ∧
      (∀ m i, (e.update m).1.parameters[i]? =
        e.parameters[i]?.map fun p => (e.confirmed? i m).elim p p.put) ∧
      e.parameters.map (fun p => (p.kind, p.candidates)) =
        (c.profile image).parameters.map (fun p => (p.kind, p.candidates)) ∧
      e.program = c.program ∧ e.image = image ∧ e.flags = (c.profile image).flags := by
  intro start e
  have hstart := new_consistent c image
  have hinv : e.invocation = start.invocation := run_invocation start messages
  refine ⟨?_, ?_, ?_, ?_⟩
  · intro i
    rw [hstart.getElem?_run, new, ofProfile, List.getElem?_map, Option.map_map]
    rfl
  · intro m i
    exact (e.update_step m).getElem?_parameters (run_consistent c image messages) i
  · rw [run_map_parameters (f := fun p => (p.kind, p.candidates)) (fun _ _ => rfl) hstart messages]
    simp [new, ofProfile]
  · simpa [invocation, start, new, ofProfile] using hinv

/-- Of two lines the second counts, but for a colon in the first that is kept; an empty line brings
back the default, a variable gets the sign that its default lacks, and a cancelled line is lost. -/
theorem run_parameter_segments :
    let profile : Profile :=
      { parameters := [{ kind := .volume, candidates := ["/data:/work:ro"] },
          { kind := .env, candidates := ["MODE"] }, { kind := .name, candidates := ["web", "db"] },
          { kind := .entrypoint, candidates := ["/bin/sh"] }] }
    let messages : List Message :=
      [.key (.char 'a'), .key (.char ':'), .key .enter, .key (.char 'b'), .key .tab,
        .key (.char 's'), .key .tab, .key (.char 'x'), .key .backspace, .key .tab,
        .key (.char 'y'), .key .escape, .key (.char 'z'), .key .enter]
    let start := new { images := [("image", profile)] } "image"
    let e := start.run messages
    (List.range 4).map (start.confirmed · messages) = [["a:", "b"], ["s"], [""], ["z"]] ∧
      (List.range 4).map (e.parameters[·]?.map (·.value)) =
        [some "b::/work:ro", some "MODE=s", some "web", some "z"] := by
  intro profile messages start e
  obtain ⟨hvalues, -⟩ := run_parameter { images := [("image", profile)] } "image" messages
  have hconfirmed : (List.range 4).map (start.confirmed · messages) =
      [["a:", "b"], ["s"], [""], ["z"]] := by decide +kernel
  refine ⟨hconfirmed, ?_⟩
  simp only [e, start, hvalues]
  decide +kernel

end LaunchEditor.Editor
