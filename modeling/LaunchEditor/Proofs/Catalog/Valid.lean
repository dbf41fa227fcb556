import LaunchEditor.Catalog.File
import LaunchEditor.Proofs.Editor.Commit
import LaunchEditor.Proofs.Except
import LaunchEditor.Proofs.Options.Preview
import LaunchEditor.Proofs.Session.Trace

/-! # Valid catalogs

A catalog that has been loaded is valid: every image has a name that is not blank and every
parameter has a candidate to fall back on. What is committed of it is empty only where that
candidate is.
-/
namespace LaunchEditor

def Profile.HasCandidates (p : Profile) : Prop := ∀ q ∈ p.parameters, q.candidates ≠ []

namespace Catalog

theorem validateImage_eq_ok {name : String} {p : Profile} :
    validateImage name p = .ok () ↔
      Text.isBlankText name = false ∧ p.HasCandidates := by
  unfold validateImage Profile.HasCandidates
  by_cases hname : Text.isBlankText name = true
  · simp [hname]
  · cases hp : p.parameters.find? (·.candidates.isEmpty) with
    | some q =>
      have hq := List.find?_some hp
      have hmem := List.mem_of_find?_eq_some hp
      simp only [hname, Bool.false_eq_true, ↓reduceIte, reduceCtorEq, true_and, false_iff,
        not_forall]
      exact ⟨q, hmem, by simpa using hq⟩
    | none =>
      have hall := List.find?_eq_none.mp hp
      simpa [hname] using hall

theorem validate_eq_ok {c : Catalog} : c.validate = .ok () ↔ ∀ entry ∈ c.images,
    Text.isBlankText entry.1 = false ∧ entry.2.HasCandidates := by
  rw [validate, forM_eq_ok]
  exact forall₂_congr fun entry _ => validateImage_eq_ok

theorem validate_builtin : builtin.validate = .ok () := by
  decide

theorem validate_of_ofFile {path : String} {state : FileState} {c : Catalog}
    (h : ofFile path state = .ok c) : c.validate = .ok () := by
  cases state with
  | file bytes =>
    obtain ⟨b, _, h⟩ := bind_eq_ok.mp h
    obtain ⟨_, hvalid, h⟩ := bind_eq_ok.mp h
    cases h
    exact hvalid
  | _ => cases h

theorem validate_of_load {path : String} {required : Bool} {state : FileState} {c : Catalog}
    (h : load path required state = .ok c) : c.validate = .ok () := by
  unfold load at h
  split at h
  · exact validate_of_ofFile h
  · cases h
    exact validate_builtin

theorem hasCandidates_profile {c : Catalog} (h : c.validate = .ok ()) (image : String) :
    (c.profile image).HasCandidates := by
  rw [profile]
  cases hl : c.images.lookup image with
  | none => exact fun q hq => nomatch hq
  | some p =>
    obtain ⟨before, after, himages, _⟩ := List.lookup_eq_some_iff.mp hl
    have hmem : (image, p) ∈ c.images := by simp [himages]
    exact (validate_eq_ok.mp h _ hmem).2

end Catalog

namespace Parameter

/-- A parameter with a candidate stands for the empty text only at a default that is empty. -/
theorem effective_eq_empty {p : Parameter} (hp : p.candidates ≠ []) :
    p.effective = "" ↔ p.value = "" ∧ p.candidates.head? = some "" := by
  obtain ⟨v, vs, hv⟩ := List.exists_cons_of_ne_nil hp
  by_cases hvalue : p.value = ""
  · simp [effective, default, hvalue, hv]
  · simp [effective, hvalue]

end Parameter

namespace Editor

/-- Every value that is committed is what a parameter of its kind stands for, and is empty only at
a parameter that the user left without a value and whose first candidate is empty. -/
theorem commit_values {path : String} {required : Bool} {state : FileState} {c : Catalog}
    (hload : Catalog.load path required state = .ok c) (image : String) (ks : List Key)
    {s : Selections} (hcommit : ((new c image).pressed ks).commit = .ok s) :
    let e := (new c image).pressed ks
    e.parameters.map (fun p => (p.kind, p.candidates)) =
        (c.profile image).parameters.map (fun p => (p.kind, p.candidates)) ∧
      ∀ k, ∀ v ∈ s.valuesOf k, ∃ p ∈ e.parameters, p.kind = k ∧ v = p.effective ∧
        (v = "" ↔ p.value = "" ∧ p.candidates.head? = some "") := by
  intro e
  have hstart := new_consistent c image
  have hoffered : e.parameters.map (fun p => (p.kind, p.candidates)) =
      (c.profile image).parameters.map (fun p => (p.kind, p.candidates)) := by
    have hkept := run_map_parameters (f := fun p => (p.kind, p.candidates)) (fun _ _ => rfl) hstart
      (ks.map .key)
    exact hkept.trans (by simp [new, ofProfile])
  have hcandidates : ∀ p ∈ e.parameters, p.candidates ≠ [] := by
    intro p hp
    have hmem := List.mem_map_of_mem (f := fun p => (p.kind, p.candidates)) hp
    rw [hoffered] at hmem
    obtain ⟨q, hq, heq⟩ := List.mem_map.mp hmem
    have hq' := Catalog.hasCandidates_profile (Catalog.validate_of_load hload) image q hq
    rwa [← (Prod.mk.inj heq).2]
  refine ⟨hoffered, ?_⟩
  intro k v hv
  obtain ⟨_, _, rfl⟩ := commit_eq_ok.mp hcommit
  rw [selections_valuesOf] at hv
  have hshown := (k.keep_sublist _).subset hv
  obtain ⟨p, hp, rfl⟩ := List.mem_map.mp hshown
  obtain ⟨hmem, hkind⟩ := List.mem_filter.mp hp
  exact ⟨p, hmem, by simpa using hkind, rfl, Parameter.effective_eq_empty (hcandidates p hmem)⟩

/-- A name that is deleted again gives way to the first name that is suggested. -/
theorem commit_values_fallback :
    let e := (new .builtin "alpine").pressed [.char 'x', .backspace, .enter, .enter]
    Catalog.load "missing.yml" false .missing = .ok .builtin ∧
      ∃ s, e.commit = .ok s ∧ s.name = some "alpine-test" ∧ "" ∉ s.valuesOf .name := by
  intro e
  have hload : Catalog.load "missing.yml" false .missing = .ok .builtin := rfl
  have hcommit : e.commit = .ok e.selections := rfl
  obtain ⟨_, hvalues⟩ := commit_values hload "alpine"
    [.char 'x', .backspace, .enter, .enter] hcommit
  refine ⟨hload, e.selections, hcommit, by decide, fun hmem => ?_⟩
  obtain ⟨p, hp, hkind, _, hempty⟩ := hvalues .name "" hmem
  have hhead : p.candidates.head? = some "" := (hempty.mp rfl).2
  have hno : ∀ p ∈ e.parameters, p.candidates.head? ≠ some "" := by decide
  exact hno p hp hhead

/-- A catalog may suggest the empty text first, and then the name can be empty. -/
theorem commit_empty_candidate :
    let text := "images:\n  a:\n    parameters:\n    - kind: name\n      candidates: ['']\n"
    let c : Catalog :=
      { images := [("a", { parameters := [{ kind := .name, candidates := [""] }] })] }
    Catalog.load "catalog.yml" true (.file text.toUTF8) = .ok c ∧
      ∃ s, ((new c "a").pressed [.enter]).commit = .ok s ∧ s.name = some "" := by
  intro text c
  have hread : (Catalog.load "catalog.yml" true (.file text.toUTF8)).toOption = some c := by
    decide +kernel
  have hload : Catalog.load "catalog.yml" true (.file text.toUTF8) = .ok c := by
    cases h : Catalog.load "catalog.yml" true (.file text.toUTF8) with
    | error f =>
      rw [h] at hread
      cases hread
    | ok found =>
      rw [h] at hread
      exact congrArg Except.ok (Option.some.inj hread)
  exact ⟨hload, _, rfl, rfl⟩

end Editor
end LaunchEditor
