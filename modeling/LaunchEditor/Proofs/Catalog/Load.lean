import LaunchEditor.Proofs.Catalog.Valid
import LaunchEditor.Proofs.Yaml.Yields

/-! # Loaded catalogs

Loading a file that reads as a catalog succeeds just in case each image is sound, and otherwise
tells what the first one that is not lacks. Wherever a catalog comes from, its images are sound and
no value has been chosen, so that an editor always has a value to show.
-/
namespace LaunchEditor
open Yaml Yaml.Decode

/-- No value has been chosen yet. -/
def Profile.Untouched (p : Profile) : Prop := ∀ q ∈ p.parameters, q.value = ""

namespace Catalog

/-- There is something in the name that is not blank. -/
def IsNamed (name : String) : Prop := ∃ c ∈ name.toList, Text.isBlank c = false

def Sound (image : String × Profile) : Prop := IsNamed image.1 ∧ image.2.HasCandidates

/-- The fault of an image that is not sound. -/
inductive Lacks (image : String × Profile) : Fault → Prop where
  | name (h : ∀ c ∈ image.1.toList, Text.isBlank c = true) : Lacks image .blankImageName
  | candidates {before after : List Parameter} {q : Parameter} (h : IsNamed image.1)
      (hq : image.2.parameters = before ++ q :: after) (hbefore : ∀ r ∈ before, r.candidates ≠ [])
      (hnone : q.candidates = []) : Lacks image (.noCandidates image.1 q.kind.flag)

theorem isBlankText_eq_false {name : String} : Text.isBlankText name = false ↔ IsNamed name := by
  simp [Text.isBlankText, IsNamed]

theorem isBlankText_eq_true {name : String} :
    Text.isBlankText name = true ↔ ∀ c ∈ name.toList, Text.isBlank c = true := by
  simp [Text.isBlankText]

theorem validateImage_eq_error {image : String × Profile} {f : Fault} :
    validateImage image.1 image.2 = .error f ↔ Lacks image f := by
  unfold validateImage
  constructor
  · intro h
    split at h
    · cases h
      exact .name (isBlankText_eq_true.mp ‹_›)
    · rename_i hname
      split at h
      · rename_i q hq
        cases h
        obtain ⟨hnone, before, after, hsplit, hbefore⟩ := List.find?_eq_some_iff_append.mp hq
        exact .candidates (isBlankText_eq_false.mp (by simpa using hname)) hsplit
          (by simpa using hbefore) (by simpa using hnone)
      · cases h
  · intro h
    cases h with
    | name h => rw [if_pos (isBlankText_eq_true.mpr h)]
    | @candidates before after q h hq hbefore hnone =>
      have hfind : image.2.parameters.find? (·.candidates.isEmpty) = some q :=
        List.find?_eq_some_iff_append.mpr
          ⟨by simpa using hnone, before, after, hq, by simpa using hbefore⟩
      rw [if_neg (by simpa using isBlankText_eq_false.mpr h), hfind]

theorem validate_eq_ok_iff_sound {c : Catalog} :
    c.validate = .ok () ↔ ∀ image ∈ c.images, Sound image := by
  rw [validate_eq_ok]
  exact forall₂_congr fun image _ => and_congr_left' isBlankText_eq_false

theorem validate_eq_error {c : Catalog} {f : Fault} :
    c.validate = .error f ↔ ∃ before image after, c.images = before ++ image :: after ∧
      (∀ b ∈ before, Sound b) ∧ Lacks image f := by
  have hok (image : String × Profile) :
      validateImage image.1 image.2 = .ok () ↔ Sound image :=
    validateImage_eq_ok.trans (and_congr_left' isBlankText_eq_false)
  rw [validate, forM_eq_error]
  simp only [hok, validateImage_eq_error]

section
variable (d : Document) (path : Path)

theorem yields_ofParameterFields (f : ParameterFields) :
    Yields (ofParameterFields f) fun q => q.value = "" := by
  unfold ofParameterFields
  split
  · exact .refuse _
  · exact .refuse _
  · exact .pure rfl

theorem yields_ofParameterNode (n : Node) :
    Yields (ofParameterNode d path n) fun q => q.value = "" :=
  .entries (I := fun _ => True) trivial (fun _ _ _ _ _ _ _ => trivial)
    (fun f _ => yields_ofParameterFields f) d path _ n

/-- The parameters that have been read, if they have. -/
def ProfileFields.Untouched (f : ProfileFields) : Prop :=
  ∀ qs ∈ f.parameters, ∀ q ∈ qs, q.value = ""

theorem yields_ofProfileEntry (f : ProfileFields) (entry : Node × Node) (hf : f.Untouched) :
    Yields (ofProfileEntry d path f entry) ProfileFields.Untouched := by
  refine .bind_of_forall (fun key => ?_) _
  split
  · refine .bind_of_forall (fun flags => ?_) _
    exact .pure hf
  split
  · refine .bind (.once (.items (yields_ofParameterNode d) d _ _) _ _) fun parameters h => ?_
    exact .pure h
  · exact .pure hf

theorem yields_ofProfileNode (n : Node) : Yields (ofProfileNode d path n) Profile.Untouched := by
  refine .entries (I := ProfileFields.Untouched) (by rintro qs ⟨⟩)
    (yields_ofProfileEntry d path) (fun f hf => .pure ?_) d path _ n
  intro q hq
  cases hqs : f.parameters with
  | none => simp [hqs] at hq
  | some qs => exact hf qs hqs q (by simpa [hqs] using hq)

theorem forall_mem_insertImage {P : Profile → Prop} {name : String} {profile : Profile}
    (hprofile : P profile) {images : List (String × Profile)} (h : ∀ image ∈ images, P image.2) :
    ∀ image ∈ insertImage name profile images, P image.2 := by
  induction images with
  | nil => simpa [insertImage] using hprofile
  | cons image images ih =>
    obtain ⟨himage, himages⟩ := List.forall_mem_cons.mp h
    rw [insertImage]
    split
    · exact List.forall_mem_cons.mpr ⟨hprofile, himages⟩
    · exact List.forall_mem_cons.mpr ⟨himage, ih himages⟩

theorem yields_ofImagesNode (n : Node) :
    Yields (ofImagesNode d path n) fun images => ∀ image ∈ images, image.2.Untouched := by
  refine .entries (by simp) (fun images entry h => ?_) (fun _ h => .pure h) d path _ n
  refine .bind_of_forall (fun name => ?_) _
  refine .bind (yields_ofProfileNode d _ _) fun profile hprofile => ?_
  exact .pure (forall_mem_insertImage hprofile h)

/-- The images that have been read, if they have. -/
def Fields.Untouched (f : Fields) : Prop :=
  ∀ images ∈ f.images, ∀ image ∈ images, image.2.Untouched

theorem yields_ofEntry (f : Fields) (entry : Node × Node) (hf : f.Untouched) :
    Yields (ofEntry d f entry) Fields.Untouched := by
  refine .bind_of_forall (fun key => ?_) _
  split
  · refine .bind_of_forall (fun program => ?_) _
    exact .pure hf
  split
  · exact .bind (.once (yields_ofImagesNode d _ _) _ _) fun images h => .pure h
  · exact .pure hf

theorem yields_ofRoot : Yields (ofRoot d) fun c => ∀ image ∈ c.images, image.2.Untouched := by
  unfold ofRoot
  split
  · exact .pure (by simp)
  · refine .entries (I := Fields.Untouched) (by rintro images ⟨⟩)
      (yields_ofEntry d) (fun f hf => .pure ?_) d [] _ _
    intro image himage
    cases himages : f.images with
    | none => simp [himages] at himage
    | some images => exact hf images himages image (by simpa [himages] using himage)

end

theorem untouched_of_ofDocument {d : Document} {c : Catalog} (h : ofDocument d = .ok c) :
    ∀ image ∈ c.images, image.2.Untouched := by
  rw [ofDocument, seqLeft_eq_bind] at h
  have hyields : Yields (ofRoot d >>= fun c => complete d >>= fun _ => pure c)
      fun c => ∀ image ∈ c.images, image.2.Untouched :=
    (yields_ofRoot d).bind fun c hc => .bind_of_forall (fun _ => .pure hc) _
  obtain ⟨r, hr, rfl⟩ := map_eq_ok.mp h
  exact hyields 0 r.1 r.2 hr

theorem untouched_builtin : ∀ image ∈ builtin.images, image.2.Untouched := by
  unfold Profile.Untouched
  decide

theorem load_file {bytes : ByteArray} {c : Catalog} (hbytes : ofBytes bytes = .ok c)
    (path : String) (required : Bool) :
    load path required (.file bytes) = c.validate >>= fun _ => .ok c := by
  have hfound : (required || isFound (.file bytes)) = true := Bool.or_true required
  rw [load, if_pos hfound, ofFile, hbytes]
  rfl

theorem untouched_of_load {path : String} {required : Bool} {state : FileState} {c : Catalog}
    (h : load path required state = .ok c) : ∀ image ∈ c.images, image.2.Untouched := by
  unfold load at h
  split at h
  · cases state with
    | file bytes =>
      obtain ⟨b, hread, h⟩ := bind_eq_ok.mp h
      obtain ⟨_, _, h⟩ := bind_eq_ok.mp h
      cases h
      exact untouched_of_ofDocument (mapError_eq_ok.mp (mapError_eq_ok.mp hread))
    | _ => cases h
  · cases h
    exact untouched_builtin

end Catalog

/-- A parameter with candidates shows the value chosen for it or the first of them. -/
theorem Parameter.effective_of_candidates {q : Parameter} (hq : q.candidates ≠ []) :
    q.value ≠ "" ∧ q.effective = q.value ∨
      q.value = "" ∧ q.candidates.head? = some q.effective := by
  obtain ⟨v, vs, hv⟩ := List.exists_cons_of_ne_nil hq
  by_cases hvalue : q.value = ""
  · exact .inr ⟨hvalue, by simp [effective, default, hvalue, hv]⟩
  · exact .inl ⟨hvalue, if_neg hvalue⟩

namespace Editor

theorem run_hasCandidates {c : Catalog} (hvalid : c.validate = .ok ()) (image : String)
    (messages : List Message) :
    ∀ q ∈ ((new c image).run messages).parameters, q.candidates ≠ [] := by
  refine run_forall_parameters (P := fun q => q.candidates ≠ []) (fun q b hq => hq)
    (new_consistent c image) ?_ messages
  intro q hq
  obtain ⟨r, hr, rfl⟩ := List.mem_map.mp hq
  exact Catalog.hasCandidates_profile hvalid image r hr

end Editor

namespace Catalog

/-- A file that reads as a catalog is accepted just in case its images are sound, and else what the
first one that is not lacks is told. Whatever is loaded has sound images in which no value is
chosen, and after every run on it a parameter still offers the candidates that the catalog has for
it and shows the value chosen or the first of them. -/
theorem load_accepts (path : String) (required : Bool) :
    (∀ bytes c, ofBytes bytes = .ok c →
      (load path required (.file bytes) = .ok c ↔ ∀ image ∈ c.images, Sound image) ∧
      ∀ f, load path required (.file bytes) = .error f ↔ ∃ before image after,
        c.images = before ++ image :: after ∧ (∀ b ∈ before, Sound b) ∧ Lacks image f) ∧
    ∀ state c, load path required state = .ok c →
      (∀ image ∈ c.images, Sound image ∧ image.2.Untouched) ∧
      ∀ image messages, let e := (Editor.new c image).run messages
        e.parameters.map (fun q => (q.kind, q.candidates)) =
            (c.profile image).parameters.map (fun q => (q.kind, q.candidates)) ∧
          ∀ q ∈ e.parameters, q.value ≠ "" ∧ q.effective = q.value ∨
            q.value = "" ∧ q.candidates.head? = some q.effective := by
  constructor
  · intro bytes c hbytes
    rw [load_file hbytes, ← validate_eq_ok_iff_sound]
    cases hvalid : c.validate with
    | ok u =>
      refine ⟨iff_of_true rfl rfl, fun f => ?_⟩
      rw [← validate_eq_error, hvalid]
      exact iff_of_false (fun h => nomatch h) (fun h => nomatch h)
    | error e =>
      refine ⟨iff_of_false (fun h => nomatch h) (fun h => nomatch h), fun f => ?_⟩
      rw [← validate_eq_error, hvalid]
      exact ⟨fun h => by cases h; rfl, fun h => by cases h; rfl⟩
  · intro state c hload
    have hvalid := validate_of_load hload
    refine ⟨fun image himage =>
      ⟨validate_eq_ok_iff_sound.mp hvalid image himage, untouched_of_load hload image himage⟩, ?_⟩
    intro image messages e
    have hoffered := Editor.run_map_parameters (f := fun q => (q.kind, q.candidates))
      (fun _ _ => rfl) (Editor.new_consistent c image) messages
    refine ⟨hoffered.trans (by simp [Editor.new, Editor.ofProfile]), fun q hq => ?_⟩
    exact Parameter.effective_of_candidates (Editor.run_hasCandidates hvalid image messages q hq)

/-- The second image is the first at fault, for its second parameter; the third has no name. Without
a file, an editor shows the text that has been typed and else the first candidates. -/
theorem load_accepts_first_fault :
    let text := "images:\n  a:\n  b:\n    parameters:\n    - kind: env\n      candidates: [K=v]\n"
      ++ "    - kind: port\n      candidates: []\n  ' ':\n"
    load "catalog.yml" false (.file text.toUTF8) = .error (.noCandidates "b" "-p") ∧
      load "catalog.yml" false .missing = .ok builtin ∧
      ((Editor.new builtin "alpine").run [.key (.char 'x'), .key .tab]).parameters.map
        (·.effective) = ["x", "8080:80", "/bin/ash"] ∧
      ∀ q ∈ ((Editor.new builtin "alpine").run [.key (.char 'x'), .key .tab]).parameters,
        q.value ≠ "" ∧ q.effective = q.value ∨
          q.value = "" ∧ q.candidates.head? = some q.effective := by
  intro text
  have hbytes : ofBytes text.toUTF8 = .ok { images := [
      ("a", {}),
      ("b", { parameters := [
        { kind := .env, candidates := ["K=v"] }, { kind := .port, candidates := [] }] }),
      (" ", {})] } := toOption_eq_some.mp (by decide +kernel)
  let b : String × Profile := ("b", { parameters := [⟨.env, ["K=v"], ""⟩, ⟨.port, [], ""⟩] })
  have hlacks : Lacks b (.noCandidates "b" "-p") :=
    @Lacks.candidates b [⟨.env, ["K=v"], ""⟩] [] ⟨.port, [], ""⟩ ⟨'b', by decide, by decide⟩ rfl
      (by simp) rfl
  obtain ⟨hfile, hloaded⟩ := load_accepts "catalog.yml" false
  refine ⟨((hfile _ _ hbytes).2 _).mpr ⟨[("a", {})], _, _, rfl, ?_, hlacks⟩, rfl, by decide, ?_⟩
  · intro image himage
    obtain rfl := List.mem_singleton.mp himage
    exact ⟨⟨'a', by decide, by decide⟩, by simp [Profile.HasCandidates]⟩
  · exact ((hloaded .missing builtin rfl).2 "alpine" [.key (.char 'x'), .key .tab]).2

end Catalog
end LaunchEditor
