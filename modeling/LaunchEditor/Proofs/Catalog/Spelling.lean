import LaunchEditor.Proofs.Catalog.Load
import LaunchEditor.Proofs.Yaml.Spelling

/-! # Catalogs spelled as documents

A document spells a catalog if it has the catalog's program and images as texts, lists and mappings.
The program, the images, and the flags and parameters of an image can be left out where they are
what they are without being given. Such a document is read as just that catalog.
-/
namespace LaunchEditor
open Yaml Yaml.Decode

namespace Catalog

inductive ParameterField where
  | kind
  | candidates
  deriving DecidableEq

namespace ParameterField

def name : ParameterField → String
  | kind => "kind"
  | candidates => "candidates"

def Spells (q : Parameter) : ParameterField → Node → Prop
  | kind => SpellsText q.kind.word
  | candidates => SpellsList SpellsText q.candidates

end ParameterField

/-- Neither field of a parameter can be left out. -/
def SpellsParameter (q : Parameter) : Node → Prop :=
  SpellsRecord ParameterField.name (ParameterField.Spells q) fun _ => False

inductive ProfileField where
  | flags
  | parameters
  deriving DecidableEq

namespace ProfileField

def name : ProfileField → String
  | flags => "flags"
  | parameters => "parameters"

def Spells (p : Profile) : ProfileField → Node → Prop
  | flags => SpellsList (fun f => SpellsText f.token) p.flags
  | parameters => SpellsList SpellsParameter p.parameters

def Spare (p : Profile) : ProfileField → Prop
  | flags => p.flags = []
  | parameters => p.parameters = []

end ProfileField

def SpellsProfile (p : Profile) : Node → Prop :=
  SpellsRecord ProfileField.name (ProfileField.Spells p) (ProfileField.Spare p)

def SpellsImage (image : String × Profile) (entry : Node × Node) : Prop :=
  SpellsText image.1 entry.1 ∧ SpellsProfile image.2 entry.2

inductive Field where
  | program
  | images
  deriving DecidableEq

namespace Field

def name : Field → String
  | program => "program"
  | images => "images"

def Spells (c : Catalog) : Field → Node → Prop
  | program => SpellsText c.program
  | images => SpellsMap SpellsImage c.images

def Spare (c : Catalog) : Field → Prop
  | program => c.program = ({} : Catalog).program
  | images => c.images = []

end Field

def SpellsCatalog (c : Catalog) : Node → Prop :=
  SpellsRecord Field.name (Field.Spells c) (Field.Spare c)

/-- The document is well formed and spells the catalog. It may have no content if all of the catalog
can be left out. -/
structure SpelledBy (c : Catalog) (d : Document) : Prop where
  root : ∀ n ∈ d.root, SpellsCatalog c n
  empty : d.root = none → c = {}
  sound : d.flaw = none

section
variable (d : Document) (path : Path)

/-- What has been read of a parameter after some of its fields. -/
def parameterFields (q : Parameter) (fields : List ParameterField) : ParameterFields where
  kind := given fields .kind q.kind
  candidates := given fields .candidates q.candidates

theorem ofParameterEntry_of_spells {q : Parameter} {before : List ParameterField}
    {f : ParameterField} {e : Node × Node} (hnew : f ∉ before) (hkey : SpellsText f.name e.1)
    (hvalue : f.Spells q e.2) :
    ofParameterEntry d path (parameterFields q before) e =
      pure (parameterFields q (before ++ [f])) := by
  rw [ofParameterEntry, text_of_spells d path _ hkey, pure_bind]
  cases f with
  | kind =>
    have hword : kindVariants.ofWord? q.kind.word = some q.kind := q.kind.ofWord?_word
    have hread := variant_of_spells d (stepOf e.1 :: path) hvalue hword
    simp [parameterFields, ParameterField.name, given_of_notMem hnew, given_append_self,
      given_append_of_ne, once_none _ hread]
  | candidates =>
    have hlist : SpellsList SpellsText q.candidates e.2 := hvalue
    have hread := items_of_spells d (stepOf e.1 :: path) hlist
      fun path s _ n => text_of_spells d path "a string"
    simp [parameterFields, ParameterField.name, given_of_notMem hnew, given_append_self,
      given_append_of_ne, once_none _ hread]

theorem ofParameterNode_of_spells {q : Parameter} (hq : q.value = "") {n : Node}
    (h : SpellsParameter q n) : ofParameterNode d path n = pure q := by
  refine entries_of_spellsRecord d path _ (fun before f e => ofParameterEntry_of_spells d path)
    (fun fields hall => ?_) h
  have hkind : given fields ParameterField.kind q.kind = some q.kind :=
    if_pos (not_not.mp (hall .kind))
  have hcandidates : given fields ParameterField.candidates q.candidates = some q.candidates :=
    if_pos (not_not.mp (hall .candidates))
  rw [ofParameterFields, parameterFields, hkind, hcandidates, ← hq]

/-- What has been read of a profile after some of its fields. -/
def profileFields (p : Profile) (fields : List ProfileField) : ProfileFields where
  flags := given fields .flags p.flags
  parameters := given fields .parameters p.parameters

theorem ofProfileEntry_of_spells {p : Profile} (hp : p.Untouched) {before : List ProfileField}
    {f : ProfileField} {e : Node × Node} (hnew : f ∉ before) (hkey : SpellsText f.name e.1)
    (hvalue : f.Spells p e.2) :
    ofProfileEntry d path (profileFields p before) e = pure (profileFields p (before ++ [f])) := by
  rw [ofProfileEntry, text_of_spells d path _ hkey, pure_bind]
  cases f with
  | flags =>
    have hlist : SpellsList (fun f => SpellsText f.token) p.flags e.2 := hvalue
    have hword (f : RunFlag) : flagVariants.ofWord? f.token = some f := f.ofToken?_token
    have hread := items_of_spells d (stepOf e.1 :: path) hlist
      fun path f _ n h => variant_of_spells d path h (hword f)
    simp [profileFields, ProfileField.name, given_of_notMem hnew, given_append_self,
      given_append_of_ne, once_none _ hread]
  | parameters =>
    have hlist : SpellsList SpellsParameter p.parameters e.2 := hvalue
    have hread := items_of_spells d (stepOf e.1 :: path) hlist
      fun path q hq n => ofParameterNode_of_spells d path (hp q hq)
    simp [profileFields, ProfileField.name, given_of_notMem hnew, given_append_self,
      given_append_of_ne, once_none _ hread]

theorem ofProfileNode_of_spells {p : Profile} (hp : p.Untouched) {n : Node}
    (h : SpellsProfile p n) : ofProfileNode d path n = pure p := by
  refine entries_of_spellsRecord d path _
    (fun before f e => ofProfileEntry_of_spells d path hp) (fun fields hspare => ?_) h
  have hflags : (given fields ProfileField.flags p.flags).getD [] = p.flags :=
    getD_given (hspare .flags)
  have hparameters : (given fields ProfileField.parameters p.parameters).getD [] = p.parameters :=
    getD_given (hspare .parameters)
  rw [ofProfileFields, profileFields, hflags, hparameters]

theorem insertImage_of_notMem {name : String} {profile : Profile} {images : List (String × Profile)}
    (h : name ∉ images.map (·.1)) :
    insertImage name profile images = images ++ [(name, profile)] := by
  induction images with
  | nil => rfl
  | cons image images ih =>
    rw [List.map_cons, List.mem_cons, not_or] at h
    rw [insertImage, if_neg (Ne.symm h.1), ih h.2, List.cons_append]

theorem ofImagesNode_of_spells {images : List (String × Profile)}
    (hnames : (images.map (·.1)).Nodup) (huntouched : ∀ image ∈ images, image.2.Untouched)
    {n : Node} (h : SpellsMap SpellsImage images n) : ofImagesNode d path n = pure images := by
  have hentry : ∀ before image after e, images = before ++ image :: after →
      SpellsImage image e → ofImageEntry d path before e = pure (before ++ [image]) := by
    rintro before image after e rfl ⟨hname, hprofile⟩
    -- A name that is given again would replace the profile in its place.
    have hnew : image.1 ∉ before.map (·.1) := by
      rw [List.map_append, List.map_cons] at hnames
      exact fun hmem => (List.nodup_append.mp hnames).2.2 _ hmem _ List.mem_cons_self rfl
    have huntouched := huntouched image (by simp)
    have hread := ofProfileNode_of_spells d (stepOf e.1 :: path) huntouched hprofile
    rw [ofImageEntry, text_of_spells d path _ hname, pure_bind, hread, pure_bind,
      insertImage_of_notMem hnew]
  exact entries_of_spells d path _ hentry rfl h

/-- What has been read of a catalog after some of its fields. -/
def fieldsOf (c : Catalog) (fields : List Field) : Fields where
  program := given fields .program c.program
  images := given fields .images c.images

theorem ofEntry_of_spells {c : Catalog} (hnames : c.names.Nodup)
    (huntouched : ∀ image ∈ c.images, image.2.Untouched) {before : List Field} {f : Field}
    {e : Node × Node} (hnew : f ∉ before) (hkey : SpellsText f.name e.1) (hvalue : f.Spells c e.2) :
    ofEntry d (fieldsOf c before) e = pure (fieldsOf c (before ++ [f])) := by
  rw [ofEntry, text_of_spells d [] _ hkey, pure_bind]
  cases f with
  | program =>
    have hread := text_of_spells d [stepOf e.1] "a string" hvalue
    simp [fieldsOf, Field.name, given_of_notMem hnew, given_append_self, given_append_of_ne,
      once_none _ hread]
  | images =>
    have hread := ofImagesNode_of_spells d [stepOf e.1] hnames huntouched hvalue
    simp [fieldsOf, Field.name, given_of_notMem hnew, given_append_self, given_append_of_ne,
      once_none _ hread]

theorem ofRoot_of_spelledBy {c : Catalog} (hnames : c.names.Nodup)
    (huntouched : ∀ image ∈ c.images, image.2.Untouched) (h : c.SpelledBy d) :
    ofRoot d = pure c := by
  unfold ofRoot
  split
  · rename_i hroot
    rw [h.empty hroot]
  · rename_i n hroot
    refine entries_of_spellsRecord d [] _
      (fun before f e => ofEntry_of_spells d hnames huntouched) (fun fields hspare => ?_)
      (h.root n hroot)
    have hprogram :
        (given fields Field.program c.program).getD ({} : Catalog).program = c.program :=
      getD_given (hspare .program)
    have himages : (given fields Field.images c.images).getD [] = c.images :=
      getD_given (hspare .images)
    rw [ofFields, fieldsOf, hprogram, himages]

end

theorem ofDocument_of_spelledBy {c : Catalog} (hnames : c.names.Nodup)
    (huntouched : ∀ image ∈ c.images, image.2.Untouched) {d : Document} (h : c.SpelledBy d) :
    ofDocument d = .ok c := by
  have hcomplete : complete d = pure () := by rw [complete, h.sound]
  rw [ofDocument, ofRoot_of_spelledBy d hnames huntouched h, hcomplete]
  rfl

theorem exists_spellsParameter (q : Parameter) : ∃ n, SpellsParameter q n := by
  have hnodup : [ParameterField.kind, .candidates].Nodup := by decide
  refine exists_spellsRecord hnodup (fun f => by cases f <;> decide) fun f => ?_
  cases f with
  | kind => exact exists_spellsText _
  | candidates => exact exists_spellsList fun s _ => exists_spellsText s

theorem exists_spellsProfile (p : Profile) : ∃ n, SpellsProfile p n := by
  have hnodup : [ProfileField.flags, .parameters].Nodup := by decide
  refine exists_spellsRecord hnodup (fun f => by cases f <;> decide) fun f => ?_
  cases f with
  | flags => exact exists_spellsList fun f _ => exists_spellsText f.token
  | parameters => exact exists_spellsList fun q _ => exists_spellsParameter q

theorem exists_spellsCatalog (c : Catalog) : ∃ n, SpellsCatalog c n := by
  have hnodup : [Field.program, .images].Nodup := by decide
  refine exists_spellsRecord hnodup (fun f => by cases f <;> decide) fun f => ?_
  cases f with
  | program => exact exists_spellsText _
  | images =>
    refine exists_spellsMap fun image _ => ?_
    obtain ⟨key, hkey⟩ := exists_spellsText image.1
    obtain ⟨n, hn⟩ := exists_spellsProfile image.2
    exact ⟨(key, n), hkey, hn⟩

theorem exists_spelledBy (c : Catalog) : ∃ d, c.SpelledBy d := by
  obtain ⟨n, hn⟩ := exists_spellsCatalog c
  refine ⟨{ root := some n, size := 0 }, ?_, nofun, rfl⟩
  intro m hm
  cases hm
  exact hn

/-- Each valid catalog with distinct image names, no value of which has been chosen, can be spelled
as a document, and all documents that spell it are read as that very catalog. -/
theorem load_spelledBy {c : Catalog} (hvalid : c.validate = .ok ())
    (huntouched : ∀ image ∈ c.images, image.2.Untouched) (hnames : c.names.Nodup) :
    (∃ d, c.SpelledBy d) ∧ ∀ d, c.SpelledBy d → ofDocument d = .ok c ∧
      ∀ bytes, Document.ofBytes bytes = d →
        ∀ path required, load path required (.file bytes) = .ok c := by
  refine ⟨exists_spelledBy c, fun d hd => ?_⟩
  have hread : ofDocument d = .ok c := ofDocument_of_spelledBy hnames huntouched hd
  refine ⟨hread, ?_⟩
  rintro bytes rfl path required
  have hbytes : ofBytes bytes = .ok c := mapError_eq_ok.mpr hread
  rw [load_file hbytes, hvalid]
  rfl

/-- The program, all of the first image and the flags of the second are left out; the fields of the
parameter are not in the usual order, and one of the texts is quoted. -/
theorem load_spelledBy_left_out :
    let c : Catalog := { images :=
      [("b", {}), ("a", { parameters := [{ kind := .port, candidates := ["1"] }] })] }
    let text := "images:\n  b:\n  a:\n    parameters:\n    - candidates: ['1']\n      kind: port\n"
    c.SpelledBy (Document.ofBytes text.toUTF8) ∧
      load "catalog.yml" true (.file text.toUTF8) = .ok c := by
  intro c text
  let pos (line column : Nat) : Place := ⟨line, column, column⟩
  let plain (line column : Nat) : String → Event := .scalar (pos line column) none none true
  let sequence (line column : Nat) : Event := .opened .sequence (pos line column) none none
  let mapping (line column : Nat) : Event := .opened .mapping (pos line column) none none
  let events : List Event := [
    mapping 0 0, plain 0 0 "images", mapping 1 2,
      plain 1 2 "b", plain 1 4 "",
      plain 2 2 "a", mapping 3 4,
        plain 3 4 "parameters", sequence 4 4, mapping 4 6,
          plain 4 6 "candidates", sequence 4 18, .scalar (pos 4 19) none none false "1", .closed,
          plain 5 6 "kind", plain 5 12 "port",
    .closed, .closed, .closed, .closed, .closed]
  have hdocument : Document.ofBytes text.toUTF8 = .ofEvents events none :=
    Document.ofBytes_of_outline (by decide +kernel)
  have hvalid : c.validate = .ok () := by decide
  have huntouched : ∀ image ∈ c.images, image.2.Untouched := by
    unfold Profile.Untouched
    decide
  have hspelled : c.SpelledBy (Document.ofBytes text.toUTF8) := by
    rw [hdocument]
    refine ⟨?_, nofun, rfl⟩
    rintro n ⟨⟩
    have hprogram : ∀ f, f ∉ [Field.images] → f.Spare c := by
      rintro (_ | _) h
      · rfl
      · exact absurd List.mem_cons_self h
    refine ⟨[.images], by decide, hprogram, .mapping _ (.cons ⟨.scalar _ _, ?_⟩ .nil)⟩
    refine .mapping _ (.cons ⟨.scalar _ _, ?_⟩ (.cons ⟨.scalar _ _, ?_⟩ .nil))
    · exact ⟨[], .nil, fun f _ => by cases f <;> rfl, .leftOut _⟩
    · have hflags : ∀ f, f ∉ [ProfileField.parameters] → f.Spare c.images[1].2 := by
        rintro (_ | _) h
        · rfl
        · exact absurd List.mem_cons_self h
      refine ⟨[.parameters], by decide, hflags, .mapping _ (.cons ⟨.scalar _ _, ?_⟩ .nil)⟩
      refine .sequence _ (.cons ?_ .nil)
      refine ⟨[.candidates, .kind], by decide, by rintro (_ | _) <;> simp, .mapping _
        (.cons ⟨.scalar _ _, ?_⟩ (.cons ⟨.scalar _ _, .scalar _ _⟩ .nil))⟩
      exact .sequence _ (.cons (.scalar _ _) .nil)
  refine ⟨hspelled, ?_⟩
  exact ((load_spelledBy hvalid huntouched (by decide)).2 _ hspelled).2 _ rfl _ _

end Catalog
end LaunchEditor
