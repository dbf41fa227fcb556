import LaunchEditor.Fault
import LaunchEditor.Parameter
import LaunchEditor.RunFlag
import LaunchEditor.Text.Blank
import LaunchEditor.Text.Similarity

/-! # The catalog

Which switches and parameters to offer for an image. Image names are distinct and keep the order
in which they were first inserted. An unknown image has an empty profile, and the catalog then
suggests the known name most similar to it.
-/
namespace LaunchEditor

structure Profile where
  flags : List RunFlag := []
  parameters : List Parameter := []
  deriving DecidableEq, Repr

structure Catalog where
  /-- What the launched command starts with. -/
  program : String := "docker run"
  images : List (String × Profile) := []
  deriving DecidableEq, Repr

namespace Catalog

/-- Replaces the profile of a known name where it stands, and adds a new name at the end. -/
def insertImage (name : String) (profile : Profile) :
    List (String × Profile) → List (String × Profile)
  | [] => [(name, profile)]
  | (n, p) :: rest =>
    if n = name then (n, profile) :: rest else (n, p) :: insertImage name profile rest

def insert (c : Catalog) (name : String) (profile : Profile) : Catalog :=
  { c with images := insertImage name profile c.images }

def names (c : Catalog) : List String := c.images.map (·.1)

/-- The catalog in use when no other is given. -/
def builtin : Catalog where
  images := [
    ("alpine",
      { flags := [.interactive, .tty]
        parameters := [
          { kind := .name, candidates := ["alpine-test", "evenCoolerName"] },
          { kind := .port, candidates := ["8080:80"] },
          { kind := .entrypoint, candidates := ["/bin/ash"] }] }),
    ("postgres",
      { flags := [.detach]
        parameters := [
          { kind := .name, candidates := ["postgresDB", "evenCoolerName"] },
          { kind := .port, candidates := ["5432:5432"] },
          { kind := .volume
            candidates := ["postgres-data:/some/other/container/dir",
              "/yet/another/local/dir:/yet/another/container/dir"] },
          { kind := .env, candidates := ["POSTGRES_USER=test-user"] },
          { kind := .env, candidates := ["POSTGRES_PASSWORD=test-password"] },
          { kind := .env, candidates := ["POSTGRES_DB=test-db"] }] })]

/-- Similarity of a known name to the wanted one, read in whichever direction fits first. -/
def score? (t : Text.ScoreTable) (known image : String) : Option Int × Text.ScoreTable :=
  match Text.similarity? t known.toList image.toList with
  | (some s, t) => (some s, t)
  | (none, t) => Text.similarity? t image.toList known.toList

/-- The best name so far and its score; a later name wins a tie. -/
def better (best : Option (Int × String)) (known : String) : Option Int → Option (Int × String)
  | none => best
  | some s =>
    match best with
    | some (top, name) => if s < top then some (top, name) else some (s, known)
    | none => some (s, known)

def rank (image : String) (state : Option (Int × String) × Text.ScoreTable) (known : String) :
    Option (Int × String) × Text.ScoreTable :=
  let (s, t) := score? state.2 known image
  (better state.1 known s, t)

/-- The known name most similar to `image`, if any is similar at all. -/
def closest? (c : Catalog) (image : String) : Option String :=
  (c.names.foldl (rank image) (none, {})).1.map (·.2)

def profile (c : Catalog) (image : String) : Profile := (c.images.lookup image).getD {}

/-- What looking up the profile of `image` reports. -/
def profileNotices (c : Catalog) (image : String) : List Notice :=
  match c.images.lookup image, c.closest? image with
  | some _, _ => []
  | none, some name =>
    [⟨.warning, "No catalog entry for `" ++ image ++ "`. Did you mean `" ++ name ++ "`?"⟩]
  | none, none =>
    [⟨.warning, "No catalog entry for `" ++ image ++ "`, no parameters will be offered."⟩]

def validateImage (name : String) (p : Profile) : Except Fault Unit :=
  if Text.isBlankText name then .error .blankImageName
  else match p.parameters.find? (·.candidates.isEmpty) with
    | some parameter => .error (.noCandidates name parameter.kind.flag)
    | none => .ok ()

/-- Every image has a name to be found by and every parameter a value to fall back on. The first
image that fails is the one reported. -/
def validate (c : Catalog) : Except Fault Unit :=
  c.images.forM fun (name, p) => validateImage name p

end Catalog
end LaunchEditor
