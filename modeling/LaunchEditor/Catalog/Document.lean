import LaunchEditor.Catalog
import LaunchEditor.Yaml.Decode

/-! # Catalogs as documents

The document of a catalog is a mapping with the program and the images; an image has flags and
parameters, a parameter has a kind and candidates. Whatever else is there is passed over. All but
the kind and candidates of a parameter can be left out.
-/
namespace LaunchEditor.Catalog

open Yaml

def flagVariants : Decode.Variants RunFlag where
  words := RunFlag.all.map (·.token)
  ofWord? := RunFlag.ofToken?

def kindVariants : Decode.Variants ParameterKind where
  words := ParameterKind.all.map (·.word)
  ofWord? := ParameterKind.ofWord?

/-- The fields of a parameter read so far. -/
structure ParameterFields where
  kind : Option ParameterKind := none
  candidates : Option (List String) := none

def ofParameterEntry (d : Document) (path : Path) (f : ParameterFields) (entry : Node × Node) :
    Decode ParameterFields := do
  let key ← Decode.text d path "field identifier" entry.1
  let path := Decode.stepOf entry.1 :: path
  if key = "kind" then
    let kind ← Decode.once key f.kind (Decode.variant d path kindVariants entry.2)
    return { f with kind }
  else if key = "candidates" then
    let text (path : Path) (n : Node) := Decode.text d path "a string" n
    let candidates ← Decode.once key f.candidates (Decode.items d path text entry.2)
    return { f with candidates }
  else return f

def ofParameterFields (f : ParameterFields) : Decode Parameter :=
  match f.kind, f.candidates with
  | none, _ => Decode.refuse (.missingField "kind")
  | some _, none => Decode.refuse (.missingField "candidates")
  | some kind, some candidates => return { kind, candidates }

def ofParameterNode (d : Document) (path : Path) (n : Node) : Decode Parameter :=
  Decode.entries d path "struct ParameterInstance" {} (ofParameterEntry d path) ofParameterFields n

/-- The fields of a profile read so far. -/
structure ProfileFields where
  flags : Option (List RunFlag) := none
  parameters : Option (List Parameter) := none

def ofProfileEntry (d : Document) (path : Path) (f : ProfileFields) (entry : Node × Node) :
    Decode ProfileFields := do
  let key ← Decode.text d path "field identifier" entry.1
  let path := Decode.stepOf entry.1 :: path
  if key = "flags" then
    let flag (path : Path) (n : Node) := Decode.variant d path flagVariants n
    let flags ← Decode.once key f.flags (Decode.items d path flag entry.2)
    return { f with flags }
  else if key = "parameters" then
    let parameters ← Decode.once key f.parameters
      (Decode.items d path (ofParameterNode d) entry.2)
    return { f with parameters }
  else return f

def ofProfileFields (f : ProfileFields) : Decode Profile :=
  return { flags := f.flags.getD [], parameters := f.parameters.getD [] }

def ofProfileNode (d : Document) (path : Path) (n : Node) : Decode Profile :=
  Decode.entries d path "struct ImageProfile" {} (ofProfileEntry d path) ofProfileFields n

def ofImageEntry (d : Document) (path : Path) (images : List (String × Profile))
    (entry : Node × Node) : Decode (List (String × Profile)) := do
  let name ← Decode.text d path "a string" entry.1
  let profile ← ofProfileNode d (Decode.stepOf entry.1 :: path) entry.2
  return insertImage name profile images

def ofImagesNode (d : Document) (path : Path) (n : Node) : Decode (List (String × Profile)) :=
  Decode.entries d path "a map" [] (ofImageEntry d path) pure n

/-- The fields of a catalog read so far. -/
structure Fields where
  program : Option String := none
  images : Option (List (String × Profile)) := none

def ofEntry (d : Document) (f : Fields) (entry : Node × Node) : Decode Fields := do
  let key ← Decode.text d [] "field identifier" entry.1
  let path := [Decode.stepOf entry.1]
  if key = "program" then
    let program ← Decode.once key f.program (Decode.text d path "a string" entry.2)
    return { f with program }
  else if key = "images" then
    let images ← Decode.once key f.images (ofImagesNode d path entry.2)
    return { f with images }
  else return f

def ofFields (f : Fields) : Decode Catalog :=
  return { program := f.program.getD ({} : Catalog).program, images := f.images.getD [] }

def ofRoot (d : Document) : Decode Catalog :=
  match d.root with
  | none => return {}
  | some root => Decode.entries d [] "struct Catalog" {} (ofEntry d) ofFields root

def ofDocument (d : Document) : Except Mismatch Catalog :=
  (ofRoot d <* Decode.complete d).run' 0

end LaunchEditor.Catalog
