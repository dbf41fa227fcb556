import LaunchEditor.Catalog.Document
import LaunchEditor.Yaml.Document

/-! # Catalog files

Loading the catalog from what is found at its path. Only a path that leads nowhere falls back to
the built-in catalog, and only if the file is not required.
-/
namespace LaunchEditor

/-- What a path leads to. -/
inductive FileState where
  | file (bytes : ByteArray)
  | directory
  | missing
  /-- A file stands where the path needs a directory. -/
  | notDirectory
  /-- The path or one of its components is longer than paths can be. -/
  | nameTooLong
  /-- There is a NUL in the path. -/
  | unnameable
  /-- Something that may not be opened. -/
  | refused (reason : String)

namespace Catalog

def ofBytes (bytes : ByteArray) : Except String Catalog :=
  (ofDocument (Yaml.Document.ofBytes bytes)).mapError (·.message)

/-- Reads and validates the catalog file at `path`. -/
def ofFile (path : String) : FileState → Except Fault Catalog
  | .missing =>
    .error (.unreadable "catalog" path "No such file or directory (os error 2)")
  | .notDirectory => .error (.unreadable "catalog" path "Not a directory (os error 20)")
  | .nameTooLong => .error (.unreadable "catalog" path "File name too long (os error 36)")
  | .unnameable =>
    .error (.unreadable "catalog" path "file name contained an unexpected NUL byte")
  | .refused reason => .error (.unreadable "catalog" path reason)
  | .directory =>
    .error (.malformed "reading" "catalog" path "Is a directory (os error 21)")
  | .file bytes => do
    let c ← (ofBytes bytes).mapError (.malformed "reading" "catalog" path)
    c.validate
    return c

def isFound : FileState → Bool
  | .file _ | .directory | .refused _ => true
  | .missing | .notDirectory | .nameTooLong | .unnameable => false

def load (path : String) (required : Bool) (state : FileState) : Except Fault Catalog :=
  if required || isFound state then ofFile path state else .ok builtin

/-- What loading reports. -/
def loadNotices (path : String) (required : Bool) (state : FileState) : List Notice :=
  if required || isFound state then
    match ofFile path state with
    | .ok c =>
      [⟨.info, "Loaded catalog from `" ++ path ++ "` with " ++ toString c.images.length ++
        " images"⟩]
    | .error _ => []
  else [⟨.info, "No catalog at `" ++ path ++ "`, using the built-in catalog."⟩]

end Catalog
end LaunchEditor
