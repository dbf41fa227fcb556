import LaunchEditor.Editor

/-! # Selections

What the user settled on, by the option that each value feeds. Nothing is selected by an editor
whose session failed or that is still in the middle of an edit.
-/
namespace LaunchEditor

structure Selections where
  name : Option String := none
  volumes : List String := []
  entrypoint : Option String := none
  env : List String := []
  publish : List String := []
  flags : List RunFlag := []
  deriving DecidableEq, Repr

namespace Selections

/-- A later single value replaces an earlier one; the other values are collected. -/
def record (s : Selections) (k : ParameterKind) (value : String) : Selections :=
  match k with
  | .name => { s with name := some value }
  | .volume => { s with volumes := s.volumes ++ [value] }
  | .entrypoint => { s with entrypoint := some value }
  | .env => { s with env := s.env ++ [value] }
  | .port => { s with publish := s.publish ++ [value] }

def ofParameters (ps : List Parameter) : Selections :=
  ps.foldl (fun s p => s.record p.kind p.effective) {}

end Selections

namespace Editor

def commit (e : Editor) : Except Fault Selections :=
  match e.failure, e.edit with
  | some reason, _ => .error (.session reason)
  | none, some _ =>
    .error (.unfinished ("parameter " ++ toString e.selected ++ " is still being edited"))
  | none, none => .ok { Selections.ofParameters e.parameters with flags := e.flags }

/-- What committing reports. -/
def commitNotices (e : Editor) : List Notice :=
  match e.commit with
  | .error _ => []
  | .ok s =>
    [⟨.info, "Committing " ++ toString e.parameters.length ++ " parameters and " ++
      toString s.flags.length ++ " flags for `" ++ e.image ++ "`"⟩]

end Editor
end LaunchEditor
