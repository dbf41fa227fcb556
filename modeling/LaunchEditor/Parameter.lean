import LaunchEditor.Text.Pieces

/-! # Parameters

A parameter is one value slot of the command: its kind, the values suggested for it, and the value
chosen so far. A composite kind has a separator, and only one of the segments between separators
can be edited.
-/
namespace LaunchEditor

inductive ParameterKind where
  | name
  | volume
  | entrypoint
  | env
  | port
  deriving DecidableEq, Repr

namespace ParameterKind

def all : List ParameterKind := [name, volume, entrypoint, env, port]

/-- The word that stands for the kind in a catalog. -/
def word : ParameterKind → String
  | name => "name"
  | volume => "volume"
  | entrypoint => "entrypoint"
  | env => "env"
  | port => "port"

def ofWord? (s : String) : Option ParameterKind := all.find? (·.word == s)

theorem ofWord?_word (k : ParameterKind) : ofWord? k.word = some k := by
  cases k <;> decide

/-- The option that carries a value of this kind. -/
def flag : ParameterKind → String
  | name => "--name"
  | volume => "--volume"
  | entrypoint => "--entrypoint"
  | env => "--env"
  | port => "-p"

def separator? : ParameterKind → Option Char
  | name => none
  | volume => some ':'
  | entrypoint => none
  | env => some '='
  | port => some ':'

/-- Index of the segment that can be edited. -/
def editable : ParameterKind → Nat
  | env => 1
  | _ => 0

/-- Adds empty segments until there is one to edit. -/
def pad (k : ParameterKind) (segments : List String) : List String :=
  segments ++ List.replicate (k.editable + 1 - segments.length) ""

/-- Segments of a value, or `none` for a kind that is not composite. -/
def split? (k : ParameterKind) (value : String) : Option (List String) :=
  k.separator?.map fun sep => k.pad (Text.splitOn sep value)

/-- The value whose editable segment is `text`, the other segments being those given. -/
def assemble (k : ParameterKind) (segments : Option (List String)) (text : String) : String :=
  match segments, k.separator? with
  | some segments, some sep =>
    (String.singleton sep).intercalate (segments.set k.editable text)
  | _, _ => text

end ParameterKind

structure Parameter where
  kind : ParameterKind
  candidates : List String
  /-- The chosen value; the empty text stands for the default. -/
  value : String := ""
  deriving DecidableEq, Repr

namespace Parameter

/-- The first candidate. -/
def default (p : Parameter) : String := p.candidates.headD ""

/-- The value that is shown and launched. -/
def effective (p : Parameter) : String := if p.value = "" then p.default else p.value

def isEdited (p : Parameter) : Bool := p.value != "" && p.value != p.default

def segments? (p : Parameter) : Option (List String) := p.kind.split? p.effective

/-- The option and value that the parameter stands for. -/
def text (p : Parameter) : String := p.kind.flag ++ " " ++ p.effective

end Parameter
end LaunchEditor
