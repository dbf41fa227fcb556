import LaunchEditor.Catalog
import LaunchEditor.Editor.Line
import LaunchEditor.Key

/-! # The editor

The editor browses the parameters of one image or, while an edit is live, edits the selected one.
`Editor.update` is the only way it changes.
-/
namespace LaunchEditor

/-- A live edit: the text typed so far, and the segments it will be put back among. -/
structure Edit where
  line : LineBuffer
  segments : Option (List String)
  deriving DecidableEq, Repr

namespace Edit

def start (c : Char) (segments : Option (List String)) : Edit :=
  ⟨LineBuffer.empty.insert c, segments⟩

def buffer (e : Edit) : String := String.ofList e.line.text

/-- The value of a parameter of kind `k` with the typed text in its place. -/
def value (e : Edit) (k : ParameterKind) : String := k.assemble e.segments e.buffer

/-- What a key other than Enter, Tab, Escape and Interrupt does to the line. -/
def type (e : Edit) (key : Key) : Edit :=
  match key with
  | .backspace => { e with line := e.line.deleteLeft }
  | .left => { e with line := e.line.moveLeft }
  | .right => { e with line := e.line.moveRight }
  | .char c => if Key.isInsertable c then { e with line := e.line.insert c } else e
  | _ => e

end Edit

structure Editor where
  program : String
  image : String
  flags : List RunFlag
  parameters : List Parameter
  selected : Nat := 0
  edit : Option Edit := none
  /-- Why the session around the editor failed, once it has. -/
  failure : Option String := none
  deriving DecidableEq, Repr

inductive Mode where
  | browsing
  | editing
  deriving DecidableEq, Repr

inductive Message where
  | key (k : Key)
  /-- The session around the editor failed. -/
  | failure (reason : String)
  deriving DecidableEq, Repr

inductive Transition where
  | stay
  | quit
  deriving DecidableEq, Repr

namespace Editor

/-- Offers a profile with every parameter at its default. -/
def ofProfile (program image : String) (p : Profile) : Editor where
  program
  image
  flags := p.flags
  parameters := p.parameters.map ({ · with value := "" })

/-- The editor for an image of a catalog. -/
def new (c : Catalog) (image : String) : Editor := ofProfile c.program image (c.profile image)

def mode (e : Editor) : Mode := if e.edit.isSome then .editing else .browsing

def current? (e : Editor) : Option Parameter := e.parameters[e.selected]?

def selectPrevious (e : Editor) : Editor :=
  if e.parameters = [] then e
  else { e with selected := if e.selected = 0 then e.parameters.length - 1 else e.selected - 1 }

def selectNext (e : Editor) : Editor :=
  if e.parameters = [] then e
  else { e with selected := (e.selected + 1) % e.parameters.length }

/-- The first character replaces the editable segment of the value shown. -/
def beginEdit (e : Editor) (c : Char) : Editor :=
  match e.current? with
  | none => e
  | some p => { e with edit := some (.start c p.segments?) }

/-- Stores the edited value; an empty one gives way to the default. -/
def commitEdit (e : Editor) : Editor :=
  match e.edit with
  | none => e
  | some edit =>
    let store (p : Parameter) : Parameter :=
      let value := edit.value p.kind
      { p with value := if value = "" then p.default else value }
    { e with edit := none, parameters := e.parameters.modify e.selected store }

def cancelEdit (e : Editor) : Editor := { e with edit := none }

def browse (e : Editor) : Key → Editor × Transition
  | .escape | .interrupt | .enter => (e, .quit)
  | .left | .up | .backTab => (e.selectPrevious, .stay)
  | .right | .down | .tab => (e.selectNext, .stay)
  | .char c => (if Key.isEditStart c then e.beginEdit c else e, .stay)
  | _ => (e, .stay)

def continueEdit (e : Editor) (edit : Edit) : Key → Editor × Transition
  | .enter => (e.commitEdit, .stay)
  | .tab => (e.commitEdit.selectNext, .stay)
  | .escape => (e.cancelEdit, .stay)
  | .interrupt => (e.cancelEdit, .quit)
  | key => ({ e with edit := some (edit.type key) }, .stay)

def update (e : Editor) : Message → Editor × Transition
  | .failure reason => ({ e with failure := some reason }, .quit)
  | .key key =>
    match e.edit with
    | some edit => e.continueEdit edit key
    | none => e.browse key

/-- The editor after a sequence of messages, also past one that quits. -/
def run (e : Editor) (messages : List Message) : Editor :=
  messages.foldl (fun e m => (e.update m).1) e

end Editor
end LaunchEditor
