import LaunchEditor.Editor
import LaunchEditor.Terminal.Style

/-! # The frame

The picture of the editor: the command so far and the keys that do something. The command stands
on one line if it is at most 80 wide and otherwise has a line for each of its tokens.
-/
namespace LaunchEditor

/-- One piece of the command, with and without its style. -/
structure Token where
  plain : String
  styled : String
  deriving DecidableEq, Repr

namespace Token

def styledAs (theme : Terminal.Theme) (style : Terminal.Style) (text : String) : Token :=
  ⟨text, theme.paint style text⟩

def unstyled (text : String) : Token := ⟨text, text⟩

end Token

def wrapWidth : Nat := 80

def browsingLegend : String :=
  "↑/↓/←/→: Navigate | Tab: Next | Type: Edit | Enter: Accept | Esc: Quit"

def editingLegend : String := "Enter: Confirm | Tab: Confirm and Next | Esc: Cancel"

namespace Edit

/-- The fixed text before and after the editable segment. -/
def surroundings (e : Edit) (k : ParameterKind) : String × String :=
  match e.segments, k.separator? with
  | some segments, some sep =>
    (String.join ((segments.take k.editable).map (· ++ String.singleton sep)),
      String.join ((segments.drop (k.editable + 1)).map (String.singleton sep ++ ·)))
  | _, _ => ("", "")

/-- The edited parameter; the cursor covers a blank at the end of the line. -/
def token (e : Edit) (k : ParameterKind) (theme : Terminal.Theme) : Token :=
  let (lead, trail) := e.surroundings k
  let before := String.ofList e.line.before
  let under := String.singleton (e.line.under?.getD ' ')
  let after := String.ofList e.line.after
  { plain := k.flag ++ " " ++ lead ++ before ++ under ++ after ++ trail
    styled := k.flag ++ " " ++ theme.paint .dim lead ++ theme.paint .highlight before ++
      theme.paint .cursor under ++ theme.paint .highlight after ++ theme.paint .dim trail }

end Edit

namespace Editor

def parameterToken (e : Editor) (theme : Terminal.Theme) (p : Parameter) (i : Nat) : Token :=
  if i = e.selected then
    match e.edit with
    | some edit => edit.token p.kind theme
    | none => .styledAs theme .highlight p.text
  else if p.isEdited then .styledAs theme .modified p.text
  else .unstyled p.text

def parameterTokens (e : Editor) (theme : Terminal.Theme) : List Token :=
  e.parameters.mapIdx fun i p => e.parameterToken theme p i

def tokens (e : Editor) (theme : Terminal.Theme) : List Token :=
  .styledAs theme .dim e.program :: e.flags.map (.styledAs theme .dim ·.token) ++
    e.parameterTokens theme ++ [.styledAs theme .dim e.image]

end Editor

/-- The tokens on one line, without their styles. -/
def singleLine (tokens : List Token) : String := " ".intercalate (tokens.map (·.plain))

/-- Width of the tokens on one line, in bytes. -/
def lineWidth (tokens : List Token) : Nat := (singleLine tokens).utf8ByteSize

def continuation (theme : Terminal.Theme) : String := theme.paint .dim " \\" ++ "\n    "

def assemble (theme : Terminal.Theme) (tokens : List Token) : String :=
  let separator := if wrapWidth < lineWidth tokens then continuation theme else " "
  separator.intercalate (tokens.map (·.styled))

namespace Editor

def legend (e : Editor) : String :=
  match e.mode with
  | .browsing => browsingLegend
  | .editing => editingLegend

/-- A failure of the session takes the place of everything else. -/
def frame (e : Editor) (theme : Terminal.Theme) : String :=
  match e.failure with
  | some reason => theme.paint .error reason ++ "\n"
  | none => assemble theme (e.tokens theme) ++ "\n\n" ++ theme.paint .dim e.legend

end Editor
end LaunchEditor
