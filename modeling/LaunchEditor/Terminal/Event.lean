import LaunchEditor.Key

/-! # Terminal events

What a terminal reports, and the key press that it amounts to. Releasing a key amounts to none, and
a character typed with Control or Alt is not that character.
-/
namespace LaunchEditor.Terminal

inductive KeyCode where
  | char (c : Char)
  | enter
  | tab
  | backTab
  | escape
  | backspace
  | left
  | right
  | up
  | down
  /-- Any key the editor has no use for, by its name. -/
  | named (name : String)
  deriving DecidableEq, Repr

inductive Modifier where
  | shift
  | control
  | alt
  | superKey
  | hyper
  | metaKey
  deriving DecidableEq, Repr

inductive KeyAction where
  | pressed
  | repeated
  | released
  deriving DecidableEq, Repr

inductive Event where
  | key (code : KeyCode) (modifiers : List Modifier) (action : KeyAction)
  | focusGained
  | focusLost
  | mouse
  | paste (text : String)
  | resize
  deriving DecidableEq, Repr

def KeyCode.toKey (code : KeyCode) (modifiers : List Modifier) : Key :=
  match code with
  | char c =>
    if c = 'c' ∧ .control ∈ modifiers then .interrupt
    else if .control ∈ modifiers ∨ .alt ∈ modifiers then .other
    else .char c
  | enter => .enter
  | tab => if .shift ∈ modifiers then .backTab else .tab
  | backTab => .backTab
  | escape => .escape
  | backspace => .backspace
  | left => .left
  | right => .right
  | up => .up
  | down => .down
  | named _ => .other

def Event.key? : Event → Option Key
  | key _ _ .released => none
  | key code modifiers _ => some (code.toKey modifiers)
  | _ => none

end LaunchEditor.Terminal
