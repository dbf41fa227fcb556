import LaunchEditor.Yaml.Node
import LaunchEditor.Yaml.Token

/-! # The outline of a document

The tokens of a document are read as its outline: the scalars, the aliases, and the starts and ends
of collections, in the order of the text. Nodes that are left out (a value after a colon, an item
after a hyphen) are empty plain scalars where the node would have begun.

The outline of a text with a flaw goes as far as the tokens in front of the flaw decide it. Each
step takes `fuel`, of which twice the number of tokens is enough.
-/
namespace LaunchEditor.Yaml

inductive Collection where
  | sequence
  | mapping
  deriving DecidableEq, Repr

inductive Event where
  | scalar (place : Place) (anchor : Option Nat) (tag : Option Tag) (plain : Bool) (text : String)
  /-- A node written elsewhere, by the number of its anchor. -/
  | aliasOf (place : Place) (target : Nat)
  | opened (kind : Collection) (place : Place) (anchor : Option Nat) (tag : Option Tag)
  /-- The end of the innermost collection. -/
  | closed
  deriving DecidableEq, Repr

/-- What is left of the tokens, and what has been read from those before. -/
structure Outline where
  rest : List Token
  /-- Where the text ends, or the flaw behind the tokens. -/
  stop : Except Flaw Place
  /-- What the handles of tags stand for. -/
  handles : List (String × List UInt8) := []
  /-- Number of each anchor by its name. -/
  numbers : List (String × Nat) := []
  /-- The last event first. -/
  events : List Event := []

/-- Reads tokens. The events in front of a flaw are kept. -/
abbrev Outliner := ExceptT Flaw (StateM Outline)

namespace Outliner

/-- The next token; there is none at the end of the text. -/
def token : Outliner (Option Token) := do
  let o ← get
  match o.rest, o.stop with
  | t :: _, _ => return some t
  | [], .ok _ => return none
  | [], .error flaw => throw flaw

def peek : Outliner (Option TokenKind) := return (← token).map (·.kind)

/-- One side of the next token, or the end of the text. -/
def bound (side : Token → Place) : Outliner Place := do
  match ← token, (← get).stop with
  | some t, _ => return side t
  | none, .ok stop => return stop
  | none, .error flaw => throw flaw

/-- Place of the next token. -/
def here : Outliner Place := bound (·.place)

/-- Place behind the next token. -/
def behind : Outliner Place := bound (·.stop)

def advance : Outliner Unit := modify fun o => { o with rest := o.rest.drop 1 }

def fail {α : Type} (cause : Cause) : Outliner α := do throw ⟨cause, ← here⟩

def emit (e : Event) : Outliner Unit := modify fun o => { o with events := e :: o.events }

def empty (place : Place) : Outliner Unit := emit (.scalar place none none true "")

/-- Puts a value in front of any other with its key. -/
def put {α β : Type} [BEq α] (key : α) (value : β) (l : List (α × β)) : List (α × β) :=
  (key, value) :: l.filter (·.1 != key)

/-- Gives an anchor its number, which is the number of different names known before. A name that
is used again is known, so that the next new name is given the same number. -/
def number (name : String) : Outliner Nat := do
  let o ← get
  let number := o.numbers.length
  set { o with numbers := put name number o.numbers }
  return number

def resolve (t : Tag.Written) : Outliner Tag := do
  if t.handle = "" then return ⟨t.suffix⟩
  match (← get).handles.lookup t.handle with
  | some lead => return ⟨lead ++ t.suffix⟩
  | none => fail .undefinedHandle

/-- Anchor and tag of a node, in either order. -/
def properties : Outliner (Option String × Option Tag.Written) := do
  match ← peek with
  | some (.anchor a) =>
    advance
    match ← peek with
    | some (.tag t) =>
      advance
      return (some a, some t)
    | _ => return (some a, none)
  | some (.tag t) =>
    advance
    match ← peek with
    | some (.anchor a) =>
      advance
      return (some a, some t)
    | _ => return (none, some t)
  | _ => return (none, none)

/-- Whether a value or item is left out before this token of a block. -/
def endsBlockNode : Option TokenKind → Bool
  | some .key | some .value | some .blockEnd => true
  | _ => false

def isBlockEntry : Option TokenKind → Bool
  | some .blockEntry => true
  | _ => false

mutual

/-- Reads one node. Blocks are read only where `block` is set, and a sequence whose hyphens are
not indented only where `indentless` is. -/
def node : Nat → Bool → Bool → Outliner Unit
  | 0, _, _ => fail .unexpectedToken
  | fuel + 1, block, indentless => do
    let place ← here
    match ← peek with
    | some (.aliasOf name) =>
      match (← get).numbers.lookup name with
      | some target =>
        advance
        emit (.aliasOf place target)
      | none => throw ⟨.undefinedAnchor, place⟩
    | _ =>
      let (anchor, written) ← properties
      let next ← peek
      let tag ← written.mapM resolve
      content fuel block indentless place anchor tag next

/-- Reads what follows the anchor and the tag of a node, which begins with `next`. -/
def content : Nat → Bool → Bool → Place → Option String → Option Tag → Option TokenKind →
    Outliner Unit
  | 0, _, _, _, _, _, _ => fail .unexpectedToken
  | fuel + 1, block, indentless, place, anchor, tag, next => do
    match next with
    | some (.scalar plain text) =>
      emit (.scalar place (← anchor.mapM number) tag plain text)
      advance
    | some .flowSequenceStart =>
      emit (.opened .sequence place (← anchor.mapM number) tag)
      advance
      flowItems fuel true
    | some .flowMappingStart =>
      emit (.opened .mapping place (← anchor.mapM number) tag)
      advance
      flowEntries fuel true
    | some .blockSequenceStart =>
      if block then
        emit (.opened .sequence place (← anchor.mapM number) tag)
        advance
        blockItems fuel
      else leftOut place anchor tag
    | some .blockMappingStart =>
      if block then
        emit (.opened .mapping place (← anchor.mapM number) tag)
        advance
        blockEntries fuel
      else leftOut place anchor tag
    | some .blockEntry =>
      if indentless then
        emit (.opened .sequence place (← anchor.mapM number) tag)
        indentlessItems fuel
      else leftOut place anchor tag
    | _ => leftOut place anchor tag

/-- A node of which there is nothing but its anchor or tag. -/
def leftOut (place : Place) (anchor : Option String) (tag : Option Tag) : Outliner Unit := do
  if anchor.isSome || tag.isSome then emit (.scalar place (← anchor.mapM number) tag true "")
  else fail .unexpectedToken

def blockItems : Nat → Outliner Unit
  | 0 => fail .unexpectedToken
  | fuel + 1 => do
    match ← peek with
    | some .blockEntry =>
      let place ← behind
      advance
      let next ← peek
      if isBlockEntry next || next matches some .blockEnd then empty place
      else node fuel true false
      blockItems fuel
    | some .blockEnd =>
      advance
      emit .closed
    | _ => fail .unexpectedToken

def indentlessItems : Nat → Outliner Unit
  | 0 => fail .unexpectedToken
  | fuel + 1 => do
    match ← peek with
    | some .blockEntry =>
      let place ← behind
      advance
      let next ← peek
      if isBlockEntry next || endsBlockNode next then empty place else node fuel true false
      indentlessItems fuel
    | _ => emit .closed

def blockEntries : Nat → Outliner Unit
  | 0 => fail .unexpectedToken
  | fuel + 1 => do
    match ← peek with
    | some .key =>
      let place ← behind
      advance
      if endsBlockNode (← peek) then empty place else node fuel true true
      blockValue fuel
      blockEntries fuel
    | some .blockEnd =>
      advance
      emit .closed
    | _ => fail .unexpectedToken

def blockValue : Nat → Outliner Unit
  | 0 => fail .unexpectedToken
  | fuel + 1 => do
    match ← peek with
    | some .value =>
      let place ← behind
      advance
      if endsBlockNode (← peek) then empty place else node fuel true true
    | _ => empty (← here)

/-- Items between square brackets; a key among them makes a mapping of one entry, which ends once
there is something behind it. -/
def flowItems : Nat → Bool → Outliner Unit
  | 0, _ => fail .unexpectedToken
  | fuel + 1, first => do
    if !first then
      match ← peek with
      | some .flowEntry => advance
      | some .flowSequenceEnd => pure ()
      | _ => fail .unexpectedToken
    match ← peek with
    | some .flowSequenceEnd =>
      advance
      emit .closed
    | some .key =>
      emit (.opened .mapping (← here) none none)
      advance
      flowPair fuel
      discard peek
      emit .closed
      flowItems fuel false
    | _ =>
      node fuel false false
      flowItems fuel false

/-- The one entry of a mapping among the items of a sequence. Where its key is left out, the next
token is passed over. -/
def flowPair : Nat → Outliner Unit
  | 0 => fail .unexpectedToken
  | fuel + 1 => do
    match ← peek with
    | some .value | some .flowEntry | some .flowSequenceEnd =>
      let place ← behind
      advance
      empty place
    | _ => node fuel false false
    match ← peek with
    | some .value =>
      advance
      match ← peek with
      | some .flowEntry | some .flowSequenceEnd => empty (← here)
      | _ => node fuel false false
    | _ => empty (← here)

/-- Entries between curly brackets; one without a colon has an empty value. -/
def flowEntries : Nat → Bool → Outliner Unit
  | 0, _ => fail .unexpectedToken
  | fuel + 1, first => do
    if !first then
      match ← peek with
      | some .flowEntry => advance
      | some .flowMappingEnd => pure ()
      | _ => fail .unexpectedToken
    match ← peek with
    | some .flowMappingEnd =>
      advance
      emit .closed
    | some .key =>
      advance
      match ← peek with
      | some .value | some .flowEntry | some .flowMappingEnd => empty (← here)
      | _ => node fuel false false
      match ← peek with
      | some .value =>
        advance
        match ← peek with
        | some .flowEntry | some .flowMappingEnd => empty (← here)
        | _ => node fuel false false
      | _ => empty (← here)
      flowEntries fuel false
    | _ =>
      node fuel false false
      empty (← here)
      flowEntries fuel false

end

/-- Directives before a document. A version is given at most once and is 1.1 or 1.2, and a handle
is declared at most once. -/
def directives : Nat → Bool → Outliner Unit
  | 0, _ => fail .unexpectedToken
  | fuel + 1, versioned => do
    match ← peek with
    | some (.versionDirective major minor) =>
      if versioned then fail .directive
      if major ≠ 1 ∨ (minor ≠ 1 ∧ minor ≠ 2) then fail .version
      advance
      directives fuel true
    | some (.tagDirective handle lead) =>
      if ((← get).handles.lookup handle).isSome then fail .directive
      advance
      modify fun o => { o with handles := o.handles ++ [(handle, lead)] }
      directives fuel versioned
    | _ => pure ()

/-- The handles that need no declaration. -/
def standardHandles : List (String × List UInt8) :=
  [("!", Text.octets "!"), ("!!", Text.octets "tag:yaml.org,2002:")]

def isDirective : Option TokenKind → Bool
  | some (.versionDirective ..) | some (.tagDirective ..) => true
  | _ => false

/-- Whether a document that was begun by hyphens has no content. -/
def endsDocument : Option TokenKind → Bool
  | none | some .documentStart | some .documentEnd => true
  | next => isDirective next

/-- Passes over the end of the document. Whatever stands behind that is another document, sound or
not. -/
def finish : Outliner Unit := do
  discard peek
  let o ← get
  match o.rest.dropWhile (·.kind matches .documentEnd), o.stop with
  | [], .ok _ => pure ()
  | _, _ => throw ⟨.severalDocuments, {}⟩

/-- Reads the whole text. -/
def document (fuel : Nat) : Outliner Unit := do
  let first ← peek
  if first.isNone then return
  directives fuel false
  modify fun o => { o with handles := o.handles ++ standardHandles }
  if isDirective first || first matches some .documentStart then
    if (← peek) matches some .documentStart then advance else fail .unexpectedToken
    if endsDocument (← peek) then empty (← here) else node fuel true false
  else node fuel true false
  finish

end Outliner

/-- The outline that the tokens decide, and why they are not one well-formed document. -/
def Event.ofTokens (tokens : List Token) (stop : Except Flaw Place) :
    List Event × Option Flaw :=
  let (result, o) := (Outliner.document (2 * tokens.length + 4)).run { rest := tokens, stop }
  (o.events.reverse, match result with | .ok () => none | .error flaw => some flaw)

end LaunchEditor.Yaml
