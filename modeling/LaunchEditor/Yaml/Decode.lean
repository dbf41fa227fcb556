import LaunchEditor.Yaml.Found

/-! # Taking values from a document

A decoder walks the tree in the order of the text and stops at the first node that is not what it
has to be. What it reports names the path to that node and its place. Aliases are followed, but
only so often that a small document cannot stand for a huge one. A flaw in the text is reported
where the document stops because of it, so that a node in front of it comes first.
-/
namespace LaunchEditor.Yaml

inductive Step where
  | key (name : String)
  | index (n : Nat)
  /-- Below a key that is not written as a scalar. -/
  | unnamed
  deriving DecidableEq, Repr

/-- The way to a node, its last step first. -/
abbrev Path := List Step

def Path.text : Path → String
  | [] => ""
  | .key name :: path => below path ++ name
  | .index n :: path => Path.text path ++ "[" ++ toString n ++ "]"
  | .unnamed :: path => below path ++ "?"
where
  below : Path → String
    | [] => ""
    | path => Path.text path ++ "."

inductive Problem where
  | wrongType (found : Found) (expected : String)
  | wrongValue (found : Found) (expected : String)
  | unknownVariant (name : String) (variants : List String)
  | missingField (name : String)
  | duplicateField (name : String)
  /-- Aliases were followed too often. -/
  | repetition
  | malformed (flaw : Flaw)
  deriving DecidableEq, Repr

def Problem.message : Problem → String
  | wrongType found expected =>
    "invalid type: " ++ found.description ++ ", expected " ++ expected
  | wrongValue found expected =>
    "invalid value: " ++ found.description ++ ", expected " ++ expected
  | unknownVariant name variants =>
    "unknown variant `" ++ name ++ "`, expected one of " ++
      ", ".intercalate (variants.map fun v => "`" ++ v ++ "`")
  | missingField name => "missing field `" ++ name ++ "`"
  | duplicateField name => "duplicate field `" ++ name ++ "`"
  | repetition => "repetition limit exceeded"
  | malformed flaw => flaw.message

structure Mismatch where
  problem : Problem
  spot : Option (Path × Place) := none
  deriving DecidableEq, Repr

/-- The start of the text is not worth telling. -/
def Mismatch.message (m : Mismatch) : String :=
  match m.spot with
  | none => m.problem.message
  | some (path, place) =>
    (if path = [] then "" else path.text ++ ": ") ++ m.problem.message ++
      (if place = {} then "" else " at " ++ place.text)

/-- A decoder counts how many aliases it has followed. -/
abbrev Decode := StateT Nat (Except Mismatch)

namespace Decode

def refuse {α : Type} (problem : Problem) : Decode α := throw { problem }

/-- Adds path and place to what `x` reports, where it has none and they are of use. -/
def located {α : Type} (path : Path) (place : Place) (x : Decode α) : Decode α :=
  tryCatch x fun m =>
    match m.problem, m.spot with
    | .repetition, _ | .malformed _, _ | _, some _ => throw m
    | _, none => throw { m with spot := some (path, place) }

/-- The node itself, or the one that an alias stands for. It has to be there. -/
def follow (d : Document) (n : Node) : Decode Node :=
  match n with
  | .aliasOf _ target => do
    let jumps ← get
    set (jumps + 1)
    if 100 * d.size < jumps + 1 then refuse .repetition
    else return (d.anchored.lookup target).getD n
  | .unread flaw => refuse (.malformed flaw)
  | n => return n

/-- Whether a node is a value that was left out. -/
def isEmpty : Node → Bool
  | .scalar _ _ plain text => plain && text == ""
  | _ => false

def standardTag (name : String) : Tag := ⟨Text.octets ("tag:yaml.org,2002:" ++ name)⟩

/-- What is wrong with a scalar in the place of something else. A standard tag has to fit. -/
def describe (tag : Option Tag) (plain : Bool) (text expected : String) : Problem :=
  let typed (found : Option Found) (type : String) : Problem :=
    match found with
    | some found => .wrongType found expected
    | none => .wrongValue (.string text) type
  let byText : Problem :=
    .wrongType (if plain then .ofText text else .string text) expected
  match tag with
  | none => byText
  | some t =>
    if t = standardTag "bool" then typed ((Found.bool? text).map .truth) "a boolean"
    else if t = standardTag "int" then
      typed ((Found.integer? text).bind Found.ofInteger?) "an integer"
    else if t = standardTag "float" then typed ((Found.float? text).map .float) "a float"
    else if t = standardTag "null" then
      typed (if Found.isNull text then some .unit else none) "null"
    else if t.isLocal then byText
    else .wrongType (.string text) expected

def problemOf (n : Node) (expected : String) : Problem :=
  match n with
  | .scalar _ tag plain text => describe tag plain text expected
  | .sequence .. => .wrongType .sequence expected
  | .mapping .. | .aliasOf .. => .wrongType .mapping expected
  | .unread flaw => .malformed flaw

/-- Any scalar, as its text. -/
def text (d : Document) (path : Path) (expected : String) (n : Node) : Decode String := do
  let n ← follow d n
  located path n.place <|
    match n with
    | .scalar _ _ _ s => return s
    | n => refuse (problemOf n expected)

/-- The step to the value of a key. -/
def stepOf : Node → Step
  | .scalar _ _ _ s => .key s
  | _ => .unnamed

/-- Decodes the entries of a mapping one after the other. -/
def entries {σ α : Type} (d : Document) (path : Path) (expected : String) (start : σ)
    (entry : σ → Node × Node → Decode σ) (finish : σ → Decode α) (n : Node) : Decode α := do
  let n ← follow d n
  located path n.place <|
    match n with
    | .mapping _ _ es => es.foldlM entry start >>= finish
    | n => if isEmpty n then finish start else refuse (problemOf n expected)

/-- Decodes the items of a sequence one after the other. -/
def items {α : Type} (d : Document) (path : Path) (item : Path → Node → Decode α) (n : Node) :
    Decode (List α) := do
  let n ← follow d n
  located path n.place <|
    match n with
    | .sequence _ _ ns => ns.zipIdx.mapM fun (n, i) => item (.index i :: path) n
    | n => if isEmpty n then return [] else refuse (problemOf n "a sequence")

/-- Sets a field that can be given only once. -/
def once {α : Type} (name : String) (old : Option α) (read : Decode α) : Decode (Option α) :=
  if old.isSome then refuse (.duplicateField name) else some <$> read

/-- Some variants, by the words that stand for them. -/
structure Variants (α : Type) where
  words : List String
  ofWord? : String → Option α

/-- The variant with a given word. -/
def pick {α : Type} (variants : Variants α) (name : String) : Decode α :=
  match variants.ofWord? name with
  | some v => return v
  | none => refuse (.unknownVariant name variants.words)

/-- One of a few variants, by the text of a scalar or by a local tag that has no content. A tag
that names no variant is reported without a place, so that it gets that of the node around it. -/
def namedVariant {α : Type} (path : Path) (variants : Variants α) (n : Node) : Decode α :=
  let tagged (tag : Option Tag) (content : Problem) (isNull : Bool) (untagged : Decode α) :
      Decode α :=
    match tag.bind Tag.local? with
    | some name => do
      let v ← pick variants name
      if isNull then return v else located path n.place (refuse content)
    | none => located path n.place untagged
  let expected := "a YAML tag starting with '!'"
  match n with
  | .scalar _ tag plain text =>
    tagged tag (.wrongValue (.string text) "null") (plain && (text == "" || Found.isNull text))
      (pick variants text)
  | .sequence _ tag _ =>
    tagged tag (.wrongType .sequence "unit") false (refuse (.wrongType .sequence expected))
  | .mapping _ tag _ =>
    tagged tag (.wrongType .mapping "unit") false (refuse (.wrongType .mapping expected))
  | .aliasOf .. => refuse (.wrongType .mapping expected)
  | .unread flaw => refuse (.malformed flaw)

/-- Like `namedVariant`, with the place of an alias for what would get none. -/
def variant {α : Type} (d : Document) (path : Path) (variants : Variants α) (n : Node) :
    Decode α :=
  match n with
  | .aliasOf place _ => located path place (follow d n >>= namedVariant path variants)
  | n => namedVariant path variants n

/-- Reports the flaw that ended the document, after all else. -/
def complete (d : Document) : Decode Unit :=
  match d.flaw with
  | some flaw => refuse (.malformed flaw)
  | none => pure ()

end Decode
end LaunchEditor.Yaml
