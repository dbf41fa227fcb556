import LaunchEditor.Text.Octets
import LaunchEditor.Yaml.Source

/-! # Nodes of a document

A document is a tree of scalars, sequences and mappings, each with the place where it begins. An
alias stands for a node written elsewhere, by the number of that node's anchor. Where the text has a
flaw, the tree ends: each collection that is open there has an unread node for what would follow.
-/
namespace LaunchEditor.Yaml

/-- Resolved name of a tag, in octets, which need not be the UTF-8 form of a text. -/
structure Tag where
  octets : List UInt8
  deriving DecidableEq, Repr

namespace Tag

/-- A local tag is one that begins with an exclamation mark. -/
def isLocal (t : Tag) : Bool := t.octets.head? == some '!'.toUInt8

/-- What a local tag says, if that is a text; an exclamation mark alone says itself. -/
def local? (t : Tag) : Option String :=
  if t.isLocal then
    Text.ofOctets? (if t.octets.length = 1 then t.octets else t.octets.drop 1)
  else none

end Tag

inductive Node where
  | scalar (place : Place) (tag : Option Tag) (plain : Bool) (text : String)
  | sequence (place : Place) (tag : Option Tag) (items : List Node)
  | mapping (place : Place) (tag : Option Tag) (entries : List (Node × Node))
  | aliasOf (place : Place) (target : Nat)
  | unread (flaw : Flaw)

namespace Node

def place : Node → Place
  | scalar p .. | sequence p .. | mapping p .. | aliasOf p _ => p
  | unread flaw => flaw.place

end Node

structure Document where
  /-- The outermost node; there is none in a text without content. -/
  root : Option Node
  /-- Nodes by the number of their anchor. -/
  anchored : List (Nat × Node) := []
  /-- How many scalars, aliases, and starts and ends of collections the document has. -/
  size : Nat
  /-- Why the text is not one well-formed document. -/
  flaw : Option Flaw := none

end LaunchEditor.Yaml
