import LaunchEditor.Yaml.Event

/-! # Reading a document

`Document.ofBytes` takes a text to its tree of nodes, which is grown from its outline. The
collections that are open where a flaw ends the outline end there too, each with unread nodes for
what it lacks, so that nobody takes it for complete.
-/
namespace LaunchEditor.Yaml

/-- A collection that is open. -/
structure Branch where
  kind : Collection
  place : Place
  anchor : Option Nat
  tag : Option Tag
  /-- Number of events before it. -/
  start : Nat
  /-- The nodes in it, the last first; in a mapping, keys and values take turns. -/
  nodes : List Node := []

namespace Branch

/-- Keys with their values. -/
def pairs : List Node → List (Node × Node)
  | key :: value :: rest => (key, value) :: pairs rest
  | _ => []

def node (b : Branch) : Node :=
  match b.kind with
  | .sequence => .sequence b.place b.tag b.nodes.reverse
  | .mapping => .mapping b.place b.tag (pairs b.nodes.reverse)

end Branch

/-- A node with an anchor. -/
structure Anchored where
  /-- Number of events before it. -/
  start : Nat
  /-- Number of the anchor. -/
  number : Nat
  node : Node

/-- A tree, as far as it has been read. -/
structure Growth where
  root : Option Node := none
  /-- The open collections, the innermost first. -/
  branches : List Branch := []
  /-- Number of events. -/
  size : Nat := 0
  anchored : List Anchored := []

namespace Growth

/-- Adds a node to the innermost open collection. -/
def add (g : Growth) (n : Node) : Growth :=
  match g.branches with
  | [] => { g with root := some n }
  | b :: outer => { g with branches := { b with nodes := n :: b.nodes } :: outer }

/-- Adds a node that may have an anchor. -/
def place (g : Growth) (start : Nat) (anchor : Option Nat) (n : Node) : Growth :=
  let g := g.add n
  match anchor with
  | some number => { g with anchored := ⟨start, number, n⟩ :: g.anchored }
  | none => g

/-- Ends the innermost open collection. -/
def close (g : Growth) : Growth :=
  match g.branches with
  | [] => g
  | b :: outer => { g with branches := outer }.place b.start b.anchor b.node

def step (g : Growth) (e : Event) : Growth :=
  let size := g.size
  let g := { g with size := size + 1 }
  match e with
  | .scalar place anchor tag plain text => g.place size anchor (.scalar place tag plain text)
  | .aliasOf place target => g.add (.aliasOf place target)
  | .opened kind place anchor tag =>
    { g with branches := { kind, place, anchor, tag, start := size } :: g.branches }
  | .closed => g.close

def ofEvents (events : List Event) : Growth := events.foldl step {}

/-- Ends all that is open, because of a flaw. Of three unread nodes, two are a pair whether or not a
value is due before them. -/
def cut (flaw : Flaw) (g : Growth) : Growth :=
  let unread := Node.unread flaw
  let g := g.branches.foldl (fun g _ => (((g.add unread).add unread).add unread).close) g
  { g with root := some (g.root.getD unread) }

/-- Anchored nodes by the number of their anchor, the last to begin first. -/
def byNumber (g : Growth) : List (Nat × Node) :=
  (g.anchored.mergeSort fun a b => b.start ≤ a.start).map fun a => (a.number, a.node)

end Growth

def Document.ofEvents (events : List Event) (flaw : Option Flaw) : Document :=
  let g := Growth.ofEvents events
  let g := match flaw with
    | some flaw => g.cut flaw
    | none => g
  { root := g.root, anchored := g.byNumber, size := if events = [] then 1 else g.size, flaw }

def Document.ofBytes (bytes : ByteArray) : Document :=
  let (tokens, stop) := Token.all (Source.ofBytes bytes)
  let (events, flaw) := Event.ofTokens tokens stop
  .ofEvents events flaw

end LaunchEditor.Yaml
