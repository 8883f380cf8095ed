import DeviceSuite.Graph.Basic

/-!
# Building graphs

A graph is built from its start node by adding nodes and connections, each behind the ones that
are there.
-/

namespace DeviceSuite

/-- A node without label; parameters that are no object count as none. -/
def Node.ofParams (id : String) (kind : NodeKind) (params : Json) : Node where
  id := id
  kind := kind
  label := none
  params := match params with
    | .object entries => .ofList entries
    | _ => .empty

namespace Graph

/-- A graph of a start node alone, named by its identifier. -/
def blank (id : String) : Graph := ⟨id, id, [.ofParams "start" .start .null], []⟩

/-- The graph under another name. -/
def named (g : Graph) (name : String) : Graph := { g with name := name }

/-- Add a node. -/
def addNode (g : Graph) (n : Node) : Graph := { g with nodes := g.nodes ++ [n] }

/-- Add an action node. -/
def addAction (g : Graph) (id : String) (params : Json) : Graph :=
  g.addNode (.ofParams id .action params)

/-- Add a condition node. -/
def addCondition (g : Graph) (id : String) (params : Json) : Graph :=
  g.addNode (.ofParams id .condition params)

/-- Add an end node. -/
def addEnd (g : Graph) (id : String) : Graph := g.addNode (.ofParams id .finish .null)

/-- Add a connection. -/
def connect (g : Graph) (source target : String) (branch : Option String := none) : Graph :=
  { g with connections := g.connections ++ [⟨source, target, branch⟩] }

/-- Chain action nodes behind a node, counting from a number; the second component is the last
node of the chain. -/
def chain (g : Graph) (last : String) (number : Nat) : List Json → Graph × String
  | [] => (g, last)
  | params :: rest =>
    let id := "a" ++ toString number
    chain ((g.addAction id params).connect last id) id (number + 1) rest

/-- The graph that runs a list of actions one after the other. -/
def linear (id : String) (actions : List Json) : Graph :=
  let (g, last) := (blank id).chain "start" 1 actions
  (g.addEnd "end").connect last "end"

end Graph

end DeviceSuite
