import DeviceSuite.Policy

/-!
# Scenario graphs

A scenario is a graph of nodes and labelled connections. Identifiers need not be distinct and
connections may lead nowhere; look-ups take the first node that fits.
-/

namespace DeviceSuite

/-- What a node does. -/
inductive NodeKind where
  | start
  | finish
  | action
  | condition
  deriving DecidableEq, Repr

namespace NodeKind

/-- The written name of a kind. -/
def name : NodeKind → String
  | start => "start"
  | finish => "end"
  | action => "action"
  | condition => "condition"

/-- All kinds. -/
def all : List NodeKind := [start, finish, action, condition]

/-- The codec of kinds. -/
def codec : Codec NodeKind := .choice all name

end NodeKind

/-- A node with the free-form parameters of its step. -/
structure Node where
  id : String
  kind : NodeKind
  label : Option String
  params : TextMap Json

namespace Node

/-- The fields of a node. -/
abbrev fields : List Field :=
  [.required "id" .string, .required "type" NodeKind.codec, .optional "label" .string,
    .defaulted "params" (.map .json) .empty]

/-- The codec of nodes. -/
def codec : Codec Node :=
  .record "Node" fields (fun (id, kind, label, params, ()) => ⟨id, kind, label, params⟩)
    (fun n => (n.id, n.kind, n.label, n.params, ()))

/-- The label, or else the identifier. -/
def displayName (n : Node) : String := n.label.getD n.id

/-- The name of the node's action, when its parameters give one. -/
def actionType (n : Node) : Option String := (n.params.get? "actionType").bind Json.text?

/-- An action node goes by the name of its action, any other by its kind. -/
def stepType (n : Node) : String :=
  match n.kind with
  | .action => n.actionType.getD "action"
  | kind => kind.name

/-- The options of the node's step; parameters that do not decode set no options at all. -/
def options (n : Node) : StepOptions :=
  match StepOptions.codec.ofJson (.ofMap n.params) with
  | .ok options => options
  | .error _ => .none

end Node

/-- A connection between two nodes, perhaps for one outcome of a condition. -/
structure Connection where
  source : String
  target : String
  branch : Option String
  deriving DecidableEq, Repr

namespace Connection

/-- The fields of a connection. -/
abbrev fields : List Field :=
  [.required "from" .string, .required "to" .string, .optional "branch" .string]

/-- The codec of connections. -/
def codec : Codec Connection :=
  .record "Connection" fields (fun (source, target, branch, ()) => ⟨source, target, branch⟩)
    (fun c => (c.source, c.target, c.branch, ()))

/-- The label of an outcome. -/
def branchLabel (outcome : Bool) : String := if outcome then "yes" else "no"

end Connection

/-- A scenario. -/
structure Graph where
  id : String
  name : String
  nodes : List Node
  connections : List Connection

namespace Graph

/-- The fields of a graph. -/
abbrev fields : List Field :=
  [.required "id" .string, .defaulted "name" .string "", .required "nodes" (.list Node.codec),
    .orNamed (.defaulted "connections" (.list Connection.codec) []) "edges"]

/-- The codec of graphs. -/
def codec : Codec Graph :=
  .record "ScenarioGraph" fields
    (fun (id, name, nodes, connections, ()) => ⟨id, name, nodes, connections⟩)
    (fun g => (g.id, g.name, g.nodes, g.connections, ()))

/-- The first node with an identifier. -/
def node? (g : Graph) (id : String) : Option Node := g.nodes.find? fun n => n.id == id

/-- The first start node. -/
def startNode? (g : Graph) : Option Node := g.nodes.find? fun n => n.kind == .start

end Graph

end DeviceSuite
