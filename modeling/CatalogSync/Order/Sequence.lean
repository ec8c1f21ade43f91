import CatalogSync.Order.Components

/-! The order in which nodes follow one another when some must come before others.

The lowest node that waits for nothing comes next. Where each remaining node waits, there is a cycle; it is
broken at the lowest node of a component that waits for nothing outside itself, so no node comes before
one of another component that it waits for.

How many nodes each one waits for is counted. The count goes down as they come, and a node whose count becomes
zero is ready. -/

namespace CatalogSync

namespace Sequence

inductive Cause
  /-- The node waits for nothing. -/
  | ready
  /-- The first node of a cycle that is broken. -/
  | cycleBroken
  /-- Another node of a component in which a cycle was broken before. -/
  | brokenAgain
  deriving Repr, DecidableEq

structure Step where
  node : Nat
  cause : Cause
  deriving Repr, DecidableEq

/-- What is to be put in order. -/
structure Graph where
  /-- For each node the nodes that come before it. -/
  before : Adjacency
  /-- For each node the nodes that come after it. -/
  after : Adjacency
  /-- The number of each node's component. -/
  labels : Array Nat

namespace Graph

def ofPrerequisites (before : Adjacency) : Graph :=
  let after := before.reverse
  { before, after, labels := (Components.labels after).toArray }

def label (g : Graph) (v : Nat) : Nat := g.labels.getD v 0

end Graph

structure Progress where
  /-- For each node how many of those before it have not come. -/
  unmet : Array Nat
  /-- Those of the remaining nodes that wait for nothing, in ascending order. -/
  ready : List Nat
  /-- In ascending order. -/
  remaining : List Nat
  /-- The labels of components in which a cycle has been broken. -/
  broken : List Nat := []
  deriving Repr

namespace Progress

def start (g : Graph) (nodes : List Nat) : Progress where
  unmet := (g.before.toList.map List.length).toArray
  ready := nodes.filter fun v => (g.before.next v).isEmpty
  remaining := nodes

/-- Keeps the order; a node that is there already is not put in again. -/
def insertNode (v : Nat) : List Nat → List Nat
  | [] => [v]
  | u :: us => if v < u then v :: u :: us else if v = u then u :: us else u :: insertNode v us

/-- One of the nodes before `w` has come. -/
def release (p : Progress) (w : Nat) : Progress :=
  let unmet := p.unmet.modify w (· - 1)
  { p with unmet, ready := if unmet[w]? = some 0 ∧ w ∈ p.remaining then insertNode w p.ready else p.ready }

/-- `v` comes. -/
def emit (g : Graph) (p : Progress) (v : Nat) : Progress :=
  (g.after.next v).foldl release { p with remaining := p.remaining.erase v }

/-- Does no remaining member of the component of `v` wait for a node outside it? -/
def canEnter (g : Graph) (p : Progress) (v : Nat) : Bool :=
  (p.remaining.filter fun m => g.label m == g.label v).all fun m =>
    (g.before.next m).all fun u => !p.remaining.contains u || g.label u == g.label v

/-- The next step, and what is left after it. -/
def next? (g : Graph) (p : Progress) : Option (Step × Progress) :=
  match p.remaining, p.ready with
  | [], _ => none
  | _ :: _, v :: ready => some (⟨v, .ready⟩, { p with ready }.emit g v)
  | first :: _, [] =>
    let v := (p.remaining.find? (p.canEnter g)).getD first
    let cause := if g.label v ∈ p.broken then Cause.brokenAgain else .cycleBroken
    some (⟨v, cause⟩, { p with broken := g.label v :: p.broken }.emit g v)

/-- At most `limit` steps. -/
def steps (g : Graph) : Nat → Progress → List Step
  | 0, _ => []
  | limit + 1, p =>
    match p.next? g with
    | none => []
    | some (s, p) => s :: steps g limit p

end Progress

/-- All of `nodes`, which are in ascending order, where `prerequisites` are the nodes that come before each one. -/
def run (prerequisites : Adjacency) (nodes : List Nat) : List Step :=
  let g := Graph.ofPrerequisites prerequisites
  Progress.steps g nodes.length (.start g nodes)

end Sequence
end CatalogSync
