/-! Strongly connected components of a finite graph.

`Components.labels?` gives two nodes the same label iff each reaches the other. It is one depth-first search
without recursion: the nodes that are being visited form a trail, each with the edges that it has still to follow.
A node is put on the stack when it is first met and stays there until its component is closed. For each node on
the stack the search keeps the lowest index that the node is known to reach there. If that is its own index when
its visit ends, its component is all that stands above it. -/

namespace CatalogSync

/-- The nodes are `0 .. size - 1`; for each one the nodes that its edges lead to. -/
abbrev Adjacency := Array (List Nat)

namespace Adjacency

def next (g : Adjacency) (v : Nat) : List Nat := g.getD v []

/-- Every edge leads to a node. -/
def Closed (g : Adjacency) : Prop := ∀ v < g.size, ∀ w ∈ g.next v, w < g.size

instance : DecidablePred Closed := fun g => inferInstanceAs (Decidable (∀ v < g.size, ∀ w ∈ g.next v, w < g.size))

inductive Reaches (g : Adjacency) : Nat → Nat → Prop
  | refl (v : Nat) : Reaches g v v
  | step {u v w : Nat} : v ∈ g.next u → Reaches g v w → Reaches g u w

/-- The same edges the other way round. -/
def reverse (g : Adjacency) : Adjacency :=
  ((List.range g.size).map fun v => (List.range g.size).filter fun u => (g.next u).contains v).toArray

/-- The number of nodes and edges. -/
def extent (g : Adjacency) : Nat := (List.range g.size).foldl (fun n v => n + ((g.next v).length + 1)) 0

end Adjacency

namespace Components

/-- What is known of a node. -/
inductive Mark
  | unmet
  /-- The node is on the stack. Its index tells when it was met. -/
  | opened (index low : Nat)
  | closed (label : Nat)
  deriving DecidableEq, Repr

def Mark.label? : Mark → Option Nat
  | closed label => some label
  | _ => none

/-- A node that is being visited. -/
structure Visit where
  node : Nat
  /-- The edges that are still to be followed. -/
  rest : List Nat
  deriving Repr

structure Search where
  marks : Array Mark
  /-- Nodes of components that are not closed yet, latest first. -/
  stack : List Nat := []
  /-- Latest first. -/
  trail : List Visit := []
  /-- How many nodes have been met. -/
  met : Nat := 0
  /-- How many components have been closed. -/
  closed : Nat := 0
  deriving Repr

namespace Search

/-! Each look-up is none where there is no such node. -/

def start (g : Adjacency) : Search := { marks := Array.replicate g.size .unmet }

def mark (s : Search) (v : Nat) (m : Mark) : Search := { s with marks := s.marks.setIfInBounds v m }

def mark? (s : Search) (v : Nat) (m : Mark) : Option Search :=
  if v < s.marks.size then some (s.mark v m) else none

/-- Meets `v`. -/
def enter? (g : Adjacency) (s : Search) (v : Nat) : Option Search := do
  let edges ← g[v]?
  let s ← s.mark? v (.opened s.met s.met)
  some { s with stack := v :: s.stack, trail := ⟨v, edges⟩ :: s.trail, met := s.met + 1 }

/-- `v` is known to reach the node on the stack that has this index. -/
def lower? (s : Search) (v index : Nat) : Option Search :=
  match s.marks[v]? with
  | some (.opened own low) => s.mark? v (.opened own (min low index))
  | _ => none

/-- Takes the nodes down to `v` off the stack: they are in the component that is closed next. -/
def unwind? (v : Nat) : List Nat → Search → Option Search
  | [], s => some { s with stack := [] }
  | u :: below, s => do
    let s ← s.mark? u (.closed s.closed)
    if u = v then some { s with stack := below } else unwind? v below s

def close? (s : Search) (v : Nat) : Option Search := do
  let s ← unwind? v s.stack s
  some { s with closed := s.closed + 1 }

/-- The visit of `v`, the latest one, ends. -/
def leave? (s : Search) (v : Nat) (trail : List Visit) : Option Search :=
  match s.marks[v]? with
  | some (.opened index low) => do
    let s := { s with trail }
    let s ← match trail with
      | [] => some s
      | parent :: _ => s.lower? parent.node low
    if low = index then s.close? v else some s
  | _ => none

/-- Follows an edge to `w`, from the node `v` that is being visited. -/
def follow? (g : Adjacency) (s : Search) (v w : Nat) : Option Search :=
  match s.marks[w]? with
  | some .unmet => s.enter? g w
  | some (.opened index _) => s.lower? v index
  | some (.closed _) => some s
  | none => none

def step? (g : Adjacency) (s : Search) : Option Search :=
  match s.trail with
  | [] => some s
  | ⟨v, []⟩ :: trail => s.leave? v trail
  | ⟨v, w :: rest⟩ :: trail => { s with trail := ⟨v, rest⟩ :: trail }.follow? g v w

/-- Goes on until no node is being visited; none if `limit` steps do not suffice. -/
def finish? (g : Adjacency) : Nat → Search → Option Search
  | 0, s => if s.trail.isEmpty then some s else none
  | limit + 1, s => if s.trail.isEmpty then some s else do finish? g limit (← s.step? g)

/-- Visits `v` and all that is met from there, unless `v` has been met before. No visit takes more steps than
    there are nodes and edges. -/
def visit? (g : Adjacency) (s : Search) (v : Nat) : Option Search := do
  match ← s.marks[v]? with
  | .unmet => finish? g g.extent (← s.enter? g v)
  | _ => some s

end Search

def search? (g : Adjacency) : Option Search := (List.range g.size).foldlM (Search.visit? g) (.start g)

/-- For each node the number of its component; components are numbered as they close. None if some node has no
    component, or the search fails. -/
def labels? (g : Adjacency) : Option (List Nat) := do (← search? g).marks.toList.mapM Mark.label?

def labels (g : Adjacency) : List Nat := (labels? g).getD []

end Components
end CatalogSync
