import CatalogSync.Reconcile.Run
import CatalogSync.Store.Local

/-! Plans: the calls that a run would make.

A plan is the log of a run against a store in memory that holds what was stored before the change, and nothing
else. -/

namespace CatalogSync
open Codec

namespace Plan

inductive Action
  | upsert
  | upsertBatch
  | delete
  | deleteBatch
  | lookUpRelated
  deriving DecidableEq, Repr

def Action.name : Action → String
  | upsert => "upsert"
  | upsertBatch => "upsert_batch"
  | delete => "delete"
  | deleteBatch => "delete_batch"
  | lookUpRelated => "lookup_related"

structure Step where
  action : Action
  refs : List EntityRef
  deriving DecidableEq, Repr

def Action.ofCall : Call → Action
  | .upsertOne .. => upsert
  | .upsertBatch .. => upsertBatch
  | .deleteOne .. => delete
  | .deleteBatch .. => deleteBatch
  | .related _ => lookUpRelated

def Step.ofCall (c : Call) : Step := ⟨.ofCall c, c.keys⟩

end Plan

structure Plan where
  /-- One for each call, in their order. -/
  steps : List Plan.Step
  /-- What the guard would keep. -/
  preserved : List EntityRef
  deriving DecidableEq, Repr

namespace Plan

variable {m : Type → Type} [Monad m] [Reporting m]

/-- A run over a store of its own. -/
abbrev Rehearsal (m : Type → Type) := StateT LocalStore (StateT CallLog m)

def rehearse (seed : List Entity)
    (run : Store (Rehearsal m) → Rehearsal m (Except ReconcileError Report)) : m (Except ReconcileError Plan) := do
  let ((result, _), log) ← ((run Store.ofLocal.recorded).run (.ofEntities seed)).run {}
  return result.map fun r => ⟨log.calls.map .ofCall, r.preserved⟩

def ofEntities (d : Diff Entity) (policy : Policy) : m (Except ReconcileError Plan) :=
  rehearse d.before fun store => Reconcile.apply store policy d .automated

/-- An entity of which nothing but the key is known. -/
def bare (r : EntityRef) : Entity := { identifier := r.identifier, blueprint := r.blueprint }

def ofRefs (d : Diff EntityRef) (policy : Policy) : m (Except ReconcileError Plan) :=
  rehearse (d.before.map bare) fun store => Reconcile.delete store policy d .automated

/-! ### Text forms -/

def Step.json (s : Step) : Json := .object [("action", .string s.action.name), ("entities", encode s.refs)]

def json (p : Plan) : Json := .object [("steps", .array (p.steps.map Step.json)), ("preserved", encode p.preserved)]

/-- Blanks up to a width. -/
def padding (width : Nat) (text : String) : String := String.ofList (List.replicate (width - text.length) ' ')

def Step.line (number : Nat) (s : Step) : String :=
  let n := toString number
  padding 4 n ++ n ++ ". " ++ s.action.name ++ padding 15 s.action.name ++ " " ++
    ", ".intercalate (s.refs.map EntityRef.text)

/-- The lines shown for the plan of the change in a file. -/
def lines (p : Plan) (path : String) : List String :=
  let steps := p.steps.zipIdx.map fun x => x.1.line (x.2 + 1)
  let preserved := if p.preserved.isEmpty then [] else ["", "Preserved:"] ++ p.preserved.map ("  " ++ ·.text)
  ["Plan for " ++ path, ""] ++ if steps.isEmpty then ["Nothing to do"] else steps ++ preserved

end Plan
end CatalogSync
