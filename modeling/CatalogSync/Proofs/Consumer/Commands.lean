import CatalogSync.Proofs.Consumer.Course
import CatalogSync.Proofs.Consumer.Trace
import CatalogSync.Proofs.Reconcile.Outcome

/-! The commands that messages carry, and what is done to the store when one is attended to.

The payload decides: there is a command to be run or there is not. What the run does is what the command does by
itself, over a store that knows nothing of messages. -/

namespace CatalogSync

variable {σ τ : Type} {store : Store (StateM σ)} {policy : Policy} {s t : σ} {message : Message}

/-! ### Commands by themselves -/

def Message.command? (message : Message) : Option Command :=
  (Codec.ofBytes? Json message.payload).bind Codec.decode

namespace Command

def fault? : Command → Option Fault
  | apply _ d => Reconcile.fault? d
  | delete _ d => Reconcile.fault? d

def runOn {m : Type → Type} [Monad m] [Reporting m] (store : Store m) (policy : Policy) :
    Command → m (Except ReconcileError Report)
  | apply p d => Reconcile.apply store policy d p
  | delete p d => Reconcile.delete store policy d p

theorem hold_runOn {m : Type → Type} [Monad m] [LawfulMonad m] [Reporting m] (store : Store m) (c : Command) :
    (c.runOn Dialogue.store policy).hold store = c.runOn store policy := by
  cases c with
  | apply p d => exact Reconcile.hold_apply store policy p d
  | delete p d => exact Reconcile.hold_delete store policy p d

theorem execute_eq {m : Type → Type} [Monad m] [LawfulMonad m] [Reporting m] (store : Store m) (c : Command) :
    c.execute store policy = (Except.mapError .reconcile) <$> c.runOn store policy := by
  rw [map_eq_pure_bind]
  cases c <;> rfl

/-- A command whose diff has a fault makes no call. -/
theorem goes_of_fault {c : Command} {xs : List Exchange} {result : Except ReconcileError Report}
    (h : Dialogue.Goes (c.runOn Dialogue.store policy) xs result) (hfault : c.fault?.isSome) : xs = [] := by
  obtain ⟨fault, hfault⟩ := Option.isSome_iff_exists.mp hfault
  cases c with
  | apply p d => exact ((Reconcile.applying_of_goes h).of_fault hfault).1
  | delete p d => exact ((Reconcile.removing_of_goes h).of_fault hfault).1

end Command

/-- It carries no command, or one whose diff has a fault. -/
def Message.Inert (message : Message) : Prop := ∀ c, message.command? = some c → c.fault?.isSome

def Message.attempt {m : Type → Type} [Monad m] [Reporting m] (store : Store m) (policy : Policy) (message : Message) :
    m (Option (Except ReconcileError Report)) :=
  match message.command? with
  | none => pure none
  | some c => some <$> c.runOn store policy

namespace Consumer

/-- What the handler makes of an attempt. -/
def verdict : Option (Except ReconcileError Report) → Except ConsumerError Unit
  | none => .error .invalidPayload
  | some (.error err) => .error (.reconcile err)
  | some (.ok _) => .ok ()

/-- From `s` to `t` the command of the message makes the exchanges `xs` with the store by itself, and none if it is not
    to be run. -/
structure Attempt (store : Store (StateM σ)) (policy : Policy) (message : Message) (s : σ)
    (result : Option (Except ReconcileError Report)) (xs : List Exchange) (t : σ) : Prop where
  alone : ∀ log, ((message.attempt store.noted policy).run log).run s = ((result, log ++ xs), t)
  inert : message.Inert → xs = []

theorem Attempt.of_no_command (h : message.command? = none) : Attempt store policy message s none [] s where
  alone log := by
    rw [Message.attempt, h, List.append_nil]
    rfl
  inert _ := rfl

theorem exists_attempt (message : Message) (w : World σ τ) : ∃ result xs t,
    Attempt store policy message w.store result xs t ∧
    (handlePayload (Handler.reconciling store.traced policy) message).run w =
      (verdict result, ⟨t, w.source, w.trace ++ xs.map .stored⟩) := by
  rw [handlePayload]
  cases hpayload : Codec.ofBytes? Json message.payload with
  | none =>
    have hnone : message.command? = none := by rw [Message.command?, hpayload]; rfl
    refine ⟨none, [], w.store, .of_no_command hnone, ?_⟩
    rw [List.map_nil, List.append_nil]
    rfl
  | some payload =>
    have hcommand : message.command? = Codec.decode payload := by rw [Message.command?, hpayload]; rfl
    dsimp only
    rw [Handler.reconciling]
    cases hc : (Codec.decode payload : Option Command) with
    | none =>
      refine ⟨none, [], w.store, .of_no_command (hcommand.trans hc), ?_⟩
      rw [List.map_nil, List.append_nil]
      rfl
    | some c =>
      obtain ⟨xs, result, t, hgoes, htraced, hnoted⟩ :=
        Dialogue.exists_hold_traced store (c.runOn Dialogue.store policy) w
      rw [Command.hold_runOn] at htraced
      simp only [Command.hold_runOn] at hnoted
      refine ⟨some result, xs, t, ⟨fun log => ?_, fun hinert => ?_⟩, ?_⟩
      · rw [Message.attempt, hcommand, hc]
        dsimp only
        rw [StateT.run_map, StateT.run_map, hnoted]
        rfl
      · exact Command.goes_of_fault hgoes (hinert c (hcommand.trans hc))
      · dsimp only
        rw [Command.execute_eq, map_eq_pure_bind, bind_assoc, run_bind_of htraced, pure_bind]
        cases result <;> rfl

end Consumer
end CatalogSync
