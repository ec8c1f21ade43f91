import CatalogSync.Event
import CatalogSync.Store.Basic

/-! Runs as dialogues with a store.

A computation over any monad that calls a store is, over the monad of dialogues, a tree: it makes a call and
goes on in one way for each answer. Held with a store it is the computation over that store (`hold`), and each
way in which it can go (`Goes`) is a list of calls with their answers and a result. So what every way of a
dialogue satisfies, every run over every store satisfies. -/

namespace CatalogSync

/-! ### Calls and answers -/

abbrev Call.Reply : Call → Type
  | .upsertOne .. => Except StoreError Entity
  | .upsertBatch .. => List (Except StoreError Entity)
  | .deleteOne .. | .deleteBatch .. => Except StoreError Unit
  | .related _ => Except StoreError (List EntityRef)

/-- A call and what the store answered. -/
structure Exchange where
  call : Call
  reply : call.Reply

def Store.answer {m : Type → Type} (store : Store m) : (c : Call) → m c.Reply
  | .upsertOne e o p => store.upsertOne e o p
  | .upsertBatch es o p => store.upsertBatch es o p
  | .deleteOne r o p => store.deleteOne r o p
  | .deleteBatch rs o p => store.deleteBatch rs o p
  | .related rs => store.related rs

/-- The store that makes each call by `answer`. -/
def Store.ofAnswer {m : Type → Type} (answer : (c : Call) → m c.Reply) : Store m where
  upsertOne e o p := answer (.upsertOne e o p)
  upsertBatch es o p := answer (.upsertBatch es o p)
  deleteOne r o p := answer (.deleteOne r o p)
  deleteBatch rs o p := answer (.deleteBatch rs o p)
  related rs := answer (.related rs)

theorem Store.answer_ofAnswer {m : Type → Type} (answer : (c : Call) → m c.Reply) (c : Call) :
    (Store.ofAnswer answer).answer c = answer c := by
  cases c <;> rfl

inductive Dialogue (α : Type)
  | done (result : α)
  | ask (call : Call) (next : call.Reply → Dialogue α)
  | tell (event : Event) (next : Dialogue α)

namespace Dialogue
variable {α β : Type}

protected def bind : Dialogue α → (α → Dialogue β) → Dialogue β
  | done a, f => f a
  | ask c next, f => ask c fun r => (next r).bind f
  | tell e x, f => tell e (x.bind f)

instance : Monad Dialogue where
  pure := done
  bind := Dialogue.bind

instance : Reporting Dialogue := ⟨fun e => tell e (done ())⟩

theorem bind_done (x : Dialogue α) : x.bind done = x := by
  induction x with
  | done a => rfl
  | ask c next ih => exact congrArg (ask c) (funext ih)
  | tell e x ih => exact congrArg (tell e) ih

protected theorem bind_assoc {γ : Type} (x : Dialogue α) (f : α → Dialogue β) (h : β → Dialogue γ) :
    (x.bind f).bind h = x.bind fun a => (f a).bind h := by
  induction x with
  | done a => rfl
  | ask c next ih => exact congrArg (ask c) (funext ih)
  | tell e x ih => exact congrArg (tell e) ih

instance : LawfulMonad Dialogue := .mk' _ bind_done (fun _ _ => rfl) Dialogue.bind_assoc

/-- The store to which every answer is open. -/
def store : Store Dialogue := .ofAnswer fun c => ask c done

/-! ### Holding a dialogue -/

section Hold
variable {m : Type → Type} [Monad m] [Reporting m]

def hold (store : Store m) : Dialogue α → m α
  | done a => pure a
  | ask c next => store.answer c >>= fun r => (next r).hold store
  | tell e x => report e >>= fun _ => x.hold store

variable (s : Store m)

@[simp] theorem hold_pure (a : α) : (pure a : Dialogue α).hold s = pure a := rfl

variable [LawfulMonad m]

@[simp] theorem hold_bind (x : Dialogue α) (f : α → Dialogue β) :
    (x >>= f).hold s = x.hold s >>= fun a => (f a).hold s := by
  show (x.bind f).hold s = _
  induction x with
  | done a => exact (pure_bind a fun a => (f a).hold s).symm
  | ask c next ih => simp only [Dialogue.bind, hold, ih, bind_assoc]
  | tell e x ih => simp only [Dialogue.bind, hold, ih, bind_assoc]

@[simp] theorem hold_map (f : α → β) (x : Dialogue α) : (f <$> x).hold s = f <$> x.hold s := by
  rw [map_eq_pure_bind f x, hold_bind, map_eq_pure_bind f (x.hold s)]
  rfl

@[simp] theorem hold_report (e : Event) : (report e : Dialogue Unit).hold s = report e :=
  bind_pure (report e)

@[simp] theorem hold_reportAll (es : List Event) : (reportAll es : Dialogue Unit).hold s = reportAll es := by
  induction es with
  | nil => rfl
  | cons e es ih =>
    show (report e >>= fun _ => (reportAll es : Dialogue Unit)).hold s = report e >>= fun _ => reportAll es
    rw [hold_bind, hold_report, ih]

theorem hold_ask (c : Call) : (ask c done).hold s = s.answer c := bind_pure (s.answer c)

@[simp] theorem hold_upsertOne (e : Entity) (o : CallOptions) (p : Provenance) :
    (store.upsertOne e o p).hold s = s.upsertOne e o p := hold_ask s (.upsertOne e o p)

@[simp] theorem hold_upsertBatch (es : List Entity) (o : CallOptions) (p : Provenance) :
    (store.upsertBatch es o p).hold s = s.upsertBatch es o p := hold_ask s (.upsertBatch es o p)

@[simp] theorem hold_deleteOne (r : EntityRef) (o : CallOptions) (p : Provenance) :
    (store.deleteOne r o p).hold s = s.deleteOne r o p := hold_ask s (.deleteOne r o p)

@[simp] theorem hold_deleteBatch (rs : List EntityRef) (o : CallOptions) (p : Provenance) :
    (store.deleteBatch rs o p).hold s = s.deleteBatch rs o p := hold_ask s (.deleteBatch rs o p)

@[simp] theorem hold_related (rs : List EntityRef) : (store.related rs).hold s = s.related rs :=
  hold_ask s (.related rs)

end Hold

/-! ### The ways of a dialogue -/

/-- With these answers the dialogue makes these calls and has this result. -/
inductive Goes : Dialogue α → List Exchange → α → Prop
  | done (a : α) : Goes (done a) [] a
  | ask {c : Call} {next : c.Reply → Dialogue α} (r : c.Reply) {xs : List Exchange} {a : α} :
      Goes (next r) xs a → Goes (ask c next) (⟨c, r⟩ :: xs) a
  | tell {e : Event} {x : Dialogue α} {xs : List Exchange} {a : α} : Goes x xs a → Goes (tell e x) xs a

variable {xs : List Exchange} {a : α} {b : β} {x : Dialogue α} {f : α → Dialogue β}

theorem goes_pure {a' : α} (h : Goes (pure a' : Dialogue α) xs a) : xs = [] ∧ a = a' := by
  cases h
  exact ⟨rfl, rfl⟩

theorem goes_bind (h : Goes (x >>= f) xs b) :
    ∃ ys zs a, xs = ys ++ zs ∧ Goes x ys a ∧ Goes (f a) zs b := by
  replace h : Goes (x.bind f) xs b := h
  induction x generalizing xs with
  | done a => exact ⟨[], xs, a, rfl, .done a, h⟩
  | ask c next ih =>
    cases h with
    | ask r h =>
      obtain ⟨ys, zs, a, rfl, hx, hf⟩ := ih r h
      exact ⟨⟨c, r⟩ :: ys, zs, a, rfl, .ask r hx, hf⟩
  | tell e x ih =>
    cases h with
    | tell h =>
      obtain ⟨ys, zs, a, rfl, hx, hf⟩ := ih h
      exact ⟨ys, zs, a, rfl, .tell hx, hf⟩

theorem goes_ask {c : Call} {r : c.Reply} (h : Goes (ask c done) xs r) : xs = [⟨c, r⟩] := by
  cases h with
  | ask r h =>
    cases h
    rfl

theorem goes_report {e : Event} {u : Unit} (h : Goes (report e) xs u) : xs = [] := by
  cases h with
  | tell h =>
    cases h
    rfl

theorem goes_reportAll {es : List Event} {u : Unit} (h : Goes (reportAll es) xs u) : xs = [] := by
  induction es generalizing xs with
  | nil => exact (goes_pure h).1
  | cons e es ih =>
    obtain ⟨ys, zs, _, rfl, hy, hz⟩ := goes_bind (x := report e) (f := fun _ => reportAll es) h
    rw [goes_report hy, ih hz]
    rfl

end Dialogue

/-! ### Stores that answer from a state -/

namespace Store
variable {σ α : Type} {store : Store (StateM σ)} {s t u : σ} {xs ys : List Exchange}

/-- In the state `s` the store gives these answers to these calls, which takes it to the last state. -/
inductive Answers (store : Store (StateM σ)) : σ → List Exchange → σ → Prop
  | nil (s : σ) : Answers store s [] s
  | cons {s t u : σ} {c : Call} {r : c.Reply} {xs : List Exchange} :
      (store.answer c).run s = (r, t) → Answers store t xs u → Answers store s (⟨c, r⟩ :: xs) u

theorem answers_append : store.Answers s (xs ++ ys) u ↔ ∃ t, store.Answers s xs t ∧ store.Answers t ys u := by
  constructor
  · intro h
    induction xs generalizing s with
    | nil => exact ⟨s, .nil s, h⟩
    | cons x xs ih =>
      cases h with
      | cons hc h =>
        obtain ⟨t, h₁, h₂⟩ := ih h
        exact ⟨t, .cons hc h₁, h₂⟩
  · rintro ⟨t, h₁, h₂⟩
    induction h₁ with
    | nil => exact h₂
    | cons hc _ ih => exact .cons hc (ih h₂)

/-- The same store; each exchange is noted. -/
def noted (store : Store (StateM σ)) : Store (StateT (List Exchange) (StateM σ)) :=
  .ofAnswer fun c => do
    let r ← store.answer c
    modify (· ++ [⟨c, r⟩])
    return r

/-- The same store; the state after each call is kept. -/
def filmed (store : Store (StateM σ)) : Store (StateT (List σ) (StateM σ)) :=
  .ofAnswer fun c => do
    let r ← store.answer c
    let s ← getThe σ
    modify (· ++ [s])
    return r

end Store

namespace Dialogue
variable {σ α : Type} (store : Store (StateM σ))

theorem exists_goes_hold (x : Dialogue α) (s : σ) : ∃ xs a t,
    (x.hold store).run s = (a, t) ∧ Goes x xs a ∧ store.Answers s xs t := by
  induction x generalizing s with
  | done a => exact ⟨[], a, s, rfl, .done a, .nil s⟩
  | ask c next ih =>
    rcases hr : (store.answer c).run s with ⟨r, t⟩
    obtain ⟨xs, a, u, hrun, hx, ha⟩ := ih r t
    refine ⟨⟨c, r⟩ :: xs, a, u, ?_, .ask r hx, .cons hr ha⟩
    rw [hold, StateT.run_bind, hr]
    exact hrun
  | tell e x ih =>
    obtain ⟨xs, a, t, hrun, hx, ha⟩ := ih s
    exact ⟨xs, a, t, hrun, .tell hx, ha⟩

variable {store} in
/-- The answers of a store decide how a dialogue goes, and what is noted of it. -/
theorem hold_noted {x : Dialogue α} {xs : List Exchange} {a : α} {s t : σ} (hx : Goes x xs a)
    (ha : store.Answers s xs t) (log : List Exchange) :
    ((x.hold store.noted).run log).run s = ((a, log ++ xs), t) := by
  induction hx generalizing s log with
  | done a =>
    cases ha
    rw [List.append_nil]
    rfl
  | @ask c next r xs a _ ih =>
    cases ha with
    | @cons _ u _ _ _ _ hr ha =>
      have hnoted : ((store.noted.answer c).run log).run s = ((r, log ++ [⟨c, r⟩]), u) := by
        rw [Store.noted, Store.answer_ofAnswer]
        exact congrArg (fun x : c.Reply × σ => ((x.1, log ++ [⟨c, x.1⟩]), x.2)) hr
      have hrest := ih ha (log ++ [⟨c, r⟩])
      rw [List.append_assoc] at hrest
      rw [hold, StateT.run_bind, StateT.run_bind, hnoted]
      exact hrest
  | tell _ ih => exact ih ha log

theorem exists_goes_noted (x : Dialogue α) (log : List Exchange) (s : σ) : ∃ xs a t,
    ((x.hold store.noted).run log).run s = ((a, log ++ xs), t) ∧ Goes x xs a ∧ store.Answers s xs t := by
  obtain ⟨xs, a, t, -, hgoes, ha⟩ := exists_goes_hold store x s
  exact ⟨xs, a, t, hold_noted hgoes ha log, hgoes, ha⟩

theorem exists_goes_filmed (x : Dialogue α) (film : List σ) (s : σ) : ∃ xs a t more,
    ((x.hold store.filmed).run film).run s = ((a, film ++ more), t) ∧ Goes x xs a ∧ store.Answers s xs t ∧
      ∀ u ∈ more, ∃ ys, ys <+: xs ∧ store.Answers s ys u := by
  induction x generalizing film s with
  | done a => exact ⟨[], a, s, [], by rw [List.append_nil]; rfl, .done a, .nil s, by simp⟩
  | ask c next ih =>
    rcases hr : (store.answer c).run s with ⟨r, t⟩
    obtain ⟨xs, a, u, more, hrun, hx, ha, hmore⟩ := ih r (film ++ [t]) t
    refine ⟨⟨c, r⟩ :: xs, a, u, t :: more, ?_, .ask r hx, .cons hr ha, fun v hv => ?_⟩
    · have hfilmed : ((store.filmed.answer c).run film).run s = ((r, film ++ [t]), t) := by
        rw [Store.filmed, Store.answer_ofAnswer]
        exact congrArg (fun x : c.Reply × σ => ((x.1, film ++ [x.2]), x.2)) hr
      rw [hold, StateT.run_bind, StateT.run_bind, hfilmed]
      rw [List.append_assoc] at hrun
      exact hrun
    · rcases List.mem_cons.mp hv with rfl | hv
      · exact ⟨[⟨c, r⟩], by simp, .cons hr (.nil _)⟩
      · obtain ⟨ys, hys, hv⟩ := hmore v hv
        exact ⟨⟨c, r⟩ :: ys, by simpa using hys, .cons hr hv⟩
  | tell e x ih =>
    obtain ⟨xs, a, t, more, hrun, hx, ha, hmore⟩ := ih film s
    exact ⟨xs, a, t, more, hrun, .tell hx, ha, hmore⟩

end Dialogue
end CatalogSync
