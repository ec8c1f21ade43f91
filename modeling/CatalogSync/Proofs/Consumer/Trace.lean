import CatalogSync.Consumer.Source
import CatalogSync.Proofs.Dialogue

/-! What passes between a consumer, its source and its store, as one trace.

The source and the store keep their states and know nothing of each other; each call to one of them is added to the
trace once it is answered. -/

namespace CatalogSync

inductive Happening
  | sourced (call : SourceCall)
  /-- The source is asked whether it is exhausted. -/
  | asked (answer : Bool)
  | stored (exchange : Exchange)

structure World (σ τ : Type) where
  store : σ
  source : τ
  /-- First one first. -/
  trace : List Happening := []

variable {σ τ α : Type} {w w' : World σ τ} {xs : List Exchange}

/-! ### Reading a trace -/

namespace Happening

def exchange? : Happening → Option Exchange
  | stored x => some x
  | _ => none

/-- The message that is delivered. -/
def message? : Happening → Option Message
  | sourced (.poll _ (.ok message)) => message
  | _ => none

def isPoll : Happening → Bool
  | sourced (.poll ..) => true
  | _ => false

def isCommit : Happening → Bool
  | sourced (.commit ..) => true
  | _ => false

end Happening

def exchanges (trace : List Happening) : List Exchange := trace.filterMap Happening.exchange?

def delivered (trace : List Happening) : List Message := trace.filterMap Happening.message?

theorem exchanges_append (trace more : List Happening) : exchanges (trace ++ more) = exchanges trace ++ exchanges more :=
  List.filterMap_append

theorem delivered_append (trace more : List Happening) : delivered (trace ++ more) = delivered trace ++ delivered more :=
  List.filterMap_append

/-- A message is delivered, attended to and committed. -/
def attention (timeout : Duration) (message : Message) (xs : List Exchange) (answer : Except ConsumerError Unit) :
    List Happening :=
  .sourced (.poll timeout (.ok (some message))) :: (xs.map .stored ++ [.sourced (.commit message answer)])

variable {timeout : Duration} {message : Message} {answer : Except ConsumerError Unit}

theorem exchanges_attention : exchanges (attention timeout message xs answer) = xs := by
  show exchanges (xs.map .stored ++ [.sourced (.commit message answer)]) = xs
  have hstored : exchanges (xs.map .stored) = xs := by
    rw [exchanges, List.filterMap_map]
    exact List.filterMap_some
  rw [exchanges_append, hstored]
  exact List.append_nil xs

theorem delivered_attention : delivered (attention timeout message xs answer) = [message] := by
  show message :: delivered (xs.map .stored ++ [.sourced (.commit message answer)]) = [message]
  have hstored : delivered (xs.map .stored) = [] := by
    rw [delivered, List.filterMap_map]
    exact List.filterMap_eq_nil_iff.mpr fun x _ => rfl
  rw [delivered_append, hstored]
  rfl

theorem polls_attention : (attention timeout message xs answer).countP Happening.isPoll = 1 := by
  have hstored : (xs.map Happening.stored).countP Happening.isPoll = 0 := by
    rw [List.countP_map]
    exact List.countP_eq_zero.mpr fun x _ => Bool.false_ne_true
  rw [attention, List.countP_cons_of_pos rfl, List.countP_append, hstored]
  rfl

/-! ### Writing it -/

/-- The source acts, and what happens is added. -/
def World.sourcing (act : StateM τ α) (happening : α → Happening) : StateM (World σ τ) α :=
  modifyGet fun w =>
    let (a, v) := act.run w.source
    (a, { w with source := v, trace := w.trace ++ [happening a] })

def Source.traced (source : Source (StateM τ)) : Source (StateM (World σ τ)) where
  subscribe topics := World.sourcing (source.subscribe topics) fun a => .sourced (.subscribe topics a)
  poll timeout := World.sourcing (source.poll timeout) fun a => .sourced (.poll timeout a)
  commit message := World.sourcing (source.commit message) fun a => .sourced (.commit message a)
  close := World.sourcing source.close fun a => .sourced (.close a)
  isExhausted := World.sourcing source.isExhausted .asked

def Store.traced (store : Store (StateM σ)) : Store (StateM (World σ τ)) :=
  .ofAnswer fun c => modifyGet fun w =>
    let (r, s) := (store.answer c).run w.store
    (r, { w with store := s, trace := w.trace ++ [.stored ⟨c, r⟩] })

theorem World.of_sourcing {act : StateM τ α} {a : α} (happening : α → Happening)
    (h : (World.sourcing act happening).run w = (a, w')) : ∃ v, w' = ⟨w.store, v, w.trace ++ [happening a]⟩ := by
  obtain ⟨rfl, rfl⟩ := Prod.mk.inj h
  exact ⟨_, rfl⟩

namespace Source
variable {source : Source (StateM τ)} {topics : List String}

theorem traced_subscribe (h : (source.traced.subscribe topics).run w = (answer, w')) :
    ∃ v, w' = ⟨w.store, v, w.trace ++ [.sourced (.subscribe topics answer)]⟩ :=
    World.of_sourcing (fun a => .sourced (.subscribe topics a)) h

theorem traced_poll {reply : Except ConsumerError (Option Message)}
    (h : (source.traced.poll timeout).run w = (reply, w')) :
    ∃ v, w' = ⟨w.store, v, w.trace ++ [.sourced (.poll timeout reply)]⟩ :=
    World.of_sourcing (fun a => .sourced (.poll timeout a)) h

theorem traced_commit (h : (source.traced.commit message).run w = (answer, w')) :
    ∃ v, w' = ⟨w.store, v, w.trace ++ [.sourced (.commit message answer)]⟩ :=
    World.of_sourcing (fun a => .sourced (.commit message a)) h

theorem traced_close (h : source.traced.close.run w = (answer, w')) :
    ∃ v, w' = ⟨w.store, v, w.trace ++ [.sourced (.close answer)]⟩ :=
    World.of_sourcing (fun a => .sourced (.close a)) h

theorem traced_isExhausted {ended : Bool} (h : source.traced.isExhausted.run w = (ended, w')) :
    ∃ v, w' = ⟨w.store, v, w.trace ++ [.asked ended]⟩ := World.of_sourcing .asked h

end Source

/-- The traced store answers as the store does, and leaves the source alone. -/
theorem Store.Answers.of_traced {store : Store (StateM σ)} (h : store.traced.Answers w xs w') :
    store.Answers w.store xs w'.store ∧ w' = ⟨w'.store, w.source, w.trace ++ xs.map .stored⟩ := by
  induction h with
  | nil => exact ⟨.nil _, by rw [List.map_nil, List.append_nil]⟩
  | @cons w w₁ w₂ c r xs hc _ ih =>
    obtain ⟨hanswers, htrace⟩ := ih
    rw [Store.traced, Store.answer_ofAnswer] at hc
    obtain ⟨rfl, rfl⟩ := Prod.mk.inj hc
    exact ⟨.cons rfl hanswers, by rw [htrace, List.append_assoc]; rfl⟩

namespace Dialogue
variable (store : Store (StateM σ))

/-- Over the traced store a dialogue goes as it goes by itself. -/
theorem exists_hold_traced (x : Dialogue α) (w : World σ τ) : ∃ xs a t, Goes x xs a ∧
    (x.hold store.traced).run w = (a, ⟨t, w.source, w.trace ++ xs.map .stored⟩) ∧
    ∀ log, ((x.hold store.noted).run log).run w.store = ((a, log ++ xs), t) := by
  obtain ⟨xs, a, w', hrun, hgoes, ha⟩ := exists_goes_hold store.traced x w
  obtain ⟨hanswers, hw'⟩ := ha.of_traced
  exact ⟨xs, a, w'.store, hgoes, hw' ▸ hrun, hold_noted hgoes hanswers⟩

end Dialogue
end CatalogSync
