import CatalogSync.Entity.Sample
import CatalogSync.Proofs.Store.Frozen
import Mathlib.Data.List.Permutation

/-! What a key holds after any edits of a store in memory.

Only the writes count that took effect since the last one that replaced what was stored. The last of them gives all
fields but the properties, and each property comes from the last of them that sets it. One effect on the key is looked
at a time: the history up to it accounts for what is stored, and so does the history with it. -/

namespace CatalogSync.LocalStore

/-! ### Edits -/

/-- What is done to a store: by calls, and in its preparation. -/
inductive Edit
  | insert (e : Entity)
  | failOn (r : EntityRef)
  | call (c : Call)

/-- The parts of an edit. A batch of writes is one write for each entity. -/
inductive Act
  | insert (e : Entity)
  | failOn (r : EntityRef)
  | write (e : Entity) (o : CallOptions)
  | delete (r : EntityRef) (o : CallOptions)
  | deleteAll (rs : List EntityRef) (o : CallOptions)

def Edit.acts : Edit → List Act
  | insert e => [.insert e]
  | failOn r => [.failOn r]
  | call (.upsertOne e o _) => [.write e o]
  | call (.upsertBatch es o _) => es.map (.write · o)
  | call (.deleteOne r o _) => [.delete r o]
  | call (.deleteBatch rs o _) => [.deleteAll rs o]
  | call (.related _) => []

def perform (s : LocalStore) : Edit → LocalStore
  | .insert e => s.insert e
  | .failOn r => s.failOn r
  | .call c => s.step c

def edited (s : LocalStore) (edits : List Edit) : LocalStore := edits.foldl perform s

def act (s : LocalStore) : Act → LocalStore
  | .insert e => s.insert e
  | .failOn r => s.failOn r
  | .write e o => (s.write e o).2
  | .delete r o => (s.delete r o).2
  | .deleteAll rs o => s.deleteAll rs o

/-! ### Effects on a key -/

inductive Effect
  /-- The entity took the place of whatever was stored. -/
  | replaced (e : Entity)
  /-- The entity was written over a stored version, whose other properties were kept. -/
  | merged (e : Entity)
  | removed

/-- What an act does to `k`. A write or delete has no effect on a key that refuses, nor if it only validates. -/
def effect? (s : LocalStore) (k : EntityRef) : Act → Option Effect
  | .insert e => if e.key = k then some (.replaced e) else none
  | .failOn _ => none
  | .write e o =>
    if e.key = k ∧ s.refuses k = false ∧ o.validationOnly = false then
      some (if o.merge ∧ s.contains k then .merged e else .replaced e)
    else none
  | .delete r o => if r = k ∧ s.refuses k = false ∧ o.validationOnly = false then some .removed else none
  | .deleteAll rs o => if s.contains k ∧ ¬ (s.deleteAll rs o).contains k then some .removed else none

def effects (s : LocalStore) (k : EntityRef) : List Act → List Effect
  | [] => []
  | a :: as => (s.effect? k a).toList ++ (s.act a).effects k as

/-- All that was done to `k`. What is stored at first counts as inserted. -/
def history (s : LocalStore) (k : EntityRef) (edits : List Edit) : List Effect :=
  (s.get? k).toList.map .replaced ++ s.effects k (edits.flatMap Edit.acts)

/-- `e` is made up of these writes, of which later ones win. -/
structure Combines (writes : List Entity) (e : Entity) : Prop where
  fields : ∃ last ∈ writes.getLast?, e = { last with properties := e.properties }
  properties : ∀ p, e.properties.get? p = writes.reverse.findSome? (·.properties.get? p)

/-- `e` is made up of the last write that replaced what was stored and those after it. -/
def LastWritten (effects : List Effect) (e : Entity) : Prop :=
  ∃ older first later, effects = older ++ .replaced first :: later.map .merged ∧ Combines (first :: later) e

variable {s : LocalStore} {as : List Act} {e f : Entity} {writes : List Entity} {o : CallOptions} {k r : EntityRef}
  {past : List Effect} {v : Option Entity}

namespace Combines

theorem unique (h : Combines writes e) (h' : Combines writes f) : e = f := by
  obtain ⟨last, hlast, he⟩ := h.fields
  obtain ⟨last', hlast', hf⟩ := h'.fields
  obtain rfl := Option.mem_unique hlast hlast'
  have hproperties : e.properties = f.properties := SortedMap.ext fun p => (h.properties p).trans (h'.properties p).symm
  rw [he, hf, hproperties]

theorem single (e : Entity) : Combines [e] e := ⟨⟨e, rfl, rfl⟩, fun p => by simp⟩

theorem append (h : Combines writes f) (e : Entity) :
    Combines (writes ++ [e]) { e with properties := e.properties.orElse f.properties } := by
  refine ⟨⟨e, by simp, rfl⟩, fun p => ?_⟩
  rw [List.reverse_append, List.reverse_singleton, List.singleton_append, List.findSome?_cons, SortedMap.get?_orElse,
    h.properties]
  cases e.properties.get? p <;> rfl

theorem exists_combines (first : Entity) (later : List Entity) : ∃ e, Combines (first :: later) e := by
  induction later using List.reverseRecOn with
  | nil => exact ⟨first, .single first⟩
  | append_singleton later last ih =>
    obtain ⟨e, he⟩ := ih
    exact ⟨_, he.append last⟩

end Combines

/-! ### One effect -/

/-- What is stored after an effect. -/
def Effect.result : Effect → Option Entity → Option Entity
  | replaced e, _ => some e
  | merged e, old => old.map fun old => { e with properties := e.properties.orElse old.properties }
  | removed, _ => none

theorem lastWritten_append {x : Effect} : LastWritten (past ++ [x]) f ↔
    x = .replaced f ∨ ∃ e old, x = .merged e ∧ LastWritten past old ∧
      f = { e with properties := e.properties.orElse old.properties } := by
  constructor
  · rintro ⟨older, first, later, hsplit, hcombines⟩
    rcases later.eq_nil_or_concat with rfl | ⟨later, last, rfl⟩
    · obtain ⟨-, hx⟩ := List.append_inj' hsplit rfl
      left
      rw [hcombines.unique (.single first)]
      exact List.singleton_inj.mp hx
    · rw [List.concat_eq_append, List.map_append, ← List.cons_append, ← List.append_assoc] at hsplit
      obtain ⟨hpast, hx⟩ := List.append_inj' hsplit rfl
      obtain ⟨old, hold⟩ := Combines.exists_combines first later
      right
      refine ⟨last, old, List.singleton_inj.mp hx, ⟨older, first, later, hpast, hold⟩, ?_⟩
      exact hcombines.unique (by simpa using hold.append last)
  · rintro (rfl | ⟨e, old, rfl, ⟨older, first, later, rfl, hcombines⟩, rfl⟩)
    · exact ⟨past, f, [], rfl, .single f⟩
    · exact ⟨older, first, later ++ [e], by simp, hcombines.append e⟩

/-- `v` is what is stored after these effects. -/
def Accounts (past : List Effect) (v : Option Entity) : Prop := ∀ e, v = some e ↔ LastWritten past e

theorem accounts_nil : Accounts [] none := by
  intro e
  refine ⟨(nomatch ·), ?_⟩
  rintro ⟨older, first, later, hsplit, -⟩
  simp at hsplit

theorem Accounts.append (h : Accounts past v) (x : Effect) : Accounts (past ++ [x]) (x.result v) := by
  intro f
  rw [lastWritten_append]
  cases x with
  | replaced e => simp [Effect.result]
  | merged e => simp [Effect.result, h _, eq_comm (a := f)]
  | removed => simp [Effect.result]

theorem accounts_stored (v : Option Entity) : Accounts (v.toList.map .replaced) v := by
  cases v with
  | none => exact accounts_nil
  | some e => exact accounts_nil.append (.replaced e)

/-! ### One act -/

theorem write_of_validationOnly (ho : o.validationOnly = true) : (s.write e o).2 = s := by
  unfold write
  split
  · rfl
  · rfl

theorem get?_write_self (hr : s.refuses e.key = false) (ho : o.validationOnly = false) :
    (s.write e o).2.get? e.key = some (s.merged e o.merge) := by
  rw [write_of_not_refuses hr ho, get?_insert, merged_key, if_pos rfl]

theorem get?_write_eq : (s.write e o).2.get? k =
    if e.key = k ∧ s.refuses k = false ∧ o.validationOnly = false then some (s.merged e o.merge) else s.get? k := by
  split
  · rename_i h
    obtain ⟨rfl, hr, ho⟩ := h
    exact get?_write_self hr ho
  · rename_i h
    by_cases hk : k = e.key
    · subst hk
      cases hr : s.refuses e.key with
      | true => rw [write_of_refuses hr]
      | false => rw [write_of_validationOnly (by simpa [hr] using h)]
    · exact get?_write_of_ne hk

theorem get?_delete_eq : (s.delete r o).2.get? k =
    if r = k ∧ s.refuses k = false ∧ o.validationOnly = false then none else s.get? k := by
  by_cases hk : r = k
  · subst hk
    cases hr : s.refuses r <;> cases ho : o.validationOnly <;> simp [delete, hr, ho, get?_remove]
  · rw [if_neg fun h => hk h.1]
    unfold delete
    split
    · rfl
    · dsimp only
      split
      · rfl
      · rw [get?_remove, if_neg (Ne.symm hk)]

/-- A write that takes effect stores what its effect results in. -/
theorem result_of_write (s : LocalStore) (e : Entity) (merge : Bool) :
    (if merge ∧ s.contains e.key then Effect.merged e else .replaced e).result (s.get? e.key) =
      some (s.merged e merge) := by
  unfold merged
  cases hk : s.get? e.key with
  | none =>
    have hc : ¬ s.contains e.key := by simp [contains_iff, hk]
    rw [if_neg fun h => hc h.2]
    rfl
  | some old =>
    have hc : s.contains e.key := contains_iff.mpr ⟨old, hk⟩
    cases merge <;> simp [hc, Effect.result]

/-- An act changes what is stored under a key by its effect on it, if it has one. -/
theorem get?_act (hkeyed : WellKeyed s.entities) (k : EntityRef) (a : Act) :
    (s.act a).get? k = (s.effect? k a).elim (s.get? k) fun x => x.result (s.get? k) := by
  cases a with
  | insert e =>
    simp only [act, effect?, get?_insert, eq_comm (a := k)]
    split <;> rfl
  | failOn r => rfl
  | write e o =>
    simp only [act, effect?, get?_write_eq]
    split
    · rename_i h
      obtain ⟨rfl, -⟩ := h
      exact (result_of_write s e o.merge).symm
    · rfl
  | delete r o =>
    simp only [act, effect?, get?_delete_eq]
    split <;> rfl
  | deleteAll rs o =>
    have hcontains : ∀ t : LocalStore, t.contains k = (t.get? k).isSome := fun _ => rfl
    simp only [act, effect?, hcontains]
    cases hafter : (s.deleteAll rs o).get? k with
    | none => cases s.get? k <;> rfl
    | some e => simp [get?_of_deleteAll hkeyed hafter]

/-! ### All acts -/

theorem WellKeyed.act (h : WellKeyed s.entities) (a : Act) : WellKeyed (s.act a).entities := by
  cases a with
  | insert => exact h.insert
  | failOn => exact h
  | write => exact h.write
  | delete r o => exact WellKeyed.step (c := .deleteOne r o .automated) h
  | deleteAll => exact h.deleteAll

theorem Accounts.act (h : Accounts past (s.get? k)) (hkeyed : WellKeyed s.entities) (a : Act) :
    Accounts (past ++ (s.effect? k a).toList) ((s.act a).get? k) := by
  rw [get?_act hkeyed]
  cases s.effect? k a with
  | none => simpa using h
  | some x => exact h.append x

theorem Accounts.acts (h : Accounts past (s.get? k)) (hkeyed : WellKeyed s.entities) (as : List Act) :
    Accounts (past ++ s.effects k as) ((as.foldl LocalStore.act s).get? k) := by
  induction as generalizing s past with
  | nil => simpa [effects] using h
  | cons a as ih => simpa [effects] using ih (h.act hkeyed a) (hkeyed.act a)

theorem perform_eq (s : LocalStore) (x : Edit) : s.perform x = x.acts.foldl act s := by
  cases x with
  | insert e => rfl
  | failOn r => rfl
  | call c =>
    cases c with
    | upsertBatch es o p =>
      show (s.writeAll o es).2 = (es.map (.write · o)).foldl act s
      induction es generalizing s with
      | nil => rfl
      | cons e es ih => exact ih (s.write e o).2
    | _ => rfl

theorem edited_eq (s : LocalStore) (edits : List Edit) : s.edited edits = (edits.flatMap Edit.acts).foldl act s := by
  induction edits generalizing s with
  | nil => rfl
  | cons x edits ih =>
    rw [List.flatMap_cons, List.foldl_append, ← perform_eq]
    exact ih (s.perform x)

theorem WellKeyed.acts (h : WellKeyed s.entities) (as : List Act) : WellKeyed (as.foldl LocalStore.act s).entities := by
  induction as generalizing s with
  | nil => exact h
  | cons a as ih => exact ih (h.act a)

theorem get?_of_effects_eq_nil (hkeyed : WellKeyed s.entities) (h : s.effects k as = []) :
    (as.foldl act s).get? k = s.get? k := by
  induction as generalizing s with
  | nil => rfl
  | cons a as ih =>
    obtain ⟨ha, has⟩ := List.append_eq_nil_iff.mp h
    have hnone : s.effect? k a = none := Option.toList_eq_nil_iff.mp ha
    have hsame : (s.act a).get? k = s.get? k := by rw [get?_act hkeyed, hnone]; rfl
    exact (ih (hkeyed.act a) has).trans hsame

/-- After any edits each entity is stored under its own key, and it is made up of the writes of that key that took effect
    since the last one that replaced what was stored. What has no effect changes nothing. -/
theorem last_write_wins (s : LocalStore) (edits : List Edit) (hkeyed : WellKeyed s.entities) :
    WellKeyed (s.edited edits).entities ∧
    (∀ k e, (s.edited edits).get? k = some e ↔ LastWritten (s.history k edits) e) ∧
    ∀ x, (∀ k, (s.edited edits).effects k x.acts = []) → ((s.edited edits).perform x).entities = (s.edited edits).entities := by
  have hedited : WellKeyed (s.edited edits).entities := by
    rw [edited_eq]
    exact hkeyed.acts _
  refine ⟨hedited, fun k => ?_, fun x hx => SortedMap.ext fun k => ?_⟩
  · rw [edited_eq]
    exact (accounts_stored (s.get? k)).acts hkeyed _
  · rw [perform_eq]
    exact get?_of_effects_eq_nil hedited (hx k)

def bareApi : Entity := { identifier := "api", blueprint := "service" }

def titledApi : Entity := { Sample.service "api" with title := some "API" }

/-- A service is merged, removed, and put together again from two entities of one batch. One write only validates, and
    the last one is refused. -/
def reassembly : List Edit :=
  [.call (.upsertOne (bareApi.withProperty "owner" (.string "core")) { merge := true } .automated),
    .call (.upsertOne titledApi { merge := true, validationOnly := true } .automated),
    .call (.deleteOne bareApi.key {} .automated),
    .call (.upsertBatch [bareApi.withProperty "tier" (.string "one"), titledApi] { merge := true } .automated),
    .failOn bareApi.key, .call (.upsertOne bareApi {} .automated)]

theorem reassembly_wins :
    let s := LocalStore.ofEntities [Sample.service "api"]
    WellKeyed s.entities ∧
      (s.edited reassembly).get? bareApi.key = some (titledApi.withProperty "tier" (.string "one")) := by
  intro s
  have hkeyed : WellKeyed s.entities := (willing_ofEntities _).keyed
  have hhistory : s.history bareApi.key reassembly =
      [.replaced (Sample.service "api"), .merged (bareApi.withProperty "owner" (.string "core")), .removed] ++
        .replaced (bareApi.withProperty "tier" (.string "one")) :: [titledApi].map .merged := by cbv
  have hcombines := (Combines.single (bareApi.withProperty "tier" (.string "one"))).append titledApi
  exact ⟨hkeyed, ((last_write_wins s reassembly hkeyed).2.1 _ _).mpr ⟨_, _, _, hhistory, hcombines⟩⟩

end CatalogSync.LocalStore
