import CatalogSync.Entity.Sample
import CatalogSync.Proofs.Reconcile.Phases
import CatalogSync.Store.Scripted

/-! What a report accounts for, whatever the store answers.

A store answers for each entity that is written with a version, with an error or not at all; the first counts as
upserted, the others as failed. What disappeared is deleted, fails to be deleted or is spared. So each entity that
should be stored and each key that disappeared is told of exactly once. -/

namespace CatalogSync

/-! ### What became of the writes -/

/-- An entity that a call writes, with what the store answered about it. -/
structure Attempt where
  entity : Entity
  result? : Option (Except StoreError Entity)

namespace Attempt

def version? : Attempt → Option Entity
  | ⟨_, some (.ok version)⟩ => some version
  | ⟨_, some (.error _)⟩ => none
  | ⟨_, none⟩ => none

def failed : Attempt → Bool
  | ⟨_, some (.ok _)⟩ => false
  | ⟨_, some (.error _)⟩ => true
  | ⟨_, none⟩ => true

/-- A version that the store gave back has the key of the entity sent. -/
def Faithful (a : Attempt) : Prop := ∀ version, a.version? = some version → version.key = a.entity.key

/-- Results go by position; an entity beyond the last of them has none. -/
def ofBatch (es : List Entity) (rs : List (Except StoreError Entity)) : List Attempt :=
  es.mapIdx fun i e => ⟨e, rs[i]?⟩

variable {e : Entity} {es : List Entity} {r : Except StoreError Entity} {rs : List (Except StoreError Entity)}
  {attempts : List Attempt}

theorem ofBatch_cons_nil : ofBatch (e :: es) [] = ⟨e, none⟩ :: ofBatch es [] := by
  simp [ofBatch, List.mapIdx_cons]

theorem ofBatch_cons_cons : ofBatch (e :: es) (r :: rs) = ⟨e, some r⟩ :: ofBatch es rs := by
  simp [ofBatch, List.mapIdx_cons]

theorem map_entity_ofBatch : (ofBatch es rs).map (·.entity) = es :=
  List.ext_getElem (by simp [ofBatch]) fun i _ _ => by simp [ofBatch]

theorem length_add_length (attempts : List Attempt) :
    (attempts.filterMap version?).length + (attempts.filter failed).length = attempts.length := by
  induction attempts with
  | nil => rfl
  | cons a attempts ih =>
    rw [List.length_cons, ← ih]
    obtain ⟨e, (_ | err | v)⟩ := a
    · rfl
    · rfl
    · exact Nat.succ_add ..

/-- Each attempt comes to a version or to a failure. -/
theorem perm_keys (h : ∀ a ∈ attempts, a.Faithful) :
    (Keyed.keys (attempts.filterMap version?) ++ (attempts.filter failed).map (·.entity.key)).Perm
      (attempts.map (·.entity.key)) := by
  induction attempts with
  | nil => exact .refl _
  | cons a attempts ih =>
    obtain ⟨ha, hrest⟩ := List.forall_mem_cons.mp h
    obtain ⟨e, (_ | err | v)⟩ := a
    · exact List.perm_middle.trans ((ih hrest).cons e.key)
    · exact List.perm_middle.trans ((ih hrest).cons e.key)
    · have hkey : v.key = e.key := ha v rfl
      rw [List.map_cons, ← hkey]
      exact (ih hrest).cons v.key

end Attempt

namespace Exchange

/-- What became of the entities that a call writes. -/
def attempts : Exchange → List Attempt
  | ⟨.upsertOne e _ _, r⟩ => [⟨e, some r⟩]
  | ⟨.upsertBatch es _ _, rs⟩ => Attempt.ofBatch es rs
  | _ => []

theorem map_entity_attempts (x : Exchange) : x.attempts.map (·.entity) = x.call.entities := by
  obtain ⟨c, r⟩ := x
  cases c with
  | upsertBatch es => exact Attempt.map_entity_ofBatch
  | _ => rfl

end Exchange

namespace Reconcile

theorem map_entity_attempts (log : List Exchange) :
    (log.flatMap Exchange.attempts).map (·.entity) = log.flatMap (·.call.entities) := by
  rw [List.map_flatMap]
  exact congrArg (log.flatMap ·) (funext Exchange.map_entity_attempts)

section Writes
variable {policy : Policy} {o : CallOptions} {p : Provenance} {es : List Entity} {xs : List Exchange} {w : Written}
  {rs : List (Except StoreError Entity)}

/-- What the store answered about the entities, sorted into versions and failures. -/
def Written.ofAttempts (attempts : List Attempt) : Written where
  versions := attempts.filterMap (·.version?)
  failed := (attempts.filter (·.failed)).map (·.entity.key)

theorem ofResults_eq : Written.ofResults es rs = .ofAttempts (Attempt.ofBatch es rs) := by
  induction es generalizing rs with
  | nil => rfl
  | cons e es ih =>
    cases rs with
    | nil =>
      rw [Attempt.ofBatch_cons_nil]
      exact congrArg (fun w : Written => { w with failed := e.key :: w.failed }) ih
    | cons r rs =>
      rw [Attempt.ofBatch_cons_cons]
      cases r with
      | error err => exact congrArg (fun w : Written => { w with failed := e.key :: w.failed }) ih
      | ok v => exact congrArg (fun w : Written => { w with versions := v :: w.versions }) ih

theorem attempts_writes (h : rs.length = es.length) :
    (writes o p es rs).flatMap Exchange.attempts = Attempt.ofBatch es rs := by
  induction es generalizing rs with
  | nil => rfl
  | cons e es ih =>
    cases rs with
    | nil => cases h
    | cons r rs =>
      rw [Attempt.ofBatch_cons_cons, ← ih (Nat.succ.inj h)]
      rfl

theorem Writing.eq_ofAttempts (h : Writing policy p es xs w) : w = .ofAttempts (xs.flatMap Exchange.attempts) := by
  cases h with
  | nothing => rfl
  | batch rs => rw [ofResults_eq, List.flatMap_singleton]; rfl
  | each rs _ _ hlen => rw [ofResults_eq, attempts_writes hlen]

end Writes

section Deletes
variable {policy : Policy} {p : Provenance} {α : Type} [Linked α] {ys : List α} {xs : List Exchange} {removed : Removed}
  {rs kept preserved : List EntityRef} {as : List (Except StoreError Unit)}

theorem perm_ofReplies (h : as.length = rs.length) :
    ((Removed.ofReplies rs as).deleted ++ (Removed.ofReplies rs as).failed).Perm rs := by
  induction rs generalizing as with
  | nil => cases List.length_eq_zero_iff.mp h; exact .nil
  | cons r rs ih =>
    cases as with
    | nil => cases h
    | cons a as =>
      have ih := ih (Nat.succ.inj h)
      cases a with
      | ok u => exact ih.cons r
      | error err => exact List.perm_middle.trans (ih.cons r)

theorem Deleting.perm (h : Deleting policy p ys xs removed) :
    (removed.deleted ++ removed.failed).Perm (Keyed.keys ys) := by
  cases h with
  | nothing => exact .nil
  | batch => exact .of_eq (List.append_nil _)
  | batchFailed => exact .refl _
  | each as _ _ hlen => exact (perm_ofReplies (by simpa [Keyed.keys] using hlen)).trans (Order.perm_order.map _)

theorem perm_deletable_append_preserved (g : Guard) : (g.deletable ys ++ g.preserved ys).Perm ys := by
  simpa [Guard.deletable, Guard.preserved] using
    List.filter_append_perm (fun y => g.verdict (Keyed.key y) = .delete) ys

theorem DeletingGuarded.perm (h : DeletingGuarded policy p kept ys xs (.ok (removed, preserved))) :
    (removed.deleted ++ removed.failed ++ preserved).Perm (Keyed.keys ys) := by
  cases h with
  | nothing => exact .nil
  | guarded related _ hd =>
    refine (hd.perm.append_right _).trans ?_
    rw [Keyed.keys, Keyed.keys, ← List.map_append]
    exact (perm_deletable_append_preserved _).map _

end Deletes

/-! ### Whole runs -/

/-- A report tells once of each key that disappeared, and of no other. -/
structure DeletionsBalance {α : Type} [Keyed α] (d : Diff α) (r : Report) : Prop where
  candidates : r.candidates = (Keyed.keys d.before).countP (· ∉ Keyed.keys d.after)
  nodup : (r.deleted ++ r.failedDeletes ++ r.preserved).Nodup
  mem_iff : ∀ k, k ∈ r.deleted ++ r.failedDeletes ++ r.preserved ↔ k ∈ Keyed.keys d.before ∧ k ∉ Keyed.keys d.after

/-- Besides, it counts each entity that should be stored as upserted or as failed, as the store answered. -/
structure Balances (d : Diff Entity) (log : List Exchange) (r : Report) : Prop extends DeletionsBalance d r where
  counts : r.created + r.modified = d.after.length
  attempted : ((log.flatMap Exchange.attempts).map (·.entity)).Perm d.after
  upserts : r.upserted.length + r.failedUpserts.length = d.after.length
  failed : r.failedUpserts = ((log.flatMap Exchange.attempts).filter (·.failed)).map (·.entity.key)
  perm : (∀ a ∈ log.flatMap Exchange.attempts, a.Faithful) →
    (r.upserted ++ r.failedUpserts).Perm (Keyed.keys d.after)

section Whole
variable {policy : Policy} {p : Provenance} {log : List Exchange} {report : Report}

theorem length_changes {α : Type} [Keyed α] {d : Diff α} :
    d.changes.created.length + d.changes.modified.length = d.after.length := by
  rw [← List.length_append]
  exact perm_kept.length_eq

theorem length_deleted {α : Type} [Keyed α] {d : Diff α} :
    d.changes.deleted.length = (Keyed.keys d.before).countP (· ∉ Keyed.keys d.after) := by
  show _ = (d.before.map Keyed.key).countP _
  rw [List.countP_map, List.countP_eq_length_filter]
  rfl

theorem DeletionsBalance.of_perm {α : Type} [Keyed α] {d : Diff α} (hfault : fault? d = none)
    (hcandidates : report.candidates = d.changes.deleted.length)
    (h : (report.deleted ++ report.failedDeletes ++ report.preserved).Perm (Keyed.keys d.changes.deleted)) :
    DeletionsBalance d report where
  candidates := hcandidates.trans length_deleted
  nodup := h.nodup_iff.mpr (nodup_keys_deleted (nodup_of_fault?_eq_none hfault).1)
  mem_iff _ := h.mem_iff.trans mem_keys_deleted

theorem DeletingGuarded.attempts_eq {α : Type} [Linked α] {ys : List α} {kept : List EntityRef}
    {outcome : Except StoreError (Removed × List EntityRef)} (h : DeletingGuarded policy p kept ys log outcome) :
    log.flatMap Exchange.attempts = [] := by
  rw [← List.map_eq_nil_iff (f := Attempt.entity), map_entity_attempts]
  cases h with
  | nothing => rfl
  | lookupFailed => rfl
  | guarded related _ hd =>
    rw [List.flatMap_cons, ← List.flatMap_map, hd.map_call, entities_deleteCalls]
    rfl

theorem Applying.balances {d : Diff Entity} (h : Applying policy p d log (.ok report)) : Balances d log report := by
  have honce := h.inPhases.once
  cases h with
  | @applied us ds w removed preserved hfault hw hd =>
    have hattempts : (us ++ ds).flatMap Exchange.attempts = us.flatMap Exchange.attempts := by
      rw [List.flatMap_append, hd.attempts_eq, List.append_nil]
    have hattempted : (((us ++ ds).flatMap Exchange.attempts).map (·.entity)).Perm d.after := by
      rw [map_entity_attempts]
      exact honce hfault
    rw [hw.eq_ofAttempts, ← hattempts]
    refine { DeletionsBalance.of_perm hfault rfl hd.perm with
      counts := length_changes, attempted := hattempted, upserts := ?_, failed := rfl, perm := fun h => ?_ }
    · have hlen := Attempt.length_add_length ((us ++ ds).flatMap Exchange.attempts)
      rw [← hattempted.length_eq, List.length_map, ← hlen]
      simp [Written.ofAttempts, Keyed.keys]
    · have hkeys := hattempted.map Entity.key
      rw [List.map_map] at hkeys
      exact (Attempt.perm_keys h).trans hkeys

theorem Removing.balances {d : Diff EntityRef} (h : Removing policy p d log (.ok report)) :
    DeletionsBalance d report ∧ report.upserted = [] ∧ report.failedUpserts = [] := by
  cases h with
  | nothing hfault hnil =>
    refine ⟨.of_perm hfault rfl ?_, rfl, rfl⟩
    rw [hnil]
    exact .nil
  | removed hfault _ hd => exact ⟨.of_perm hfault rfl hd.perm, rfl, rfl⟩

end Whole

/-- Over any store and from any state of it, the report of a run accounts for the whole diff. -/
theorem reports_balance {σ : Type} (store : Store (StateM σ)) (s : σ) (policy : Policy) (p : Provenance) :
    (∀ (d : Diff Entity) report log t,
      ((apply store.noted policy d p).run []).run s = ((.ok report, log), t) → Balances d log report) ∧
    ∀ (d : Diff EntityRef) report log t,
      ((delete store.noted policy d p).run []).run s = ((.ok report, log), t) →
        DeletionsBalance d report ∧ report.upserted = [] ∧ report.failedUpserts = [] := by
  constructor
  · intro d report log t hreport
    obtain ⟨log', result, t', hrun, happ⟩ := exists_applying_noted store s policy p d
    cases hrun.symm.trans hreport
    exact happ.balances
  · intro d report log t hreport
    obtain ⟨log', result, t', hrun, hrem⟩ := exists_removing_noted store s policy p d
    cases hrun.symm.trans hreport
    exact hrem.balances

/-- Three services make way for three others. -/
def turnover : Diff Entity := ⟨["a", "b", "c"].map Sample.service, ["x", "y", "z"].map Sample.service⟩

/-- The store gives one version back under another key, refuses one entity, forgets one, and knows of one relation. -/
def forgetful : Script :=
  ⟨[{ results := some [.stored (Sample.service "w"), .failed (.notFound "y")] }, { related := [Sample.serviceRef "b"] }]⟩

theorem turnover_balances : ∃ report log t,
    ((apply Store.scripted.noted {} turnover .automated).run []).run forgetful = ((.ok report, log), t) ∧
    report.upserted = [Sample.serviceRef "w"] ∧ report.failedUpserts = ["y", "z"].map Sample.serviceRef ∧
    report.deleted = ["a", "c"].map Sample.serviceRef ∧ report.preserved = [Sample.serviceRef "b"] ∧
    Balances turnover log report := by
  let run := ((apply Store.scripted.noted {} turnover .automated).run []).run forgetful
  obtain ⟨report, hok, hupserted, hfailed, hdeleted, hpreserved⟩ : ∃ report, run.1.1 = .ok report ∧
      report.upserted = [Sample.serviceRef "w"] ∧ report.failedUpserts = ["y", "z"].map Sample.serviceRef ∧
      report.deleted = ["a", "c"].map Sample.serviceRef ∧ report.preserved = [Sample.serviceRef "b"] :=
    ⟨_, rfl, by decide +kernel, by decide +kernel, by decide +kernel, by decide +kernel⟩
  have hrun : run = ((.ok report, run.1.2), run.2) := Prod.ext (Prod.ext hok rfl) rfl
  exact ⟨report, _, _, hrun, hupserted, hfailed, hdeleted, hpreserved,
    (reports_balance Store.scripted forgetful {} .automated).1 turnover report _ _ hrun⟩

end Reconcile
end CatalogSync
