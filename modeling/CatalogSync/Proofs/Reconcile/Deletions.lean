import CatalogSync.Proofs.Changes
import CatalogSync.Proofs.Order.Dependencies
import CatalogSync.Proofs.Reconcile.Course

/-! Which keys a run deletes, whatever the store answers: exactly those that disappeared, less those of the versions
that it gave back for the writes and, if it creates what is missing, less those that it names as related. A run
that fails deletes nothing. -/

namespace CatalogSync

/-! ### What was said -/

namespace Call

/-- The keys that a call asks to delete. -/
def deletes : Call → List EntityRef
  | deleteOne r _ _ => [r]
  | deleteBatch rs _ _ => rs
  | _ => []

end Call

namespace Exchange

/-- The keys of the versions that were stored; results beyond the entities sent do not count. -/
def written : Exchange → List EntityRef
  | ⟨.upsertOne .., .ok version⟩ => [version.key]
  | ⟨.upsertBatch es _ _, results⟩ => (results.take es.length).flatMap fun r => (r.toOption.map Entity.key).toList
  | _ => []

/-- The keys that were named as related. -/
def related : Exchange → List EntityRef
  | ⟨.related _, .ok rs⟩ => rs
  | _ => []

end Exchange

namespace Reconcile

/-! ### Writes -/

section Writes
variable {policy : Policy} {o : CallOptions} {p : Provenance} {es : List Entity} {xs : List Exchange} {w : Written}
  {rs : List (Except StoreError Entity)}

theorem versions_ofResults : Keyed.keys (Written.ofResults es rs).versions =
    (rs.take es.length).flatMap fun r => (r.toOption.map Entity.key).toList := by
  induction es generalizing rs with
  | nil => simp [Written.ofResults, Keyed.keys]
  | cons e es ih =>
    cases rs with
    | nil =>
      have hnone := @ih []
      simpa [Written.ofResults] using hnone
    | cons r rs =>
      rw [List.length_cons, List.take_succ_cons, List.flatMap_cons, ← ih]
      cases r <;> rfl

theorem written_writes (h : rs.length = es.length) :
    (writes o p es rs).flatMap Exchange.written = Keyed.keys (Written.ofResults es rs).versions := by
  induction es generalizing rs with
  | nil => simp [writes, Written.ofResults, Keyed.keys]
  | cons e es ih =>
    cases rs with
    | nil => cases h
    | cons r rs =>
      have := ih (Nat.succ.inj h)
      simp only [writes, List.zipWith_cons_cons, List.flatMap_cons] at this ⊢
      rw [this]
      cases r <;> rfl

/-- Writes only write. -/
structure OnlyWrites (xs : List Exchange) : Prop where
  deletes : xs.flatMap (·.call.deletes) = []
  related : xs.flatMap Exchange.related = []

theorem onlyWrites_writes : OnlyWrites (writes o p es rs) := by
  induction es generalizing rs with
  | nil => exact ⟨rfl, rfl⟩
  | cons e es ih =>
    cases rs with
    | nil => exact ⟨rfl, rfl⟩
    | cons r rs =>
      obtain ⟨hd, hr⟩ := @ih rs
      exact ⟨hd, hr⟩

theorem Writing.onlyWrites (h : Writing policy p es xs w) : OnlyWrites xs := by
  cases h with
  | nothing => exact ⟨rfl, rfl⟩
  | batch => exact ⟨rfl, rfl⟩
  | each => exact onlyWrites_writes

theorem Writing.written_eq (h : Writing policy p es xs w) :
    xs.flatMap Exchange.written = Keyed.keys w.versions := by
  cases h with
  | nothing => rfl
  | batch rs => rw [versions_ofResults, List.flatMap_cons, List.flatMap_nil, List.append_nil]; rfl
  | each rs _ _ hlen => exact written_writes hlen

end Writes

/-! ### Deletes -/

section Deletes
variable {policy : Policy} {o : CallOptions} {p : Provenance} {α : Type} [Linked α] {ys : List α} {xs : List Exchange}
  {removed : Removed} {rs : List EntityRef} {as : List (Except StoreError Unit)} {k : EntityRef}

/-- Deletes write nothing and ask for nothing. -/
structure OnlyDeletes (xs : List Exchange) : Prop where
  written : xs.flatMap Exchange.written = []
  related : xs.flatMap Exchange.related = []

theorem onlyDeletes_deletes : OnlyDeletes (deletes o p rs as) := by
  induction rs generalizing as with
  | nil => exact ⟨rfl, rfl⟩
  | cons r rs ih =>
    cases as with
    | nil => exact ⟨rfl, rfl⟩
    | cons a as =>
      obtain ⟨hw, hr⟩ := @ih as
      exact ⟨hw, hr⟩

theorem deletes_deletes (h : as.length = rs.length) : (deletes o p rs as).flatMap (·.call.deletes) = rs := by
  induction rs generalizing as with
  | nil => rfl
  | cons r rs ih =>
    cases as with
    | nil => cases h
    | cons a as => exact congrArg (r :: ·) (ih (Nat.succ.inj h))

theorem Deleting.onlyDeletes (h : Deleting policy p ys xs removed) : OnlyDeletes xs := by
  cases h with
  | nothing => exact ⟨rfl, rfl⟩
  | batch => exact ⟨rfl, rfl⟩
  | batchFailed => exact ⟨rfl, rfl⟩
  | each => exact onlyDeletes_deletes

theorem Deleting.perm_deletes (h : Deleting policy p ys xs removed) :
    (xs.flatMap (·.call.deletes)).Perm (Keyed.keys ys) := by
  cases h with
  | nothing => exact .refl _
  | batch => exact .of_eq (List.append_nil _)
  | batchFailed => exact .of_eq (List.append_nil _)
  | each as _ _ hlen =>
    rw [deletes_deletes (by simpa [Keyed.keys] using hlen)]
    exact Order.perm_order.map _

/-- Not kept, and not related where that counts. -/
theorem verdict_eq_delete_iff {g : Guard} :
    g.verdict k = .delete ↔ k ∉ g.kept ∧ ¬ (g.sparesRelated ∧ k ∈ g.related) := by
  unfold Guard.verdict
  by_cases hk : k ∈ g.kept
  · simp [hk]
  · by_cases hr : k ∈ g.related ∧ g.sparesRelated
    · simp [hk, hr]
    · rw [if_neg hk, if_neg hr]
      exact ⟨fun _ => ⟨hk, fun h => hr h.symm⟩, fun _ => rfl⟩

theorem mem_keys_deletable {g : Guard} :
    k ∈ Keyed.keys (g.deletable ys) ↔ k ∈ Keyed.keys ys ∧ k ∉ g.kept ∧ ¬ (g.sparesRelated ∧ k ∈ g.related) := by
  rw [← verdict_eq_delete_iff, Keyed.keys, Keyed.keys, List.mem_map, List.mem_map]
  simp only [Guard.deletable, List.mem_filter, decide_eq_true_eq]
  constructor
  · rintro ⟨x, ⟨hx, hv⟩, rfl⟩
    exact ⟨⟨x, hx, rfl⟩, hv⟩
  · rintro ⟨⟨x, hx, rfl⟩, hv⟩
    exact ⟨x, ⟨hx, hv⟩, rfl⟩

theorem DeletingGuarded.written_eq {kept : List EntityRef} {result : Except StoreError (Removed × List EntityRef)}
    (h : DeletingGuarded policy p kept ys xs result) : xs.flatMap Exchange.written = [] := by
  cases h with
  | nothing => rfl
  | lookupFailed => rfl
  | guarded _ _ hd => exact hd.onlyDeletes.written

theorem DeletingGuarded.deletes_of_error {kept : List EntityRef} {err : StoreError}
    (h : DeletingGuarded policy p kept ys xs (.error err)) : xs.flatMap (·.call.deletes) = [] := by
  cases h
  rfl

theorem DeletingGuarded.deletes_of_ok {kept : List EntityRef} {result : Removed × List EntityRef}
    (h : DeletingGuarded policy p kept ys xs (.ok result)) (hn : (Keyed.keys ys).Nodup) :
    (xs.flatMap (·.call.deletes)).Nodup ∧ ∀ k, k ∈ xs.flatMap (·.call.deletes) ↔
      k ∈ Keyed.keys ys ∧ k ∉ kept ∧ ¬ (policy.autoCreateRelated ∧ k ∈ xs.flatMap Exchange.related) := by
  cases h with
  | nothing => simp [Keyed.keys]
  | @guarded _ related xs removed _ hd =>
    rw [List.flatMap_cons, List.flatMap_cons, hd.onlyDeletes.related, List.append_nil]
    have hperm := hd.perm_deletes
    refine ⟨hperm.nodup_iff.mpr (hn.sublist (List.filter_sublist.map _)), fun k => ?_⟩
    exact hperm.mem_iff.trans mem_keys_deletable

end Deletes

/-! ### Whole runs -/

/-- By what the store has said, this key may go. -/
def MayGo {α : Type} [Keyed α] (policy : Policy) (d : Diff α) (log : List Exchange) (k : EntityRef) : Prop :=
  k ∈ Keyed.keys d.before ∧ k ∉ Keyed.keys d.after ∧ k ∉ log.flatMap Exchange.written ∧
    ¬ (policy.autoCreateRelated ∧ k ∈ log.flatMap Exchange.related)

/-- A run that succeeds asks once to delete each key that may go; one that fails asks to delete nothing. -/
def DeletesWhatMayGo {α : Type} [Keyed α] (policy : Policy) (d : Diff α) (log : List Exchange) :
    Except ReconcileError Report → Prop
  | .ok _ => (log.flatMap (·.call.deletes)).Nodup ∧ ∀ k, k ∈ log.flatMap (·.call.deletes) ↔ MayGo policy d log k
  | .error _ => log.flatMap (·.call.deletes) = []

section Whole
variable {policy : Policy} {p : Provenance} {log : List Exchange} {result : Except ReconcileError Report}

theorem nodup_of_fault?_eq_none {α : Type} [Keyed α] {d : Diff α} (h : fault? d = none) :
    (Keyed.keys d.before).Nodup ∧ (Keyed.keys d.after).Nodup := by
  obtain ⟨hb, ha⟩ := Option.or_eq_none_iff.mp h
  exact ⟨(fault?_eq_none_iff.mp hb).2, (fault?_eq_none_iff.mp ha).2⟩

theorem Applying.deletesWhatMayGo {d : Diff Entity} (h : Applying policy p d log result) :
    DeletesWhatMayGo policy d log result := by
  cases h with
  | invalid => rfl
  | lookupFailed err _ hw hd =>
    show List.flatMap _ _ = []
    rw [List.flatMap_append, hw.onlyWrites.deletes, hd.deletes_of_error, List.append_nil]
  | applied hfault hw hd =>
    obtain ⟨hn, hmem⟩ := hd.deletes_of_ok (nodup_keys_deleted (nodup_of_fault?_eq_none hfault).1)
    simp only [DeletesWhatMayGo, MayGo, List.flatMap_append, hw.onlyWrites.deletes, hw.onlyWrites.related, hw.written_eq,
      hd.written_eq, List.nil_append, List.append_nil]
    refine ⟨hn, fun k => ?_⟩
    rw [hmem k, mem_keys_deleted, and_assoc]

theorem Removing.deletesWhatMayGo {d : Diff EntityRef} (h : Removing policy p d log result) :
    DeletesWhatMayGo policy d log result := by
  cases h with
  | invalid => rfl
  | nothing _ hnil =>
    refine ⟨.nil, fun k => ⟨fun h => absurd h List.not_mem_nil, fun ⟨hb, ha, _⟩ => ?_⟩⟩
    have := mem_keys_deleted.mpr ⟨hb, ha⟩
    rwa [hnil] at this
  | lookupFailed err _ _ hd => exact hd.deletes_of_error
  | removed hfault _ hd =>
    obtain ⟨hn, hmem⟩ := hd.deletes_of_ok (nodup_keys_deleted (nodup_of_fault?_eq_none hfault).1)
    refine ⟨hn, fun k => ?_⟩
    have hkept : k ∈ d.changes.kept ↔ k ∈ Keyed.keys d.after := by
      rw [← mem_keys_kept, Keyed.keys]
      exact (List.map_id' _).symm ▸ Iff.rfl
    rw [hmem k, mem_keys_deleted, MayGo, hd.written_eq, hkept]
    simp only [List.not_mem_nil, not_false_eq_true, true_and]
    tauto

end Whole

/-- Over any store and from any state of it, runs ask to delete exactly what may go. -/
theorem deletes_what_may_go {σ : Type} (store : Store (StateM σ)) (s : σ) (policy : Policy) (p : Provenance) :
    (∀ d : Diff Entity,
      let ((result, log), _) := ((apply store.noted policy d p).run []).run s
      DeletesWhatMayGo policy d log result) ∧
    ∀ d : Diff EntityRef,
      let ((result, log), _) := ((delete store.noted policy d p).run []).run s
      DeletesWhatMayGo policy d log result := by
  constructor
  · intro d
    obtain ⟨log, result, t, hrun, hgoes, -⟩ := Dialogue.exists_goes_noted store (apply Dialogue.store policy d p) [] s
    rw [hold_apply] at hrun
    rw [hrun]
    exact (applying_of_goes hgoes).deletesWhatMayGo
  · intro d
    obtain ⟨log, result, t, hrun, hgoes, -⟩ := Dialogue.exists_goes_noted store (delete Dialogue.store policy d p) [] s
    rw [hold_delete] at hrun
    rw [hrun]
    exact (removing_of_goes hgoes).deletesWhatMayGo

end Reconcile
end CatalogSync
