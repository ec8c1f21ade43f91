import CatalogSync.Proofs.Dialogue
import CatalogSync.Reconcile.Run

/-! The course of a run: which calls it makes, in terms of what the store answers, and what it makes of the answers.

Each part of a run is the same dialogue over every store; the ways in which it can go are given by one relation
for each part. -/

namespace CatalogSync.Reconcile
open Dialogue

/-! ### The same run over every store -/

section Hold
variable {m : Type → Type} [Monad m] [LawfulMonad m] [Reporting m] (store : Store m) (policy : Policy) (o : CallOptions)
  (p : Provenance) {α : Type} [Linked α]

theorem hold_upsertEach (es : List Entity) :
    (upsertEach Dialogue.store o p es).hold store = upsertEach store o p es := by
  induction es with
  | nil => rfl
  | cons e es ih => simp [upsertEach, ih]

theorem hold_upsertAll (es : List Entity) :
    (upsertAll Dialogue.store policy es p).hold store = upsertAll store policy es p := by
  unfold upsertAll
  split
  · simp
  · split <;> simp [hold_upsertEach]

theorem hold_deleteEach (rs : List EntityRef) :
    (deleteEach Dialogue.store o p rs).hold store = deleteEach store o p rs := by
  induction rs with
  | nil => rfl
  | cons r rs ih =>
    simp only [deleteEach, hold_bind, hold_deleteOne]
    refine congrArg _ (funext fun a => ?_)
    cases a <;> simp [ih]

theorem hold_deleteAll (xs : List α) :
    (deleteAll Dialogue.store policy xs p).hold store = deleteAll store policy xs p := by
  unfold deleteAll
  split
  · simp
  · split
    · simp only [hold_bind, hold_report, hold_deleteBatch]
      refine congrArg _ (funext fun _ => congrArg _ (funext fun a => ?_))
      cases a <;> simp
    · simp [hold_deleteEach]

theorem hold_deleteGuarded (xs : List α) (kept : List EntityRef) :
    (deleteGuarded Dialogue.store policy xs kept p).hold store = deleteGuarded store policy xs kept p := by
  unfold deleteGuarded
  split
  · simp
  · simp only [hold_bind, hold_related]
    refine congrArg _ (funext fun a => ?_)
    cases a <;> simp [hold_deleteAll]

theorem hold_apply (d : Diff Entity) : (apply Dialogue.store policy d p).hold store = apply store policy d p := by
  unfold apply
  split
  · simp
  · simp only [hold_bind, hold_report, hold_upsertAll, hold_deleteGuarded]
    refine congrArg _ (funext fun _ => congrArg _ (funext fun w => congrArg _ (funext fun a => ?_)))
    cases a <;> simp

theorem hold_delete (d : Diff EntityRef) : (delete Dialogue.store policy d p).hold store = delete store policy d p := by
  unfold delete
  split
  · simp
  · dsimp only
    split
    · simp
    · simp only [hold_bind, hold_report, hold_deleteGuarded]
      refine congrArg _ (funext fun _ => congrArg _ (funext fun a => ?_))
      cases a <;> simp

end Hold

/-! ### Writing -/

section Writing
variable {policy : Policy} {o : CallOptions} {p : Provenance} {es : List Entity} {xs : List Exchange}

/-- One call for each entity. -/
def writes (o : CallOptions) (p : Provenance) (es : List Entity) (rs : List (Except StoreError Entity)) :
    List Exchange :=
  List.zipWith (fun e r => ⟨.upsertOne e o p, r⟩) es rs

theorem goes_upsertEach {rs : List (Except StoreError Entity)} (h : Goes (upsertEach Dialogue.store o p es) xs rs) :
    rs.length = es.length ∧ xs = writes o p es rs := by
  induction es generalizing xs rs with
  | nil =>
    obtain ⟨rfl, rfl⟩ := goes_pure h
    exact ⟨rfl, rfl⟩
  | cons e es ih =>
    obtain ⟨ys, zs, r, rfl, hr, h⟩ := goes_bind h
    obtain ⟨vs, ws, u, rfl, hu, h⟩ := goes_bind h
    obtain ⟨ys', zs', rest, rfl, hrest, h⟩ := goes_bind h
    obtain ⟨rfl, rfl⟩ := goes_pure h
    obtain ⟨hlen, rfl⟩ := ih hrest
    rw [goes_ask hr, goes_reportAll hu]
    exact ⟨by simp [hlen], by simp [writes]⟩

/-- How `es` are written: in one call, or in one for each, and what became of them. -/
inductive Writing (policy : Policy) (p : Provenance) : List Entity → List Exchange → Written → Prop
  | nothing : Writing policy p [] [] {}
  | batch {es : List Entity} (rs : List (Except StoreError Entity)) : es ≠ [] → policy.autoCreateRelated = true →
      Writing policy p es [⟨.upsertBatch es policy.callOptions p, rs⟩] (.ofResults es rs)
  | each {es : List Entity} (rs : List (Except StoreError Entity)) : es ≠ [] → policy.autoCreateRelated = false →
      rs.length = (order .creation es).length →
      Writing policy p es (writes policy.callOptions p (order .creation es) rs) (.ofResults (order .creation es) rs)

theorem writing_of_goes {w : Written} (h : Goes (upsertAll Dialogue.store policy es p) xs w) :
    Writing policy p es xs w := by
  unfold upsertAll at h
  split at h
  · rename_i hes
    obtain ⟨rfl, rfl⟩ := goes_pure h
    rw [List.isEmpty_iff.mp hes]
    exact .nothing
  · rename_i hes
    rw [List.isEmpty_iff] at hes
    obtain ⟨ys, zs, u, rfl, hu, h⟩ := goes_bind h
    rw [goes_report hu, List.nil_append]
    split at h
    · rename_i hauto
      obtain ⟨ys, zs, rs, rfl, hrs, h⟩ := goes_bind h
      obtain ⟨vs, ws, u, rfl, hu, h⟩ := goes_bind h
      obtain ⟨rfl, rfl⟩ := goes_pure h
      rw [goes_ask hrs, goes_reportAll hu]
      exact .batch rs hes hauto
    · rename_i hauto
      obtain ⟨ys, zs, u, rfl, hu, h⟩ := goes_bind h
      obtain ⟨vs, ws, u', rfl, hu', h⟩ := goes_bind h
      obtain ⟨ys', zs', rs, rfl, hrs, h⟩ := goes_bind h
      obtain ⟨rfl, rfl⟩ := goes_pure h
      obtain ⟨hlen, rfl⟩ := goes_upsertEach hrs
      rw [goes_report hu, goes_reportAll hu', List.nil_append, List.nil_append, List.append_nil]
      exact .each rs hes (by simpa using hauto) hlen

end Writing

/-! ### Deleting -/

section Deleting
variable {policy : Policy} {o : CallOptions} {p : Provenance} {α : Type} [Linked α] {ys : List α} {xs : List Exchange}
  {rs : List EntityRef}

/-- One call for each key. -/
def deletes (o : CallOptions) (p : Provenance) (rs : List EntityRef) (as : List (Except StoreError Unit)) :
    List Exchange :=
  List.zipWith (fun r a => ⟨.deleteOne r o p, a⟩) rs as

/-- What became of the keys. -/
def Removed.ofReplies : List EntityRef → List (Except StoreError Unit) → Removed
  | r :: rs, .ok _ :: as => { ofReplies rs as with deleted := r :: (ofReplies rs as).deleted }
  | r :: rs, .error _ :: as => { ofReplies rs as with failed := r :: (ofReplies rs as).failed }
  | _, _ => {}

theorem goes_deleteEach {removed : Removed} (h : Goes (deleteEach Dialogue.store o p rs) xs removed) :
    ∃ as, as.length = rs.length ∧ xs = deletes o p rs as ∧ removed = .ofReplies rs as := by
  induction rs generalizing xs removed with
  | nil =>
    obtain ⟨rfl, rfl⟩ := goes_pure h
    exact ⟨[], rfl, rfl, rfl⟩
  | cons r rs ih =>
    obtain ⟨ys, zs, a, rfl, ha, h⟩ := goes_bind h
    rw [goes_ask ha]
    cases a with
    | ok u =>
      obtain ⟨ys', zs', rest, rfl, hrest, h⟩ := goes_bind h
      obtain ⟨rfl, rfl⟩ := goes_pure h
      obtain ⟨as, hlen, rfl, rfl⟩ := ih hrest
      exact ⟨.ok u :: as, by simp [hlen], by simp [deletes], rfl⟩
    | error err =>
      obtain ⟨ys', zs', u, rfl, hu, h⟩ := goes_bind h
      obtain ⟨vs, ws, rest, rfl, hrest, h⟩ := goes_bind h
      obtain ⟨rfl, rfl⟩ := goes_pure h
      obtain ⟨as, hlen, rfl, rfl⟩ := ih hrest
      rw [goes_report hu]
      exact ⟨.error err :: as, by simp [hlen], by simp [deletes], rfl⟩

/-- How `ys` are deleted: in one call, or in one for each, and what became of them. -/
inductive Deleting (policy : Policy) (p : Provenance) : List α → List Exchange → Removed → Prop
  | nothing : Deleting policy p [] [] {}
  | batch {ys : List α} : ys ≠ [] → policy.cascadeDeletes = true →
      Deleting policy p ys [⟨.deleteBatch (Keyed.keys ys) policy.callOptions p, .ok ()⟩] { deleted := Keyed.keys ys }
  | batchFailed {ys : List α} (err : StoreError) : ys ≠ [] → policy.cascadeDeletes = true →
      Deleting policy p ys [⟨.deleteBatch (Keyed.keys ys) policy.callOptions p, .error err⟩]
        { failed := Keyed.keys ys }
  | each {ys : List α} (as : List (Except StoreError Unit)) : ys ≠ [] → policy.cascadeDeletes = false →
      as.length = (order .deletion ys).length →
      Deleting policy p ys (deletes policy.callOptions p (Keyed.keys (order .deletion ys)) as)
        (.ofReplies (Keyed.keys (order .deletion ys)) as)

theorem deleting_of_goes {removed : Removed} (h : Goes (deleteAll Dialogue.store policy ys p) xs removed) :
    Deleting policy p ys xs removed := by
  unfold deleteAll at h
  split at h
  · rename_i hys
    obtain ⟨rfl, rfl⟩ := goes_pure h
    rw [List.isEmpty_iff.mp hys]
    exact .nothing
  · rename_i hys
    rw [List.isEmpty_iff] at hys
    obtain ⟨vs, zs, u, rfl, hu, h⟩ := goes_bind h
    rw [goes_report hu, List.nil_append]
    split at h
    · rename_i hcascade
      obtain ⟨vs, zs, a, rfl, ha, h⟩ := goes_bind h
      rw [goes_ask ha]
      cases a with
      | ok u =>
        obtain ⟨rfl, rfl⟩ := goes_pure h
        exact .batch hys hcascade
      | error err =>
        obtain ⟨vs, zs, u, rfl, hu, h⟩ := goes_bind h
        obtain ⟨rfl, rfl⟩ := goes_pure h
        rw [goes_report hu]
        exact .batchFailed err hys hcascade
    · rename_i hcascade
      obtain ⟨vs, zs, u, rfl, hu, h⟩ := goes_bind h
      obtain ⟨as, hlen, rfl, rfl⟩ := goes_deleteEach h
      rw [goes_reportAll hu, List.nil_append]
      exact .each as hys (by simpa using hcascade) (by simpa [Keyed.keys] using hlen)

/-- How the candidates `ys` are deleted unless the guard spares them. -/
inductive DeletingGuarded (policy : Policy) (p : Provenance) (kept : List EntityRef) :
    List α → List Exchange → Except StoreError (Removed × List EntityRef) → Prop
  | nothing : DeletingGuarded policy p kept [] [] (.ok ({}, []))
  | lookupFailed {ys : List α} (err : StoreError) : ys ≠ [] →
      DeletingGuarded policy p kept ys [⟨.related kept, .error err⟩] (.error err)
  | guarded {ys : List α} (related : List EntityRef) {xs : List Exchange} {removed : Removed} : ys ≠ [] →
      Deleting policy p (Guard.deletable ⟨kept, related, policy.autoCreateRelated⟩ ys) xs removed →
      DeletingGuarded policy p kept ys (⟨.related kept, .ok related⟩ :: xs)
        (.ok (removed, Keyed.keys (Guard.preserved ⟨kept, related, policy.autoCreateRelated⟩ ys)))

theorem deletingGuarded_of_goes {kept : List EntityRef} {result : Except StoreError (Removed × List EntityRef)}
    (h : Goes (deleteGuarded Dialogue.store policy ys kept p) xs result) :
    DeletingGuarded policy p kept ys xs result := by
  unfold deleteGuarded at h
  split at h
  · rename_i hys
    obtain ⟨rfl, rfl⟩ := goes_pure h
    rw [List.isEmpty_iff.mp hys]
    exact .nothing
  · rename_i hys
    rw [List.isEmpty_iff] at hys
    obtain ⟨vs, zs, a, rfl, ha, h⟩ := goes_bind h
    rw [goes_ask ha]
    cases a with
    | error err =>
      obtain ⟨rfl, rfl⟩ := goes_pure h
      exact .lookupFailed err hys
    | ok related =>
      obtain ⟨vs, zs, u, rfl, hu, h⟩ := goes_bind h
      obtain ⟨vs', zs', removed, rfl, hremoved, h⟩ := goes_bind h
      obtain ⟨rfl, rfl⟩ := goes_pure h
      rw [goes_reportAll hu, List.nil_append, List.append_nil]
      exact .guarded related hys (deleting_of_goes hremoved)

end Deleting

/-! ### Whole runs -/

section Whole
variable {policy : Policy} {p : Provenance} {xs : List Exchange} {result : Except ReconcileError Report}

/-- What a run has counted before it calls the store. -/
def counted {α : Type} (c : Changes α) (p : Provenance) : Report where
  provenance := p
  created := c.created.length
  modified := c.modified.length
  candidates := c.deleted.length

/-- How a diff of entities is applied: it is written, then what disappeared is deleted. -/
inductive Applying (policy : Policy) (p : Provenance) (d : Diff Entity) :
    List Exchange → Except ReconcileError Report → Prop
  | invalid (fault : Fault) : fault? d = some fault → Applying policy p d [] (.error (.invalid fault))
  | lookupFailed {us ds : List Exchange} {w : Written} (err : StoreError) : fault? d = none →
      Writing policy p d.changes.kept us w →
      DeletingGuarded policy p (Keyed.keys w.versions) d.changes.deleted ds (.error err) →
      Applying policy p d (us ++ ds) (.error (.relatedLookup err))
  | applied {us ds : List Exchange} {w : Written} {removed : Removed} {preserved : List EntityRef} :
      fault? d = none → Writing policy p d.changes.kept us w →
      DeletingGuarded policy p (Keyed.keys w.versions) d.changes.deleted ds (.ok (removed, preserved)) →
      Applying policy p d (us ++ ds) (.ok { counted d.changes p with
        upserted := Keyed.keys w.versions, failedUpserts := w.failed
        deleted := removed.deleted, failedDeletes := removed.failed, preserved })

theorem applying_of_goes {d : Diff Entity} (h : Goes (apply Dialogue.store policy d p) xs result) :
    Applying policy p d xs result := by
  unfold apply at h
  split at h
  · rename_i fault hfault
    obtain ⟨rfl, rfl⟩ := goes_pure h
    exact .invalid fault hfault
  · rename_i hfault
    have hnone : fault? d = none := Option.eq_none_iff_forall_ne_some.mpr hfault
    obtain ⟨vs, zs, u, rfl, hu, h⟩ := goes_bind h
    obtain ⟨us, zs', w, rfl, hw, h⟩ := goes_bind h
    obtain ⟨ds, vs', a, rfl, ha, h⟩ := goes_bind h
    rw [goes_report hu, List.nil_append]
    cases a with
    | error err =>
      obtain ⟨rfl, rfl⟩ := goes_pure h
      rw [List.append_nil]
      exact .lookupFailed err hnone (writing_of_goes hw) (deletingGuarded_of_goes ha)
    | ok a =>
      obtain ⟨vs'', ws, u', rfl, hu', h⟩ := goes_bind h
      obtain ⟨rfl, rfl⟩ := goes_pure h
      rw [goes_report hu', List.append_nil, List.append_nil]
      exact .applied hnone (writing_of_goes hw) (deletingGuarded_of_goes ha)

/-- How a diff of references is applied: what disappeared is deleted. -/
inductive Removing (policy : Policy) (p : Provenance) (d : Diff EntityRef) :
    List Exchange → Except ReconcileError Report → Prop
  | invalid (fault : Fault) : fault? d = some fault → Removing policy p d [] (.error (.invalid fault))
  | nothing : fault? d = none → d.changes.deleted = [] → Removing policy p d [] (.ok (counted d.changes p))
  | lookupFailed {ds : List Exchange} (err : StoreError) : fault? d = none → d.changes.deleted ≠ [] →
      DeletingGuarded policy p d.changes.kept d.changes.deleted ds (.error err) →
      Removing policy p d ds (.error (.relatedLookup err))
  | removed {ds : List Exchange} {removed : Removed} {preserved : List EntityRef} : fault? d = none →
      d.changes.deleted ≠ [] →
      DeletingGuarded policy p d.changes.kept d.changes.deleted ds (.ok (removed, preserved)) →
      Removing policy p d ds (.ok { counted d.changes p with
        deleted := removed.deleted, failedDeletes := removed.failed, preserved })

theorem removing_of_goes {d : Diff EntityRef} (h : Goes (delete Dialogue.store policy d p) xs result) :
    Removing policy p d xs result := by
  unfold delete at h
  split at h
  · rename_i fault hfault
    obtain ⟨rfl, rfl⟩ := goes_pure h
    exact .invalid fault hfault
  · rename_i hfault
    have hnone : fault? d = none := Option.eq_none_iff_forall_ne_some.mpr hfault
    dsimp only at h
    split at h
    · rename_i hempty
      obtain ⟨vs, zs, u, rfl, hu, h⟩ := goes_bind h
      obtain ⟨rfl, rfl⟩ := goes_pure h
      rw [goes_report hu]
      exact .nothing hnone (List.isEmpty_iff.mp hempty)
    · rename_i hne
      rw [List.isEmpty_iff] at hne
      obtain ⟨vs, zs, u, rfl, hu, h⟩ := goes_bind h
      obtain ⟨ds, vs', a, rfl, ha, h⟩ := goes_bind h
      rw [goes_report hu, List.nil_append]
      cases a with
      | error err =>
        obtain ⟨rfl, rfl⟩ := goes_pure h
        rw [List.append_nil]
        exact .lookupFailed err hnone hne (deletingGuarded_of_goes ha)
      | ok a =>
        obtain ⟨vs'', ws, u', rfl, hu', h⟩ := goes_bind h
        obtain ⟨rfl, rfl⟩ := goes_pure h
        rw [goes_report hu', List.append_nil, List.append_nil]
        exact .removed hnone hne (deletingGuarded_of_goes ha)

end Whole

/-! ### Runs whose exchanges are noted -/

section Noted
variable {σ : Type} (store : Store (StateM σ)) (s : σ) (policy : Policy) (p : Provenance)

theorem exists_applying_noted (d : Diff Entity) : ∃ log result t,
    ((apply store.noted policy d p).run []).run s = ((result, log), t) ∧ Applying policy p d log result := by
  obtain ⟨log, result, t, hrun, hgoes, -⟩ := Dialogue.exists_goes_noted store (apply Dialogue.store policy d p) [] s
  rw [hold_apply] at hrun
  exact ⟨log, result, t, hrun, applying_of_goes hgoes⟩

theorem exists_removing_noted (d : Diff EntityRef) : ∃ log result t,
    ((delete store.noted policy d p).run []).run s = ((result, log), t) ∧ Removing policy p d log result := by
  obtain ⟨log, result, t, hrun, hgoes, -⟩ := Dialogue.exists_goes_noted store (delete Dialogue.store policy d p) [] s
  rw [hold_delete] at hrun
  exact ⟨log, result, t, hrun, removing_of_goes hgoes⟩

end Noted
end CatalogSync.Reconcile
