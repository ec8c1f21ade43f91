import CatalogSync.Proofs.Collections
import CatalogSync.Proofs.Reconcile.Deletions

/-! Which calls a run makes, whatever the store answers.

A run writes all that it keeps, then asks one question if something disappeared, then deletes what the answer lets it
delete. The calls of a phase are fixed before the first of them is answered, so a call that fails takes no later one
of its phase along. -/

namespace CatalogSync

/-- The entities that a call writes. -/
def Call.entities : Call → List Entity
  | upsertOne e _ _ => [e]
  | upsertBatch es _ _ => es
  | _ => []

namespace Reconcile

/-! ### The calls of a phase -/

section Calls
variable (policy : Policy) (p : Provenance) {α : Type} [Linked α]

/-- The options of every call of a run. On missing related entities and on dependents the policy has the last word,
    whatever its options for calls say. -/
def dueOptions : CallOptions where
  merge := policy.options.merge
  createMissingRelated := policy.autoCreateRelated
  deleteDependents := policy.cascadeDeletes
  validationOnly := policy.options.validationOnly

def writeCalls (es : List Entity) : List Call :=
  if es.isEmpty then []
  else if policy.autoCreateRelated then [.upsertBatch es (dueOptions policy) p]
  else (order .creation es).map (.upsertOne · (dueOptions policy) p)

def deleteCalls (xs : List α) : List Call :=
  if xs.isEmpty then []
  else if policy.cascadeDeletes then [.deleteBatch (Keyed.keys xs) (dueOptions policy) p]
  else (Keyed.keys (order .deletion xs)).map (.deleteOne · (dueOptions policy) p)

/-- A write or delete goes out on the terms of the run. -/
def OnTerms (c : Call) : Prop := ∀ terms, c.terms? = some terms → terms = (dueOptions policy, p)

variable {policy p} {es : List Entity} {ys : List α} {c : Call}

theorem callOptions_eq_due : policy.callOptions = dueOptions policy := rfl

theorem writeCalls_in_batch (hes : es ≠ []) (hauto : policy.autoCreateRelated = true) :
    writeCalls policy p es = [.upsertBatch es policy.callOptions p] := by
  rw [writeCalls, if_neg (by simpa using hes), if_pos hauto, callOptions_eq_due]

theorem writeCalls_one_by_one (hes : es ≠ []) (hauto : policy.autoCreateRelated = false) :
    writeCalls policy p es = (order .creation es).map (.upsertOne · policy.callOptions p) := by
  rw [writeCalls, if_neg (by simpa using hes), hauto, if_neg Bool.false_ne_true, callOptions_eq_due]

theorem deleteCalls_in_batch (hys : ys ≠ []) (hcascade : policy.cascadeDeletes = true) :
    deleteCalls policy p ys = [.deleteBatch (Keyed.keys ys) policy.callOptions p] := by
  rw [deleteCalls, if_neg (by simpa using hys), if_pos hcascade, callOptions_eq_due]

theorem deleteCalls_one_by_one (hys : ys ≠ []) (hcascade : policy.cascadeDeletes = false) :
    deleteCalls policy p ys = (Keyed.keys (order .deletion ys)).map (.deleteOne · policy.callOptions p) := by
  rw [deleteCalls, if_neg (by simpa using hys), hcascade, if_neg Bool.false_ne_true, callOptions_eq_due]

theorem entities_writeCalls : ((writeCalls policy p es).flatMap Call.entities).Perm es := by
  unfold writeCalls
  split
  · rename_i hes
    rw [List.isEmpty_iff.mp hes]
    exact .nil
  · split
    · exact .of_eq (List.append_nil es)
    · have heach : ((order .creation es).map (.upsertOne · (dueOptions policy) p)).flatMap Call.entities =
          order .creation es := by
        rw [List.flatMap_map]
        exact List.flatMap_singleton' _
      rw [heach]
      exact Order.perm_order

theorem entities_deleteCalls : (deleteCalls policy p ys).flatMap Call.entities = [] := by
  unfold deleteCalls
  split
  · rfl
  · split
    · rfl
    · exact List.flatMap_eq_nil_iff.mpr fun c hc => by
        obtain ⟨r, -, rfl⟩ := List.mem_map.mp hc
        rfl

theorem onTerms_of_mem_writeCalls (h : c ∈ writeCalls policy p es) : OnTerms policy p c := by
  intro terms hterms
  unfold writeCalls at h
  split at h
  · cases h
  · split at h
    · obtain rfl := List.mem_singleton.mp h
      exact (Option.some.inj hterms).symm
    · obtain ⟨e, -, rfl⟩ := List.mem_map.mp h
      exact (Option.some.inj hterms).symm

theorem onTerms_of_mem_deleteCalls (h : c ∈ deleteCalls policy p ys) : OnTerms policy p c := by
  intro terms hterms
  unfold deleteCalls at h
  split at h
  · cases h
  · split at h
    · obtain rfl := List.mem_singleton.mp h
      exact (Option.some.inj hterms).symm
    · obtain ⟨r, -, rfl⟩ := List.mem_map.mp h
      exact (Option.some.inj hterms).symm

end Calls

/-! ### One phase -/

section Phase
variable {policy : Policy} {o : CallOptions} {p : Provenance} {es : List Entity} {xs : List Exchange} {w : Written}
  {α : Type} [Linked α] {ys : List α} {removed : Removed}

theorem Writing.map_call (h : Writing policy p es xs w) : xs.map (·.call) = writeCalls policy p es := by
  cases h with
  | nothing => rfl
  | batch rs hes hauto => exact (writeCalls_in_batch hes hauto).symm
  | each rs hes hauto hlen =>
    rw [writeCalls_one_by_one hes hauto, writes, List.map_zipWith]
    exact zipWith_left hlen

theorem Deleting.map_call (h : Deleting policy p ys xs removed) : xs.map (·.call) = deleteCalls policy p ys := by
  cases h with
  | nothing => rfl
  | batch hys hcascade => exact (deleteCalls_in_batch hys hcascade).symm
  | batchFailed _ hys hcascade => exact (deleteCalls_in_batch hys hcascade).symm
  | each as hys hcascade hlen =>
    rw [deleteCalls_one_by_one hys hcascade, deletes, List.map_zipWith]
    exact zipWith_left (by simpa [Keyed.keys] using hlen)

end Phase

/-! ### Whole runs -/

/-- One question is asked, and if it is answered what the guard lets go is deleted. -/
def Asks {α : Type} [Linked α] (policy : Policy) (p : Provenance) (candidates : List α) (kept : List EntityRef)
    (log : List Exchange) (result : Except ReconcileError Report) : Prop :=
  ∃ reply deletions, log = ⟨.related kept, reply⟩ :: deletions ∧
    match reply with
    | .error err => deletions = [] ∧ result = .error (.relatedLookup err)
    | .ok related =>
      deletions.map (·.call) = deleteCalls policy p (Guard.deletable ⟨kept, related, policy.autoCreateRelated⟩ candidates) ∧
      ∃ report, result = .ok report

/-- What a run does once it knows what it keeps: it asks if something disappeared, and is done if nothing did. -/
structure AsksThenDeletes {α : Type} [Linked α] (policy : Policy) (p : Provenance) (d : Diff α) (kept : List EntityRef)
    (log : List Exchange) (result : Except ReconcileError Report) : Prop where
  asks : (∃ k ∈ Keyed.keys d.before, k ∉ Keyed.keys d.after) → Asks policy p d.changes.deleted kept log result
  rests : (∀ k ∈ Keyed.keys d.before, k ∈ Keyed.keys d.after) → log = [] ∧ ∃ report, result = .ok report

/-- A diff of entities is applied in three phases; the first writes each entity of it once. -/
structure AppliesInPhases (policy : Policy) (p : Provenance) (d : Diff Entity) (log : List Exchange)
    (result : Except ReconcileError Report) : Prop where
  invalid : ∀ fault, fault? d = some fault → log = [] ∧ result = .error (.invalid fault)
  phases : fault? d = none → ∃ writes rest, log = writes ++ rest ∧
    writes.map (·.call) = writeCalls policy p d.changes.kept ∧
    AsksThenDeletes policy p d (writes.flatMap Exchange.written) rest result
  once : fault? d = none → (log.flatMap (·.call.entities)).Perm d.after
  terms : ∀ x ∈ log, OnTerms policy p x.call

/-- A diff of references is applied in the last two phases. -/
structure DeletesInPhases (policy : Policy) (p : Provenance) (d : Diff EntityRef) (log : List Exchange)
    (result : Except ReconcileError Report) : Prop where
  invalid : ∀ fault, fault? d = some fault → log = [] ∧ result = .error (.invalid fault)
  phases : fault? d = none → AsksThenDeletes policy p d d.changes.kept log result
  terms : ∀ x ∈ log, OnTerms policy p x.call

section Whole
variable {policy : Policy} {p : Provenance} {log : List Exchange} {result : Except ReconcileError Report} {α : Type}
  [Linked α] {d : Diff α} {kept : List EntityRef}

theorem deleted_eq_nil_iff : d.changes.deleted = [] ↔ ∀ k ∈ Keyed.keys d.before, k ∈ Keyed.keys d.after := by
  have hkeys : d.changes.deleted = [] ↔ Keyed.keys d.changes.deleted = [] := List.map_eq_nil_iff.symm
  rw [hkeys, List.eq_nil_iff_forall_not_mem]
  refine forall_congr' fun k => ?_
  rw [mem_keys_deleted, not_and, not_not]

theorem Asks.asksThenDeletes (h : Asks policy p d.changes.deleted kept log result) (hne : d.changes.deleted ≠ []) :
    AsksThenDeletes policy p d kept log result where
  asks _ := h
  rests hall := absurd (deleted_eq_nil_iff.mpr hall) hne

theorem DeletingGuarded.asksThenDeletes_of_error {err : StoreError}
    (h : DeletingGuarded policy p kept d.changes.deleted log (.error err)) :
    AsksThenDeletes policy p d kept log (.error (.relatedLookup err)) := by
  generalize hys : d.changes.deleted = ys at h
  cases h with
  | lookupFailed _ hne =>
    subst hys
    exact Asks.asksThenDeletes ⟨.error err, [], rfl, rfl, rfl⟩ hne

theorem DeletingGuarded.asksThenDeletes_of_ok {outcome : Removed × List EntityRef} (report : Report)
    (h : DeletingGuarded policy p kept d.changes.deleted log (.ok outcome)) :
    AsksThenDeletes policy p d kept log (.ok report) := by
  generalize hys : d.changes.deleted = ys at h
  cases h with
  | nothing => exact ⟨fun ⟨k, hb, ha⟩ => absurd (deleted_eq_nil_iff.mp hys k hb) ha, fun _ => ⟨rfl, report, rfl⟩⟩
  | guarded related hne hd =>
    subst hys
    exact Asks.asksThenDeletes ⟨.ok related, _, rfl, hd.map_call, report, rfl⟩ hne

theorem AsksThenDeletes.map_call (h : AsksThenDeletes policy p d kept log result) :
    log.map (·.call) = [] ∨ ∃ ys : List α, log.map (·.call) = .related kept :: deleteCalls policy p ys := by
  by_cases hall : ∀ k ∈ Keyed.keys d.before, k ∈ Keyed.keys d.after
  · obtain ⟨rfl, -⟩ := h.rests hall
    exact .inl rfl
  · push Not at hall
    obtain ⟨reply, deletions, rfl, hreply⟩ := h.asks hall
    cases reply with
    | error err =>
      obtain ⟨rfl, -⟩ := hreply
      exact .inr ⟨[], rfl⟩
    | ok related =>
      obtain ⟨hcalls, -⟩ := hreply
      exact .inr ⟨_, congrArg (Call.related kept :: ·) hcalls⟩

theorem AsksThenDeletes.entities_eq (h : AsksThenDeletes policy p d kept log result) :
    log.flatMap (·.call.entities) = [] := by
  rw [← List.flatMap_map]
  rcases h.map_call with hnil | ⟨ys, hcalls⟩
  · rw [hnil]
    rfl
  · rw [hcalls]
    exact entities_deleteCalls

theorem AsksThenDeletes.terms (h : AsksThenDeletes policy p d kept log result) : ∀ x ∈ log, OnTerms policy p x.call := by
  intro x hx
  have hcall : x.call ∈ log.map (·.call) := List.mem_map_of_mem hx
  rcases h.map_call with hnil | ⟨ys, hcalls⟩
  · rw [hnil] at hcall
    cases hcall
  · rw [hcalls] at hcall
    rcases List.mem_cons.mp hcall with hcall | hcall
    · rw [hcall]
      exact fun terms hterms => by cases hterms
    · exact onTerms_of_mem_deleteCalls hcall

end Whole

section Runs
variable {policy : Policy} {p : Provenance} {log : List Exchange} {result : Except ReconcileError Report}

theorem AppliesInPhases.of_writing {d : Diff Entity} {us ds : List Exchange} {w : Written} (hfault : fault? d = none)
    (hw : Writing policy p d.changes.kept us w) (hd : AsksThenDeletes policy p d (Keyed.keys w.versions) ds result) :
    AppliesInPhases policy p d (us ++ ds) result where
  invalid fault hsome := by
    rw [hfault] at hsome
    cases hsome
  phases _ := by
    rw [← hw.written_eq] at hd
    exact ⟨us, ds, rfl, hw.map_call, hd⟩
  once _ := by
    rw [List.flatMap_append, hd.entities_eq, List.append_nil, ← List.flatMap_map, hw.map_call]
    exact entities_writeCalls.trans perm_kept
  terms x hx := by
    rcases List.mem_append.mp hx with hx | hx
    · have hcall : x.call ∈ writeCalls policy p d.changes.kept := hw.map_call ▸ List.mem_map_of_mem hx
      exact onTerms_of_mem_writeCalls hcall
    · exact hd.terms x hx

theorem Applying.inPhases {d : Diff Entity} (h : Applying policy p d log result) :
    AppliesInPhases policy p d log result := by
  cases h with
  | invalid fault hfault =>
    have hsome : fault? d ≠ none := by simp [hfault]
    refine ⟨fun fault' hfault' => ?_, fun h => absurd h hsome, fun h => absurd h hsome, fun x hx => by cases hx⟩
    cases hfault.symm.trans hfault'
    exact ⟨rfl, rfl⟩
  | lookupFailed err hfault hw hd => exact .of_writing hfault hw hd.asksThenDeletes_of_error
  | applied hfault hw hd => exact .of_writing hfault hw (hd.asksThenDeletes_of_ok _)

theorem DeletesInPhases.of_asks {d : Diff EntityRef} (hfault : fault? d = none)
    (h : AsksThenDeletes policy p d d.changes.kept log result) : DeletesInPhases policy p d log result where
  invalid fault hsome := by
    rw [hfault] at hsome
    cases hsome
  phases _ := h
  terms := h.terms

theorem Removing.inPhases {d : Diff EntityRef} (h : Removing policy p d log result) :
    DeletesInPhases policy p d log result := by
  cases h with
  | invalid fault hfault =>
    have hsome : fault? d ≠ none := by simp [hfault]
    refine ⟨fun fault' hfault' => ?_, fun h => absurd h hsome, fun x hx => by cases hx⟩
    cases hfault.symm.trans hfault'
    exact ⟨rfl, rfl⟩
  | nothing hfault hnil =>
    refine .of_asks hfault ⟨fun ⟨k, hb, ha⟩ => absurd (deleted_eq_nil_iff.mp hnil k hb) ha, fun _ => ⟨rfl, _, rfl⟩⟩
  | lookupFailed err hfault _ hd => exact .of_asks hfault hd.asksThenDeletes_of_error
  | removed hfault _ hd => exact .of_asks hfault (hd.asksThenDeletes_of_ok _)

end Runs

/-- Over any store and from any state of it, runs write, then ask, then delete. -/
theorem calls_in_phases {σ : Type} (store : Store (StateM σ)) (s : σ) (policy : Policy) (p : Provenance) :
    (∀ d : Diff Entity,
      let ((result, log), _) := ((apply store.noted policy d p).run []).run s
      AppliesInPhases policy p d log result) ∧
    ∀ d : Diff EntityRef,
      let ((result, log), _) := ((delete store.noted policy d p).run []).run s
      DeletesInPhases policy p d log result := by
  constructor
  · intro d
    obtain ⟨log, result, t, hrun, happ⟩ := exists_applying_noted store s policy p d
    rw [hrun]
    exact happ.inPhases
  · intro d
    obtain ⟨log, result, t, hrun, hrem⟩ := exists_removing_noted store s policy p d
    rw [hrun]
    exact hrem.inPhases

end Reconcile
end CatalogSync
