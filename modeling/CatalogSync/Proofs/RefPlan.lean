import CatalogSync.Proofs.Order.InPlace
import CatalogSync.Proofs.Plan

/-! A plan for references bounds the runs, over whatever store.

Of the references nothing is known but their keys. So a rehearsal finds nothing related and nothing to put in order, and
plans to delete all that disappears. A run is told by its store what is related, and the guard can only spare more. -/

namespace CatalogSync

variable {policy : Policy} {p : Provenance} {d : Diff EntityRef} {rs kept : List EntityRef} {xs : List Exchange}
  {s t : LocalStore}

/-! ### Changes of references -/

theorem keys_refs (rs : List EntityRef) : Keyed.keys rs = rs := List.map_id rs

namespace Diff

/-- What disappears, in the order given. -/
def gone (d : Diff EntityRef) : List EntityRef := d.before.filter (· ∉ d.after)

/-- What stays, what is new first. -/
def staying (d : Diff EntityRef) : List EntityRef := d.after.filter (· ∉ d.before) ++ d.after.filter (· ∈ d.before)

theorem changes_deleted (d : Diff EntityRef) : d.changes.deleted = d.gone := by
  show d.before.filter (· ∉ Keyed.keys d.after) = _
  rw [keys_refs, gone]

theorem changes_kept (d : Diff EntityRef) : d.changes.kept = d.staying := by
  show d.after.filter (· ∉ Keyed.keys d.before) ++ d.after.filter (· ∈ Keyed.keys d.before) = _
  rw [keys_refs, staying]

theorem not_mem_staying {k : EntityRef} (h : k ∈ d.gone) : k ∉ d.staying := by
  simp only [gone, staying, List.mem_append, List.mem_filter, decide_eq_true_eq] at h ⊢
  tauto

end Diff

/-! ### What a plan deletes -/

namespace Plan

def Step.deletes (s : Step) : List EntityRef :=
  match s.action with
  | .delete | .deleteBatch => s.refs
  | .upsert | .upsertBatch | .lookUpRelated => []

/-- The keys that are to be deleted, in order. -/
def deletes (plan : Plan) : List EntityRef := plan.steps.flatMap Step.deletes

/-- If something disappears, one look-up of what stays, then the deletes, all in one or one for each. -/
def removalSteps (policy : Policy) (d : Diff EntityRef) : List Step :=
  if d.gone = [] then []
  else
    ⟨.lookUpRelated, d.staying⟩ ::
      if policy.cascadeDeletes then [⟨.deleteBatch, d.gone⟩] else d.gone.map fun r => ⟨.delete, [r]⟩

/-- The plan deletes all that disappears, and does nothing else. -/
structure OnlyRemoves (policy : Policy) (d : Diff EntityRef) (plan : Plan) : Prop where
  steps : plan.steps = removalSteps policy d
  writesNothing : ∀ step ∈ plan.steps, step.action ≠ .upsert ∧ step.action ≠ .upsertBatch
  preserved : plan.preserved = []
  deletes : plan.deletes = d.before.filter (· ∉ d.after)

theorem mem_removalSteps {step : Step} (h : step ∈ removalSteps policy d) :
    step.action = .lookUpRelated ∨ step.action = .deleteBatch ∨ step.action = .delete := by
  unfold removalSteps at h
  split at h
  · cases h
  · rcases List.mem_cons.mp h with rfl | h
    · exact .inl rfl
    · split at h
      · obtain rfl := List.mem_singleton.mp h
        exact .inr (.inl rfl)
      · obtain ⟨r, -, rfl⟩ := List.mem_map.mp h
        exact .inr (.inr rfl)

theorem flatMap_deletes_removalSteps (policy : Policy) (d : Diff EntityRef) :
    (removalSteps policy d).flatMap Step.deletes = d.gone := by
  unfold removalSteps
  split
  · rename_i hgone
    rw [hgone]
    rfl
  · split
    · exact List.append_nil _
    · rw [List.flatMap_cons, List.flatMap_map]
      exact List.flatMap_singleton' _

theorem onlyRemoves (policy : Policy) (d : Diff EntityRef) : OnlyRemoves policy d ⟨removalSteps policy d, []⟩ where
  steps := rfl
  writesNothing step hstep := by rcases mem_removalSteps hstep with h | h | h <;> rw [h] <;> decide
  preserved := rfl
  deletes := flatMap_deletes_removalSteps policy d

end Plan

/-! ### A rehearsal -/

namespace Reconcile
open LocalStore

theorem relatedRefs_of_unrelated (h : ∀ k e, s.get? k = some e → e.targets = []) : s.relatedRefs rs = [] := by
  refine List.eq_nil_iff_forall_not_mem.mpr fun k hk => ?_
  obtain ⟨-, r, -, e, he, ht⟩ := mem_relatedRefs.mp hk
  rw [h r e he] at ht
  cases ht

theorem targets_of_bare (hn : rs.Nodup) {k : EntityRef} {e : Entity}
    (h : (LocalStore.ofEntities (rs.map Plan.bare)).get? k = some e) : e.targets = [] := by
  have hkeys : Keyed.keys (rs.map Plan.bare) = rs := by
    rw [Keyed.keys, List.map_map]
    exact List.map_id rs
  obtain ⟨f, hf, -, htargets⟩ := (holds_ofEntities (hkeys.symm ▸ hn)).known k e h
  obtain ⟨r, -, rfl⟩ := List.mem_map.mp hf
  exact htargets.symm

/-- A guard that knows of nothing related lets all go that is not kept. -/
theorem guarded_of_unrelated {g : Guard} (hkept : ∀ r ∈ rs, r ∉ g.kept)
    (hrelated : g.sparesRelated = true → g.related = []) :
    g.deletable rs = rs ∧ g.preserved rs = [] := by
  have hverdict : ∀ r ∈ rs, g.verdict r = .delete := fun r hr =>
    verdict_eq_delete_iff.mpr ⟨hkept r hr, fun ⟨hspares, hr⟩ => by simp [hrelated hspares] at hr⟩
  constructor
  · exact List.filter_eq_self.mpr fun r hr => decide_eq_true (hverdict r hr)
  · exact List.filter_eq_nil_iff.mpr fun r hr => by rw [decide_eq_true_eq, not_not]; exact hverdict r hr

theorem map_step_deleteCalls_refs (hrs : rs ≠ []) : (deleteCalls policy p rs).map Plan.Step.ofCall =
    if policy.cascadeDeletes then [⟨.deleteBatch, rs⟩] else rs.map fun r => ⟨.delete, [r]⟩ := by
  rw [deleteCalls, if_neg (by simpa using hrs), Order.order_refs, keys_refs]
  split
  · rfl
  · rw [List.map_map]
    rfl

theorem map_step_removalCalls_refs (hfree : (guardOver policy t d.staying).deletable d.gone = d.gone) :
    (removalCalls policy p t d.staying d.gone).map Plan.Step.ofCall = Plan.removalSteps policy d := by
  rw [removalCalls, Plan.removalSteps, hfree]
  by_cases hgone : d.gone = []
  · rw [if_pos (List.isEmpty_iff.mpr hgone), if_pos hgone]
    rfl
  · rw [if_neg (by simpa using hgone), if_neg hgone, List.map_cons, map_step_deleteCalls_refs hgone]
    rfl

theorem Removing.guarded {result : Except ReconcileError Report} (hfault : fault? d = none)
    (h : Removing policy p d xs result) :
    (∃ err, DeletingGuarded policy p d.staying d.gone xs (.error err) ∧ result = .error (.relatedLookup err)) ∨
      ∃ removed report, DeletingGuarded policy p d.staying d.gone xs (.ok (removed, report.preserved)) ∧
        result = .ok report := by
  rw [← d.changes_deleted, ← d.changes_kept]
  cases h with
  | invalid fault hsome => cases hfault.symm.trans hsome
  | nothing _ hnil =>
    rw [hnil]
    exact .inr ⟨{}, _, .nothing, rfl⟩
  | lookupFailed err _ _ hd => exact .inl ⟨err, hd, rfl⟩
  | removed _ _ hd => exact .inr ⟨_, _, hd, rfl⟩

/-- A run over a store that has the references that were there before, and knows of no relation. -/
theorem removing_of_unrelated {result : Except ReconcileError Report} (hfault : fault? d = none)
    (h : Removing policy p d xs result) (ha : Store.ofLocal.Answers s xs t) (havailable : s.relatedAvailable = true)
    (hunrelated : ∀ k e, s.get? k = some e → e.targets = []) :
    (xs.map (·.call)).map Plan.Step.ofCall = Plan.removalSteps policy d ∧
      ∃ report, result = .ok report ∧ report.preserved = [] := by
  obtain ⟨hfree, hheld⟩ : (guardOver policy s d.staying).deletable d.gone = d.gone ∧
      (guardOver policy s d.staying).preserved d.gone = [] :=
    guarded_of_unrelated (fun r hr => d.not_mem_staying hr) fun _ => relatedRefs_of_unrelated hunrelated
  obtain ⟨err, hd, rfl⟩ | ⟨removed, report, hd, rfl⟩ := h.guarded hfault
  · obtain ⟨-, removed, hok⟩ := hd.of_available havailable ha
    cases hok
  · obtain ⟨hcalls, _, hok⟩ := hd.of_available havailable ha
    have hpreserved : report.preserved = Keyed.keys ((guardOver policy s d.staying).preserved d.gone) :=
      (Prod.mk.inj (Except.ok.inj hok)).2
    rw [hcalls, map_step_removalCalls_refs hfree]
    exact ⟨rfl, report, rfl, by rw [hpreserved, hheld]; rfl⟩

theorem ofRefs_eq (hfault : fault? d = none) :
    (Plan.ofRefs (m := Id) d policy).run = .ok ⟨Plan.removalSteps policy d, []⟩ := by
  obtain ⟨hn, -⟩ := nodup_of_fault?_eq_none hfault
  rw [keys_refs] at hn
  obtain ⟨xs, result, t, -, hrun, hgoes, ha⟩ := Dialogue.exists_goes_recorded (delete Dialogue.store policy d .automated)
    (.ofEntities (d.before.map Plan.bare)) {}
  obtain ⟨hsteps, report, rfl, hpreserved⟩ := removing_of_unrelated hfault (removing_of_goes hgoes) ha
    (willing_ofEntities _).available fun k e => targets_of_bare hn
  rw [hold_delete] at hrun
  rw [Plan.ofRefs, Plan.rehearse, hrun, ← hsteps, ← hpreserved]
  rfl

/-! ### Runs -/

theorem Deleting.deletes_eq {removed : Removed} (h : Deleting policy p rs xs removed) :
    xs.flatMap (·.call.deletes) = rs := by
  cases h with
  | nothing => rfl
  | batch => exact (List.append_nil _).trans (keys_refs rs)
  | batchFailed => exact (List.append_nil _).trans (keys_refs rs)
  | each as _ _ hlen =>
    rw [Order.order_refs] at hlen ⊢
    rw [keys_refs, deletes_deletes hlen]

theorem DeletingGuarded.deletes_eq {result : Except StoreError (Removed × List EntityRef)}
    (h : DeletingGuarded policy p kept rs xs result) :
    (xs.flatMap (·.call.deletes)).Sublist rs ∧ ((∀ r ∈ rs, r ∉ kept) → policy.autoCreateRelated = false →
      (∃ done, result = .ok done) → xs.flatMap (·.call.deletes) = rs) := by
  cases h with
  | nothing => exact ⟨.refl _, fun _ _ _ => rfl⟩
  | lookupFailed => exact ⟨List.nil_sublist _, fun _ _ ⟨_, hdone⟩ => by cases hdone⟩
  | @guarded _ related xs _ _ hd =>
    have hdeletes : ((⟨.related kept, .ok related⟩ :: xs : List Exchange)).flatMap (·.call.deletes) =
        Guard.deletable ⟨kept, related, policy.autoCreateRelated⟩ rs := hd.deletes_eq
    rw [hdeletes]
    refine ⟨List.filter_sublist, fun hkept hauto _ => (guarded_of_unrelated hkept fun hspares => ?_).1⟩
    cases hauto.symm.trans hspares

theorem Removing.deletes_eq {result : Except ReconcileError Report} (hfault : fault? d = none)
    (h : Removing policy p d xs result) :
    (xs.flatMap (·.call.deletes)).Sublist d.gone ∧ (policy.autoCreateRelated = false →
      (∃ report, result = .ok report) → xs.flatMap (·.call.deletes) = d.gone) := by
  obtain ⟨err, hd, rfl⟩ | ⟨removed, report, hd, rfl⟩ := h.guarded hfault
  · exact ⟨hd.deletes_eq.1, fun _ ⟨_, hok⟩ => by cases hok⟩
  · exact ⟨hd.deletes_eq.1, fun hauto _ => hd.deletes_eq.2 (fun r => d.not_mem_staying) hauto ⟨_, rfl⟩⟩

end Reconcile

/-- What is planned for references is to delete all that disappears, and a run deletes nothing else: over any store and
from any state of it, it asks to delete some of the keys in the order planned, and all of them if it succeeds and its
policy does not spare what is related. -/
theorem plan_bounds_removal (policy : Policy) (d : Diff EntityRef) (hfault : Reconcile.fault? d = none) :
    ∃ plan, (Plan.ofRefs (m := Id) d policy).run = .ok plan ∧ Plan.OnlyRemoves policy d plan ∧
      ∀ {σ : Type} (store : Store (StateM σ)) (s : σ) (p : Provenance),
        let ((result, log), _) := ((Reconcile.delete store.noted policy d p).run []).run s
        (log.flatMap (·.call.deletes)).Sublist plan.deletes ∧
          (policy.autoCreateRelated = false → (∃ report, result = .ok report) →
            log.flatMap (·.call.deletes) = plan.deletes) := by
  refine ⟨_, Reconcile.ofRefs_eq hfault, Plan.onlyRemoves policy d, fun store s p => ?_⟩
  obtain ⟨log, result, t, hrun, hremoving⟩ := Reconcile.exists_removing_noted store s policy p d
  rw [hrun, (Plan.onlyRemoves policy d).deletes]
  exact hremoving.deletes_eq hfault

/-- Two services of three are dropped, and a new one comes. -/
def handoff : Diff EntityRef where
  before := ["api", "cache", "db"].map Sample.serviceRef
  after := ["api", "mail"].map Sample.serviceRef

/-- Both are planned to go, and the run spares the one that a service that stays depends on. -/
theorem handoff_bounded : Reconcile.fault? handoff = none ∧ ∃ plan, (Plan.ofRefs (m := Id) handoff {}).run = .ok plan ∧
    plan.steps = [⟨.lookUpRelated, ["mail", "api"].map Sample.serviceRef⟩,
      ⟨.deleteBatch, ["cache", "db"].map Sample.serviceRef⟩] ∧
    let ((_, log), _) := ((Reconcile.delete Store.ofLocal.noted {} handoff .automated).run []).run crowd
    log.flatMap (·.call.deletes) = [Sample.serviceRef "db"] ∧ (log.flatMap (·.call.deletes)).Sublist plan.deletes := by
  have hfault : Reconcile.fault? handoff = none := by decide +kernel
  obtain ⟨plan, hplan, hremoves, hruns⟩ := plan_bounds_removal {} handoff hfault
  obtain ⟨hsub, -⟩ := hruns Store.ofLocal crowd .automated
  exact ⟨hfault, plan, hplan, hremoves.steps.trans (by decide +kernel), by decide +kernel, hsub⟩

end CatalogSync
