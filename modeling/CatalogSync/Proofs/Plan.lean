import CatalogSync.Entity.Sample
import CatalogSync.Plan
import CatalogSync.Proofs.Reconcile.Outcome
import CatalogSync.Proofs.Reconcile.Phases

/-! A plan foretells the run, over a store in memory that holds what was there before the change.

The store may hold other versions of it, and more besides, and the question of a run is answered accordingly. But the
guard compares the answer with the candidates only, which both stores hold, and what they are related to are the
entities that the run has just written, which are the same in both. -/

namespace CatalogSync

/-! ### Runs whose calls are recorded -/

section Recorded
variable {α : Type}

theorem answer_recorded (c : Call) (s : LocalStore) (log : CallLog) :
    (((Store.ofLocal.recorded : Store (Plan.Rehearsal Id)).answer c).run s).run log =
      (((Store.ofLocal : Store (StateM LocalStore)).answer c).run s, ⟨log.calls ++ [c]⟩) := by
  cases c <;> rfl

theorem Dialogue.hold_recorded {x : Dialogue α} {xs : List Exchange} {a : α} {s t : LocalStore} (hx : Goes x xs a)
    (ha : Store.ofLocal.Answers s xs t) (log : CallLog) :
    ((x.hold (Store.ofLocal.recorded : Store (Plan.Rehearsal Id))).run s).run log =
      ((a, t), ⟨log.calls ++ xs.map (·.call)⟩) := by
  induction hx generalizing s log with
  | done a =>
    cases ha
    rw [List.map_nil, List.append_nil]
    rfl
  | @ask c _ r xs _ _ ih =>
    cases ha with
    | cons hr ha =>
      have hrest := ih ha ⟨log.calls ++ [c]⟩
      rw [List.append_assoc] at hrest
      rw [hold, StateT.run_bind, StateT.run_bind, answer_recorded, hr]
      exact hrest
  | tell _ ih => exact ih ha log

/-- Noting the calls changes nothing else. -/
theorem Dialogue.exists_goes_recorded (x : Dialogue α) (s : LocalStore) (log : CallLog) : ∃ xs a t,
    (x.hold (Store.ofLocal : Store (StateM LocalStore))).run s = (a, t) ∧
    ((x.hold (Store.ofLocal.recorded : Store (Plan.Rehearsal Id))).run s).run log =
      ((a, t), ⟨log.calls ++ xs.map (·.call)⟩) ∧ Goes x xs a ∧ Store.ofLocal.Answers s xs t := by
  obtain ⟨xs, a, t, hrun, hx, ha⟩ := exists_goes_hold Store.ofLocal x s
  exact ⟨xs, a, t, hrun, hold_recorded hx ha log, hx, ha⟩

end Recorded

namespace Reconcile
open LocalStore

variable {policy : Policy} {p q : Provenance} {d : Diff Entity} {s t u : LocalStore} {kept : List EntityRef}
  {k : EntityRef} {xs : List Exchange}

/-- The result of a run over a store in memory, and the calls that it has made. -/
def recordedIn (s : LocalStore) (policy : Policy) (d : Diff Entity) (p : Provenance) :
    Except ReconcileError Report × List Call :=
  let ((result, _), log) := ((apply (Store.ofLocal.recorded : Store (Plan.Rehearsal Id)) policy d p).run s).run {}
  (result, log.calls)

theorem exists_applying_recorded (s : LocalStore) (policy : Policy) (d : Diff Entity) (p : Provenance) :
    ∃ xs t, Applying policy p d xs (recordedIn s policy d p).1 ∧ Store.ofLocal.Answers s xs t ∧
      (recordedIn s policy d p).2 = xs.map (·.call) := by
  obtain ⟨xs, result, t, -, hrun, hgoes, ha⟩ := Dialogue.exists_goes_recorded (apply Dialogue.store policy d p) s {}
  rw [hold_apply] at hrun
  rw [recordedIn, hrun]
  exact ⟨xs, t, applying_of_goes hgoes, ha, rfl⟩

/-! ### Which calls are made -/

section Candidates
variable {α : Type} [Linked α] {ys : List α}

/-- The calls about the candidates `ys`. -/
def removalCalls (policy : Policy) (p : Provenance) (t : LocalStore) (kept : List EntityRef) (ys : List α) : List Call :=
  if ys.isEmpty then [] else .related kept :: deleteCalls policy p ((guardOver policy t kept).deletable ys)

theorem DeletingGuarded.of_available {outcome : Except StoreError (Removed × List EntityRef)}
    (h : DeletingGuarded policy p kept ys xs outcome) (havailable : t.relatedAvailable = true)
    (ha : Store.ofLocal.Answers t xs u) :
    xs.map (·.call) = removalCalls policy p t kept ys ∧
      ∃ removed, outcome = .ok (removed, Keyed.keys ((guardOver policy t kept).preserved ys)) := by
  cases h with
  | nothing => exact ⟨rfl, _, rfl⟩
  | lookupFailed =>
    obtain ⟨hrelated, -⟩ := answers_related ha
    rw [related_of_available havailable] at hrelated
    cases hrelated
  | guarded related hys hd =>
    obtain ⟨hrelated, -⟩ := answers_related ha
    obtain ⟨-, rfl⟩ := related_eq_ok hrelated.symm
    rw [removalCalls, if_neg (by simpa using hys), List.map_cons, hd.map_call]
    exact ⟨rfl, _, rfl⟩

end Candidates

/-- A run over a store that answers the question makes the calls of its two parts. -/
theorem recordedIn_of_available (hfault : fault? d = none) (havailable : s.relatedAvailable = true) :
    ∃ report, recordedIn s policy d p = (.ok report, writeCalls policy p d.changes.kept ++
        removalCalls policy p (afterWrites policy d s) (writtenIn policy d s) d.changes.deleted) ∧
      report.preserved =
        Keyed.keys ((guardOver policy (afterWrites policy d s) (writtenIn policy d s)).preserved d.changes.deleted) := by
  obtain ⟨xs, t, happ, ha, hcalls⟩ := exists_applying_recorded s policy d p
  generalize recordedIn s policy d p = run at happ hcalls
  obtain ⟨result, calls⟩ := run
  replace hcalls : calls = xs.map (·.call) := hcalls
  have halike : Alike s (afterWrites policy d s) := alike_writeAll
  have hasked := halike.available.trans havailable
  cases happ with
  | invalid fault hsome => cases hfault.symm.trans hsome
  | lookupFailed err _ hw hd =>
    obtain ⟨_, hwrites, hdeletes⟩ := Store.answers_append.mp ha
    obtain ⟨rfl, -⟩ := hw.afterWrites hfault hwrites
    obtain ⟨-, removed, hok⟩ := hd.of_available hasked hdeletes
    cases hok
  | applied _ hw hd =>
    obtain ⟨_, hwrites, hdeletes⟩ := Store.answers_append.mp ha
    obtain ⟨rfl, -⟩ := hw.afterWrites hfault hwrites
    have hversions : _ = writtenIn policy d s := (hw.of_answers hwrites).2
    rw [hversions] at hd
    obtain ⟨hdcalls, removed, hok⟩ := hd.of_available hasked hdeletes
    obtain ⟨rfl, rfl⟩ := Prod.mk.inj (Except.ok.inj hok)
    rw [List.map_append, hw.map_call, hdcalls] at hcalls
    rw [hcalls]
    exact ⟨_, rfl, rfl⟩

/-! ### Two stores -/

/-- Where nothing refuses, a candidate that is stored is held back by the new entities alone. -/
theorem verdict_afterWrites (hfault : fault? d = none) (ho : policy.options.validationOnly = false)
    (hfailing : s.failing = []) (hstored : ∀ k ∈ Keyed.keys d.before, s.contains k)
    (hk : k ∈ Keyed.keys d.changes.deleted) :
    (guardOver policy (afterWrites policy d s) (writtenIn policy d s)).verdict k = .delete ↔
      ¬ (policy.autoCreateRelated ∧ ∃ e ∈ d.after, k.identifier ∈ e.targets) := by
  have hrefuses : ∀ k, s.refuses k = false := fun k => by rw [LocalStore.refuses, hfailing]; rfl
  obtain ⟨hbefore, hafter⟩ := mem_keys_deleted.mp hk
  have hkept : k ∉ writtenIn policy d s := fun h => hafter (mem_writtenIn.mp h).1
  have hrelated : k ∈ (afterWrites policy d s).relatedRefs (writtenIn policy d s) ↔
      s.contains k ∧ ∃ e ∈ d.after, s.refuses e.key = false ∧ k.identifier ∈ e.targets :=
    mem_relatedRefs_afterWrites hfault ho (fun _ => mem_writtenIn) hafter
  rw [verdict_eq_delete_iff]
  simp only [guardOver, hrelated, hkept, hrefuses, hstored k hbefore, not_false_eq_true, true_and]

theorem guards_agree (hfault : fault? d = none) (ho : policy.options.validationOnly = false)
    (hs : s.failing = [] ∧ ∀ k ∈ Keyed.keys d.before, s.contains k)
    (ht : t.failing = [] ∧ ∀ k ∈ Keyed.keys d.before, t.contains k) :
    (guardOver policy (afterWrites policy d s) (writtenIn policy d s)).deletable d.changes.deleted =
        (guardOver policy (afterWrites policy d t) (writtenIn policy d t)).deletable d.changes.deleted ∧
      (guardOver policy (afterWrites policy d s) (writtenIn policy d s)).preserved d.changes.deleted =
        (guardOver policy (afterWrites policy d t) (writtenIn policy d t)).preserved d.changes.deleted := by
  refine deletable_congr fun k hk => ?_
  rw [verdict_afterWrites hfault ho hs.1 hs.2 hk, verdict_afterWrites hfault ho ht.1 ht.2 hk]

theorem writtenIn_of_failing (hfailing : s.failing = []) :
    writtenIn policy d s = Keyed.keys (inTurn policy d.changes.kept) :=
  List.filter_eq_self.mpr fun k _ => by simp [refuses, hfailing]

/-! ### Steps -/

section Steps
open Plan (Step)
variable {α : Type} [Linked α] {ys : List α}

theorem map_step_writeCalls (es : List Entity) :
    (writeCalls policy p es).map Step.ofCall = (writeCalls policy q es).map Step.ofCall := by
  unfold writeCalls
  split
  · rfl
  · split
    · rfl
    · rw [List.map_map, List.map_map]
      rfl

theorem map_step_deleteCalls (ys : List α) :
    (deleteCalls policy p ys).map Step.ofCall = (deleteCalls policy q ys).map Step.ofCall := by
  unfold deleteCalls
  split
  · rfl
  · split
    · rfl
    · rw [List.map_map, List.map_map]
      rfl

theorem map_step_removalCalls
    (h : (guardOver policy t kept).deletable ys = (guardOver policy u kept).deletable ys) :
    (removalCalls policy p t kept ys).map Step.ofCall = (removalCalls policy q u kept ys).map Step.ofCall := by
  unfold removalCalls
  split
  · rfl
  · rw [List.map_cons, List.map_cons, h, map_step_deleteCalls]

end Steps
end Reconcile

open Reconcile

theorem Plan.ofEntities_eq (d : Diff Entity) (policy : Policy) :
    (Plan.ofEntities (m := Id) d policy).run =
      let (result, calls) := recordedIn (.ofEntities d.before) policy d .automated
      result.map fun r => ⟨calls.map .ofCall, r.preserved⟩ :=
  rfl

/-- The run over a store that has all that was there before, whatever else it has, is the run that was planned. -/
theorem plan_foretells_run (s : LocalStore) (policy : Policy) (d : Diff Entity) (p : Provenance)
    (hfault : Reconcile.fault? d = none) (ho : policy.options.validationOnly = false) (hfailing : s.failing = [])
    (havailable : s.relatedAvailable = true) (hstored : ∀ k ∈ Keyed.keys d.before, s.contains k) :
    ∃ plan report calls, (Plan.ofEntities (m := Id) d policy).run = .ok plan ∧
      recordedIn s policy d p = (.ok report, calls) ∧ calls.map Plan.Step.ofCall = plan.steps ∧
      report.preserved = plan.preserved := by
  have hseed : (LocalStore.ofEntities d.before).Willing := LocalStore.willing_ofEntities d.before
  have hseeded : ∀ k ∈ Keyed.keys d.before, (LocalStore.ofEntities d.before).contains k := fun k hk => by
    obtain ⟨e, he, rfl⟩ := List.mem_map.mp hk
    exact (LocalStore.holds_ofEntities (nodup_of_fault?_eq_none hfault).1).stored e he
  obtain ⟨rehearsed, hrehearsal, hspared⟩ : ∃ report, recordedIn (.ofEntities d.before) policy d .automated = _ ∧ _ :=
    recordedIn_of_available hfault hseed.available
  obtain ⟨report, hrun, hpreserved⟩ : ∃ report, recordedIn s policy d p = _ ∧ _ :=
    recordedIn_of_available hfault havailable
  obtain ⟨hdeletable, hheld⟩ := guards_agree hfault ho ⟨hfailing, hstored⟩ ⟨hseed.failing, hseeded⟩
  rw [writtenIn_of_failing hfailing, writtenIn_of_failing hseed.failing] at hdeletable hheld
  rw [writtenIn_of_failing hseed.failing] at hrehearsal hspared
  rw [writtenIn_of_failing hfailing] at hrun hpreserved
  refine ⟨⟨_, rehearsed.preserved⟩, report, _, by rw [Plan.ofEntities_eq, hrehearsal]; rfl, hrun, ?_, ?_⟩
  · rw [List.map_append, List.map_append, map_step_writeCalls, map_step_removalCalls hdeletable]
  · exact hpreserved.trans ((congrArg Keyed.keys hheld).trans hspared.symm)

/-- Two services of three are dropped; the third comes to depend on one of them. -/
def handover : Diff Entity where
  before := ["api", "cache", "db"].map Sample.service
  after := [(Sample.service "api").withRelation "depends_on" (.one "db")]

/-- There are more services than that, and the third depends on the other of the two. -/
def crowd : LocalStore :=
  .ofEntities ((Sample.service "api").withRelation "depends_on" (.one "cache") ::
    ["cache", "db", "mail"].map Sample.service)

/-- What the service depended on is deleted, and what it comes to depend on is preserved. -/
theorem handover_foretold : ∃ report calls,
    recordedIn crowd {} handover .userTriggered = (.ok report, calls) ∧
    calls.map Plan.Step.ofCall = [⟨.upsertBatch, [Sample.serviceRef "api"]⟩,
      ⟨.lookUpRelated, [Sample.serviceRef "api"]⟩, ⟨.deleteBatch, [Sample.serviceRef "cache"]⟩] ∧
    report.preserved = [Sample.serviceRef "db"] := by
  obtain ⟨plan, report, calls, hplan, hrun, hsteps, hpreserved⟩ :=
    plan_foretells_run crowd {} handover .userTriggered (by decide +kernel) rfl rfl rfl (by decide +kernel)
  have hlisted : (Plan.ofEntities (m := Id) handover {}).run.toOption =
      some ⟨[⟨.upsertBatch, [Sample.serviceRef "api"]⟩, ⟨.lookUpRelated, [Sample.serviceRef "api"]⟩,
        ⟨.deleteBatch, [Sample.serviceRef "cache"]⟩], [Sample.serviceRef "db"]⟩ := by decide +kernel
  rw [hplan] at hlisted
  obtain rfl := Option.some.inj hlisted
  exact ⟨report, calls, hrun, hsteps, hpreserved⟩

end CatalogSync
