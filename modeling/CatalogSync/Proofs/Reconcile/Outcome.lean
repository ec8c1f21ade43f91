import CatalogSync.Proofs.Reconcile.InMemory

/-! What a run over a store in memory comes to, as a function of that store.

The writes leave one state behind, and what becomes of the candidates depends on that state alone. So two runs are
compared by what they have stored when the guard is asked. -/

namespace CatalogSync.Reconcile
open LocalStore

variable {policy : Policy} {p : Provenance} {xs : List Exchange} {s t u : LocalStore} {kept : List EntityRef}

/-! ### Candidates -/

section Candidates
variable {α : Type} [Linked α] {ys : List α} {result : Except StoreError (Removed × List EntityRef)}

/-- What the guard goes by. -/
def guardOver (policy : Policy) (t : LocalStore) (kept : List EntityRef) : Guard :=
  ⟨kept, t.relatedRefs kept, policy.autoCreateRelated⟩

/-- What becomes of the candidates `ys`: they are guarded, and those let go are deleted. -/
def removal (policy : Policy) (t : LocalStore) (kept : List EntityRef) (ys : List α) :
    Except StoreError (Removed × List EntityRef) × LocalStore :=
  if ys.isEmpty then (.ok ({}, []), t)
  else
    match t.related kept with
    | .error err => (.error err, t)
    | .ok _ =>
      let leaving := (guardOver policy t kept).deletable ys
      (.ok (reported policy t leaving, Keyed.keys ((guardOver policy t kept).preserved ys)),
        t.deleteAll (Keyed.keys leaving) policy.callOptions)

/-- Two guards that let the same candidates go. -/
theorem deletable_congr {g g' : Guard} (h : ∀ k ∈ Keyed.keys ys, g.verdict k = .delete ↔ g'.verdict k = .delete) :
    g.deletable ys = g'.deletable ys ∧ g.preserved ys = g'.preserved ys := by
  have hverdict : ∀ y ∈ ys, g.verdict (Keyed.key y) = .delete ↔ g'.verdict (Keyed.key y) = .delete := fun y hy =>
    h _ (List.mem_map_of_mem hy)
  constructor
  · exact List.filter_congr fun y hy => decide_eq_decide.mpr (hverdict y hy)
  · exact List.filter_congr fun y hy => decide_eq_decide.mpr (not_congr (hverdict y hy))

theorem reported_congr (h : Alike s t) : reported policy t ys = reported policy s ys := by
  simp only [reported, h.yielding_eq, funext h.refuses]

theorem related_of_available (h : t.relatedAvailable = true) : t.related kept = .ok (t.relatedRefs kept) := if_pos h

theorem related_eq_ok {related : List EntityRef} (h : t.related kept = .ok related) :
    t.relatedAvailable = true ∧ related = t.relatedRefs kept := by
  rw [LocalStore.related] at h
  split at h
  · rename_i havailable
    exact ⟨havailable, (Except.ok.inj h).symm⟩
  · cases h

theorem removal_nil : removal policy t kept ([] : List α) = (.ok ({}, []), t) := rfl

theorem removal_of_available (h : t.relatedAvailable = true) (hys : ys ≠ []) :
    removal policy t kept ys =
      (.ok (reported policy t ((guardOver policy t kept).deletable ys),
          Keyed.keys ((guardOver policy t kept).preserved ys)),
        t.deleteAll (Keyed.keys ((guardOver policy t kept).deletable ys)) policy.callOptions) := by
  rw [removal, if_neg (by simpa using hys), related_of_available h]

theorem DeletingGuarded.eq_removal (h : DeletingGuarded policy p kept ys xs result)
    (ha : Store.ofLocal.Answers t xs u) : removal policy t kept ys = (result, u) := by
  cases h with
  | nothing =>
    cases ha
    rfl
  | lookupFailed err hys =>
    obtain ⟨hrelated, ha⟩ := answers_related ha
    cases ha
    rw [removal, if_neg (by simpa using hys), ← hrelated]
  | guarded related hys hd =>
    obtain ⟨hrelated, hdeletes⟩ := answers_related ha
    obtain ⟨havailable, rfl⟩ := related_eq_ok hrelated.symm
    obtain ⟨rfl, rfl⟩ := hd.eq_deleteAll hdeletes
    rw [removal_of_available havailable hys]
    rfl

end Candidates

/-! ### Whole runs -/

/-- A run whose report says `b` was successful. -/
theorem exists_report {β : Type} {run : Except ReconcileError Report × LocalStore} {f : Report → β} {b : β}
    (h : run.1.toOption.map f = some b) : ∃ report t, run = (.ok report, t) ∧ f report = b := by
  obtain ⟨result, t⟩ := run
  obtain ⟨report, hreport, hb⟩ := Option.map_eq_some_iff.mp h
  cases result with
  | error err => cases hreport
  | ok =>
    obtain rfl := Option.some.inj hreport
    exact ⟨_, t, rfl, hb⟩

/-- The result of a run that has `base` to report when the candidates are left. -/
def conclude (base : Report) : Except StoreError (Removed × List EntityRef) → Except ReconcileError Report
  | .error err => .error (.relatedLookup err)
  | .ok (removed, preserved) => .ok { base with deleted := removed.deleted, failedDeletes := removed.failed, preserved }

/-- The keys that are written, as they come. -/
def writtenIn (policy : Policy) (d : Diff Entity) (s : LocalStore) : List EntityRef :=
  s.yielding (Keyed.keys (inTurn policy d.changes.kept))

section Written
variable {d : Diff Entity} {k : EntityRef}

theorem mem_writtenIn : k ∈ writtenIn policy d s ↔ k ∈ Keyed.keys d.after ∧ s.refuses k = false := by
  rw [writtenIn, mem_yielding, ← mem_keys_kept]
  exact and_congr_left fun _ => (perm_inTurn.map Keyed.key).mem_iff

theorem writtenIn_congr (h : Alike s t) : writtenIn policy d t = writtenIn policy d s := h.yielding_eq

end Written

/-- What a run has to report of its writes. -/
def reportedWrites (policy : Policy) (d : Diff Entity) (p : Provenance) (s : LocalStore) : Report :=
  { counted d.changes p with
    upserted := writtenIn policy d s
    failedUpserts := (Keyed.keys (inTurn policy d.changes.kept)).filter s.refuses }

/-- What becomes of the candidates of a run. -/
def removalIn (policy : Policy) (d : Diff Entity) (s : LocalStore) :
    Except StoreError (Removed × List EntityRef) × LocalStore :=
  removal policy (afterWrites policy d s) (writtenIn policy d s) d.changes.deleted

theorem Applying.of_fault {d : Diff Entity} {fault : Fault} {result : Except ReconcileError Report}
    (h : Applying policy p d xs result) (hfault : fault? d = some fault) : xs = [] ∧ result = .error (.invalid fault) := by
  cases h with
  | invalid fault' hfault' =>
    obtain rfl := Option.some.inj (hfault.symm.trans hfault')
    exact ⟨rfl, rfl⟩
  | lookupFailed _ hnone => cases hfault.symm.trans hnone
  | applied hnone => cases hfault.symm.trans hnone

theorem applyIn_of_fault {d : Diff Entity} {fault : Fault} (hfault : fault? d = some fault) :
    applyIn s policy d p = (.error (.invalid fault), s) := by
  obtain ⟨xs, happ, ha⟩ := exists_applying s policy d p
  generalize applyIn s policy d p = run at happ ha
  obtain ⟨result, t⟩ := run
  obtain ⟨rfl, rfl⟩ := happ.of_fault hfault
  cases ha
  rfl

theorem applyIn_eq {d : Diff Entity} (hfault : fault? d = none) :
    applyIn s policy d p = (conclude (reportedWrites policy d p s) (removalIn policy d s).1, (removalIn policy d s).2) := by
  obtain ⟨xs, happ, ha⟩ := exists_applying s policy d p
  generalize applyIn s policy d p = run at happ ha
  obtain ⟨result, u⟩ := run
  cases happ with
  | invalid fault hsome => cases hfault.symm.trans hsome
  | lookupFailed err _ hw hd =>
    obtain ⟨_, hwrites, hdeletes⟩ := Store.answers_append.mp ha
    obtain ⟨rfl, -⟩ := hw.afterWrites hfault hwrites
    obtain ⟨-, hversions⟩ := hw.of_answers hwrites
    rw [hversions] at hd
    have hremoval : removalIn policy d s = _ := hd.eq_removal hdeletes
    rw [hremoval]
    rfl
  | applied _ hw hd =>
    obtain ⟨_, hwrites, hdeletes⟩ := Store.answers_append.mp ha
    obtain ⟨rfl, -⟩ := hw.afterWrites hfault hwrites
    obtain ⟨-, rfl⟩ := hw.eq_writeAll hwrites
    obtain ⟨hversions, hfailed⟩ : _ ∧ (Written.ofResults (inTurn policy d.changes.kept) _).failed = _ :=
      ofResults_writeAll
    rw [hversions] at hd
    have hremoval : removalIn policy d s = _ := hd.eq_removal hdeletes
    rw [hremoval, hversions, hfailed]
    rfl

theorem Removing.of_fault {d : Diff EntityRef} {fault : Fault} {result : Except ReconcileError Report}
    (h : Removing policy p d xs result) (hfault : fault? d = some fault) : xs = [] ∧ result = .error (.invalid fault) := by
  cases h with
  | invalid fault' hfault' =>
    obtain rfl := Option.some.inj (hfault.symm.trans hfault')
    exact ⟨rfl, rfl⟩
  | nothing hnone => cases hfault.symm.trans hnone
  | lookupFailed _ hnone => cases hfault.symm.trans hnone
  | removed hnone => cases hfault.symm.trans hnone

theorem deleteIn_of_fault {d : Diff EntityRef} {fault : Fault} (hfault : fault? d = some fault) :
    deleteIn s policy d p = (.error (.invalid fault), s) := by
  obtain ⟨xs, hrem, ha⟩ := exists_removing s policy d p
  generalize deleteIn s policy d p = run at hrem ha
  obtain ⟨result, t⟩ := run
  obtain ⟨rfl, rfl⟩ := hrem.of_fault hfault
  cases ha
  rfl

theorem deleteIn_eq {d : Diff EntityRef} (hfault : fault? d = none) :
    deleteIn s policy d p =
      (conclude (counted d.changes p) (removal policy s d.changes.kept d.changes.deleted).1,
        (removal policy s d.changes.kept d.changes.deleted).2) := by
  obtain ⟨xs, hrem, ha⟩ := exists_removing s policy d p
  generalize deleteIn s policy d p = run at hrem ha
  obtain ⟨result, u⟩ := run
  cases hrem with
  | invalid fault hsome => cases hfault.symm.trans hsome
  | nothing _ hnil =>
    cases ha
    rw [hnil, removal_nil]
    rfl
  | lookupFailed err _ _ hd =>
    rw [hd.eq_removal ha]
    rfl
  | removed _ _ hd =>
    rw [hd.eq_removal ha]
    rfl

end CatalogSync.Reconcile
