import CatalogSync.Entity.Sample
import CatalogSync.Proofs.Reconcile.InMemory

/-! Which keys that a run reports as deleted are stored all the same, over a store in memory.

Deletes one by one are told apart by their answers. A batch has one answer, and it is good whatever was left out: an
entity that refuses is passed over without a word, so the run counts it as deleted. It goes only along with another that
it relates to. -/

namespace CatalogSync.Reconcile
open Relation LocalStore

variable {policy : Policy} {p : Provenance} {xs : List Exchange} {s t u : LocalStore} {α : Type} [Linked α]
  {ys : List α} {removed : Removed} {kept : List EntityRef} {k : EntityRef}

/-- Of what a batch is to delete, this stays: it is stored, refuses, and relates to none that goes, directly or
    through others. -/
def Withstands (t : LocalStore) (deleted : List EntityRef) (k : EntityRef) : Prop :=
  t.contains k ∧ t.refuses k = true ∧
    ¬ ∃ r ∈ deleted, t.refuses r = false ∧ TransGen (Relates t.entities) k r

theorem Deleting.contains_deleted (h : Deleting policy p ys xs removed) (hkeyed : WellKeyed t.entities)
    (ho : policy.callOptions.validationOnly = false) (ha : Store.ofLocal.Answers t xs u) (hk : k ∈ removed.deleted) :
    u.contains k ↔ policy.cascadeDeletes ∧ Withstands t removed.deleted k := by
  cases hcascade : policy.cascadeDeletes with
  | false =>
    obtain ⟨-, hget⟩ := h.one_by_one hcascade ho ha
    rw [contains_iff, hget k, if_pos hk]
    simp
  | true =>
    obtain ⟨hdeleted, rfl⟩ := h.in_batch hcascade ho ha
    rw [← hdeleted]
    -- the roots of the cascade are the reported keys that do not refuse
    have hstays : k ∉ t.yielding removed.deleted ↔ t.refuses k = true := by simp [mem_yielding, hk]
    have hroots : (∃ r ∈ t.yielding removed.deleted, TransGen (Relates t.entities) k r) ↔
        ∃ r ∈ removed.deleted, t.refuses r = false ∧ TransGen (Relates t.entities) k r := by
      simp only [mem_yielding, and_assoc]
    have hcontains : (cascade t.entities (t.yielding removed.deleted)).contains k ↔ _ := contains_cascade_iff hkeyed
    rw [hstays, hroots] at hcontains
    exact hcontains.trans (and_iff_right rfl).symm

theorem DeletingGuarded.contains_deleted {preserved : List EntityRef}
    (h : DeletingGuarded policy p kept ys xs (.ok (removed, preserved))) (hkeyed : WellKeyed t.entities)
    (ho : policy.callOptions.validationOnly = false) (ha : Store.ofLocal.Answers t xs u) (hk : k ∈ removed.deleted) :
    u.contains k ↔ policy.cascadeDeletes ∧ Withstands t removed.deleted k := by
  cases h with
  | nothing => cases hk
  | guarded related _ hd => exact hd.contains_deleted hkeyed ho (answers_related ha).2 hk

/-- What is reported as deleted is stored in the end only if it withstood a batch. -/
theorem deleted_stays_iff_withstands (s : LocalStore) (policy : Policy) (p : Provenance)
    (hkeyed : WellKeyed s.entities) (ho : policy.options.validationOnly = false) :
    (∀ (d : Diff Entity) report u, applyIn s policy d p = (.ok report, u) → ∀ k ∈ report.deleted,
      (u.contains k ↔ policy.cascadeDeletes ∧ Withstands (afterWrites policy d s) report.deleted k)) ∧
    ∀ (d : Diff EntityRef) report u, deleteIn s policy d p = (.ok report, u) → ∀ k ∈ report.deleted,
      (u.contains k ↔ policy.cascadeDeletes ∧ Withstands s report.deleted k) := by
  constructor
  · intro d report u hrun k hk
    obtain ⟨xs, happ, ha⟩ := exists_applying s policy d p
    rw [hrun] at happ ha
    cases happ with
    | applied hfault hw hd =>
      obtain ⟨_, hwrites, hdeletes⟩ := Store.answers_append.mp ha
      obtain ⟨rfl, -⟩ := hw.afterWrites hfault hwrites
      exact hd.contains_deleted hkeyed.writeAll ho hdeletes hk
  · intro d report u hrun k hk
    obtain ⟨xs, hrem, ha⟩ := exists_removing s policy d p
    rw [hrun] at hrem ha
    cases hrem with
    | nothing => cases hk
    | removed _ _ hd => exact hd.contains_deleted hkeyed ho ha hk

/-- A store with one service, which refuses. -/
def stubborn : LocalStore := (LocalStore.ofEntities [Sample.service "api"]).failOn (Sample.serviceRef "api")

/-- It is reported as deleted, and is stored. -/
theorem stubborn_reported_deleted : ∃ report u,
    applyIn stubborn {} ⟨[Sample.service "api"], []⟩ .automated = (.ok report, u) ∧
    report.deleted = [Sample.serviceRef "api"] ∧ report.failedDeletes = [] ∧ u.contains (Sample.serviceRef "api") := by
  obtain ⟨report, hok, hdeleted, hfailed⟩ : ∃ report,
      (applyIn stubborn {} ⟨[Sample.service "api"], []⟩ .automated).1 = .ok report ∧
      report.deleted = [Sample.serviceRef "api"] ∧ report.failedDeletes = [] :=
    ⟨_, rfl, by decide +kernel, by decide +kernel⟩
  have hrun : applyIn stubborn {} ⟨[Sample.service "api"], []⟩ .automated = (.ok report, _) := Prod.ext hok rfl
  have hrefuses : stubborn.refuses (Sample.serviceRef "api") = true := by decide +kernel
  have hstays := (deleted_stays_iff_withstands stubborn {} .automated (willing_ofEntities _).keyed rfl).1 _ report _ hrun
    (Sample.serviceRef "api") (by simp [hdeleted])
  refine ⟨report, _, hrun, hdeleted, hfailed, hstays.mpr ⟨rfl, by decide +kernel, hrefuses, ?_⟩⟩
  rintro ⟨r, hr, hyields, -⟩
  rw [hdeleted, List.mem_singleton] at hr
  rw [hr] at hyields
  cases hrefuses.symm.trans hyields

end CatalogSync.Reconcile
