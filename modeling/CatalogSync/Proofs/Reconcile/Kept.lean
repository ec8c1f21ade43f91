import CatalogSync.Entity.Sample
import CatalogSync.Proofs.Reconcile.InMemory

/-! What a run leaves stored of what it reports as written or spared, over a store in memory.

Deletes one by one take nothing else along, so all of it stays. A batch takes along what relates to it, directly or
through others, and the guard looks at direct relations only: what a run has just written goes again if it
relates to something spared that relates to something deleted. -/

namespace CatalogSync.Reconcile
open Relation LocalStore

variable {policy : Policy} {p : Provenance} {es : List Entity} {xs : List Exchange} {w : Written} {s t u : LocalStore}
  {α : Type} [Linked α] {ys : List α} {removed : Removed} {k : EntityRef}

/-! ### What the guard lets stay -/

theorem mem_keys_preserved {g : Guard} (h : k ∈ Keyed.keys (g.preserved ys)) :
    k ∉ Keyed.keys (g.deletable ys) ∧ (k ∈ g.kept ∨ k ∈ g.related) := by
  obtain ⟨x, hx, rfl⟩ := List.mem_map.mp h
  obtain ⟨hx, hv⟩ := List.mem_filter.mp hx
  rw [decide_eq_true_eq, ne_eq, verdict_eq_delete_iff] at hv
  refine ⟨fun hd => hv (mem_keys_deletable.mp hd).2, ?_⟩
  rw [not_and_or, not_not, not_not] at hv
  exact hv.imp_right And.right

theorem DeletingGuarded.stays_iff {kept preserved : List EntityRef}
    (h : DeletingGuarded policy p kept ys xs (.ok (removed, preserved))) (ht : t.Willing)
    (ho : policy.callOptions.validationOnly = false) (ha : Store.ofLocal.Answers t xs u)
    (hkept : ∀ r ∈ kept, t.contains r) (hk : k ∈ kept ∨ k ∈ preserved) :
    u.contains k ↔
      ¬ (policy.cascadeDeletes ∧ ∃ r ∈ removed.deleted, TransGen (Relates t.entities) k r) := by
  cases h with
  | nothing =>
    cases ha
    have hk := hk.resolve_right List.not_mem_nil
    simp [hkept k hk]
  | guarded related _ hd =>
    obtain ⟨hrelated, ha⟩ := answers_related ha
    rw [LocalStore.related, if_pos ht.available] at hrelated
    obtain ⟨hdeleted, hcontains⟩ := hd.of_willing ht ho ha
    have hstored : t.contains k ∧ k ∉ removed.deleted := by
      rw [hdeleted]
      rcases hk with hk | hk
      · exact ⟨hkept k hk, fun hdel => (mem_keys_deletable.mp hdel).2.1 hk⟩
      · obtain ⟨hnot, hk⟩ := mem_keys_preserved hk
        rw [Except.ok.inj hrelated] at hk
        exact ⟨hk.elim (hkept k) contains_of_mem_relatedRefs, hnot⟩
    rw [hcontains k]
    exact ⟨fun h => h.2.2, fun h => ⟨hstored.1, hstored.2, h⟩⟩

/-! ### Whole runs -/

/-- What is written or spared stays stored, unless deletes take dependents along and it relates to what was deleted,
directly or through others. -/
theorem stays_unless_dependent (es : List Entity) (policy : Policy) (d : Diff Entity) (p : Provenance)
    (hauto : policy.autoCreateRelated = true) (ho : policy.options.validationOnly = false) {report : Report}
    (hrun : applyIn (.ofEntities es) policy d p = (.ok report, s)) (hk : k ∈ report.upserted ∨ k ∈ report.preserved) :
    s.contains k ↔ ¬ (policy.cascadeDeletes ∧
      ∃ r ∈ report.deleted, TransGen (Relates (afterWrites policy d (.ofEntities es)).entities) k r) := by
  obtain ⟨xs, happ, hanswers⟩ := exists_applying (.ofEntities es) policy d p
  rw [hrun] at happ hanswers
  replace ho : policy.callOptions.validationOnly = false := ho
  cases happ with
  | applied hfault hw hd =>
    obtain ⟨t, hwrites, hdeletes⟩ := Store.answers_append.mp hanswers
    obtain ⟨rfl, hkeys⟩ := hw.of_willing (willing_ofEntities es) hwrites
    rw [inTurn, if_pos hauto] at hkeys hdeletes
    obtain ⟨ht, hcontains⟩ := (willing_ofEntities es).writeAll ho d.changes.kept
    refine hd.stays_iff ht ho hdeletes (fun r hr => (hcontains r).mpr (.inl ?_)) hk
    rwa [← hkeys]

/-- Of a chain of three the last is kept: the middle one is spared, the first is deleted. -/
def chainCut : Diff Entity := ⟨Sample.chain "service" 3, [Sample.link "service" 2]⟩

/-- Neither what was written nor what was spared is stored in the end. -/
theorem chainCut_leaves_nothing : ∃ report s,
    applyIn (.ofEntities chainCut.before) {} chainCut .automated = (.ok report, s) ∧
    report.upserted = [Sample.serviceRef "service-2"] ∧ report.preserved = [Sample.serviceRef "service-1"] ∧
    report.deleted = [Sample.serviceRef "service-0"] ∧
    ¬ s.contains (Sample.serviceRef "service-2") ∧ ¬ s.contains (Sample.serviceRef "service-1") := by
  obtain ⟨report, hok, hupserted, hpreserved, hdeleted⟩ : ∃ report,
      (applyIn (.ofEntities chainCut.before) {} chainCut .automated).1 = .ok report ∧
      report.upserted = [Sample.serviceRef "service-2"] ∧ report.preserved = [Sample.serviceRef "service-1"] ∧
      report.deleted = [Sample.serviceRef "service-0"] :=
    ⟨_, rfl, by decide +kernel, by decide +kernel, by decide +kernel⟩
  have hrun : applyIn (.ofEntities chainCut.before) {} chainCut .automated = (.ok report, _) := Prod.ext hok rfl
  let stored := (afterWrites {} chainCut (.ofEntities chainCut.before)).entities
  have hlast : Relates stored (Sample.serviceRef "service-2") (Sample.serviceRef "service-1") :=
    ⟨by decide +kernel, _, rfl, by decide +kernel⟩
  have hmiddle : Relates stored (Sample.serviceRef "service-1") (Sample.serviceRef "service-0") :=
    ⟨by decide +kernel, _, rfl, by decide +kernel⟩
  have hroot : Sample.serviceRef "service-0" ∈ report.deleted := by simp [hdeleted]
  refine ⟨report, _, hrun, hupserted, hpreserved, hdeleted, ?_, ?_⟩
  · rw [stays_unless_dependent _ _ _ _ rfl rfl hrun (.inl (by simp [hupserted])), not_not]
    exact ⟨rfl, _, hroot, .tail (.single hlast) hmiddle⟩
  · rw [stays_unless_dependent _ _ _ _ rfl rfl hrun (.inr (by simp [hpreserved])), not_not]
    exact ⟨rfl, _, hroot, .single hmiddle⟩

end CatalogSync.Reconcile
