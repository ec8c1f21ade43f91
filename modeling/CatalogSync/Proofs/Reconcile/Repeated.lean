import CatalogSync.Entity.Sample
import CatalogSync.Proofs.Reconcile.Outcome

/-! A run made once more changes nothing and has the same to report, when deletes take nothing else along.

It finds each entity as it has written it, and of the candidates those that were spared or refused. One that went was
not related to, so the guard, which now does not find it stored, lets it go again; the others are stored as before,
and so is what they were compared with. -/

namespace CatalogSync

namespace LocalStore
variable {s t : LocalStore} {e : Entity} {es : List Entity} {o : CallOptions} {k : EntityRef} {rs : List EntityRef}

/-! ### Writing and deleting once more -/

theorem insert_insert : (s.insert e).insert e = s.insert e := by
  refine eq_of_get? ⟨rfl, rfl⟩ fun k => ?_
  rw [get?_insert, get?_insert]
  split <;> rfl

/-- What was merged has nothing to gain from itself. -/
theorem merged_merged (merge : Bool) : (s.insert (s.merged e merge)).merged e merge = s.merged e merge := by
  cases merge with
  | false => rw [merged_false, merged_false]
  | true =>
    have hstored : (s.insert (s.merged e true)).get? e.key = some (s.merged e true) := by
      rw [get?_insert, merged_key, if_pos rfl]
    have hself : e.properties.orElse (s.merged e true).properties = (s.merged e true).properties := by
      refine SortedMap.ext fun name => ?_
      unfold merged
      cases s.get? e.key with
      | none => rw [SortedMap.get?_orElse, Option.or_self]
      | some old => simp only [if_true, SortedMap.get?_orElse, ← Option.or_assoc, Option.or_self]
    have hmerged : (s.insert (s.merged e true)).merged e true =
        { e with properties := e.properties.orElse (s.merged e true).properties } := by
      rw [merged, hstored]
      rfl
    rw [hmerged, hself]
    unfold merged
    split <;> rfl

theorem write_write : (s.write e o).2.write e o = s.write e o := by
  have halike : Alike s (s.write e o).2 := alike_write
  cases hr : s.refuses e.key with
  | true => rw [write_of_refuses hr, write_of_refuses hr]
  | false =>
    cases ho : o.validationOnly with
    | true =>
      have hwrite : (s.write e o).2 = s := by simp [write, hr, ho]
      rw [hwrite]
    | false =>
      rw [write_of_not_refuses ((halike.refuses _).trans hr) ho, write_of_not_refuses hr ho]
      simp only [merged_merged, insert_insert]

/-- Entities that are stored as they were written can be written again. -/
theorem writeAll_again (hn : (Keyed.keys es).Nodup) (halike : Alike s t)
    (hheld : ∀ k ∈ Keyed.keys es, t.get? k = (s.writeAll o es).2.get? k) : (t.writeAll o es).2 = t := by
  refine eq_of_get? alike_writeAll fun k => ?_
  by_cases hk : k ∈ Keyed.keys es
  · obtain ⟨e, he, rfl⟩ := List.mem_map.mp hk
    have hwritten : t.get? e.key = (s.write e o).2.get? e.key := (hheld _ hk).trans (writeAll_of_mem hn he)
    calc
      (t.writeAll o es).2.get? e.key = (t.write e o).2.get? e.key := writeAll_of_mem hn he
      _ = ((s.write e o).2.write e o).2.get? e.key := get?_write_congr (alike_write.symm.trans halike) hwritten
      _ = (s.write e o).2.get? e.key := by rw [write_write]
      _ = t.get? e.key := hwritten.symm
  · exact get?_writeAll_of_notMem hk

theorem deleteAll_of_validationOnly (ho : o.validationOnly = true) : s.deleteAll rs o = s := if_pos ho

theorem deleteAll_deleteAll (ho : o.validationOnly = false) (hd : o.deleteDependents = false) :
    (s.deleteAll rs o).deleteAll rs o = s.deleteAll rs o := by
  have halike : Alike s (s.deleteAll rs o) := alike_deleteAll
  refine eq_of_get? alike_deleteAll fun k => ?_
  rw [get?_deleteAll ho hd, halike.yielding_eq, get?_deleteAll ho hd]
  split <;> rfl

end LocalStore

namespace Reconcile
open LocalStore

variable {policy : Policy} {p : Provenance} {s t : LocalStore} {kept : List EntityRef} {k : EntityRef}

/-! ### The candidates once more -/

section Candidates
variable {α : Type} [Linked α] {ys : List α}

theorem verdict_guardOver : (guardOver policy t kept).verdict k = .delete ↔
    k ∉ kept ∧ ¬ (policy.autoCreateRelated ∧ t.contains k ∧
      ∃ r ∈ kept, ∃ e, t.get? r = some e ∧ k.identifier ∈ e.targets) := by
  rw [verdict_eq_delete_iff, guardOver, mem_relatedRefs]

/-- The guard decides as before once what it let go is removed. -/
theorem verdict_deleteAll {o : CallOptions} (ho : o.validationOnly = false) (hd : o.deleteDependents = false)
    (hkept : ∀ r ∈ kept, r ∉ Keyed.keys ys) :
    (guardOver policy (t.deleteAll (Keyed.keys ((guardOver policy t kept).deletable ys)) o) kept).verdict k = .delete ↔
      (guardOver policy t kept).verdict k = .delete := by
  set leaving := Keyed.keys ((guardOver policy t kept).deletable ys) with hleaving
  have hleaves : ∀ k, k ∈ leaving ↔ k ∈ Keyed.keys ys ∧ (guardOver policy t kept).verdict k = .delete := fun k => by
    rw [verdict_eq_delete_iff]
    exact mem_keys_deletable
  have hget : ∀ k, k ∉ leaving → (t.deleteAll leaving o).get? k = t.get? k := fun k hk => by
    rw [get?_deleteAll ho hd, if_neg fun hy => hk (mem_yielding.mp hy).1]
  have hrelations : (∃ r ∈ kept, ∃ e, (t.deleteAll leaving o).get? r = some e ∧ k.identifier ∈ e.targets) ↔
      ∃ r ∈ kept, ∃ e, t.get? r = some e ∧ k.identifier ∈ e.targets := by
    refine exists_congr fun r => and_congr_right fun hr => ?_
    rw [hget r fun hl => hkept r hr ((hleaves r).mp hl).1]
  rw [verdict_guardOver, hrelations]
  by_cases hl : k ∈ leaving
  · -- it goes, so it is not held back when it is stored, nor when it is not
    have hgoes := ((hleaves k).mp hl).2
    refine iff_of_true ?_ hgoes
    obtain ⟨hnot, hfree⟩ := verdict_guardOver.mp hgoes
    refine ⟨hnot, fun ⟨hauto, hstored, hrelated⟩ => hfree ⟨hauto, ?_, hrelated⟩⟩
    rw [contains_iff, get?_deleteAll ho hd] at hstored
    split at hstored
    · simp at hstored
    · exact contains_iff.mpr hstored
  · rw [verdict_guardOver, contains_iff, contains_iff, hget k hl]

theorem removal_again (hcascade : policy.cascadeDeletes = false) (hkept : ∀ r ∈ kept, r ∉ Keyed.keys ys) :
    removal policy (removal policy t kept ys).2 kept ys = removal policy t kept ys := by
  cases hys : ys with
  | nil => rfl
  | cons y ys' =>
    rw [← hys]
    have hne : ys ≠ [] := by simp [hys]
    cases havailable : t.relatedAvailable with
    | false =>
      have hrest : (removal policy t kept ys).2 = t := by
        simp [removal, LocalStore.related, havailable, hys]
      rw [hrest]
    | true =>
      have hremoval : removal policy t kept ys = _ := removal_of_available havailable hne
      cases ho : policy.options.validationOnly with
      | true =>
        have hrest : (removal policy t kept ys).2 = t := by
          rw [hremoval]
          exact deleteAll_of_validationOnly ho
        rw [hrest]
      | false =>
        set leaving := (guardOver policy t kept).deletable ys with hleaving
        set u := t.deleteAll (Keyed.keys leaving) policy.callOptions with hu
        have halike : Alike t u := alike_deleteAll
        have hverdict : ∀ k ∈ Keyed.keys ys,
            (guardOver policy u kept).verdict k = .delete ↔ (guardOver policy t kept).verdict k = .delete := fun k _ =>
          verdict_deleteAll ho hcascade hkept
        obtain ⟨hdeletable, hpreserved⟩ := deletable_congr hverdict
        rw [hremoval, removal_of_available (halike.available.trans havailable) hne]
        rw [hdeletable, hpreserved, reported_congr halike]
        exact congrArg _ (deleteAll_deleteAll ho hcascade)

end Candidates

/-! ### Whole runs -/

section Whole
variable {d : Diff Entity}

theorem alike_removal {α : Type} [Linked α] {ys : List α} : Alike t (removal policy t kept ys).2 := by
  unfold removal
  split
  · exact .refl t
  · split
    · exact .refl t
    · exact alike_deleteAll

theorem get?_removal {α : Type} [Linked α] {ys : List α} (hcascade : policy.cascadeDeletes = false)
    (hk : k ∉ Keyed.keys ys) : (removal policy t kept ys).2.get? k = t.get? k := by
  unfold removal
  split
  · rfl
  · split
    · rfl
    · show (t.deleteAll (Keyed.keys ((guardOver policy t kept).deletable ys)) policy.callOptions).get? k = t.get? k
      cases ho : policy.callOptions.validationOnly with
      | true => rw [deleteAll_of_validationOnly ho]
      | false =>
        rw [get?_deleteAll ho hcascade, if_neg fun hy => hk ?_]
        exact (mem_keys_deletable.mp (mem_yielding.mp hy).1).1

theorem removalIn_again (hfault : fault? d = none) (hcascade : policy.cascadeDeletes = false) :
    removalIn policy d (removalIn policy d s).2 = removalIn policy d s := by
  set t := (removalIn policy d s).2 with ht
  have halike : Alike s t := (alike_writeAll : Alike s (afterWrites policy d s)).trans alike_removal
  have hheld : ∀ k ∈ Keyed.keys d.changes.kept, t.get? k = (afterWrites policy d s).get? k := fun k hk =>
    get?_removal hcascade fun hdeleted => (mem_keys_deleted.mp hdeleted).2 (mem_keys_kept.mp hk)
  have hwrites : afterWrites policy d t = t := writeAll_again (nodup_keys_kept hfault) halike hheld
  have hkept : ∀ r ∈ writtenIn policy d s, r ∉ Keyed.keys d.changes.deleted := fun r hr hdeleted =>
    (mem_keys_deleted.mp hdeleted).2 (mem_writtenIn.mp hr).1
  calc
    removalIn policy d t = removal policy t (writtenIn policy d s) d.changes.deleted := by
      rw [removalIn, hwrites, writtenIn_congr halike]
    _ = removalIn policy d s := removal_again hcascade hkept

theorem conclude_provenance (base : Report) (q : Provenance) (outcome : Except StoreError (Removed × List EntityRef)) :
    conclude { base with provenance := q } outcome =
      (conclude base outcome).map fun report => { report with provenance := q } := by
  cases outcome <;> rfl

theorem applyIn_again {q : Provenance} (hcascade : policy.cascadeDeletes = false) :
    applyIn (applyIn s policy d p).2 policy d q =
      ((applyIn s policy d p).1.map fun report => { report with provenance := q }, (applyIn s policy d p).2) := by
  cases hfault : fault? d with
  | some fault =>
    rw [applyIn_of_fault hfault, applyIn_of_fault hfault]
    rfl
  | none =>
    have halike : Alike s (removalIn policy d s).2 :=
      (alike_writeAll : Alike s (afterWrites policy d s)).trans alike_removal
    have hbase : reportedWrites policy d q (removalIn policy d s).2 =
        { reportedWrites policy d p s with provenance := q } := by
      rw [reportedWrites, writtenIn_congr halike, funext halike.refuses]
      rfl
    rw [applyIn_eq hfault, applyIn_eq hfault, removalIn_again hfault hcascade, hbase, conclude_provenance]

theorem deleteIn_again {d : Diff EntityRef} {q : Provenance} (hcascade : policy.cascadeDeletes = false) :
    deleteIn (deleteIn s policy d p).2 policy d q =
      ((deleteIn s policy d p).1.map fun report => { report with provenance := q }, (deleteIn s policy d p).2) := by
  cases hfault : fault? d with
  | some fault =>
    rw [deleteIn_of_fault hfault, deleteIn_of_fault hfault]
    rfl
  | none =>
    have hkept : ∀ r ∈ d.changes.kept, r ∉ Keyed.keys d.changes.deleted := fun r hr hdeleted =>
      (mem_keys_deleted.mp hdeleted).2 (mem_keys_kept.mp (by simpa [Keyed.keys, Keyed.key] using hr))
    rw [deleteIn_eq hfault, deleteIn_eq hfault, removal_again hcascade hkept]
    exact congrArg (·, _) (conclude_provenance (counted d.changes p) q _)

end Whole

/-- The second run may be initiated by someone else; that is all that its report says otherwise. -/
theorem second_run_changes_nothing (s : LocalStore) (policy : Policy) (p q : Provenance)
    (hcascade : policy.cascadeDeletes = false) :
    (∀ d : Diff Entity,
      let (result, t) := applyIn s policy d p
      applyIn t policy d q = (result.map fun report => { report with provenance := q }, t)) ∧
    ∀ d : Diff EntityRef,
      let (result, t) := deleteIn s policy d p
      deleteIn t policy d q = (result.map fun report => { report with provenance := q }, t) := by
  constructor
  · intro d
    exact applyIn_again hcascade
  · intro d
    exact deleteIn_again hcascade

/-- Of a chain of four the last is kept. -/
def retreat : Diff Entity := ⟨Sample.chain "service" 4, [Sample.link "service" 3]⟩

/-- The first of the chain refuses, and the last has a property of its own here. -/
def garrison : LocalStore :=
  (LocalStore.ofEntities ((Sample.chain "service" 3) ++
    [(Sample.link "service" 3).withProperty "tier" (.string "gold")])).failOn (Sample.serviceRef "service-0")

def mergingOneByOne : Policy := { cascadeDeletes := false, options := { merge := true } }

/-- Of the three that disappeared each time one counts as deleted, one fails and one is spared. -/
theorem retreat_repeated : ∃ report t,
    applyIn garrison mergingOneByOne retreat .automated = (.ok report, t) ∧
    report.deleted = [Sample.serviceRef "service-1"] ∧ report.failedDeletes = [Sample.serviceRef "service-0"] ∧
    report.preserved = [Sample.serviceRef "service-2"] ∧
    applyIn t mergingOneByOne retreat .userTriggered = (.ok { report with provenance := .userTriggered }, t) := by
  have htold : (applyIn garrison mergingOneByOne retreat .automated).1.toOption.map
      (fun r => (r.deleted, r.failedDeletes, r.preserved)) = some ([Sample.serviceRef "service-1"],
        [Sample.serviceRef "service-0"], [Sample.serviceRef "service-2"]) := by decide +kernel
  obtain ⟨report, t, hrun, hlists⟩ := exists_report htold
  obtain ⟨hdeleted, hfailed, hpreserved⟩ := by simpa only [Prod.mk.injEq] using hlists
  have hagain := (second_run_changes_nothing garrison mergingOneByOne .automated .userTriggered rfl).1 retreat
  rw [hrun] at hagain
  exact ⟨report, t, hrun, hdeleted, hfailed, hpreserved, hagain⟩

end Reconcile
end CatalogSync
