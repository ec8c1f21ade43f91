import CatalogSync.Entity.Sample
import CatalogSync.Proofs.Reconcile.Outcome

/-! It does not matter in which order a diff lists its entities, over a store in memory.

The order decides which entity is written or deleted first, where a cycle is broken, and at which root a cascade
starts. But writes of different keys do not meet, the guard asks only whether a key is among others, and a cascade ends
where all that depends on its roots is gone. -/

namespace CatalogSync

/-! ### The parts of a diff -/

section Diffs
variable {α : Type} [Keyed α] {d d' : Diff α}

theorem perm_keys_of_perm {xs ys : List α} (h : ys.Perm xs) : (Keyed.keys ys).Perm (Keyed.keys xs) := h.map _

theorem perm_changes (hb : d'.before.Perm d.before) (ha : d'.after.Perm d.after) :
    d'.changes.created.Perm d.changes.created ∧ d'.changes.modified.Perm d.changes.modified ∧
      d'.changes.deleted.Perm d.changes.deleted := by
  have hbefore : ∀ k, k ∈ Keyed.keys d'.before ↔ k ∈ Keyed.keys d.before := fun k => (perm_keys_of_perm hb).mem_iff
  have hafter : ∀ k, k ∈ Keyed.keys d'.after ↔ k ∈ Keyed.keys d.after := fun k => (perm_keys_of_perm ha).mem_iff
  simp only [Diff.changes, hbefore, hafter]
  exact ⟨ha.filter _, ha.filter _, hb.filter _⟩

theorem Reconcile.fault?_of_perms (hb : d'.before.Perm d.before) (ha : d'.after.Perm d.after)
    (h : Reconcile.fault? d = none) : Reconcile.fault? d' = none := by
  obtain ⟨hbefore, hafter⟩ := Option.or_eq_none_iff.mp h
  exact Option.or_eq_none_iff.mpr ⟨fault?_of_perm hb hbefore, fault?_of_perm ha hafter⟩

end Diffs

namespace LocalStore
variable {s : LocalStore} {entities : SortedMap EntityRef Entity} {o : CallOptions} {rs qs : List EntityRef} {k : EntityRef}

/-! ### Deletes -/

theorem deleteAll_congr (hkeyed : WellKeyed s.entities) (h : ∀ k, k ∈ rs ↔ k ∈ qs) :
    s.deleteAll rs o = s.deleteAll qs o := by
  have hallowed : ∀ k, k ∈ s.yielding rs ↔ k ∈ s.yielding qs := fun k => by rw [mem_yielding, mem_yielding, h]
  unfold deleteAll
  split
  · rfl
  · split
    · exact congrArg ({ s with entities := · }) (cascade_congr hkeyed fun k _ => hallowed k)
    · exact foldl_remove_congr hallowed

theorem mem_relatedRefs_congr (h : ∀ k, k ∈ rs ↔ k ∈ qs) : k ∈ s.relatedRefs rs ↔ k ∈ s.relatedRefs qs := by
  simp only [mem_relatedRefs, h]

end LocalStore

/-! ### Reports -/

/-- The reports count the same and list the same keys. -/
structure Report.Matches (r r' : Report) : Prop where
  provenance : r'.provenance = r.provenance
  created : r'.created = r.created
  modified : r'.modified = r.modified
  candidates : r'.candidates = r.candidates
  upserted : r'.upserted.Perm r.upserted
  failedUpserts : r'.failedUpserts.Perm r.failedUpserts
  deleted : r'.deleted.Perm r.deleted
  failedDeletes : r'.failedDeletes.Perm r.failedDeletes
  preserved : r'.preserved.Perm r.preserved

namespace Reconcile
open LocalStore

/-- Both fail for the same reason, or both succeed with reports that match. -/
def SameOutcome : Except ReconcileError Report → Except ReconcileError Report → Prop
  | .ok r, .ok r' => r.Matches r'
  | .error err, .error err' => err' = err
  | _, _ => False

variable {policy : Policy} {p : Provenance} {s t : LocalStore} {kept kept' : List EntityRef} {k : EntityRef}

/-! ### Candidates -/

section Candidates
variable {α : Type} [Linked α] {ys zs : List α}

theorem perm_guarded (hkept : ∀ k, k ∈ kept' ↔ k ∈ kept) (hp : zs.Perm ys) :
    ((guardOver policy t kept').deletable zs).Perm ((guardOver policy t kept).deletable ys) ∧
      ((guardOver policy t kept').preserved zs).Perm ((guardOver policy t kept).preserved ys) := by
  have hverdict : ∀ k ∈ Keyed.keys zs,
      (guardOver policy t kept').verdict k = .delete ↔ (guardOver policy t kept).verdict k = .delete := fun k _ => by
    rw [verdict_eq_delete_iff, verdict_eq_delete_iff, guardOver, guardOver, hkept, mem_relatedRefs_congr hkept]
  obtain ⟨hdeletable, hpreserved⟩ := deletable_congr hverdict
  rw [hdeletable, hpreserved]
  exact ⟨hp.filter _, hp.filter _⟩

theorem perm_reported (hp : zs.Perm ys) :
    (reported policy t zs).deleted.Perm (reported policy t ys).deleted ∧
      (reported policy t zs).failed.Perm (reported policy t ys).failed := by
  have horder : (order .deletion zs).Perm (order .deletion ys) := Order.perm_order.trans (hp.trans Order.perm_order.symm)
  unfold reported
  split
  · exact ⟨perm_keys_of_perm hp, .refl _⟩
  · exact ⟨(perm_keys_of_perm horder).filter _, (perm_keys_of_perm horder).filter _⟩

theorem removal_reordered (hkeyed : WellKeyed t.entities) (hkept : ∀ k, k ∈ kept' ↔ k ∈ kept) (hp : zs.Perm ys)
    {base base' : Report} (hbase : base.Matches base') :
    SameOutcome (conclude base (removal policy t kept ys).1) (conclude base' (removal policy t kept' zs).1) ∧
      (removal policy t kept' zs).2 = (removal policy t kept ys).2 := by
  by_cases hys : ys = []
  · obtain rfl := hys
    obtain rfl := hp.eq_nil
    exact ⟨{ hbase with deleted := .refl _, failedDeletes := .refl _, preserved := .refl _ }, rfl⟩
  · have hzs : zs ≠ [] := fun hnil => hys (hp.symm.trans (.of_eq hnil)).eq_nil
    cases havailable : t.relatedAvailable with
    | false =>
      rw [removal, removal, if_neg (by simpa using hys), if_neg (by simpa using hzs), LocalStore.related,
        LocalStore.related, havailable]
      exact ⟨rfl, rfl⟩
    | true =>
      obtain ⟨hdeletable, hpreserved⟩ := perm_guarded (t := t) hkept hp
      obtain ⟨hdeleted, hfailed⟩ := perm_reported (t := t) hdeletable
      rw [removal_of_available havailable hys, removal_of_available havailable hzs]
      exact ⟨{ hbase with
          deleted := hdeleted, failedDeletes := hfailed, preserved := perm_keys_of_perm hpreserved },
        deleteAll_congr hkeyed fun k => (perm_keys_of_perm hdeletable).mem_iff⟩

end Candidates

/-! ### Whole runs -/

theorem perm_inTurn_of_perm {es fs : List Entity} (h : fs.Perm es) : (inTurn policy fs).Perm (inTurn policy es) :=
  perm_inTurn.trans (h.trans perm_inTurn.symm)

theorem counted_matches {α : Type} [Keyed α] {d d' : Diff α} (hb : d'.before.Perm d.before)
    (ha : d'.after.Perm d.after) : (counted d.changes p).Matches (counted d'.changes p) := by
  obtain ⟨hcreated, hmodified, hdeleted⟩ := perm_changes hb ha
  exact ⟨rfl, hcreated.length_eq, hmodified.length_eq, hdeleted.length_eq, .refl _, .refl _, .refl _, .refl _, .refl _⟩

/-- Diffs that list the same entities in other orders come to the same. -/
theorem order_of_diff_is_immaterial (s : LocalStore) (policy : Policy) (p : Provenance) (hkeyed : WellKeyed s.entities) :
    (∀ d d' : Diff Entity, fault? d = none → d'.before.Perm d.before → d'.after.Perm d.after →
      SameOutcome (applyIn s policy d p).1 (applyIn s policy d' p).1 ∧
        (applyIn s policy d' p).2 = (applyIn s policy d p).2) ∧
    ∀ d d' : Diff EntityRef, fault? d = none → d'.before.Perm d.before → d'.after.Perm d.after →
      SameOutcome (deleteIn s policy d p).1 (deleteIn s policy d' p).1 ∧
        (deleteIn s policy d' p).2 = (deleteIn s policy d p).2 := by
  constructor
  · intro d d' hfault hb ha
    obtain ⟨hcreated, hmodified, hdeleted⟩ := perm_changes hb ha
    have hkept : d'.changes.kept.Perm d.changes.kept := hcreated.append hmodified
    have hinTurn : (inTurn policy d'.changes.kept).Perm (inTurn policy d.changes.kept) := perm_inTurn_of_perm hkept
    have hkeys := perm_keys_of_perm hinTurn
    have hwrites : afterWrites policy d' s = afterWrites policy d s := writeAll_perm (nodup_keys_kept hfault) hkept
    have hwritten : (writtenIn policy d' s).Perm (writtenIn policy d s) := hkeys.filter _
    have hbase : (reportedWrites policy d p s).Matches (reportedWrites policy d' p s) :=
      { counted_matches hb ha with upserted := hwritten, failedUpserts := hkeys.filter _ }
    rw [applyIn_eq hfault, applyIn_eq (fault?_of_perms hb ha hfault), removalIn, removalIn, hwrites]
    exact removal_reordered hkeyed.writeAll (fun k => hwritten.mem_iff) hdeleted hbase
  · intro d d' hfault hb ha
    obtain ⟨hcreated, hmodified, hdeleted⟩ := perm_changes hb ha
    have hkept : d'.changes.kept.Perm d.changes.kept := hcreated.append hmodified
    rw [deleteIn_eq hfault, deleteIn_eq (fault?_of_perms hb ha hfault)]
    exact removal_reordered hkeyed (fun k => hkept.mem_iff) hdeleted (counted_matches hb ha)

def dependent (identifier target : String) : Entity :=
  (Sample.service identifier).withRelation "depends_on" (.one target)

/-- Two services that depend on each other go, with one that depends on the first; what stays depends on that. -/
def tangle : Diff Entity where
  before := [dependent "a" "b", dependent "b" "a", dependent "c" "a", Sample.service "d"]
  after := [dependent "d" "c", Sample.service "e"]

/-- The same, listed from the end. -/
def tangleReversed : Diff Entity := ⟨tangle.before.reverse, tangle.after.reverse⟩

/-- One of the two refuses, and goes only along with the other. -/
def knot : LocalStore := (LocalStore.ofEntities tangle.before).failOn (Sample.serviceRef "b")

/-- The cascade starts at one of the two or at the other. -/
theorem tangle_reordered : ∃ report report' t,
    applyIn knot {} tangle .automated = (.ok report, t) ∧ applyIn knot {} tangleReversed .automated = (.ok report', t) ∧
    report.deleted = ["a", "b"].map Sample.serviceRef ∧ report'.deleted = ["b", "a"].map Sample.serviceRef ∧
    report.Matches report' := by
  have hkeyed : WellKeyed knot.entities := (willing_ofEntities tangle.before).keyed
  obtain ⟨hsame, hstored⟩ := (order_of_diff_is_immaterial knot {} .automated hkeyed).1 tangle tangleReversed
    (by decide +kernel) (List.reverse_perm _) (List.reverse_perm _)
  have hdeleted : (applyIn knot {} tangle .automated).1.toOption.map Report.deleted =
      some (["a", "b"].map Sample.serviceRef) := by decide +kernel
  have hdeleted' : (applyIn knot {} tangleReversed .automated).1.toOption.map Report.deleted =
      some (["b", "a"].map Sample.serviceRef) := by decide +kernel
  obtain ⟨report, t, hrun, hlist⟩ := exists_report hdeleted
  obtain ⟨report', t', hrun', hlist'⟩ := exists_report hdeleted'
  rw [hrun, hrun'] at hsame
  rw [hrun, hrun'] at hstored
  obtain rfl : t' = t := hstored
  exact ⟨report, report', t', hrun, hrun', hlist, hlist', hsame⟩

end Reconcile
end CatalogSync
