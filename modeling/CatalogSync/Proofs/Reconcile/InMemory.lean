import CatalogSync.Proofs.Reconcile.Deletions
import CatalogSync.Proofs.Store.Cascade
import CatalogSync.Proofs.Store.Willing

/-! Runs over a store in memory: what each phase leaves stored, and what it reports. -/

namespace CatalogSync.Reconcile
open Relation LocalStore

variable {policy : Policy} {p : Provenance} {o : CallOptions} {es : List Entity} {xs : List Exchange} {w : Written}
  {s t u : LocalStore} {α : Type} [Linked α] {ys : List α} {removed : Removed} {k : EntityRef}

/-! ### Writing -/

/-- In the order in which they are written. -/
def inTurn (policy : Policy) (es : List Entity) : List Entity :=
  if policy.autoCreateRelated then es else order .creation es

theorem perm_inTurn : (inTurn policy es).Perm es := by
  unfold inTurn
  split
  · exact .refl _
  · exact Order.perm_order

/-- A version is stored of each entity that is not refused. -/
theorem ofResults_writeAll :
    Keyed.keys (Written.ofResults es (s.writeAll o es).1).versions = s.yielding (Keyed.keys es) ∧
      (Written.ofResults es (s.writeAll o es).1).failed = (Keyed.keys es).filter s.refuses := by
  induction es generalizing s with
  | nil => exact ⟨rfl, rfl⟩
  | cons e es ih =>
    obtain ⟨hversions, hfailed⟩ := ih (s := (s.write e o).2)
    have halike : Alike s (s.write e o).2 := alike_write
    rw [halike.yielding_eq] at hversions
    rw [funext halike.refuses] at hfailed
    have hkeys : Keyed.keys (e :: es) = e.key :: Keyed.keys es := rfl
    have hresults : (s.writeAll o (e :: es)).1 = (s.write e o).1 :: ((s.write e o).2.writeAll o es).1 := rfl
    rw [hkeys, hresults]
    cases hr : s.refuses e.key with
    | true =>
      rw [yielding_cons_of_refuses hr, List.filter_cons_of_pos hr, ← hversions, ← hfailed, write_of_refuses hr]
      exact ⟨rfl, rfl⟩
    | false =>
      have hversion : (s.write e o).1 = .ok (s.merged e o.merge) := by simp [write, hr]
      have hnot : ¬ s.refuses e.key = true := by simp [hr]
      rw [yielding_cons_of_not_refuses hr, List.filter_cons_of_neg hnot, ← hversions, ← hfailed, hversion,
        ← merged_key s e o.merge]
      exact ⟨rfl, rfl⟩

theorem Writing.eq_writeAll (h : Writing policy p es xs w) (ha : Store.ofLocal.Answers s xs t) :
    t = (s.writeAll policy.callOptions (inTurn policy es)).2 ∧
      w = .ofResults (inTurn policy es) (s.writeAll policy.callOptions (inTurn policy es)).1 := by
  cases h with
  | nothing =>
    cases ha
    have hnil : (inTurn policy []).Perm [] := perm_inTurn
    rw [hnil.eq_nil]
    exact ⟨rfl, rfl⟩
  | batch rs _ hauto =>
    cases ha with
    | cons hc ha =>
      cases ha
      replace hc : s.writeAll policy.callOptions es = (rs, t) := hc
      rw [inTurn, if_pos hauto, hc]
      exact ⟨rfl, rfl⟩
  | each rs _ hauto hlen =>
    rw [inTurn, hauto, if_neg Bool.false_ne_true, writeAll_of_answers hlen ha]
    exact ⟨rfl, rfl⟩

theorem Writing.of_answers (h : Writing policy p es xs w) (ha : Store.ofLocal.Answers s xs t) :
    t = (s.writeAll policy.callOptions (inTurn policy es)).2 ∧
      Keyed.keys w.versions = s.yielding (Keyed.keys (inTurn policy es)) := by
  obtain ⟨ht, rfl⟩ := h.eq_writeAll ha
  exact ⟨ht, ofResults_writeAll.1⟩

theorem Writing.of_willing (h : Writing policy p es xs w) (hs : s.Willing) (ha : Store.ofLocal.Answers s xs t) :
    t = (s.writeAll policy.callOptions (inTurn policy es)).2 ∧ Keyed.keys w.versions = Keyed.keys (inTurn policy es) := by
  obtain ⟨ht, hkeys⟩ := h.of_answers ha
  exact ⟨ht, hkeys.trans hs.yielding_eq⟩

/-! ### Deleting -/

theorem answers_related {rs : List EntityRef} {reply : Except StoreError (List EntityRef)}
    (ha : Store.ofLocal.Answers t (⟨.related rs, reply⟩ :: xs) u) :
    reply = t.related rs ∧ Store.ofLocal.Answers t xs u := by
  cases ha with
  | cons hc ha =>
    replace hc : (t.related rs, t) = (reply, _) := hc
    obtain ⟨rfl, rfl⟩ := Prod.mk.inj hc
    exact ⟨rfl, ha⟩

/-- What the deletion of `ys` is reported as. A batch tells nothing of those that refuse. -/
def reported (policy : Policy) (t : LocalStore) (ys : List α) : Removed :=
  if policy.cascadeDeletes then { deleted := Keyed.keys ys }
  else
    let rs := Keyed.keys (order .deletion ys)
    { deleted := t.yielding rs, failed := rs.filter t.refuses }

/-- Either way the store comes to what one batch on the same terms makes of it. -/
theorem Deleting.eq_deleteAll (h : Deleting policy p ys xs removed) (ha : Store.ofLocal.Answers t xs u) :
    u = t.deleteAll (Keyed.keys ys) policy.callOptions ∧ removed = reported policy t ys := by
  have hterms : policy.callOptions.deleteDependents = policy.cascadeDeletes := rfl
  cases h with
  | nothing =>
    cases ha
    have hnil : order .deletion ([] : List α) = [] := Order.perm_order.eq_nil
    refine ⟨deleteAll_nil.symm, ?_⟩
    rw [reported, hnil]
    cases policy.cascadeDeletes <;> rfl
  | batch _ hcascade =>
    cases ha with
    | cons hc ha =>
      cases ha
      replace hc : t.deleteAll (Keyed.keys ys) policy.callOptions = u := congrArg Prod.snd hc
      exact ⟨hc.symm, (if_pos hcascade).symm⟩
  | batchFailed err =>
    cases ha with
    | cons hc _ => cases congrArg Prod.fst hc
  | each as _ hcascade hlen =>
    obtain ⟨hu, hremoved⟩ := deletes_of_answers (by simpa [Keyed.keys] using hlen) ha
    rw [hremoved, reported, hcascade, if_neg Bool.false_ne_true]
    refine ⟨?_, rfl⟩
    rw [hu, LocalStore.deleteAll, hterms, hcascade, if_neg Bool.false_ne_true]
    have hperm : (Keyed.keys (order .deletion ys)).Perm (Keyed.keys ys) := Order.perm_order.map _
    split
    · rfl
    · exact foldl_remove_congr fun k => (hperm.filter _).mem_iff

/-- One by one, what does not refuse is deleted and nothing else. -/
theorem Deleting.one_by_one (h : Deleting policy p ys xs removed) (hcascade : policy.cascadeDeletes = false)
    (ho : policy.callOptions.validationOnly = false) (ha : Store.ofLocal.Answers t xs u) :
    (∀ k, k ∈ removed.deleted ↔ k ∈ t.yielding (Keyed.keys ys)) ∧
      ∀ k, u.get? k = if k ∈ removed.deleted then none else t.get? k := by
  obtain ⟨rfl, rfl⟩ := h.eq_deleteAll ha
  have hdeleted : ∀ k, k ∈ (reported policy t ys).deleted ↔ k ∈ t.yielding (Keyed.keys ys) := fun k => by
    have hperm : (Keyed.keys (order .deletion ys)).Perm (Keyed.keys ys) := Order.perm_order.map _
    rw [reported, hcascade, if_neg Bool.false_ne_true]
    exact (hperm.filter _).mem_iff
  refine ⟨hdeleted, fun k => ?_⟩
  rw [get?_deleteAll ho hcascade, if_congr (hdeleted k) rfl rfl]

/-- In a batch everything counts as deleted; what does not refuse is, with what depends on it. -/
theorem Deleting.in_batch (h : Deleting policy p ys xs removed) (hcascade : policy.cascadeDeletes = true)
    (ho : policy.callOptions.validationOnly = false) (ha : Store.ofLocal.Answers t xs u) :
    removed.deleted = Keyed.keys ys ∧
      u = { t with entities := cascade t.entities (t.yielding (Keyed.keys ys)) } := by
  obtain ⟨rfl, rfl⟩ := h.eq_deleteAll ha
  rw [reported, if_pos hcascade]
  exact ⟨rfl, deleteAll_eq ho hcascade⟩

theorem Deleting.of_willing (h : Deleting policy p ys xs removed) (ht : t.Willing)
    (ho : policy.callOptions.validationOnly = false) (ha : Store.ofLocal.Answers t xs u) :
    (∀ k, k ∈ removed.deleted ↔ k ∈ Keyed.keys ys) ∧
    ∀ k, u.contains k ↔ t.contains k ∧ k ∉ removed.deleted ∧
      ¬ (policy.cascadeDeletes ∧ ∃ r ∈ removed.deleted, TransGen (Relates t.entities) k r) := by
  cases hcascade : policy.cascadeDeletes with
  | false =>
    obtain ⟨hdeleted, hget⟩ := h.one_by_one hcascade ho ha
    rw [ht.yielding_eq] at hdeleted
    refine ⟨hdeleted, fun k => ?_⟩
    rw [contains_iff, contains_iff, hget k]
    by_cases hk : k ∈ removed.deleted <;> simp [hk]
  | true =>
    obtain ⟨hdeleted, rfl⟩ := h.in_batch hcascade ho ha
    rw [ht.yielding_eq, hdeleted]
    refine ⟨fun k => Iff.rfl, fun k => ?_⟩
    simp only [true_and]
    exact contains_cascade_iff ht.keyed

/-! ### Whole runs -/

/-- A run over a store in memory. -/
def applyIn (s : LocalStore) (policy : Policy) (d : Diff Entity) (p : Provenance) :
    Except ReconcileError Report × LocalStore :=
  (apply Store.ofLocal policy d p : StateM LocalStore _).run s

theorem exists_applying (s : LocalStore) (policy : Policy) (d : Diff Entity) (p : Provenance) :
    ∃ xs, Applying policy p d xs (applyIn s policy d p).1 ∧ Store.ofLocal.Answers s xs (applyIn s policy d p).2 := by
  obtain ⟨xs, result, t, hrun, hgoes, ha⟩ := Dialogue.exists_goes_hold Store.ofLocal (apply Dialogue.store policy d p) s
  rw [hold_apply] at hrun
  rw [applyIn, hrun]
  exact ⟨xs, applying_of_goes hgoes, ha⟩

def deleteIn (s : LocalStore) (policy : Policy) (d : Diff EntityRef) (p : Provenance) :
    Except ReconcileError Report × LocalStore :=
  (delete Store.ofLocal policy d p : StateM LocalStore _).run s

theorem exists_removing (s : LocalStore) (policy : Policy) (d : Diff EntityRef) (p : Provenance) :
    ∃ xs, Removing policy p d xs (deleteIn s policy d p).1 ∧ Store.ofLocal.Answers s xs (deleteIn s policy d p).2 := by
  obtain ⟨xs, result, t, hrun, hgoes, ha⟩ := Dialogue.exists_goes_hold Store.ofLocal (delete Dialogue.store policy d p) s
  rw [hold_delete] at hrun
  rw [deleteIn, hrun]
  exact ⟨xs, removing_of_goes hgoes, ha⟩

/-! ### After the writes -/

section Writes
variable {d : Diff Entity} {e : Entity} {kept : List EntityRef}

/-- What is stored once the kept entities are written, before anything is deleted. -/
def afterWrites (policy : Policy) (d : Diff Entity) (s : LocalStore) : LocalStore :=
  (s.writeAll policy.callOptions d.changes.kept).2

theorem nodup_keys_kept (hfault : fault? d = none) : (Keyed.keys d.changes.kept).Nodup :=
  (perm_kept.map Keyed.key).nodup_iff.mpr (nodup_of_fault?_eq_none hfault).2

theorem Writing.afterWrites (h : Writing policy p d.changes.kept xs w) (hfault : fault? d = none)
    (ha : Store.ofLocal.Answers s xs t) : t = afterWrites policy d s ∧
      ∀ k, k ∈ Keyed.keys w.versions ↔ k ∈ Keyed.keys d.after ∧ s.refuses k = false := by
  obtain ⟨rfl, hkeys⟩ := h.of_answers ha
  refine ⟨writeAll_perm (nodup_keys_kept hfault) perm_inTurn, fun k => ?_⟩
  rw [hkeys, mem_yielding, ← mem_keys_kept]
  exact and_congr_left fun _ => (perm_inTurn.map Keyed.key).mem_iff

theorem get?_afterWrites_of_mem (hfault : fault? d = none) (ho : policy.options.validationOnly = false)
    (he : e ∈ d.after) (hr : s.refuses e.key = false) :
    (afterWrites policy d s).get? e.key = some (s.merged e policy.options.merge) := by
  have hwrite : (afterWrites policy d s).get? e.key = (s.write e policy.callOptions).2.get? e.key :=
    writeAll_of_mem (nodup_keys_kept hfault) (mem_kept.mpr he)
  have hwritten : s.write e policy.callOptions = _ := write_of_not_refuses hr ho
  rw [hwrite, hwritten, LocalStore.get?_insert, merged_key, if_pos rfl]
  rfl

theorem get?_afterWrites_of_not (hfault : fault? d = none) (h : k ∉ Keyed.keys d.after ∨ s.refuses k = true) :
    (afterWrites policy d s).get? k = s.get? k := by
  by_cases hk : k ∈ Keyed.keys d.after
  · obtain ⟨e, he, rfl⟩ := List.mem_map.mp hk
    have hwrite : (afterWrites policy d s).get? e.key = (s.write e policy.callOptions).2.get? e.key :=
      writeAll_of_mem (nodup_keys_kept hfault) (mem_kept.mpr he)
    exact hwrite.trans (by rw [write_of_refuses (h.resolve_left (not_not.mpr hk))]; rfl)
  · exact get?_writeAll_of_notMem (mem_keys_kept.not.mpr hk)

theorem mem_relatedRefs_afterWrites (hfault : fault? d = none) (ho : policy.options.validationOnly = false)
    (hkept : ∀ k, k ∈ kept ↔ k ∈ Keyed.keys d.after ∧ s.refuses k = false) (hk : k ∉ Keyed.keys d.after) :
    k ∈ (afterWrites policy d s).relatedRefs kept ↔
      s.contains k ∧ ∃ e ∈ d.after, s.refuses e.key = false ∧ k.identifier ∈ e.targets := by
  have hstored : (afterWrites policy d s).contains k ↔ s.contains k := by
    rw [contains_iff, contains_iff, get?_afterWrites_of_not hfault (.inl hk)]
  rw [mem_relatedRefs, hstored]
  refine and_congr_right fun _ => ⟨?_, ?_⟩
  · rintro ⟨r, hr, v, hv, ht⟩
    obtain ⟨hafter, hrefuses⟩ := (hkept r).mp hr
    obtain ⟨e, he, rfl⟩ := List.mem_map.mp hafter
    obtain rfl := Option.some.inj ((get?_afterWrites_of_mem hfault ho he hrefuses).symm.trans hv)
    exact ⟨e, he, hrefuses, merged_targets s e _ ▸ ht⟩
  · rintro ⟨e, he, hrefuses, ht⟩
    exact ⟨e.key, (hkept _).mpr ⟨List.mem_map_of_mem he, hrefuses⟩, _, get?_afterWrites_of_mem hfault ho he hrefuses,
      (merged_targets s e _).symm ▸ ht⟩

end Writes

end CatalogSync.Reconcile
