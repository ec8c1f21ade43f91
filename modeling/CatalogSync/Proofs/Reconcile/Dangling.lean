import CatalogSync.Entity.Sample
import CatalogSync.Proofs.Changes
import CatalogSync.Proofs.Reconcile.Deletions
import CatalogSync.Proofs.Reconcile.InMemory

/-! Sequential runs never leave a relation dangling.

While entities are written the store holds those written so far and, of the old ones, those that they have not
replaced; while entities are deleted it holds the new ones and the old ones that have not gone yet. Dependencies
are written first and dependents deleted first, so what an entity relates to is always among them. -/

namespace CatalogSync

/-- Each relation leads to one of them. -/
def Closed (S : Entity → Prop) : Prop := ∀ e, S e → ∀ target ∈ e.targets, ∃ f, S f ∧ f.identifier = target

instance (es : List Entity) : Decidable (Closed (· ∈ es)) :=
  inferInstanceAs (Decidable (∀ e ∈ es, ∀ target ∈ e.targets, ∃ f ∈ es, f.identifier = target))

/-- Every relation of a stored entity leads to a stored one. -/
def LocalStore.NoDangling (s : LocalStore) : Prop := Closed (· ∈ s.stored)

/-- Collections that can be stored one entity at a time. -/
structure Orderly (es : List Entity) : Prop where
  valid : fault? es = none
  direct : ∀ e ∈ es, e.usesSearchIdentifier = false
  acyclic : Order.Acyclic es
  closed : Closed (· ∈ es)

theorem Orderly.nodup {es : List Entity} (h : Orderly es) : (Keyed.keys es).Nodup :=
  (fault?_eq_none_iff.mp h.valid).2

theorem Orderly.of_perm {es others : List Entity} (h : Orderly es) (hp : others.Perm es) : Orderly others where
  valid := fault?_of_perm hp h.valid
  direct e he := h.direct e (hp.subset he)
  acyclic := h.acyclic.of_subset fun x hx => hp.subset hx
  closed e he target ht := by
    obtain ⟨f, hf, hid⟩ := h.closed e (hp.subset he) target ht
    exact ⟨f, hp.mem_iff.mpr hf, hid⟩

open LocalStore

theorem LocalStore.Holds.noDangling {s : LocalStore} {S : Entity → Prop} (h : s.Holds S) (hs : s.Willing)
    (hS : Closed S) : s.NoDangling := by
  intro e he target ht
  obtain ⟨k, hk⟩ := mem_stored.mp he
  obtain ⟨f, hf, -, hft⟩ := h.known k e hk
  obtain ⟨g, hg, rfl⟩ := hS f hf target (hft ▸ ht)
  obtain ⟨e', he'⟩ := contains_iff.mp (h.stored g hg)
  exact ⟨e', mem_stored.mpr ⟨g.key, he'⟩, congrArg EntityRef.identifier (hs.keyed g.key e' he')⟩

namespace Reconcile

/-! ### Closed at every moment -/

section Moments
variable {before es done : List Entity} {d : Diff Entity} {gone : List EntityRef}

/-- What is stored once `done` are written over `before`. -/
def Replaced (before done : List Entity) (f : Entity) : Prop := f ∈ done ∨ f ∈ before ∧ f.key ∉ Keyed.keys done

theorem closed_replaced (hb : Closed (· ∈ before)) (hd : Closed (· ∈ done)) : Closed (Replaced before done) := by
  rintro f (hf | ⟨hf, -⟩) target ht
  · obtain ⟨g, hg, rfl⟩ := hd f hf target ht
    exact ⟨g, .inl hg, rfl⟩
  · obtain ⟨g, hg, rfl⟩ := hb f hf target ht
    by_cases hk : g.key ∈ Keyed.keys done
    · obtain ⟨h, hh, hkey⟩ := List.mem_map.mp hk
      exact ⟨h, .inl hh, congrArg EntityRef.identifier hkey⟩
    · exact ⟨g, .inr ⟨hg, hk⟩, rfl⟩

theorem closed_of_prefix (h : Orderly es) (hdone : done <+: order .creation es) : Closed (· ∈ done) := by
  intro f hf target ht
  obtain ⟨rest, hrest⟩ := hdone
  obtain ⟨pre, post, rfl⟩ := List.append_of_mem hf
  have hfes : f ∈ es := Order.perm_order.subset (hrest ▸ List.mem_append_left _ hf)
  obtain ⟨g, hg, rfl⟩ := h.closed f hfes target ht
  by_cases hkey : f.key = g.key
  · exact ⟨f, hf, congrArg EntityRef.identifier hkey⟩
  · have hdep : Order.DependsIn es f g := ⟨hfes, hg, hkey, List.contains_iff_mem.mpr ht⟩
    rw [List.append_assoc] at hrest
    have hpre := Order.mem_of_creation_split h.acyclic h.nodup h.direct hrest.symm hdep
    exact ⟨g, List.mem_append_left _ hpre, rfl⟩

/-- What is still stored after all of `es` once `gone` are deleted. -/
def Left (before es : List Entity) (gone : List EntityRef) (f : Entity) : Prop := Replaced before es f ∧ f.key ∉ gone

/-- Among those in order, one whose key has gone was preceded by all that depend on it. -/
theorem mem_of_gone (hb : Orderly d.before) (hgone : gone <+: Keyed.keys (order .deletion d.changes.deleted))
    {f g : Entity} (hg : g ∈ d.changes.deleted) (hk : g.key ∈ gone) (hdep : Order.DependsIn d.changes.deleted f g) :
    f.key ∈ gone := by
  have hn : (Keyed.keys d.changes.deleted).Nodup := nodup_keys_deleted hb.nodup
  have hacyclic := hb.acyclic.of_subset fun x hx => (mem_deleted.mp hx).1
  obtain ⟨rest, hrest⟩ := hgone
  obtain ⟨first, last, hsplit, rfl, -⟩ := List.map_eq_append_iff.mp hrest.symm
  obtain ⟨g', hg', hkey⟩ := List.mem_map.mp hk
  have hg'd : g' ∈ d.changes.deleted := Order.perm_order.subset (hsplit ▸ List.mem_append_left _ hg')
  -- keys tell entities apart, so what has gone is `g` itself
  obtain rfl : g' = g := List.inj_on_of_nodup_map hn hg'd hg hkey
  obtain ⟨pre, post, rfl⟩ := List.append_of_mem hg'
  rw [List.append_assoc] at hsplit
  have hpre := Order.mem_of_deletion_split hacyclic hn hsplit hdep
  exact List.mem_map_of_mem (List.mem_append_left _ hpre)

theorem closed_left (hb : Orderly d.before) (hes : Closed (· ∈ es))
    (hkeys : ∀ k, k ∈ Keyed.keys es ↔ k ∈ Keyed.keys d.after)
    (hgone : gone <+: Keyed.keys (order .deletion d.changes.deleted)) : Closed (Left d.before es gone) := by
  have hstays : ∀ g ∈ es, Left d.before es gone g := fun g hg => by
    refine ⟨.inl hg, fun hk => ?_⟩
    have hdeleted := (Order.perm_order.map Keyed.key).subset (hgone.subset hk)
    exact (mem_keys_deleted.mp hdeleted).2 ((hkeys _).mp (List.mem_map_of_mem hg))
  rintro f ⟨hf | ⟨hf, hnew⟩, hstill⟩ target ht
  · obtain ⟨g, hg, rfl⟩ := hes f hf target ht
    exact ⟨g, hstays g hg, rfl⟩
  · obtain ⟨g, hg, rfl⟩ := hb.closed f hf target ht
    by_cases hk : g.key ∈ Keyed.keys es
    · obtain ⟨h, hh, hkey⟩ := List.mem_map.mp hk
      exact ⟨h, hstays h hh, congrArg EntityRef.identifier hkey⟩
    · refine ⟨g, ⟨.inr ⟨hg, hk⟩, fun hgk => hstill ?_⟩, rfl⟩
      have hfd : f ∈ d.changes.deleted := mem_deleted.mpr ⟨hf, fun h => hnew ((hkeys _).mpr h)⟩
      have hgd : g ∈ d.changes.deleted := mem_deleted.mpr ⟨hg, fun h => hk ((hkeys _).mpr h)⟩
      have hne : f.key ≠ g.key := fun heq => hstill (heq ▸ hgk)
      exact mem_of_gone hb hgone hgd hgk ⟨hfd, hgd, hne, List.contains_iff_mem.mpr ht⟩

end Moments

/-! ### Which moments there are -/

section Prefixes
variable {policy : Policy} {o : CallOptions} {p : Provenance} {es : List Entity} {xs ys : List Exchange} {s t u : LocalStore}

/-- Calls made one for each are made up to some point. -/
theorem exists_eq_zipWith_take {β γ : Type} {f : β → γ → Exchange} {bs : List β} {cs : List γ}
    (h : xs <+: List.zipWith f bs cs) : ∃ n, xs = List.zipWith f (bs.take n) (cs.take n) :=
  ⟨xs.length, (List.prefix_iff_eq_take.mp h).trans List.take_zipWith⟩

theorem Writing.exists_done {w : Written} (h : Writing policy p es xs w) (hauto : policy.autoCreateRelated = false)
    (hys : ys <+: xs) (ha : Store.ofLocal.Answers s ys u) :
    ∃ done, done <+: order .creation es ∧ u = (s.writeAll policy.callOptions done).2 := by
  cases h with
  | nothing =>
    rw [List.prefix_nil.mp hys] at ha
    cases ha
    exact ⟨[], List.nil_prefix, rfl⟩
  | batch _ _ hon =>
    rw [hauto] at hon
    cases hon
  | each rs _ _ hlen =>
    obtain ⟨n, rfl⟩ := exists_eq_zipWith_take hys
    have hwrite := writeAll_of_answers (by simp [hlen]) ha
    exact ⟨(order .creation es).take n, List.take_prefix _ _, by rw [hwrite]⟩

theorem Deleting.exists_gone {removed : Removed} (h : Deleting policy p es xs removed)
    (hcascade : policy.cascadeDeletes = false) (ht : t.Willing) (ho : policy.callOptions.validationOnly = false)
    (hys : ys <+: xs) (ha : Store.ofLocal.Answers t ys u) :
    ∃ gone, gone <+: Keyed.keys (order .deletion es) ∧ u = gone.foldl LocalStore.remove t := by
  cases h with
  | nothing =>
    rw [List.prefix_nil.mp hys] at ha
    cases ha
    exact ⟨[], List.nil_prefix, rfl⟩
  | batch _ hon =>
    rw [hcascade] at hon
    cases hon
  | batchFailed _ _ hon =>
    rw [hcascade] at hon
    cases hon
  | each as _ _ hlen =>
    obtain ⟨n, rfl⟩ := exists_eq_zipWith_take hys
    obtain ⟨hu, -⟩ := ht.deletes_of_answers ho (by simp [Keyed.keys, hlen]) ha
    exact ⟨(Keyed.keys (order .deletion es)).take n, List.take_prefix _ _, hu⟩

theorem deletable_eq_self {kept related : List EntityRef} (hkept : ∀ e ∈ es, e.key ∉ kept) :
    Guard.deletable ⟨kept, related, false⟩ es = es := by
  refine List.filter_eq_self.mpr fun e he => decide_eq_true (verdict_eq_delete_iff.mpr ⟨hkept e he, ?_⟩)
  rintro ⟨hspares, -⟩
  cases hspares

theorem DeletingGuarded.exists_gone {kept : List EntityRef} {result : Except StoreError (Removed × List EntityRef)}
    (h : DeletingGuarded policy p kept es xs result) (hauto : policy.autoCreateRelated = false)
    (hcascade : policy.cascadeDeletes = false) (ht : t.Willing) (ho : policy.callOptions.validationOnly = false)
    (hkept : ∀ e ∈ es, e.key ∉ kept) (hys : ys <+: xs) (ha : Store.ofLocal.Answers t ys u) :
    ∃ gone, gone <+: Keyed.keys (order .deletion es) ∧ u = gone.foldl LocalStore.remove t := by
  have hnone : t = u → ∃ gone, gone <+: Keyed.keys (order .deletion es) ∧ u = gone.foldl LocalStore.remove t :=
    fun htu => ⟨[], List.nil_prefix, htu.symm⟩
  cases h with
  | nothing =>
    rw [List.prefix_nil.mp hys] at ha
    cases ha
    exact hnone rfl
  | lookupFailed =>
    rcases List.prefix_cons_iff.mp hys with rfl | ⟨zs, rfl, hzs⟩
    · cases ha
      exact hnone rfl
    · rw [List.prefix_nil.mp hzs] at ha
      obtain ⟨-, ha⟩ := answers_related ha
      cases ha
      exact hnone rfl
  | guarded related _ hd =>
    rw [hauto, deletable_eq_self hkept] at hd
    rcases List.prefix_cons_iff.mp hys with rfl | ⟨zs, rfl, hzs⟩
    · cases ha
      exact hnone rfl
    · exact hd.exists_gone hcascade ht ho hzs (answers_related ha).2

end Prefixes

/-! ### Whole runs -/

/-- What a store in memory holds after each call of a run. -/
def filmIn (s : LocalStore) (policy : Policy) (d : Diff Entity) (p : Provenance) : List LocalStore :=
  (((apply (Store.filmed (.ofLocal : Store (StateM LocalStore))) policy d p).run []).run s).1.2

theorem exists_applying_prefix {s u : LocalStore} {policy : Policy} {d : Diff Entity} {p : Provenance}
    (hu : u ∈ filmIn s policy d p) :
    ∃ xs result ys, Applying policy p d xs result ∧ ys <+: xs ∧ Store.ofLocal.Answers s ys u := by
  obtain ⟨xs, result, t, film, hrun, hgoes, -, hfilm⟩ :=
    Dialogue.exists_goes_filmed (.ofLocal : Store (StateM LocalStore)) (apply Dialogue.store policy d p) [] s
  rw [hold_apply] at hrun
  rw [filmIn, hrun] at hu
  obtain ⟨ys, hys, hu⟩ := hfilm u hu
  exact ⟨xs, result, ys, applying_of_goes hgoes, hys, hu⟩

section Sequential
variable {policy : Policy} {o : CallOptions} {d : Diff Entity} {p : Provenance} {us ds xs ys : List Exchange} {w : Written}
  {u : LocalStore} {done : List Entity} {gone : List EntityRef}

/-- The new entities, dependencies first. -/
def successors (d : Diff Entity) : List Entity := order .creation d.changes.kept

theorem perm_successors : (successors d).Perm d.after := Order.perm_order.trans perm_kept

theorem holds_replaced (hb : Orderly d.before) (ho : o.validationOnly = false) (hn : (Keyed.keys done).Nodup) :
    (LocalStore.writeAll (.ofEntities d.before) o done).2.Holds (Replaced d.before done) :=
  (holds_ofEntities hb.nodup).writeAll (willing_ofEntities _) ho hn

theorem noDangling_done (hb : Orderly d.before) (ha : Orderly d.after) (ho : o.validationOnly = false)
    (hdone : done <+: successors d) : (LocalStore.writeAll (.ofEntities d.before) o done).2.NoDangling := by
  have hn : (Keyed.keys done).Nodup := (ha.of_perm perm_successors).nodup.sublist (hdone.sublist.map _)
  obtain ⟨hwilling, -⟩ := (willing_ofEntities d.before).writeAll ho done
  have hclosed := closed_of_prefix (ha.of_perm perm_kept) hdone
  exact (holds_replaced hb ho hn).noDangling hwilling (closed_replaced hb.closed hclosed)

theorem noDangling_gone (hb : Orderly d.before) (ha : Orderly d.after) (ho : o.validationOnly = false)
    (hgone : gone <+: Keyed.keys (order .deletion d.changes.deleted)) :
    (gone.foldl LocalStore.remove (LocalStore.writeAll (.ofEntities d.before) o (successors d)).2).NoDangling := by
  have hsuccessors := ha.of_perm perm_successors
  obtain ⟨hwilling, -⟩ := (willing_ofEntities d.before).writeAll ho (successors d)
  have hkeys : ∀ k, k ∈ Keyed.keys (successors d) ↔ k ∈ Keyed.keys d.after := fun k =>
    (perm_successors.map Keyed.key).mem_iff
  exact (holds_replaced hb ho hsuccessors.nodup).foldl_remove.noDangling hwilling.foldl_remove
    (closed_left hb hsuccessors.closed hkeys hgone)

theorem noDangling_of_prefix {result : Except StoreError (Removed × List EntityRef)} (hb : Orderly d.before)
    (ha : Orderly d.after) (hauto : policy.autoCreateRelated = false) (hcascade : policy.cascadeDeletes = false)
    (ho : policy.callOptions.validationOnly = false) (hw : Writing policy p d.changes.kept us w)
    (hd : DeletingGuarded policy p (Keyed.keys w.versions) d.changes.deleted ds result) (hys : ys <+: us ++ ds)
    (hu : Store.ofLocal.Answers (.ofEntities d.before) ys u) : u.NoDangling := by
  obtain ⟨rest, hrest⟩ := hys
  -- the run is still writing, or it has written everything
  rcases List.append_eq_append_iff.mp hrest with ⟨mid, hus, -⟩ | ⟨mid, rfl, hds⟩
  · obtain ⟨done, hdone, rfl⟩ := hw.exists_done hauto ⟨mid, hus.symm⟩ hu
    exact noDangling_done hb ha ho hdone
  · obtain ⟨t, ht, hu⟩ := Store.answers_append.mp hu
    obtain ⟨rfl, hkeys⟩ := hw.of_willing (willing_ofEntities _) ht
    obtain ⟨hwilling, -⟩ := (willing_ofEntities d.before).writeAll ho (inTurn policy d.changes.kept)
    have hkept : ∀ e ∈ d.changes.deleted, e.key ∉ Keyed.keys w.versions := fun e he hk => by
      rw [hkeys] at hk
      exact (mem_deleted.mp he).2 (mem_keys_kept.mp ((perm_inTurn.map Keyed.key).subset hk))
    obtain ⟨gone, hgone, rfl⟩ := hd.exists_gone hauto hcascade hwilling ho hkept ⟨rest, hds.symm⟩ hu
    rw [inTurn, hauto, if_neg Bool.false_ne_true]
    exact noDangling_gone hb ha ho hgone

theorem Applying.noDangling {result : Except ReconcileError Report} (h : Applying policy p d xs result)
    (hb : Orderly d.before) (ha : Orderly d.after) (hauto : policy.autoCreateRelated = false)
    (hcascade : policy.cascadeDeletes = false) (ho : policy.callOptions.validationOnly = false) (hys : ys <+: xs)
    (hu : Store.ofLocal.Answers (.ofEntities d.before) ys u) : u.NoDangling := by
  cases h with
  | invalid fault hfault =>
    rw [fault?, hb.valid, ha.valid] at hfault
    cases hfault
  | lookupFailed _ _ hw hd => exact noDangling_of_prefix hb ha hauto hcascade ho hw hd hys hu
  | applied _ hw hd => exact noDangling_of_prefix hb ha hauto hcascade ho hw hd hys hu

end Sequential

/-- After each call of a sequential run, every relation of a stored entity leads to a stored one. -/
theorem sequential_never_dangling (d : Diff Entity) (policy : Policy) (p : Provenance) (hb : Orderly d.before)
    (ha : Orderly d.after) (hauto : policy.autoCreateRelated = false) (hcascade : policy.cascadeDeletes = false)
    (ho : policy.options.validationOnly = false) :
    ∀ s ∈ filmIn (.ofEntities d.before) policy d p, s.NoDangling := by
  intro s hs
  obtain ⟨xs, result, ys, happ, hys, hanswers⟩ := exists_applying_prefix hs
  exact happ.noDangling hb ha hauto hcascade ho hys hanswers

/-- The end of a chain turns to a new entity, which relates to itself; the rest of the chain goes. -/
def turn : Diff Entity where
  before := Sample.chain "service" 3
  after :=
    [(Sample.team "db").withRelation "depends_on" (.one "db"),
      (Sample.service "service-2").withRelation "depends_on" (.many ["db", "service-2"])]

/-- Two writes, a question and two deletes. -/
theorem turn_never_dangling : Orderly turn.before ∧ Orderly turn.after ∧
    (filmIn (.ofEntities turn.before) .sequential turn .automated).length = 5 ∧
    ∀ s ∈ filmIn (.ofEntities turn.before) .sequential turn .automated, s.NoDangling := by
  have hb : Orderly turn.before :=
    ⟨by decide +kernel, by decide +kernel, Order.acyclic_of_lt (by decide +kernel), by decide +kernel⟩
  have ha : Orderly turn.after :=
    ⟨by decide +kernel, by decide +kernel, Order.acyclic_of_lt (by decide +kernel), by decide +kernel⟩
  exact ⟨hb, ha, by decide +kernel, sequential_never_dangling turn .sequential .automated hb ha rfl rfl rfl⟩

end Reconcile
end CatalogSync
