import CatalogSync.Entity.Sample
import CatalogSync.Proofs.Reconcile.InMemory

/-! What a run leaves under each key of a store in memory, when deletes take nothing else along.

The store may hold anything and refuse any keys. Writes of different keys do not meet, so each key of an entity that is
written holds what its own write left there. The guard then looks at the relations of these entities as the run has
just written them, not at those of the versions before. -/

namespace CatalogSync.Reconcile
open LocalStore

/-! ### What should be there -/

/-- `v` is stored in the place of what was under the key of `e`: it is `e`, when merging with the properties that only
    the old version has. -/
structure Replaces (policy : Policy) (s : LocalStore) (e v : Entity) : Prop where
  same : { v with properties := e.properties } = e
  properties : ∀ name, v.properties.get? name = (e.properties.get? name).or
    (if policy.options.merge then (s.get? e.key).bind (·.properties.get? name) else none)

/-- It was stored, and an entity that is written relates to it. -/
def Spared (policy : Policy) (d : Diff Entity) (s : LocalStore) (k : EntityRef) : Prop :=
  policy.autoCreateRelated ∧ s.contains k ∧ ∃ e ∈ d.after, s.refuses e.key = false ∧ k.identifier ∈ e.targets

/-- The diff came over `s` and left `t`. -/
structure Settled (policy : Policy) (d : Diff Entity) (s t : LocalStore) : Prop where
  written : ∀ e ∈ d.after, s.refuses e.key = false → ∃ v, t.get? e.key = some v ∧ Replaces policy s e v
  removed : ∀ k ∈ Keyed.keys d.before, k ∉ Keyed.keys d.after → s.refuses k = false → ¬ Spared policy d s k →
    t.get? k = none
  untouched : ∀ k, s.refuses k = true ∨ k ∉ Keyed.keys d.after ∧ (k ∉ Keyed.keys d.before ∨ Spared policy d s k) →
    t.get? k = s.get? k

variable {policy : Policy} {p : Provenance} {d : Diff Entity} {s t u : LocalStore} {e v v' : Entity} {k : EntityRef}
  {kept : List EntityRef}

theorem Replaces.unique (h : Replaces policy s e v) (h' : Replaces policy s e v') : v = v' := by
  have hproperties : v.properties = v'.properties :=
    SortedMap.ext fun name => (h.properties name).trans (h'.properties name).symm
  have hsame := h.same.trans h'.same.symm
  cases v
  cases v'
  simp_all

/-- Nothing else would do. -/
theorem Settled.unique (h : Settled policy d s t) (h' : Settled policy d s u) : t.entities = u.entities := by
  refine SortedMap.ext fun k => ?_
  have huntouched : _ → t.get? k = u.get? k := fun hk => (h.untouched k hk).trans (h'.untouched k hk).symm
  cases hr : s.refuses k with
  | true => exact huntouched (.inl hr)
  | false =>
    by_cases hafter : k ∈ Keyed.keys d.after
    · obtain ⟨e, he, rfl⟩ := List.mem_map.mp hafter
      obtain ⟨v, hv, hreplaces⟩ := h.written e he hr
      obtain ⟨v', hv', hreplaces'⟩ := h'.written e he hr
      exact hv.trans ((congrArg some (hreplaces.unique hreplaces')).trans hv'.symm)
    · by_cases hstays : k ∉ Keyed.keys d.before ∨ Spared policy d s k
      · exact huntouched (.inr ⟨hafter, hstays⟩)
      · rw [not_or, not_not] at hstays
        have hgone := h.removed k hstays.1 hafter hr hstays.2
        exact hgone.trans (h'.removed k hstays.1 hafter hr hstays.2).symm

/-! ### After the writes -/

theorem replaces_merged : Replaces policy s e (s.merged e policy.options.merge) := by
  unfold merged
  cases hold : s.get? e.key with
  | none => exact ⟨rfl, fun name => by simp [hold]⟩
  | some old =>
    cases hmerge : policy.options.merge with
    | false => exact ⟨rfl, fun name => by simp [hmerge]⟩
    | true => exact ⟨rfl, fun name => by simp [hold, hmerge, SortedMap.get?_orElse]⟩

/-! ### After the deletes -/

/-- What disappeared goes, unless it was kept, is related where that counts, or refuses. -/
theorem DeletingGuarded.one_by_one {α : Type} [Linked α] {ys : List α} {xs : List Exchange}
    {result : Except StoreError (Removed × List EntityRef)} (h : DeletingGuarded policy p kept ys xs result)
    (hcascade : policy.cascadeDeletes = false) (ho : policy.callOptions.validationOnly = false)
    (havailable : t.relatedAvailable = true) (ha : Store.ofLocal.Answers t xs u) :
    ∃ removed preserved, result = .ok (removed, preserved) ∧
      (∀ k, k ∈ removed.deleted ↔ k ∈ Keyed.keys ys ∧ k ∉ kept ∧
        ¬ (policy.autoCreateRelated ∧ k ∈ t.relatedRefs kept) ∧ t.refuses k = false) ∧
      ∀ k, u.get? k = if k ∈ removed.deleted then none else t.get? k := by
  cases h with
  | nothing =>
    cases ha
    exact ⟨_, _, rfl, fun k => by simp [Keyed.keys], fun k => rfl⟩
  | lookupFailed =>
    obtain ⟨hrelated, -⟩ := answers_related ha
    rw [LocalStore.related, if_pos havailable] at hrelated
    cases hrelated
  | guarded related _ hd =>
    obtain ⟨hrelated, hdeletes⟩ := answers_related ha
    rw [LocalStore.related, if_pos havailable] at hrelated
    obtain rfl := Except.ok.inj hrelated
    obtain ⟨hdeleted, hget⟩ := hd.one_by_one hcascade ho hdeletes
    refine ⟨_, _, rfl, fun k => ?_, hget⟩
    rw [hdeleted k, mem_yielding, mem_keys_deletable, and_assoc, and_assoc]

theorem settled_of_deleted (hfault : fault? d = none) (ho : policy.options.validationOnly = false)
    {deleted : List EntityRef}
    (hdeleted : ∀ k, k ∈ deleted ↔ k ∈ Keyed.keys d.before ∧ k ∉ Keyed.keys d.after ∧ ¬ Spared policy d s k ∧
      s.refuses k = false)
    (hget : ∀ k, t.get? k = if k ∈ deleted then none else (afterWrites policy d s).get? k) : Settled policy d s t where
  written e he hr := by
    have hstays : e.key ∉ deleted := fun hk => ((hdeleted _).mp hk).2.1 (List.mem_map_of_mem he)
    exact ⟨_, by rw [hget, if_neg hstays, get?_afterWrites_of_mem hfault ho he hr], replaces_merged⟩
  removed k hbefore hafter hr hspared := by
    rw [hget, if_pos ((hdeleted k).mpr ⟨hbefore, hafter, hspared, hr⟩)]
  untouched k hk := by
    have hstays : k ∉ deleted := fun hk' => by
      obtain ⟨hbefore, -, hspared, hr⟩ := (hdeleted k).mp hk'
      rcases hk with hk | ⟨-, hk | hk⟩
      · simp [hr] at hk
      · exact hk hbefore
      · exact hspared hk
    rw [hget, if_neg hstays, get?_afterWrites_of_not hfault (hk.symm.imp_left And.left)]

/-! ### Whole runs -/

theorem settled_of_phases (hfault : fault? d = none) (hcascade : policy.cascadeDeletes = false)
    (ho : policy.options.validationOnly = false) (havailable : s.relatedAvailable = true) {us ds : List Exchange}
    {w : Written} {result : Except StoreError (Removed × List EntityRef)}
    (hw : Writing policy p d.changes.kept us w)
    (hd : DeletingGuarded policy p (Keyed.keys w.versions) d.changes.deleted ds result)
    (ha : Store.ofLocal.Answers s (us ++ ds) t) : (∃ outcome, result = .ok outcome) ∧ Settled policy d s t := by
  obtain ⟨_, hwrites, hdeletes⟩ := Store.answers_append.mp ha
  obtain ⟨rfl, hkept⟩ := hw.afterWrites hfault hwrites
  have halike : Alike s (afterWrites policy d s) := alike_writeAll
  obtain ⟨removed, preserved, rfl, hdeleted, hget⟩ :=
    hd.one_by_one hcascade ho (halike.available.trans havailable) hdeletes
  refine ⟨⟨_, rfl⟩, settled_of_deleted hfault ho (fun k => ?_) hget⟩
  -- what disappeared is not in `after`, so it was not kept and no write has touched it
  rw [hdeleted k, mem_keys_deleted, and_assoc, halike.refuses k, hkept k]
  refine and_congr_right fun _ => and_congr_right fun hk => ?_
  rw [mem_relatedRefs_afterWrites hfault ho hkept hk, Spared]
  exact and_iff_right fun h => hk h.1

/-- Whatever the store holds and refuses, a run succeeds and settles the diff, which leaves nothing open of what is then
    stored. -/
theorem run_settles (s : LocalStore) (policy : Policy) (d : Diff Entity) (p : Provenance) (hfault : fault? d = none)
    (hcascade : policy.cascadeDeletes = false) (ho : policy.options.validationOnly = false)
    (havailable : s.relatedAvailable = true) :
    ∃ report t, applyIn s policy d p = (.ok report, t) ∧ Settled policy d s t ∧
      ∀ u, Settled policy d s u → u.entities = t.entities := by
  obtain ⟨xs, happ, ha⟩ := exists_applying s policy d p
  generalize applyIn s policy d p = run at happ ha
  obtain ⟨result, t⟩ := run
  cases happ with
  | invalid fault hsome =>
    rw [hfault] at hsome
    cases hsome
  | lookupFailed err _ hw hd =>
    -- the store answers the question
    obtain ⟨⟨_, herr⟩, -⟩ := settled_of_phases hfault hcascade ho havailable hw hd ha
    cases herr
  | applied _ hw hd =>
    have hsettled : Settled policy d s t := (settled_of_phases hfault hcascade ho havailable hw hd ha).2
    exact ⟨_, t, rfl, hsettled, fun u hu => hu.unique hsettled⟩

/-- One service of four is kept, and comes to depend on another. -/
def merger : Diff Entity where
  before := ["api", "cache", "db", "legacy"].map Sample.service
  after := [(Sample.service "api").withRelation "depends_on" (.one "db")]

/-- The kept service has a property of its own here, one of the others refuses, and there is one more. -/
def stock : LocalStore :=
  (LocalStore.ofEntities ((Sample.service "api").withProperty "tier" (.string "gold") ::
    ["cache", "db", "legacy", "mail"].map Sample.service)).failOn (Sample.serviceRef "legacy")

/-- The property is kept; of the three that disappeared one is spared and one refuses. -/
theorem merger_settles : ∃ report t,
    applyIn stock { cascadeDeletes := false, options := { merge := true } } merger .automated = (.ok report, t) ∧
    Settled { cascadeDeletes := false, options := { merge := true } } merger stock t ∧
    (∀ u, Settled { cascadeDeletes := false, options := { merge := true } } merger stock u → u.entities = t.entities) ∧
    t.refs = ["api", "db", "legacy", "mail"].map Sample.serviceRef ∧
    ((t.get? (Sample.serviceRef "api")).bind (·.properties.get? "tier")).isSome := by
  obtain ⟨report, t, hrun, hsettled, hunique⟩ := run_settles stock { cascadeDeletes := false, options := { merge := true } }
    merger .automated (by decide +kernel) rfl rfl rfl
  have ht : (applyIn stock { cascadeDeletes := false, options := { merge := true } } merger .automated).2 = t := by
    rw [hrun]
  refine ⟨report, t, hrun, hsettled, hunique, ?_⟩
  rw [← ht]
  decide +kernel

end CatalogSync.Reconcile
