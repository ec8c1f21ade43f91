import CatalogSync.Entity.Sample
import CatalogSync.Proofs.Reconcile.InMemory

/-! The two modes of writing over a store in memory: all entities in one batch, or one by one with dependencies first.

Entities with different keys do not meet: each is refused, or merged with what was stored under its key before the
first of them was written. So a mode decides on the order of the versions only, not on the versions. -/

namespace CatalogSync.Reconcile
open LocalStore

variable {s t : LocalStore} {policy : Policy} {p : Provenance} {o : CallOptions} {e : Entity} {es : List Entity}

/-! ### The versions -/

/-- What a write of `e` gives back, if it is not refused. -/
def version? (s : LocalStore) (o : CallOptions) (e : Entity) : Option Entity :=
  if s.refuses e.key then none else some (s.merged e o.merge)

theorem write_fst : (s.write e o).1 = (version? s o e).elim (.error (refusal e.key)) .ok := by
  unfold write version?
  split <;> rfl

theorem version?_congr (h : Alike s t) (hk : t.get? e.key = s.get? e.key) : version? t o e = version? s o e := by
  simp only [version?, h.refuses, merged, hk]

theorem versions_cons {r : Except StoreError Entity} {rs : List (Except StoreError Entity)} :
    (Written.ofResults (e :: es) (r :: rs)).versions = r.toOption.toList ++ (Written.ofResults es rs).versions := by
  cases r <;> rfl

/-- Each version is what it would be if the entity were the only one. -/
theorem versions_writeAll (hn : (Keyed.keys es).Nodup) :
    (Written.ofResults es (s.writeAll o es).1).versions = es.filterMap (version? s o) := by
  induction es generalizing s with
  | nil => rfl
  | cons e es ih =>
    obtain ⟨he, hn⟩ := List.nodup_cons.mp hn
    have hrest : es.filterMap (version? (s.write e o).2 o) = es.filterMap (version? s o) := by
      refine List.filterMap_congr fun d hd => version?_congr alike_write (get?_write_of_ne ?_)
      exact ne_of_mem_of_not_mem (List.mem_map_of_mem hd) he
    have hresults : (s.writeAll o (e :: es)).1 = (s.write e o).1 :: ((s.write e o).2.writeAll o es).1 := rfl
    rw [hresults, versions_cons, ih hn, hrest, write_fst, List.filterMap_cons]
    cases version? s o e <;> rfl

theorem writeAll_congr {o' : CallOptions} (hmerge : o'.merge = o.merge) (hcheck : o'.validationOnly = o.validationOnly) :
    s.writeAll o' es = s.writeAll o es := by
  induction es generalizing s with
  | nil => rfl
  | cons e es ih =>
    have hwrite : s.write e o' = s.write e o := by rw [write, write, hmerge, hcheck]
    simp only [writeAll, hwrite, ih]

/-! ### The two modes -/

/-- Writing entities to a store in memory: the versions it gives back, and what it is then. -/
def upsertIn (s : LocalStore) (policy : Policy) (es : List Entity) (p : Provenance) : List Entity × LocalStore :=
  (upsert Store.ofLocal policy es p : StateM LocalStore _).run s

/-- The modes of the policy are sent along, but nothing hangs on them here. -/
theorem writeAll_callOptions : s.writeAll policy.callOptions es = s.writeAll policy.options es := writeAll_congr rfl rfl

theorem upsertIn_eq (hn : (Keyed.keys es).Nodup) : upsertIn s policy es p =
    ((inTurn policy es).filterMap (version? s policy.options), (s.writeAll policy.options es).2) := by
  obtain ⟨xs, w, t, hrun, hgoes, ha⟩ :=
    Dialogue.exists_goes_hold Store.ofLocal (upsertAll Dialogue.store policy es p) s
  rw [hold_upsertAll] at hrun
  obtain ⟨rfl, rfl⟩ := (writing_of_goes hgoes).eq_writeAll ha
  have hn' : (Keyed.keys (inTurn policy es)).Nodup := (perm_inTurn.map Keyed.key).nodup_iff.mpr hn
  rw [upsertIn, upsert, StateT.run_map, hrun, writeAll_callOptions]
  exact Prod.ext (versions_writeAll hn') (writeAll_perm hn perm_inTurn)

/-- Both modes leave the same behind and give back the same versions, a batch in the order given and the other mode in
    the order of creation. Entities that are refused are left out. -/
theorem modes_of_writing_agree (s : LocalStore) (policy : Policy) (p : Provenance) (es : List Entity)
    (hn : (Keyed.keys es).Nodup) :
    let batched := upsertIn s { policy with autoCreateRelated := true } es p
    let single := upsertIn s { policy with autoCreateRelated := false } es p
    single.2 = batched.2 ∧ single.1.Perm batched.1 ∧
      batched.1 = es.filterMap (version? s policy.options) ∧
      single.1 = (order .creation es).filterMap (version? s policy.options) := by
  intro batched single
  have hbatched : batched = (es.filterMap (version? s policy.options), (s.writeAll policy.options es).2) :=
    upsertIn_eq hn
  have hsingle : single = ((order .creation es).filterMap (version? s policy.options), (s.writeAll policy.options es).2) :=
    upsertIn_eq hn
  rw [hbatched, hsingle]
  exact ⟨rfl, Order.perm_order.filterMap _, rfl, rfl⟩

/-- Two services that depend on each other, and one whose identifier is found by a query. -/
def triad : List Entity :=
  [(Sample.service "a").withRelation "needs" (.one "b"), (Sample.service "b").withRelation "needs" (.one "a"),
    { Sample.service "c" with usesSearchIdentifier := true }]

/-- A store that has a version of the first with another property, and refuses the second. -/
def beforeTriad : LocalStore :=
  (LocalStore.ofEntities [(Sample.service "a").withProperty "tier" (.string "gold")]).failOn (Sample.serviceRef "b")

theorem triad_written_either_way :
    let batched := upsertIn beforeTriad { options := { merge := true } } triad .automated
    let single := upsertIn beforeTriad { autoCreateRelated := false, options := { merge := true } } triad .automated
    (Keyed.keys triad).Nodup ∧ single.2 = batched.2 ∧ single.1.Perm batched.1 ∧
      Keyed.keys batched.1 = ["a", "c"].map Sample.serviceRef ∧
      Keyed.keys single.1 = ["c", "a"].map Sample.serviceRef ∧
      batched.1.head? = (batched.2.get? (Sample.serviceRef "a")) := by
  intro batched single
  have hn : (Keyed.keys triad).Nodup := by decide +kernel
  obtain ⟨hstored, hperm, -, -⟩ := modes_of_writing_agree beforeTriad { options := { merge := true } } .automated triad hn
  exact ⟨hn, hstored, hperm, by decide +kernel, by decide +kernel, rfl⟩

end CatalogSync.Reconcile
