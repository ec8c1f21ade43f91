import CatalogSync.Proofs.Reconcile.Course
import CatalogSync.Store.Local
import Mathlib.Tactic.Tauto

/-! What calls do to the contents of a store in memory.

A write or a delete looks at one key and changes at most that one. So writes of entities with different keys do not
meet: each leaves under its key what it would alone, and their order does not matter. -/

namespace CatalogSync

namespace SortedMap
variable {κ ν : Type} [Ord κ] [Std.TransOrd κ] [Std.LawfulEqOrd κ] [DecidableEq κ]

theorem get?_insert_eq_ite (m : SortedMap κ ν) (k k' : κ) (v : ν) :
    (m.insert k v).get? k' = if k' = k then some v else m.get? k' := by
  simp only [get?_insert, Std.LawfulEqCmp.compare_eq_iff_eq]

theorem get?_erase_eq_ite (m : SortedMap κ ν) (k k' : κ) :
    (m.erase k).get? k' = if k' = k then none else m.get? k' := by
  simp only [get?_erase, Std.LawfulEqCmp.compare_eq_iff_eq, @eq_comm _ k k']

theorem get?_orElse (m n : SortedMap κ ν) (k : κ) : (m.orElse n).get? k = (m.get? k).or (n.get? k) := by
  obtain ⟨es, hs⟩ := m
  show (es.foldl (fun acc e => acc.insert e.1 e.2) n).get? k = (lookup k es).or (n.get? k)
  induction es generalizing n with
  | nil => rfl
  | cons d es ih =>
    obtain ⟨hd, hes⟩ := List.pairwise_cons.mp hs
    rw [List.foldl_cons, ih _ hes, get?_insert_eq_ite]
    simp only [lookup, Std.LawfulEqCmp.compare_eq_iff_eq]
    by_cases hk : k = d.1
    · subst hk
      have hnone : lookup d.1 es = none := lookup_eq_none fun e he heq => by simp [hd e he] at heq
      simp [hnone]
    · simp [hk]

end SortedMap

namespace LocalStore

/-- Each entity is stored under its own key. -/
def WellKeyed (entities : SortedMap EntityRef Entity) : Prop := ∀ k e, entities.get? k = some e → e.key = k

variable {s t u : LocalStore} {e : Entity} {es fs : List Entity} {o : CallOptions} {p : Provenance} {k r : EntityRef}
  {rs : List EntityRef} {entities : SortedMap EntityRef Entity}

theorem WellKeyed.insert (h : WellKeyed entities) : WellKeyed (entities.insert e.key e) := by
  intro k x hx
  rw [SortedMap.get?_insert_eq_ite] at hx
  split at hx
  · rename_i hk
    cases hx
    exact hk.symm
  · exact h k x hx

theorem WellKeyed.erase (h : WellKeyed entities) : WellKeyed (entities.erase r) := by
  intro k x hx
  rw [SortedMap.get?_erase_eq_ite] at hx
  split at hx
  · cases hx
  · exact h k x hx

/-! ### What no call changes -/

/-- They refuse the same entities and answer the same questions. -/
structure Alike (s t : LocalStore) : Prop where
  failing : t.failing = s.failing
  available : t.relatedAvailable = s.relatedAvailable

theorem Alike.refl (s : LocalStore) : Alike s s := ⟨rfl, rfl⟩

theorem Alike.trans (h : Alike s t) (h' : Alike t u) : Alike s u :=
  ⟨h'.failing.trans h.failing, h'.available.trans h.available⟩

theorem Alike.symm (h : Alike s t) : Alike t s := ⟨h.failing.symm, h.available.symm⟩

theorem Alike.refuses (h : Alike s t) (k : EntityRef) : t.refuses k = s.refuses k := by
  rw [LocalStore.refuses, LocalStore.refuses, h.failing]

theorem alike_write : Alike s (s.write e o).2 := by
  unfold write
  split
  · exact .refl s
  · dsimp only
    split
    · exact .refl s
    · exact ⟨rfl, rfl⟩

theorem alike_writeAll : Alike s (s.writeAll o es).2 := by
  induction es generalizing s with
  | nil => exact .refl s
  | cons e es ih => exact alike_write.trans ih

theorem alike_foldl_remove (rs : List EntityRef) : Alike s (rs.foldl remove s) := by
  induction rs generalizing s with
  | nil => exact .refl s
  | cons r rs ih =>
    have hremove : Alike s (s.remove r) := ⟨rfl, rfl⟩
    exact hremove.trans ih

theorem alike_deleteAll : Alike s (s.deleteAll rs o) := by
  unfold deleteAll
  split
  · exact .refl s
  · split
    · exact ⟨rfl, rfl⟩
    · exact alike_foldl_remove _

/-! ### Look-ups -/

theorem contains_iff : s.contains k ↔ ∃ e, s.get? k = some e := Option.isSome_iff_exists

theorem mem_stored : e ∈ s.stored ↔ ∃ k, s.get? k = some e := by
  simp only [stored, SortedMap.values, List.mem_map, Prod.exists, exists_eq_right]
  exact exists_congr fun k => SortedMap.get?_eq_some_iff.symm

theorem get?_insert : (s.insert e).get? k = if k = e.key then some e else s.get? k :=
  SortedMap.get?_insert_eq_ite _ _ _ _

theorem get?_remove : (s.remove r).get? k = if k = r then none else s.get? k :=
  SortedMap.get?_erase_eq_ite _ _ _

theorem contains_insert : (s.insert e).contains k ↔ k = e.key ∨ s.contains k := by
  rw [contains_iff, contains_iff, get?_insert]
  split <;> simp [*]

theorem contains_remove : (s.remove r).contains k ↔ k ≠ r ∧ s.contains k := by
  rw [contains_iff, contains_iff, get?_remove]
  split <;> simp [*]

/-! ### Writes -/

theorem merged_key (s : LocalStore) (e : Entity) (merge : Bool) : (s.merged e merge).key = e.key := by
  unfold merged
  split
  · split <;> rfl
  · rfl

theorem merged_targets (s : LocalStore) (e : Entity) (merge : Bool) : (s.merged e merge).targets = e.targets := by
  unfold merged
  split
  · split <;> rfl
  · rfl

theorem merged_false : s.merged e false = e := by
  unfold merged
  split <;> rfl

theorem write_of_refuses (h : s.refuses e.key = true) : s.write e o = (.error (refusal e.key), s) := if_pos h

theorem write_of_not_refuses (h : s.refuses e.key = false) (ho : o.validationOnly = false) :
    s.write e o = (.ok (s.merged e o.merge), s.insert (s.merged e o.merge)) := by
  simp [write, h, ho]

theorem get?_write_of_ne (h : k ≠ e.key) : (s.write e o).2.get? k = s.get? k := by
  unfold write
  split
  · rfl
  · dsimp only
    split
    · rfl
    · rw [get?_insert, merged_key, if_neg h]

/-- What a write leaves under its key depends on what it finds there. -/
theorem get?_write_congr (h : Alike s t) (hk : t.get? e.key = s.get? e.key) :
    (t.write e o).2.get? e.key = (s.write e o).2.get? e.key := by
  have hmerged : t.merged e o.merge = s.merged e o.merge := by rw [merged, merged, hk]
  unfold write
  rw [h.refuses, hmerged]
  split
  · exact hk
  · dsimp only
    split
    · exact hk
    · rw [get?_insert, get?_insert, merged_key, if_pos rfl, if_pos rfl]

theorem WellKeyed.write (h : WellKeyed s.entities) : WellKeyed (s.write e o).2.entities := by
  unfold LocalStore.write
  split
  · exact h
  · dsimp only
    split
    · exact h
    · exact h.insert

theorem WellKeyed.writeAll (h : WellKeyed s.entities) : WellKeyed (s.writeAll o es).2.entities := by
  induction es generalizing s with
  | nil => exact h
  | cons e es ih => exact ih h.write

theorem mem_keys_cons : k ∈ Keyed.keys (e :: es) ↔ k = e.key ∨ k ∈ Keyed.keys es := List.mem_cons

theorem get?_writeAll_of_notMem (h : k ∉ Keyed.keys es) : (s.writeAll o es).2.get? k = s.get? k := by
  induction es generalizing s with
  | nil => rfl
  | cons e es ih =>
    rw [mem_keys_cons, not_or] at h
    have hrest : (s.writeAll o (e :: es)).2.get? k = (s.write e o).2.get? k := ih h.2
    rw [hrest, get?_write_of_ne h.1]

/-- Of entities with different keys each is written as if it were the only one. -/
theorem writeAll_of_mem (hn : (Keyed.keys es).Nodup) (he : e ∈ es) :
    (s.writeAll o es).2.get? e.key = (s.write e o).2.get? e.key := by
  induction es generalizing s with
  | nil => cases he
  | cons d es ih =>
    obtain ⟨hd, hn⟩ := List.nodup_cons.mp hn
    rcases List.mem_cons.mp he with rfl | he
    · exact get?_writeAll_of_notMem hd
    · have hne : e.key ≠ d.key := ne_of_mem_of_not_mem (List.mem_map_of_mem he) hd
      have hrest : (s.writeAll o (d :: es)).2.get? e.key = ((s.write d o).2.write e o).2.get? e.key := ih hn he
      rw [hrest]
      exact get?_write_congr alike_write (get?_write_of_ne hne)

theorem eq_of_get? (h : Alike s t) (hget : ∀ k, t.get? k = s.get? k) : t = s := by
  have hentities : t.entities = s.entities := SortedMap.ext hget
  obtain ⟨entities, failing, available⟩ := s
  obtain ⟨entities', failing', available'⟩ := t
  obtain ⟨rfl, rfl⟩ := h
  obtain rfl := hentities
  rfl

/-- It does not matter in which order entities with different keys are written. -/
theorem writeAll_perm (hn : (Keyed.keys es).Nodup) (hp : fs.Perm es) : (s.writeAll o fs).2 = (s.writeAll o es).2 := by
  have hkeys : (Keyed.keys fs).Perm (Keyed.keys es) := hp.map _
  have hn' : (Keyed.keys fs).Nodup := hkeys.nodup_iff.mpr hn
  have halike : Alike (s.writeAll o es).2 (s.writeAll o fs).2 := alike_writeAll.symm.trans alike_writeAll
  refine eq_of_get? halike fun k => ?_
  by_cases hk : k ∈ Keyed.keys es
  · obtain ⟨e, he, rfl⟩ := List.mem_map.mp hk
    exact (writeAll_of_mem hn' (hp.mem_iff.mpr he)).trans (writeAll_of_mem hn he).symm
  · rw [get?_writeAll_of_notMem hk, get?_writeAll_of_notMem fun hk' => hk (hkeys.subset hk')]

/-- Writing one by one is writing in that order. -/
theorem writeAll_of_answers {results : List (Except StoreError Entity)} (hlen : results.length = es.length)
    (ha : Store.ofLocal.Answers s (Reconcile.writes o p es results) t) : s.writeAll o es = (results, t) := by
  induction es generalizing s results with
  | nil =>
    cases List.length_eq_zero_iff.mp hlen
    cases ha
    rfl
  | cons e es ih =>
    cases results with
    | nil => cases hlen
    | cons a results =>
      cases ha with
      | cons hc ha =>
        replace hc : s.write e o = (a, _) := hc
        simp only [writeAll, hc, ih (Nat.succ.inj hlen) ha]

/-! ### Deletes -/

theorem get?_foldl_remove : (rs.foldl remove s).get? k = if k ∈ rs then none else s.get? k := by
  induction rs generalizing s with
  | nil => rfl
  | cons r rs ih =>
    rw [List.foldl_cons, ih, get?_remove]
    by_cases hk : k ∈ rs
    · simp [hk]
    · simp [hk]

/-- Those that do not refuse. -/
def yielding (s : LocalStore) (rs : List EntityRef) : List EntityRef := rs.filter fun r => !s.refuses r

theorem mem_yielding : k ∈ s.yielding rs ↔ k ∈ rs ∧ s.refuses k = false := by
  simp [yielding]

theorem yielding_cons_of_refuses (h : s.refuses r = true) : s.yielding (r :: rs) = s.yielding rs :=
  List.filter_cons_of_neg (by simp [h])

theorem yielding_cons_of_not_refuses (h : s.refuses r = false) : s.yielding (r :: rs) = r :: s.yielding rs :=
  List.filter_cons_of_pos (by simp [h])

theorem Alike.yielding_eq (h : Alike s t) : t.yielding rs = s.yielding rs :=
  List.filter_congr fun r _ => by rw [h.refuses]

/-- One by one, the keys that do not refuse are removed. -/
theorem deletes_of_answers {as : List (Except StoreError Unit)} (hlen : as.length = rs.length)
    (ha : Store.ofLocal.Answers s (Reconcile.deletes o p rs as) t) :
    t = (if o.validationOnly then s else (s.yielding rs).foldl remove s) ∧
      Reconcile.Removed.ofReplies rs as = { deleted := s.yielding rs, failed := rs.filter s.refuses } := by
  induction rs generalizing s as with
  | nil =>
    cases List.length_eq_zero_iff.mp hlen
    cases ha
    exact ⟨(ite_self _).symm, rfl⟩
  | cons r rs ih =>
    cases as with
    | nil => cases hlen
    | cons a as =>
      cases ha with
      | cons hc ha =>
        replace hc : s.delete r o = (a, _) := hc
        cases hr : s.refuses r with
        | true =>
          have hfailed : (r :: rs).filter s.refuses = r :: rs.filter s.refuses := List.filter_cons_of_pos hr
          rw [delete, hr, if_pos rfl] at hc
          obtain ⟨rfl, rfl⟩ := Prod.mk.inj hc
          obtain ⟨ht, hremoved⟩ := ih (Nat.succ.inj hlen) ha
          rw [yielding_cons_of_refuses hr, hfailed]
          exact ⟨ht, by rw [Reconcile.Removed.ofReplies, hremoved]⟩
        | false =>
          have hfailed : (r :: rs).filter s.refuses = rs.filter s.refuses := List.filter_cons_of_neg (by simp [hr])
          rw [delete, hr, if_neg Bool.false_ne_true] at hc
          obtain ⟨rfl, rfl⟩ := Prod.mk.inj hc
          have halike : Alike s (if o.validationOnly then s else s.remove r) := by
            split
            · exact .refl s
            · exact ⟨rfl, rfl⟩
          obtain ⟨ht, hremoved⟩ := ih (Nat.succ.inj hlen) ha
          rw [halike.yielding_eq] at ht hremoved
          rw [funext halike.refuses] at hremoved
          rw [yielding_cons_of_not_refuses hr, hfailed]
          refine ⟨ht.trans ?_, by rw [Reconcile.Removed.ofReplies, hremoved]⟩
          cases o.validationOnly <;> rfl

theorem deleteAll_eq (ho : o.validationOnly = false) (hd : o.deleteDependents = true) :
    s.deleteAll rs o = { s with entities := cascade s.entities (s.yielding rs) } := by
  rw [deleteAll, ho, hd]
  rfl

theorem foldl_remove_congr {qs : List EntityRef} (h : ∀ k, k ∈ rs ↔ k ∈ qs) : rs.foldl remove s = qs.foldl remove s := by
  have halike : ∀ ks : List EntityRef, Alike s (ks.foldl remove s) := alike_foldl_remove
  refine eq_of_get? ((halike _).symm.trans (halike _)) fun k => ?_
  rw [get?_foldl_remove, get?_foldl_remove, if_congr (h k) rfl rfl]

theorem deleteAll_nil : s.deleteAll [] o = s := by
  unfold deleteAll
  split
  · rfl
  · split
    · simp [cascade, sweep]
    · rfl

theorem get?_deleteAll (ho : o.validationOnly = false) (hd : o.deleteDependents = false) :
    (s.deleteAll rs o).get? k = if k ∈ s.yielding rs then none else s.get? k := by
  rw [deleteAll, ho, hd]
  exact get?_foldl_remove

/-! ### Related entities -/

theorem mem_relatedRefs : k ∈ s.relatedRefs rs ↔
    s.contains k ∧ ∃ r ∈ rs, ∃ e, s.get? r = some e ∧ k.identifier ∈ e.targets := by
  have hrefs : k ∈ s.refs ↔ s.contains k := SortedMap.mem_keys_iff
  simp only [relatedRefs, List.mem_eraseDups, List.mem_flatMap, List.mem_filterMap, List.mem_filter, hrefs,
    decide_eq_true_eq]
  constructor
  · rintro ⟨target, ⟨e, ⟨r, hr, he⟩, ht⟩, hk, rfl⟩
    exact ⟨hk, r, hr, e, he, ht⟩
  · rintro ⟨hk, r, hr, e, he, ht⟩
    exact ⟨k.identifier, ⟨e, ⟨r, hr, he⟩, ht⟩, hk, rfl⟩

theorem contains_of_mem_relatedRefs (h : k ∈ s.relatedRefs rs) : s.contains k := (mem_relatedRefs.mp h).1

end LocalStore
end CatalogSync
