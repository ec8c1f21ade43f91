import CatalogSync.Entity.Sample
import CatalogSync.Proofs.Changes

/-! How a diff is split: every key belongs to one part.

Whether an item was created, modified or deleted depends on nothing but its key, so each part is a filter on the keys of
the collection that it comes from. -/

namespace CatalogSync

/-! ### Interleaving -/

/-- The third list is the first two, put into one another; each keeps its order. -/
inductive Interleaves {α : Type} : List α → List α → List α → Prop
  | nil : Interleaves [] [] []
  | left {x : α} {xs ys zs : List α} : Interleaves xs ys zs → Interleaves (x :: xs) ys (x :: zs)
  | right {y : α} {xs ys zs : List α} : Interleaves xs ys zs → Interleaves xs (y :: ys) (y :: zs)

namespace Interleaves
variable {α : Type} {xs xs' ys ys' zs zs' : List α}

theorem only_right (ys : List α) : Interleaves [] ys ys := by
  induction ys with
  | nil => exact .nil
  | cons y ys ih => exact ih.right

theorem append (h : Interleaves xs ys zs) (h' : Interleaves xs' ys' zs') :
    Interleaves (xs ++ xs') (ys ++ ys') (zs ++ zs') := by
  induction h with
  | nil => exact h'
  | left _ ih => exact ih.left
  | right _ ih => exact ih.right

theorem sublist_left (h : Interleaves xs ys zs) : xs.Sublist zs := by
  induction h with
  | nil => exact .slnil
  | left _ ih => exact ih.cons_cons _
  | right _ ih => exact ih.cons _

theorem sublist_right (h : Interleaves xs ys zs) : ys.Sublist zs := by
  induction h with
  | nil => exact .slnil
  | left _ ih => exact ih.cons _
  | right _ ih => exact ih.cons_cons _

theorem filter_not (p : α → Bool) (zs : List α) : Interleaves (zs.filter fun x => !p x) (zs.filter p) zs := by
  induction zs with
  | nil => exact .nil
  | cons z zs ih =>
    cases hz : p z with
    | false => simpa [hz] using ih.left
    | true => simpa [hz] using ih.right

end Interleaves

/-! ### Keys of the parts -/

section Keys
variable {α : Type} [Keyed α] {d : Diff α} {xs : List α} {k : EntityRef}

theorem mem_keys_filter (P : EntityRef → Prop) [DecidablePred P] :
    k ∈ Keyed.keys (xs.filter fun x => P (Keyed.key x)) ↔ k ∈ Keyed.keys xs ∧ P k := by
  simp only [Keyed.keys, List.mem_map, List.mem_filter, decide_eq_true_eq]
  constructor
  · rintro ⟨x, ⟨hx, hP⟩, rfl⟩
    exact ⟨⟨x, hx, rfl⟩, hP⟩
  · rintro ⟨⟨x, hx, rfl⟩, hP⟩
    exact ⟨x, ⟨hx, hP⟩, rfl⟩

theorem mem_keys_created : k ∈ Keyed.keys d.changes.created ↔ k ∈ Keyed.keys d.after ∧ k ∉ Keyed.keys d.before :=
  mem_keys_filter (· ∉ Keyed.keys d.before)

theorem mem_keys_modified : k ∈ Keyed.keys d.changes.modified ↔ k ∈ Keyed.keys d.after ∧ k ∈ Keyed.keys d.before :=
  mem_keys_filter (· ∈ Keyed.keys d.before)

theorem not_mem_keys_deleted_of_kept (h : k ∈ Keyed.keys d.changes.kept) : k ∉ Keyed.keys d.changes.deleted :=
  fun hdeleted => (mem_keys_deleted.mp hdeleted).2 (mem_keys_kept.mp h)

theorem nodup_keys_changes (hbefore : (Keyed.keys d.before).Nodup) (hafter : (Keyed.keys d.after).Nodup) :
    (Keyed.keys (d.changes.created ++ d.changes.modified ++ d.changes.deleted)).Nodup := by
  have hkept : (Keyed.keys d.changes.kept).Nodup := (perm_kept.map _).nodup_iff.mpr hafter
  rw [Keyed.keys, List.map_append]
  refine List.nodup_append'.mpr ⟨hkept, nodup_keys_deleted hbefore, fun k hk => ?_⟩
  exact not_mem_keys_deleted_of_kept hk

end Keys

/-! ### Parts of a diff -/

section Parts
variable {α : Type} [Keyed α]

/-- Each key of the two collections is that of one item in one part, and the parts are made of these collections: what
is kept of the one after the change, the rest of the one before it. -/
structure Partitions (d : Diff α) (c : Changes α) : Prop where
  after : Interleaves c.created c.modified d.after
  created_sublist : c.created.Sublist d.after
  modified_sublist : c.modified.Sublist d.after
  deleted_sublist : c.deleted.Sublist d.before
  created : ∀ k, k ∈ Keyed.keys c.created ↔ k ∈ Keyed.keys d.after ∧ k ∉ Keyed.keys d.before
  modified : ∀ k, k ∈ Keyed.keys c.modified ↔ k ∈ Keyed.keys d.after ∧ k ∈ Keyed.keys d.before
  deleted : ∀ k, k ∈ Keyed.keys c.deleted ↔ k ∈ Keyed.keys d.before ∧ k ∉ Keyed.keys d.after
  once : (Keyed.keys (c.created ++ c.modified ++ c.deleted)).Nodup
  kept : c.kept.Perm d.after
  kept_disjoint : ∀ k ∈ Keyed.keys c.kept, k ∉ Keyed.keys c.deleted

/-- The change taken back. -/
def Diff.reversed (d : Diff α) : Diff α := ⟨d.after, d.before⟩

/-- By their keys, what the one creates the other deletes, and both modify the same. -/
structure Mirrors (c c' : Changes α) : Prop where
  created : ∀ k, k ∈ Keyed.keys c'.created ↔ k ∈ Keyed.keys c.deleted
  modified : ∀ k, k ∈ Keyed.keys c'.modified ↔ k ∈ Keyed.keys c.modified
  deleted : ∀ k, k ∈ Keyed.keys c'.deleted ↔ k ∈ Keyed.keys c.created

theorem mirrors_reversed (d : Diff α) : Mirrors d.changes d.reversed.changes where
  created _ := mem_keys_created.trans mem_keys_deleted.symm
  modified _ := mem_keys_modified.trans (and_comm.trans mem_keys_modified.symm)
  deleted _ := mem_keys_deleted.trans mem_keys_created.symm

theorem every_key_in_one_part {d : Diff α} (hbefore : fault? d.before = none) (hafter : fault? d.after = none) :
    Partitions d d.changes ∧ Mirrors d.changes d.reversed.changes := by
  have hsplit : Interleaves d.changes.created d.changes.modified d.after := by
    have hfilter := Interleaves.filter_not (fun x => decide (Keyed.key x ∈ Keyed.keys d.before)) d.after
    simpa [Diff.changes] using hfilter
  obtain ⟨-, hbefore⟩ := fault?_eq_none_iff.mp hbefore
  obtain ⟨-, hafter⟩ := fault?_eq_none_iff.mp hafter
  constructor
  · exact {
      after := hsplit
      created_sublist := hsplit.sublist_left
      modified_sublist := hsplit.sublist_right
      deleted_sublist := List.filter_sublist
      created := fun _ => mem_keys_created
      modified := fun _ => mem_keys_modified
      deleted := fun _ => mem_keys_deleted
      once := nodup_keys_changes hbefore hafter
      kept := perm_kept
      kept_disjoint := fun _ => not_mem_keys_deleted_of_kept }
  · exact mirrors_reversed d

/-- Of two services and a team by the name of one of them, that service is kept in another version; the names of the
others come back under other blueprints. -/
def regrouping : Diff Entity where
  before := [Sample.service "api", Sample.team "api", Sample.service "db"]
  after := [Sample.team "db", (Sample.service "api").withRelation "owner" (.one "db"), Sample.team "mail"]

theorem regrouping_parted : fault? regrouping.before = none ∧ fault? regrouping.after = none ∧
    Partitions regrouping regrouping.changes ∧ Mirrors regrouping.changes regrouping.reversed.changes ∧
    regrouping.changes.modified.map (·.targets) = [["db"]] ∧
    Keyed.keys regrouping.changes.deleted = [⟨"api", "team"⟩, Sample.serviceRef "db"] := by
  have hbefore : fault? regrouping.before = none := by decide
  have hafter : fault? regrouping.after = none := by decide
  obtain ⟨hparts, hmirrors⟩ := every_key_in_one_part hbefore hafter
  exact ⟨hbefore, hafter, hparts, hmirrors, by decide, by decide⟩

end Parts
end CatalogSync
