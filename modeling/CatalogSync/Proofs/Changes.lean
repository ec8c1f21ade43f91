import CatalogSync.Changes
import CatalogSync.Validation
import Mathlib.Data.List.Nodup

/-! What a run accepts and how it splits it: collections without an empty name and without a key twice, and what was
created, modified and deleted between two of them. -/

namespace CatalogSync

/-! ### Collections without fault -/

section Validation
variable {α : Type} [Keyed α] {xs : List α}

/-- Every identifier and blueprint is named. -/
def Named (xs : List α) : Prop := ∀ x ∈ xs, Keyed.identifier x ≠ "" ∧ Keyed.blueprint x ≠ ""

theorem faultAmong_eq_none_iff {seen : List EntityRef} {index : Nat} :
    faultAmong seen index xs = none ↔ Named xs ∧ (Keyed.keys xs).Nodup ∧ ∀ k ∈ Keyed.keys xs, k ∉ seen := by
  induction xs generalizing seen index with
  | nil => simp [faultAmong, Named, Keyed.keys]
  | cons x xs ih =>
    have hkeys : Keyed.keys (x :: xs) = Keyed.key x :: Keyed.keys xs := rfl
    rw [hkeys, List.nodup_cons, List.forall_mem_cons, Named, List.forall_mem_cons]
    unfold faultAmong
    by_cases hid : Keyed.identifier x = ""
    · simp [hid]
    by_cases hbp : Keyed.blueprint x = ""
    · simp [hid, hbp]
    by_cases hseen : Keyed.key x ∈ seen
    · simp [hid, hbp, hseen]
    have hdisjoint : (∀ k ∈ Keyed.keys xs, k ∉ Keyed.key x :: seen) ↔
        Keyed.key x ∉ Keyed.keys xs ∧ ∀ k ∈ Keyed.keys xs, k ∉ seen := by
      simp only [List.mem_cons, not_or]
      exact ⟨fun h => ⟨fun hx => (h _ hx).1 rfl, fun k hk => (h k hk).2⟩,
        fun ⟨hx, h⟩ k hk => ⟨fun heq => hx (heq ▸ hk), h k hk⟩⟩
    simp only [String.isEmpty_iff, hid, hbp, hseen, if_false, ih, hdisjoint]
    simp only [Named, ne_eq, not_false_eq_true, true_and]
    tauto

theorem fault?_eq_none_iff : fault? xs = none ↔ Named xs ∧ (Keyed.keys xs).Nodup := by
  simp [fault?, faultAmong_eq_none_iff]

theorem fault?_of_perm {ys : List α} (hp : ys.Perm xs) (h : fault? xs = none) : fault? ys = none := by
  obtain ⟨hnamed, hn⟩ := fault?_eq_none_iff.mp h
  exact fault?_eq_none_iff.mpr ⟨fun y hy => hnamed y (hp.subset hy), (hp.map _).nodup_iff.mpr hn⟩

end Validation

/-! ### Changes -/

section Changes
variable {α : Type} [Keyed α] {d : Diff α} {k : EntityRef} {x : α}

theorem mem_deleted : x ∈ d.changes.deleted ↔ x ∈ d.before ∧ Keyed.key x ∉ Keyed.keys d.after := by
  simp [Diff.changes]

theorem mem_kept : x ∈ d.changes.kept ↔ x ∈ d.after := by
  simp only [Changes.kept, Diff.changes, List.mem_append, List.mem_filter, decide_eq_true_eq]
  tauto

theorem mem_keys_deleted : k ∈ Keyed.keys d.changes.deleted ↔ k ∈ Keyed.keys d.before ∧ k ∉ Keyed.keys d.after := by
  simp only [Keyed.keys, List.mem_map, mem_deleted]
  constructor
  · rintro ⟨x, ⟨hx, hn⟩, rfl⟩
    exact ⟨⟨x, hx, rfl⟩, by simpa [Keyed.keys] using hn⟩
  · rintro ⟨⟨x, hx, rfl⟩, hn⟩
    exact ⟨x, ⟨hx, by simpa [Keyed.keys] using hn⟩, rfl⟩

theorem mem_keys_kept : k ∈ Keyed.keys d.changes.kept ↔ k ∈ Keyed.keys d.after := by
  simp [Keyed.keys, mem_kept]

theorem nodup_keys_deleted (h : (Keyed.keys d.before).Nodup) : (Keyed.keys d.changes.deleted).Nodup :=
  h.sublist (List.filter_sublist.map _)

/-- What is kept is what should be stored, in another order. -/
theorem perm_kept : d.changes.kept.Perm d.after := by
  refine List.perm_append_comm.trans ?_
  simpa [Diff.changes] using List.filter_append_perm (fun x => Keyed.key x ∈ Keyed.keys d.before) d.after

end Changes
end CatalogSync
