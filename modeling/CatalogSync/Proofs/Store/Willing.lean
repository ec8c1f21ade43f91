import CatalogSync.Proofs.Store.Contents

/-! Stores in memory that are willing: they refuse no write or delete, answer each question and keep each entity under
its own key. They stay so, every call to them succeeds, and what they hold after the calls of a run follows from what
they held before. -/

namespace CatalogSync.LocalStore

structure Willing (s : LocalStore) : Prop where
  failing : s.failing = []
  available : s.relatedAvailable = true
  keyed : WellKeyed s.entities

variable {s t : LocalStore} {e : Entity} {es : List Entity} {o : CallOptions} {p : Provenance} {k r : EntityRef}
  {rs : List EntityRef}

theorem Willing.insert (h : s.Willing) : (s.insert e).Willing := ⟨h.failing, h.available, h.keyed.insert⟩

theorem Willing.remove (h : s.Willing) : (s.remove r).Willing := ⟨h.failing, h.available, h.keyed.erase⟩

theorem willing_ofEntities (es : List Entity) : (ofEntities es).Willing := by
  have h : ∀ s : LocalStore, s.Willing → (es.foldl LocalStore.insert s).Willing := by
    induction es with
    | nil => exact fun s hs => hs
    | cons e es ih => exact fun s hs => ih _ hs.insert
  exact h {} ⟨rfl, rfl, fun k e he => by cases he⟩

theorem Willing.foldl_remove (h : s.Willing) : (rs.foldl LocalStore.remove s).Willing := by
  induction rs generalizing s with
  | nil => exact h
  | cons r rs ih => exact ih h.remove

theorem Willing.not_refuses (h : s.Willing) : s.refuses r = false := by
  simp [refuses, h.failing]

theorem Willing.yielding_eq (h : s.Willing) : s.yielding rs = rs :=
  List.filter_eq_self.mpr fun r _ => by simp [h.not_refuses]

/-! ### Writes -/

theorem Willing.write_eq (h : s.Willing) (ho : o.validationOnly = false) :
    s.write e o = (.ok (s.merged e o.merge), s.insert (s.merged e o.merge)) :=
  write_of_not_refuses h.not_refuses ho

theorem Willing.writeAll (h : s.Willing) (ho : o.validationOnly = false) (es : List Entity) :
    (s.writeAll o es).2.Willing ∧ ∀ k, (s.writeAll o es).2.contains k ↔ k ∈ Keyed.keys es ∨ s.contains k := by
  induction es generalizing s with
  | nil => exact ⟨h, fun k => by simp [LocalStore.writeAll, Keyed.keys]⟩
  | cons e es ih =>
    obtain ⟨hw, hcontains⟩ := ih (h.insert (e := s.merged e o.merge))
    simp only [LocalStore.writeAll, h.write_eq ho]
    refine ⟨hw, fun k => ?_⟩
    rw [hcontains, contains_insert, merged_key, mem_keys_cons]
    tauto

/-! ### What is held -/

/-- What is stored is `S`, up to titles, properties and the like: nothing else, and all of it. -/
structure Holds (s : LocalStore) (S : Entity → Prop) : Prop where
  known : ∀ k e, s.get? k = some e → ∃ f, S f ∧ f.key = k ∧ f.targets = e.targets
  stored : ∀ f, S f → s.contains f.key

variable {S T : Entity → Prop} {v : Entity}

theorem Holds.congr (h : s.Holds S) (hST : ∀ f, S f ↔ T f) : s.Holds T where
  known k e he := by
    obtain ⟨f, hf, hkey, ht⟩ := h.known k e he
    exact ⟨f, (hST f).mp hf, hkey, ht⟩
  stored f hf := h.stored f ((hST f).mpr hf)

theorem Holds.insert (h : s.Holds S) (hkey : v.key = e.key) (ht : v.targets = e.targets) :
    (s.insert v).Holds fun f => f = e ∨ S f ∧ f.key ≠ e.key where
  known k x hx := by
    rw [get?_insert] at hx
    split at hx
    · rename_i hk
      cases hx
      exact ⟨e, .inl rfl, (hk.trans hkey).symm, ht.symm⟩
    · rename_i hk
      obtain ⟨f, hf, rfl, hft⟩ := h.known k x hx
      exact ⟨f, .inr ⟨hf, hkey ▸ hk⟩, rfl, hft⟩
  stored f hf := by
    rw [contains_insert, hkey]
    rcases hf with rfl | ⟨hf, -⟩
    · exact .inl rfl
    · exact .inr (h.stored f hf)

theorem Holds.remove (h : s.Holds S) : (s.remove r).Holds fun f => S f ∧ f.key ≠ r where
  known k x hx := by
    rw [get?_remove] at hx
    split at hx
    · cases hx
    · rename_i hk
      obtain ⟨f, hf, rfl, hft⟩ := h.known k x hx
      exact ⟨f, ⟨hf, hk⟩, rfl, hft⟩
  stored f hf := contains_remove.mpr ⟨hf.2, h.stored f hf.1⟩

/-- After entities of different keys are stored one by one, they have replaced those of the same keys. -/
theorem Holds.foldl {put : LocalStore → Entity → LocalStore}
    (hput : ∀ {s : LocalStore} {S : Entity → Prop} {e : Entity}, s.Holds S →
      (put s e).Holds fun f => f = e ∨ S f ∧ f.key ≠ e.key)
    (h : s.Holds S) (hn : (Keyed.keys es).Nodup) :
    (es.foldl put s).Holds fun f => f ∈ es ∨ S f ∧ f.key ∉ Keyed.keys es := by
  induction es generalizing s S with
  | nil => exact h.congr fun f => by simp [Keyed.keys]
  | cons e es ih =>
    obtain ⟨hnot, hn⟩ := List.nodup_cons.mp hn
    refine (ih (hput h) hn).congr fun f => ?_
    have hkeys : f.key ∉ Keyed.keys (e :: es) ↔ f.key ≠ e.key ∧ f.key ∉ Keyed.keys es := by
      rw [← not_or]
      exact not_congr List.mem_cons
    rw [hkeys, List.mem_cons]
    have hne : f = e → f.key ∉ Keyed.keys es := fun heq => heq ▸ hnot
    tauto

theorem holds_ofEntities (hn : (Keyed.keys es).Nodup) : (ofEntities es).Holds (· ∈ es) := by
  have hempty : ({} : LocalStore).Holds fun _ => False := ⟨fun k e he => (by cases he), fun f hf => hf.elim⟩
  exact (Holds.foldl (fun h => h.insert rfl rfl) hempty hn).congr fun f => by simp

theorem Willing.writeAll_eq (h : s.Willing) (ho : o.validationOnly = false) :
    (s.writeAll o es).2 = es.foldl (fun s e => s.insert (s.merged e o.merge)) s := by
  induction es generalizing s with
  | nil => rfl
  | cons e es ih =>
    rw [LocalStore.writeAll, h.write_eq ho, List.foldl_cons, ← ih h.insert]

theorem Holds.writeAll (h : s.Holds S) (hs : s.Willing) (ho : o.validationOnly = false)
    (hn : (Keyed.keys es).Nodup) :
    (s.writeAll o es).2.Holds fun f => f ∈ es ∨ S f ∧ f.key ∉ Keyed.keys es := by
  rw [hs.writeAll_eq ho]
  exact h.foldl (fun h => h.insert (merged_key _ _ _) (merged_targets _ _ _)) hn

theorem Holds.foldl_remove (h : s.Holds S) : (rs.foldl LocalStore.remove s).Holds fun f => S f ∧ f.key ∉ rs := by
  induction rs generalizing s S with
  | nil => exact h.congr fun f => by simp
  | cons r rs ih => exact (ih h.remove).congr fun f => by simp [and_assoc]

/-! ### Deletes -/

theorem Willing.deletes_of_answers (h : s.Willing) (ho : o.validationOnly = false)
    {as : List (Except StoreError Unit)} (hlen : as.length = rs.length)
    (ha : Store.ofLocal.Answers s (Reconcile.deletes o p rs as) t) :
    t = rs.foldl LocalStore.remove s ∧ Reconcile.Removed.ofReplies rs as = { deleted := rs } := by
  have hfailed : rs.filter s.refuses = [] := List.filter_eq_nil_iff.mpr fun r _ => by simp [h.not_refuses]
  obtain ⟨ht, hremoved⟩ := LocalStore.deletes_of_answers hlen ha
  rw [ho, if_neg Bool.false_ne_true, h.yielding_eq] at ht
  rw [h.yielding_eq] at hremoved
  rw [hfailed] at hremoved
  exact ⟨ht, hremoved⟩

end CatalogSync.LocalStore
