import CatalogSync.Entity.Sample
import CatalogSync.Proofs.Store.Cascade
import CatalogSync.Proofs.Store.Willing

/-! Keys that refuse, over any calls to a store in memory.

Such a key is asked before it is written or deleted, so it keeps what is stored under it. A cascade asks only what it
is told to delete: it takes along whatever relates to that, directly or through others, refusing or not. What is taken
along does not come back, as no write of it goes through. -/

namespace CatalogSync.LocalStore
open Relation

variable {s t : LocalStore} {c : Call} {calls : List Call} {e : Entity} {o : CallOptions} {k r : EntityRef}
  {rs : List EntityRef}

/-! ### Runs of calls -/

/-- The store after a call, whatever the answer to it. -/
def step (s : LocalStore) (c : Call) : LocalStore := ((Store.ofLocal.answer c : StateM LocalStore c.Reply).run s).2

/-- The store after these calls, one after the other. -/
def after (s : LocalStore) (calls : List Call) : LocalStore := calls.foldl step s

theorem alike_delete : Alike s (s.delete r o).2 := by
  unfold delete
  split
  · exact .refl s
  · dsimp only
    split
    · exact .refl s
    · exact ⟨rfl, rfl⟩

theorem alike_step : Alike s (s.step c) := by
  cases c with
  | upsertOne => exact alike_write
  | upsertBatch => exact alike_writeAll
  | deleteOne => exact alike_delete
  | deleteBatch => exact alike_deleteAll
  | related => exact .refl s

/-- What is left of a store is stored under its own key still. -/
theorem WellKeyed.of_left (h : WellKeyed s.entities) (hleft : ∀ k e, t.get? k = some e → s.get? k = some e) :
    WellKeyed t.entities := fun k e he => h k e (hleft k e he)

/-! ### One call -/

/-- The call takes `k` along: it is a batch, dependents included, of something that does not refuse and that `k` relates
    to, directly or through others. -/
def TakesAlong (s : LocalStore) (k : EntityRef) (c : Call) : Prop :=
  ∃ rs o p, c = .deleteBatch rs o p ∧ o.validationOnly = false ∧ o.deleteDependents = true ∧
    ∃ r ∈ rs, s.refuses r = false ∧ TransGen (Relates s.entities) k r

theorem takesAlong_deleteBatch {p : Provenance} : s.TakesAlong k (.deleteBatch rs o p) ↔
    o.validationOnly = false ∧ o.deleteDependents = true ∧
      ∃ r ∈ rs, s.refuses r = false ∧ TransGen (Relates s.entities) k r := by
  constructor
  · rintro ⟨rs, o, p, h, htaken⟩
    cases h
    exact htaken
  · intro htaken
    exact ⟨rs, o, p, rfl, htaken⟩

theorem not_takesAlong (hc : ∀ rs o p, c ≠ .deleteBatch rs o p) : ¬ s.TakesAlong k c := by
  rintro ⟨rs, o, p, heq, -⟩
  exact hc rs o p heq

/-- What refuses is no root of the cascade, so it can only depend on one. -/
theorem taken_yielding (hk : s.refuses k = true) : Taken s.entities (s.yielding rs) k ↔
    ∃ r ∈ rs, s.refuses r = false ∧ TransGen (Relates s.entities) k r := by
  constructor
  · rintro ⟨r, hr, -, hway⟩
    obtain ⟨hr, hyields⟩ := mem_yielding.mp hr
    rcases reflTransGen_iff_eq_or_transGen.mp hway with rfl | hway
    · cases hk.symm.trans hyields
    · exact ⟨r, hr, hyields, hway⟩
  · rintro ⟨r, hr, hyields, hway⟩
    obtain ⟨x, -, hstored, -⟩ := TransGen.tail'_iff.mp hway
    exact ⟨r, mem_yielding.mpr ⟨hr, hyields⟩, hstored, hway.to_reflTransGen⟩

theorem get?_write_of_refuses (hk : s.refuses k = true) : (s.write e o).2.get? k = s.get? k := by
  by_cases hkey : k = e.key
  · rw [write_of_refuses (hkey ▸ hk)]
  · exact get?_write_of_ne hkey

theorem get?_writeAll_of_refuses {es : List Entity} (hk : s.refuses k = true) :
    (s.writeAll o es).2.get? k = s.get? k := by
  induction es generalizing s with
  | nil => rfl
  | cons e es ih =>
    have hrest : (s.writeAll o (e :: es)).2.get? k = (s.write e o).2.get? k := ih ((alike_write.refuses k).trans hk)
    rw [hrest, get?_write_of_refuses hk]

theorem get?_delete_of_refuses (hk : s.refuses k = true) : (s.delete r o).2.get? k = s.get? k := by
  unfold delete
  split
  · rfl
  · rename_i hr
    dsimp only
    split
    · rfl
    · have hne : k ≠ r := by
        rintro rfl
        exact hr hk
      rw [get?_remove, if_neg hne]

theorem get?_deleteAll_of_refuses (hkeyed : WellKeyed s.entities) (hk : s.refuses k = true) :
    (s.deleteAll rs o).get? k = some e ↔ s.get? k = some e ∧
      ¬ (o.validationOnly = false ∧ o.deleteDependents = true ∧
        ∃ r ∈ rs, s.refuses r = false ∧ TransGen (Relates s.entities) k r) := by
  cases ho : o.validationOnly with
  | true => simp [deleteAll, ho]
  | false =>
    cases hd : o.deleteDependents with
    | true =>
      rw [deleteAll_eq ho hd, ← taken_yielding hk]
      rw [and_iff_right rfl, and_iff_right rfl]
      exact get?_cascade hkeyed
    | false =>
      have hstays : k ∉ s.yielding rs := fun hmem => by cases hk.symm.trans (mem_yielding.mp hmem).2
      rw [get?_deleteAll ho hd, if_neg hstays]
      simp

/-- A call leaves alone what refuses, unless it takes it along. -/
theorem get?_step (hkeyed : WellKeyed s.entities) (hk : s.refuses k = true) :
    (s.step c).get? k = some e ↔ s.get? k = some e ∧ ¬ s.TakesAlong k c := by
  cases c with
  | upsertOne x o p =>
    have hget : (s.step (.upsertOne x o p)).get? k = s.get? k := get?_write_of_refuses hk
    rw [hget, and_iff_left (not_takesAlong (by simp))]
  | upsertBatch es o p =>
    have hget : (s.step (.upsertBatch es o p)).get? k = s.get? k := get?_writeAll_of_refuses hk
    rw [hget, and_iff_left (not_takesAlong (by simp))]
  | deleteOne r o p =>
    have hget : (s.step (.deleteOne r o p)).get? k = s.get? k := get?_delete_of_refuses hk
    rw [hget, and_iff_left (not_takesAlong (by simp))]
  | deleteBatch rs o p =>
    rw [takesAlong_deleteBatch]
    exact get?_deleteAll_of_refuses hkeyed hk
  | related rs => exact (and_iff_left (not_takesAlong (by simp))).symm

/-- A batch delete leaves of what is stored what it does not remove, and adds nothing. -/
theorem get?_of_deleteAll (h : WellKeyed s.entities) (he : (s.deleteAll rs o).get? k = some e) : s.get? k = some e := by
  cases ho : o.validationOnly with
  | true => simpa [LocalStore.deleteAll, ho] using he
  | false =>
    cases hd : o.deleteDependents with
    | true =>
      rw [deleteAll_eq ho hd] at he
      exact ((get?_cascade h).mp he).1
    | false =>
      rw [get?_deleteAll ho hd] at he
      split at he
      · cases he
      · exact he

theorem WellKeyed.deleteAll (h : WellKeyed s.entities) : WellKeyed (s.deleteAll rs o).entities :=
  h.of_left fun _ _ => get?_of_deleteAll h

theorem WellKeyed.step (h : WellKeyed s.entities) : WellKeyed (s.step c).entities := by
  cases c with
  | upsertOne => exact h.write
  | upsertBatch => exact h.writeAll
  | deleteOne r o p =>
    show WellKeyed (s.delete r o).2.entities
    unfold delete
    split
    · exact h
    · dsimp only
      split
      · exact h
      · exact h.erase
  | deleteBatch => exact h.deleteAll
  | related => exact h

/-! ### All calls -/

theorem forall_split_cons {α : Type} {P : List α → α → Prop} {x : α} {xs : List α} :
    (∀ front y back, x :: xs = front ++ y :: back → P front y) ↔
      P [] x ∧ ∀ front y back, xs = front ++ y :: back → P (x :: front) y := by
  constructor
  · intro h
    exact ⟨h [] x xs rfl, fun front y back hxs => h (x :: front) y back (by rw [hxs]; rfl)⟩
  · rintro ⟨hx, hxs⟩ front y back heq
    cases front with
    | nil =>
      obtain ⟨rfl, -⟩ := List.cons.inj heq
      exact hx
    | cons z front =>
      obtain ⟨rfl, hsplit⟩ := List.cons.inj heq
      exact hxs front y back hsplit

/-- What refuses keeps what is stored under its key, up to the first call that takes it along. From then on nothing is
    stored under it. -/
theorem refusing_stays_unless_taken_along (s : LocalStore) (calls : List Call) (k : EntityRef)
    (hkeyed : WellKeyed s.entities) (hk : s.refuses k = true) (e : Entity) :
    (s.after calls).get? k = some e ↔
      s.get? k = some e ∧ ∀ front c back, calls = front ++ c :: back → ¬ (s.after front).TakesAlong k c := by
  -- The first call leaves a store that is keyed and refuses as before; the split of the calls follows the run.
  induction calls generalizing s with
  | nil => simp [after]
  | cons c calls ih =>
    have hrest : (s.after (c :: calls)).get? k = some e ↔ _ := ih (s.step c) hkeyed.step ((alike_step.refuses k).trans hk)
    rw [hrest, get?_step hkeyed hk, forall_split_cons, and_assoc]
    rfl

/-- Of two services, the one that depends on the other refuses. -/
def guardedPair : LocalStore := (LocalStore.ofEntities (Sample.chain "service" 2)).failOn (Sample.serviceRef "service-1")

/-- It withstands its own delete, and goes along with the other. -/
theorem guardedPair_taken_along :
    let own := Call.deleteOne (Sample.serviceRef "service-1") {} .automated
    let other := Call.deleteBatch [Sample.serviceRef "service-0"] { deleteDependents := true } .automated
    guardedPair.refuses (Sample.serviceRef "service-1") = true ∧
      (guardedPair.after [own]).get? (Sample.serviceRef "service-1") = some (Sample.link "service" 1) ∧
      (guardedPair.after [own, other]).get? (Sample.serviceRef "service-1") = none := by
  intro own other
  have hkeyed : WellKeyed guardedPair.entities := (willing_ofEntities _).keyed
  have hrefuses : guardedPair.refuses (Sample.serviceRef "service-1") = true := by decide +kernel
  have hstored : guardedPair.get? (Sample.serviceRef "service-1") = some (Sample.link "service" 1) := rfl
  refine ⟨hrefuses, ?_, Option.eq_none_iff_forall_ne_some.mpr fun e he => ?_⟩
  · refine (refusing_stays_unless_taken_along _ _ _ hkeyed hrefuses _).mpr ⟨hstored, forall_split_cons.mpr ⟨?_, ?_⟩⟩
    · exact not_takesAlong (by simp [own])
    · intro front c back hsplit
      simp at hsplit
  · refine ((refusing_stays_unless_taken_along _ _ _ hkeyed hrefuses _).mp he).2 [own] other [] rfl ?_
    have hrelates : Relates (guardedPair.after [own]).entities (Sample.serviceRef "service-1")
        (Sample.serviceRef "service-0") := ⟨by decide +kernel, _, rfl, by decide +kernel⟩
    exact takesAlong_deleteBatch.mpr ⟨rfl, rfl, _, List.mem_singleton_self _, by decide +kernel, .single hrelates⟩

end CatalogSync.LocalStore
