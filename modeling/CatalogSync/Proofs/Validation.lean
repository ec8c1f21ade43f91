import CatalogSync.Entity.Sample
import CatalogSync.Proofs.Changes
import Mathlib.Data.Nat.Find
import Mathlib.Order.Bounds.Basic

/-! What validation accepts, and what it blames.

Whether a collection is well formed does not depend on the order of its items, and more items never make up for one.
So there is a first item with which the collection up to it is not well formed, and this is the one that is blamed. -/

namespace CatalogSync

variable {α : Type} [Keyed α] {xs ys : List α} {x : α} {seen : List EntityRef} {index : Nat}

/-! ### Well-formed collections -/

/-- No name is empty, and no key comes twice. -/
structure WellFormed (xs : List α) : Prop where
  named : Named xs
  distinct : (Keyed.keys xs).Nodup

theorem fault?_eq_none_iff_wellFormed : fault? xs = none ↔ WellFormed xs :=
  fault?_eq_none_iff.trans ⟨fun ⟨hnamed, hn⟩ => ⟨hnamed, hn⟩, fun h => ⟨h.named, h.distinct⟩⟩

theorem WellFormed.sublist (h : WellFormed xs) (hsub : ys.Sublist xs) : WellFormed ys where
  named y hy := h.named y (hsub.subset hy)
  distinct := h.distinct.sublist (hsub.map _)

/-- Up to the item at `index`, and not before, the collection is not well formed. -/
def FirstFlaw (xs : List α) (index : Nat) : Prop := IsLeast {i | ¬ WellFormed (xs.take (i + 1))} index

theorem exists_firstFlaw (h : ¬ WellFormed xs) : ∃ i, FirstFlaw xs i := by
  classical
  have hsome : ∃ i, ¬ WellFormed (xs.take (i + 1)) :=
    ⟨xs.length, by rwa [List.take_of_length_le (Nat.le_succ _)]⟩
  exact ⟨Nat.find hsome, Nat.find_spec hsome, fun i hi => Nat.find_min' hsome hi⟩

theorem FirstFlaw.wellFormed_take (h : FirstFlaw xs index) : WellFormed (xs.take index) := by
  cases index with
  | zero => exact ⟨by simp [Named], by simp [Keyed.keys]⟩
  | succ i =>
    by_contra hi
    exact Nat.not_succ_le_self i (h.2 hi)

theorem FirstFlaw.lt_length (h : FirstFlaw xs index) : index < xs.length := by
  refine Nat.lt_of_not_le fun hle => h.1 ?_
  have hwell := h.wellFormed_take
  rw [List.take_of_length_le hle] at hwell
  rwa [List.take_of_length_le (hle.trans (Nat.le_succ _))]

/-! ### Who is blamed -/

/-- What is said of the item at `index`, if something is wrong with it. -/
def blame (index : Nat) (x : α) : Fault :=
  if Keyed.identifier x = "" then .emptyField .identifier index
  else if Keyed.blueprint x = "" then .emptyField .blueprint index
  else .duplicate (Keyed.key x)

/-- The faults of what comes first count first. -/
theorem faultAmong_append : faultAmong seen index (xs ++ ys) =
    (faultAmong seen index xs).or (faultAmong ((Keyed.keys xs).reverse ++ seen) (index + xs.length) ys) := by
  induction xs generalizing seen index with
  | nil => rfl
  | cons x xs ih =>
    have hseen : (Keyed.keys (x :: xs)).reverse ++ seen = (Keyed.keys xs).reverse ++ Keyed.key x :: seen := by
      simp [Keyed.keys]
    rw [hseen, List.length_cons, Nat.add_comm xs.length, ← Nat.add_assoc, List.cons_append, faultAmong, faultAmong, ih]
    split
    · rfl
    · split
      · rfl
      · split <;> rfl

theorem faultAmong_cons_of_flawed (h : faultAmong seen index [x] ≠ none) (xs : List α) :
    faultAmong seen index (x :: xs) = some (blame index x) := by
  rw [faultAmong] at h ⊢
  simp only [blame, String.isEmpty_iff] at h ⊢
  by_cases hid : Keyed.identifier x = ""
  · rw [if_pos hid, if_pos hid]
  by_cases hbp : Keyed.blueprint x = ""
  · rw [if_neg hid, if_neg hid, if_pos hbp, if_pos hbp]
  by_cases hkey : Keyed.key x ∈ seen
  · rw [if_neg hid, if_neg hid, if_neg hbp, if_neg hbp, if_pos hkey]
  · simp [hid, hbp, hkey, faultAmong] at h

theorem FirstFlaw.fault?_eq (h : FirstFlaw xs index) (hx : xs[index]? = some x) : fault? xs = some (blame index x) := by
  have hlen : (xs.take index).length = index := List.length_take_of_le (Nat.le_of_lt h.lt_length)
  have hbefore : fault? (xs.take index) = none := fault?_eq_none_iff_wellFormed.mpr h.wellFormed_take
  have hwhole : xs = xs.take index ++ x :: xs.drop (index + 1) := by
    obtain ⟨hlt, hget⟩ := List.getElem?_eq_some_iff.mp hx
    rw [← hget, List.getElem_cons_drop hlt, List.take_append_drop]
  -- the items before it are accepted, so its own faults are the first
  have hfault : ∀ ys, fault? (xs.take index ++ ys) = faultAmong ((Keyed.keys (xs.take index)).reverse ++ []) index ys :=
    fun ys => by rw [fault?, faultAmong_append, ← fault?, hbefore, Option.none_or, hlen, Nat.zero_add]
  have hflawed : fault? (xs.take index ++ [x]) ≠ none := by
    have htake : xs.take (index + 1) = xs.take index ++ [x] := by rw [List.take_add_one, hx]; rfl
    rw [← htake]
    exact mt fault?_eq_none_iff_wellFormed.mp h.1
  rw [hfault] at hflawed
  rw [hwhole, hfault]
  exact faultAmong_cons_of_flawed hflawed _

/-- A collection is accepted if it is well formed, and else the item at its first flaw is blamed. So the order of the
items does not count, and an accepted collection can lose some of them. -/
theorem first_flaw_blamed (xs : List α) :
    (fault? xs = none ↔ WellFormed xs) ∧
    (∀ fault, fault? xs = some fault ↔ ∃ i x, FirstFlaw xs i ∧ xs[i]? = some x ∧ fault = blame i x) ∧
    (∀ ys, ys.Perm xs → (fault? ys = none ↔ fault? xs = none)) ∧
    ∀ ys, ys.Sublist xs → fault? xs = none → fault? ys = none := by
  refine ⟨fault?_eq_none_iff_wellFormed, fun fault => ⟨fun hfault => ?_, ?_⟩, fun ys hperm => ?_,
    fun ys hsub hnone => ?_⟩
  · have hflawed : ¬ WellFormed xs := fun h => by
      rw [fault?_eq_none_iff_wellFormed.mpr h] at hfault
      cases hfault
    obtain ⟨i, hi⟩ := exists_firstFlaw hflawed
    obtain ⟨x, hx⟩ : ∃ x, xs[i]? = some x := ⟨_, List.getElem?_eq_getElem hi.lt_length⟩
    exact ⟨i, x, hi, hx, Option.some.inj (hfault.symm.trans (hi.fault?_eq hx))⟩
  · rintro ⟨i, x, hi, hx, rfl⟩
    exact hi.fault?_eq hx
  · exact ⟨fault?_of_perm hperm.symm, fault?_of_perm hperm⟩
  · exact fault?_eq_none_iff_wellFormed.mpr ((fault?_eq_none_iff_wellFormed.mp hnone).sublist hsub)

/-- The same identifier under two blueprints, a key that comes again, and empty names behind it. -/
def jumble : List EntityRef :=
  [Sample.serviceRef "api", ⟨"api", "team"⟩, Sample.serviceRef "api", ⟨"", "team"⟩, ⟨"db", ""⟩]

theorem jumble_blamed :
    FirstFlaw jumble 2 ∧ fault? jumble = some (.duplicate (Sample.serviceRef "api")) ∧ fault? jumble.reverse ≠ none ∧
      fault? (jumble.take 2) = none ∧ fault? [jumble[1]] = none := by
  have hflaw : FirstFlaw jumble 2 := by
    refine ⟨mt fault?_eq_none_iff_wellFormed.mpr (by decide), fun i hi => ?_⟩
    by_contra hlt
    have hwell : WellFormed (jumble.take 2) := fault?_eq_none_iff_wellFormed.mp (by decide)
    exact hi (hwell.sublist (List.take_sublist_take_left (by omega)))
  obtain ⟨-, hblamed, hperm, -⟩ := first_flaw_blamed jumble
  have hfault : fault? jumble = some (.duplicate (Sample.serviceRef "api")) := (hblamed _).mpr ⟨2, _, hflaw, rfl, rfl⟩
  have hreversed : fault? jumble.reverse ≠ none := fun h => by
    rw [(hperm _ (List.reverse_perm jumble)).mp h] at hfault
    cases hfault
  have hpair : fault? (jumble.take 2) = none := by decide
  obtain ⟨-, -, -, hsub⟩ := first_flaw_blamed (jumble.take 2)
  exact ⟨hflaw, hfault, hreversed, hpair, hsub _ (by decide) hpair⟩

end CatalogSync
