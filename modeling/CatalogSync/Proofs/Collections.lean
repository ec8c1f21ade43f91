import CatalogSync.Collections.SortedMap
import Mathlib.Data.List.Forall2
import Mathlib.Data.List.Induction
import Mathlib.Data.List.Perm.Basic

/-! Lists of named values, maps made of them, and lists without repetitions.

Where no name comes twice, the order of such a list does not count: neither for a look-up nor for the map. -/

namespace CatalogSync

theorem mapM_eq_some {α β : Type} {f : α → Option β} {k : α → β} {xs : List α} (h : ∀ x ∈ xs, f x = some (k x)) :
    xs.mapM f = some (xs.map k) := by
  induction xs with
  | nil => rfl
  | cons x xs ih =>
    obtain ⟨hx, hxs⟩ := List.forall_mem_cons.mp h
    simp [List.mapM_cons, hx, ih hxs]

theorem zipWith_left {α β γ : Type} {f : α → γ} {xs : List α} {ys : List β} (h : ys.length = xs.length) :
    List.zipWith (fun x _ => f x) xs ys = xs.map f :=
  calc
    List.zipWith (fun x _ => f x) xs ys = (xs.zip ys).map fun x => f x.1 := by
      rw [← List.map_uncurry_zip_eq_zipWith]
      rfl
    _ = ((xs.zip ys).map Prod.fst).map f := List.map_map.symm
    _ = xs.map f := by rw [List.map_fst_zip (Nat.le_of_eq h.symm)]

theorem pairwise_zipIdx {α : Type} (xs : List α) (k : Nat) : (xs.zipIdx k).Pairwise fun x y => x.2 < y.2 := by
  rw [← List.pairwise_map, List.zipIdx_map_snd]
  exact List.pairwise_lt_range'

theorem exists_map_of_perm {α β : Type} {g : α → β} {l : List β} {xs : List α} (h : l.Perm (xs.map g)) :
    ∃ ys : List α, ys.Perm xs ∧ l = ys.map g := by
  have hmap : List.Forall₂ (fun y x => y = g x) (xs.map g) xs :=
    List.forall₂_map_left_iff.mpr (List.forall₂_same.mpr fun _ _ => rfl)
  obtain ⟨ys, hl, hys⟩ := List.perm_comp_forall₂ h hmap
  refine ⟨ys, hys, ?_⟩
  rwa [← List.forall₂_map_right_iff (R := Eq), List.forall₂_eq_eq_eq] at hl

theorem lookup_eq_some_iff_mem {ν : Type} {ms : List (String × ν)} {k : String} {v : ν} (hn : (ms.map (·.1)).Nodup) :
    ms.lookup k = some v ↔ (k, v) ∈ ms := by
  induction ms with
  | nil => simp
  | cons m ms ih =>
    obtain ⟨hm, hms⟩ := List.nodup_cons.mp hn
    obtain ⟨n, w⟩ := m
    by_cases hkn : k = n
    · subst hkn
      have hnot : (k, v) ∉ ms := fun h => hm (List.mem_map.mpr ⟨_, h, rfl⟩)
      simp [hnot, eq_comm]
    · simp [List.lookup_cons, beq_false_of_ne hkn, ih hms, hkn]

/-! ### First occurrences -/

/-- Each member of `all` once, in the order in which they first occur. -/
structure FirstOccurrences {α : Type} [BEq α] (all firsts : List α) : Prop where
  mem : ∀ x, x ∈ firsts ↔ x ∈ all
  order : firsts.Pairwise fun x y => all.idxOf x < all.idxOf y

section FirstOccurrences
variable {α : Type} [BEq α] [LawfulBEq α] {all firsts : List α} {x : α}

theorem FirstOccurrences.append_new (h : FirstOccurrences all firsts) (hx : x ∉ all) :
    FirstOccurrences (all ++ [x]) (firsts ++ [x]) where
  mem y := by simp [h.mem]
  order := by
    have hold : ∀ {y}, y ∈ firsts → (all ++ [x]).idxOf y = all.idxOf y := fun hy =>
      List.idxOf_append_of_mem ((h.mem _).mp hy)
    refine List.pairwise_append.mpr ⟨h.order.imp_of_mem fun hy hz hlt => by rwa [hold hy, hold hz], by simp, ?_⟩
    intro y hy z hz
    obtain rfl := List.mem_singleton.mp hz
    rw [hold hy, List.idxOf_append_of_notMem hx]
    exact Nat.lt_add_right _ (List.idxOf_lt_length_of_mem ((h.mem _).mp hy))

theorem FirstOccurrences.append_old (h : FirstOccurrences all firsts) (hx : x ∈ all) :
    FirstOccurrences (all ++ [x]) firsts where
  mem y := by
    rw [h.mem, List.mem_append, List.mem_singleton]
    exact ⟨.inl, fun hy => hy.elim id fun hy => hy ▸ hx⟩
  order := h.order.imp_of_mem fun hy hz hlt => by
    rwa [List.idxOf_append_of_mem ((h.mem _).mp hy), List.idxOf_append_of_mem ((h.mem _).mp hz)]

omit [LawfulBEq α] in
theorem FirstOccurrences.nodup (h : FirstOccurrences all firsts) : firsts.Nodup := by
  refine h.order.imp fun {x y} hlt heq => ?_
  rw [heq] at hlt
  exact Nat.lt_irrefl _ hlt

/-- Of members that are listed in some order with what accounts for it, each comes for the first time before all that is
found later. -/
theorem FirstOccurrences.pairwise {β : Type} {tagged : List (β × α)} {R : β × α → β × α → Prop} (hR : tagged.Pairwise R)
    (h : FirstOccurrences (tagged.map (·.2)) firsts) :
    firsts.Pairwise fun x y => ∃ a, (a, x) ∈ tagged ∧ ∀ b, (b, y) ∈ tagged → R (a, x) (b, y) := by
  refine h.order.imp_of_mem fun {x y} hx _ hlt => ?_
  obtain ⟨as, bs, hsplit, hnot⟩ := List.eq_append_cons_of_mem ((h.mem x).mp hx)
  obtain ⟨pre, rest, rfl, rfl, hrest⟩ := List.map_eq_append_iff.mp hsplit
  obtain ⟨⟨a, x⟩, post, rfl, rfl, -⟩ := List.map_eq_cons_iff.mp hrest
  rw [List.map_append, List.map_cons, List.idxOf_append_of_notMem hnot, List.idxOf_cons_self, Nat.add_zero] at hlt
  obtain ⟨-, hpost, -⟩ := List.pairwise_append.mp hR
  refine ⟨a, by simp, fun b hb => ?_⟩
  rcases List.mem_append.mp hb with hb | hb
  · -- then it would be found before
    have hy := List.mem_map_of_mem (f := (·.2)) hb
    rw [List.idxOf_append_of_mem hy] at hlt
    exact absurd (List.idxOf_lt_length_of_mem hy) (Nat.lt_asymm hlt)
  · rcases List.mem_cons.mp hb with heq | hb
    · obtain ⟨-, rfl⟩ := Prod.mk.inj heq
      rw [List.idxOf_append_of_notMem hnot, List.idxOf_cons_self] at hlt
      exact absurd hlt (Nat.lt_irrefl _)
    · exact (List.pairwise_cons.mp hpost).1 _ hb

theorem firstOccurrences_eraseDups (all : List α) : FirstOccurrences all all.eraseDups := by
  induction all using List.reverseRecOn with
  | nil => exact ⟨fun _ => Iff.rfl, .nil⟩
  | append_singleton all x ih =>
    rw [List.eraseDups_append]
    by_cases hx : x ∈ all
    · simpa [List.removeAll, hx] using ih.append_old hx
    · simpa [List.removeAll, hx, List.eraseDups_cons] using ih.append_new hx

end FirstOccurrences

/-! ### Maps -/

namespace SortedMap
variable {κ ν : Type} [Ord κ] [Std.TransOrd κ] [Std.LawfulEqOrd κ] {es : List (κ × ν)} {m : SortedMap κ ν} {k : κ} {v : ν}

theorem get?_foldl_insert (hn : (es.map (·.1)).Nodup) : (es.foldl (fun m e => m.insert e.1 e.2) m).get? k = some v ↔
    (k, v) ∈ es ∨ (k ∉ es.map (·.1) ∧ m.get? k = some v) := by
  induction es generalizing m with
  | nil => simp
  | cons e es ih =>
    obtain ⟨he, hes⟩ := List.nodup_cons.mp hn
    obtain ⟨a, b⟩ := e
    rw [List.foldl_cons, ih hes, get?_insert]
    by_cases hka : k = a
    · subst hka
      have hnot : (k, v) ∉ es := fun h => he (List.mem_map.mpr ⟨_, h, rfl⟩)
      simp_all [eq_comm]
    · have hcmp : compare k a ≠ .eq := fun h => hka (Std.LawfulEqOrd.eq_of_compare h)
      simp [hka, hcmp]

theorem get?_ofList (hn : (es.map (·.1)).Nodup) : (ofList es).get? k = some v ↔ (k, v) ∈ es := by
  rw [ofList, get?_foldl_insert hn]
  exact or_iff_left fun h => by cases h.2

omit [Std.TransOrd κ] in
theorem nodup_keys (m : SortedMap κ ν) : m.keys.Nodup := by
  refine List.pairwise_map.mpr (m.ascending.imp fun {a b} hlt heq => ?_)
  have hself : compare b.1 b.1 = .eq := Std.ReflCmp.compare_self
  rw [heq, hself] at hlt
  cases hlt

/-- The order in which the entries come does not count. -/
theorem ofList_eq_of_perm (hp : es.Perm m.entries) : ofList es = m := by
  have hn : (es.map (·.1)).Nodup := (hp.map _).nodup_iff.mpr m.nodup_keys
  refine ext fun k => Option.ext fun v => ?_
  rw [get?_ofList hn, get?_eq_some_iff, hp.mem_iff]

end SortedMap
end CatalogSync
