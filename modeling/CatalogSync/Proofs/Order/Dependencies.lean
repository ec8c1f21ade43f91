import CatalogSync.Order.Basic
import CatalogSync.Proofs.Order.Sequence
import Mathlib.Logic.Relation

/-! The order of items and their dependencies.

Every item comes once, and every dependency that is not part of a cycle is honoured: what an item depends on
is written before it and deleted after it. -/

namespace CatalogSync.Order
open Relation

variable {α : Type} [Linked α] {d : Direction} {items : List α} {u v : Nat}

/-! ### Positions -/

omit [Linked α] in
theorem mem_positions {P : α → Bool} :
    v ∈ (items.zipIdx.filter fun x => P x.1).map (·.2) ↔ ∃ x, items[v]? = some x ∧ P x := by
  simp only [List.mem_map, List.mem_filter, Prod.exists, List.mem_zipIdx_iff_getElem?]
  constructor
  · rintro ⟨x, i, ⟨hx, hP⟩, rfl⟩
    exact ⟨x, hx, hP⟩
  · rintro ⟨x, hx, hP⟩
    exact ⟨x, v, ⟨hx, hP⟩, rfl⟩

theorem mem_nodes : v ∈ nodes d items ↔ ∃ x, items[v]? = some x ∧ takesPart d x := mem_positions

theorem mem_exempt : v ∈ exempt d items ↔ ∃ x, items[v]? = some x ∧ (!takesPart d x) = true :=
  mem_positions (P := fun x => !takesPart d x)

omit [Linked α] in
theorem ascending_positions (P : α × Nat → Bool) : ((items.zipIdx.filter P).map (·.2)).Pairwise (· < ·) := by
  have hsub : ((items.zipIdx.filter P).map (·.2)).Sublist (items.zipIdx.map (·.2)) := List.filter_sublist.map _
  refine List.Pairwise.sublist hsub ?_
  simp [List.pairwise_lt_range']

theorem exempt_append_nodes : (exempt d items ++ nodes d items).Perm (List.range items.length) := by
  have h : (exempt d items ++ nodes d items).Perm (items.zipIdx.map (·.2)) := by
    rw [exempt, nodes, ← List.map_append]
    refine List.Perm.map _ (List.perm_append_comm.trans ?_)
    simpa using List.filter_append_perm (fun x => takesPart d x.1) items.zipIdx
  simpa [List.range_eq_range'] using h

/-! ### Dependencies -/

def dependsOn (x y : α) : Bool := (Linked.targets x).contains (Keyed.identifier y)

/-- Must `y` come before `x`, if they are different items? -/
def waitsFor (d : Direction) (x y : α) : Bool :=
  match d with
  | .creation => dependsOn x y
  | .deletion => dependsOn y x

/-- The item at `i` depends on the one at `j`, where both take part. -/
def DependsAt (d : Direction) (items : List α) (i j : Nat) : Prop :=
  i ≠ j ∧ ∃ x ∈ items[i]?, ∃ y ∈ items[j]?, takesPart d x ∧ takesPart d y ∧ dependsOn x y

instance : DecidableRel (DependsAt d items) := fun i j =>
  inferInstanceAs (Decidable (i ≠ j ∧ ∃ x ∈ items[i]?, ∃ y ∈ items[j]?, takesPart d x ∧ takesPart d y ∧ dependsOn x y))

theorem mem_group {l : List (α × Nat)} {m : SortedMap String (List Nat)} {t : String} :
    v ∈ ((l.foldl (fun m x => m.insert (Keyed.identifier x.1) ((m.get? (Keyed.identifier x.1)).getD [] ++ [x.2])) m).get?
      t).getD [] ↔ v ∈ (m.get? t).getD [] ∨ ∃ x, (x, v) ∈ l ∧ Keyed.identifier x = t := by
  induction l generalizing m with
  | nil => simp
  | cons x l ih =>
    obtain ⟨x, i⟩ := x
    have hcons : (∃ y, (y, v) ∈ (x, i) :: l ∧ Keyed.identifier y = t) ↔
        (v = i ∧ Keyed.identifier x = t) ∨ ∃ y, (y, v) ∈ l ∧ Keyed.identifier y = t := by
      simp only [List.mem_cons, Prod.mk.injEq, or_and_right, exists_or]
      refine or_congr_left ⟨?_, ?_⟩
      · rintro ⟨y, ⟨rfl, rfl⟩, ht⟩
        exact ⟨rfl, ht⟩
      · rintro ⟨rfl, ht⟩
        exact ⟨x, ⟨rfl, rfl⟩, ht⟩
    rw [List.foldl_cons, ih, hcons, ← or_assoc, SortedMap.get?_insert]
    refine or_congr_left ?_
    by_cases ht : t = Keyed.identifier x
    · subst ht
      simp [Std.ReflCmp.compare_self]
    · have hcmp : compare t (Keyed.identifier x) ≠ .eq := fun h => ht (Std.LawfulEqOrd.eq_of_compare h)
      simp [hcmp, Ne.symm ht]

/-- Under an identifier are the items that have it, whatever their blueprint. -/
theorem mem_byIdentifier {t : String} : v ∈ ((byIdentifier d items).get? t).getD [] ↔
    ∃ y, items[v]? = some y ∧ takesPart d y ∧ Keyed.identifier y = t := by
  simp [byIdentifier, mem_group, List.mem_zipIdx_iff_getElem?, and_assoc]

theorem mem_ascending {is : List Nat} : v ∈ ascending is ↔ v ∈ is := by
  have h : ∀ l : List Nat, v ∈ is.foldl (fun l i => Sequence.Progress.insertNode i l) l ↔ v ∈ l ∨ v ∈ is := by
    induction is with
    | nil => simp
    | cons i is ih =>
      intro l
      rw [List.foldl_cons, ih, Sequence.Progress.mem_insertNode, List.mem_cons, or_comm (a := v = i), or_assoc]
  exact (h []).trans (or_iff_right List.not_mem_nil)

theorem pairwise_ascending (is : List Nat) : (ascending is).Pairwise (· < ·) := by
  have h : ∀ l : List Nat, l.Pairwise (· < ·) →
      (is.foldl (fun l i => Sequence.Progress.insertNode i l) l).Pairwise (· < ·) := by
    induction is with
    | nil => exact fun _ hl => hl
    | cons i is ih => exact fun l hl => ih _ (Sequence.Progress.pairwise_insertNode hl)
  exact h [] .nil

theorem size_dependencies : (dependencies d items).size = items.length := by simp [dependencies]

theorem next_dependencies {x : α} (hx : items[v]? = some x) : (dependencies d items).next v =
    if takesPart d x then
      ascending (((Linked.targets x).flatMap fun t => ((byIdentifier d items).get? t).getD []).filter (· != v))
    else [] := by
  simp [dependencies, Adjacency.next, Array.getD_eq_getD_getElem?, hx]

theorem next_dependencies_of_none (hx : items[v]? = none) : (dependencies d items).next v = [] :=
  Adjacency.next_of_size_le (by simpa [size_dependencies] using hx)

/-- The look-ups by identifier find each dependency, and nothing else. -/
theorem mem_next_dependencies : u ∈ (dependencies d items).next v ↔ DependsAt d items v u := by
  unfold DependsAt
  cases hx : items[v]? with
  | none => simp [next_dependencies_of_none hx]
  | some x =>
    rw [next_dependencies hx]
    by_cases ht : takesPart d x
    · simp only [ht, if_true, mem_ascending, List.mem_filter, List.mem_flatMap, mem_byIdentifier, bne_iff_ne, dependsOn,
        List.contains_iff_mem, Option.mem_some_iff, exists_eq_left', true_and]
      constructor
      · rintro ⟨⟨_, htarget, y, hy, hty, rfl⟩, hne⟩
        exact ⟨hne.symm, y, hy, hty, htarget⟩
      · rintro ⟨hne, y, hy, hty, htarget⟩
        exact ⟨⟨_, htarget, y, hy, hty, rfl⟩, hne.symm⟩
    · simp [ht]

theorem pairwise_next_dependencies : ((dependencies d items).next v).Pairwise (· < ·) := by
  cases hx : items[v]? with
  | none =>
    rw [next_dependencies_of_none hx]
    exact .nil
  | some x =>
    rw [next_dependencies hx]
    split
    · exact pairwise_ascending _
    · exact .nil

theorem size_prerequisites : (prerequisites d items).size = items.length := by
  cases d with
  | creation => exact size_dependencies
  | deletion => exact Adjacency.size_reverse.trans size_dependencies

theorem mem_next_creation : u ∈ (prerequisites .creation items).next v ↔ DependsAt .creation items v u :=
  mem_next_dependencies

theorem mem_next_deletion : u ∈ (prerequisites .deletion items).next v ↔ DependsAt .deletion items u v := by
  refine Adjacency.mem_next_reverse.trans ?_
  rw [mem_next_dependencies, size_dependencies]
  refine ⟨fun h => h.2.2, fun h => ⟨?_, ?_, h⟩⟩
  · obtain ⟨-, -, -, y, hy, -⟩ := h
    exact (List.getElem?_eq_some_iff.mp hy).1
  · obtain ⟨-, x, hx, -⟩ := h
    exact (List.getElem?_eq_some_iff.mp hx).1

theorem mem_next : u ∈ (prerequisites d items).next v ↔
    u ≠ v ∧ ∃ x ∈ items[v]?, ∃ y ∈ items[u]?, takesPart d x ∧ takesPart d y ∧ waitsFor d x y := by
  cases d with
  | creation =>
    rw [mem_next_creation, DependsAt, ne_comm]
    rfl
  | deletion =>
    rw [mem_next_deletion, DependsAt]
    refine and_congr_right fun _ => ⟨?_, ?_⟩
    · rintro ⟨x, hx, y, hy, htx, hty, hw⟩
      exact ⟨y, hy, x, hx, hty, htx, hw⟩
    · rintro ⟨x, hx, y, hy, htx, hty, hw⟩
      exact ⟨y, hy, x, hx, hty, htx, hw⟩

theorem nodup_next : ((prerequisites d items).next v).Nodup := by
  cases d with
  | creation => exact pairwise_next_dependencies.imp Nat.ne_of_lt
  | deletion => exact Adjacency.nodup_next_reverse

theorem reaches_creation (h : (prerequisites .creation items).Reaches u v) :
    ReflTransGen (DependsAt .creation items) u v := by
  induction h with
  | refl => exact .refl
  | step he _ ih => exact .head (mem_next_creation.mp he) ih

theorem reaches_deletion (h : (prerequisites .deletion items).Reaches u v) :
    ReflTransGen (DependsAt .deletion items) v u := by
  induction h with
  | refl => exact .refl
  | step he _ ih => exact .tail ih (mem_next_deletion.mp he)

theorem closed_prerequisites : (prerequisites d items).Closed := by
  intro v _ u hu
  obtain ⟨-, -, -, y, hy, -⟩ := mem_next.mp hu
  rw [size_prerequisites]
  exact (List.getElem?_eq_some_iff.mp hy).1

theorem among_nodes : Sequence.Among (prerequisites d items) (nodes d items) where
  lt := by
    intro v hv
    obtain ⟨x, hx, -⟩ := mem_nodes.mp hv
    rw [size_prerequisites]
    exact (List.getElem?_eq_some_iff.mp hx).1
  next := by
    intro v _ u hu
    obtain ⟨-, -, -, y, hy, -, hty, -⟩ := mem_next.mp hu
    exact mem_nodes.mpr ⟨y, hy, hty⟩
  irrefl _ h := (mem_next.mp h).1 rfl
  ascending := ascending_positions _
  distinct _ := nodup_next

/-! ### The whole order -/

theorem perm_indices : (indices d items).Perm (List.range items.length) :=
  ((Sequence.perm_run closed_prerequisites among_nodes).append_left _).trans exempt_append_nodes

theorem nodup_indices : (indices d items).Nodup := perm_indices.nodup_iff.mpr List.nodup_range

theorem map_some_order : (order d items).map some = (indices d items).map (items[·]?) := by
  have hlt : ∀ i ∈ indices d items, i < items.length := fun i hi => List.mem_range.mp (perm_indices.mem_iff.mp hi)
  unfold order
  generalize indices d items = is at hlt
  induction is with
  | nil => rfl
  | cons i is ih =>
    obtain ⟨hi, his⟩ := List.forall_mem_cons.mp hlt
    simp [ih his, hi]

omit [Linked α] in
theorem filterMap_range : (List.range items.length).filterMap (items[·]?) = items := by
  have hrange : (List.range items.length).map (items[·]?) = items.map some := by
    refine List.ext_getElem? fun i => ?_
    by_cases hi : i < items.length <;> simp [hi]
  have := congrArg (List.filterMap id) hrange
  simpa [List.filterMap_map, Function.comp_def] using this

theorem perm_order : (order d items).Perm items := (perm_indices.filterMap _).trans (.of_eq filterMap_range)

/-! ### What comes before what -/

theorem not_mem_exempt (hv : v ∈ nodes d items) : v ∉ exempt d items := by
  have hn : (exempt d items ++ nodes d items).Nodup := exempt_append_nodes.nodup_iff.mpr List.nodup_range
  exact fun he => (List.disjoint_of_nodup_append hn) he hv

/-- Before an item come those that it waits for, unless they wait for it too. -/
theorem mem_of_indices_split {pre post : List Nat} (h : indices d items = pre ++ v :: post)
    (hu : u ∈ (prerequisites d items).next v) (hr : ¬ (prerequisites d items).Reaches u v) : u ∈ pre := by
  obtain ⟨-, x, hx, -, -, htx, -⟩ := mem_next.mp hu
  have hv : v ∉ exempt d items := not_mem_exempt (mem_nodes.mpr ⟨x, hx, htx⟩)
  rw [indices] at h
  -- `v` takes part, so the split is in the steps
  rcases List.append_eq_append_iff.mp h with ⟨mid, rfl, hsteps⟩ | ⟨mid, hexempt, hsteps⟩
  · exact List.mem_append_right _ (Sequence.mem_of_run_split closed_prerequisites among_nodes hsteps hu hr)
  · cases mid with
    | nil =>
      rw [List.append_nil] at hexempt
      have : u ∈ ([] : List Nat) := Sequence.mem_of_run_split closed_prerequisites among_nodes hsteps.symm hu hr
      cases this
    | cons a mid =>
      obtain ⟨rfl, -⟩ := List.cons.inj hsteps
      exact absurd (by simp [hexempt]) hv

theorem idxOf_lt_of_mem {l pre post : List Nat} (hl : l.Nodup) (h : l = pre ++ v :: post) (hu : u ∈ pre) :
    l.idxOf u < l.idxOf v := by
  subst h
  have hv : v ∉ pre := fun hv => (List.disjoint_of_nodup_append hl) hv List.mem_cons_self
  rw [List.idxOf_append_of_mem hu, List.idxOf_append_of_notMem hv, List.idxOf_cons_self, Nat.add_zero]
  exact List.idxOf_lt_length_iff.mpr hu

theorem idxOf_lt_of_waits (hu : u ∈ (prerequisites d items).next v) (hr : ¬ (prerequisites d items).Reaches u v) :
    (indices d items).idxOf u < (indices d items).idxOf v := by
  obtain ⟨-, x, hx, -⟩ := mem_next.mp hu
  have hv : v ∈ indices d items :=
    perm_indices.mem_iff.mpr (List.mem_range.mpr (List.getElem?_eq_some_iff.mp hx).1)
  obtain ⟨pre, post, h⟩ := List.append_of_mem hv
  exact idxOf_lt_of_mem nodup_indices h (mem_of_indices_split h hu hr)

/-- Each position comes once, and a dependency is honoured unless it is part of a cycle. -/
theorem indices_honour_dependencies (d : Direction) (items : List α) :
    (indices d items).Perm (List.range items.length) ∧
    (order d items).map some = (indices d items).map (items[·]?) ∧
    ∀ i j, DependsAt d items i j → ¬ ReflTransGen (DependsAt d items) j i →
      match d with
      | .creation => (indices d items).idxOf j < (indices d items).idxOf i
      | .deletion => (indices d items).idxOf i < (indices d items).idxOf j := by
  refine ⟨perm_indices, map_some_order, fun i j hij hr => ?_⟩
  cases d with
  | creation => exact idxOf_lt_of_waits (mem_next_creation.mpr hij) fun h => hr (reaches_creation h)
  | deletion => exact idxOf_lt_of_waits (mem_next_deletion.mpr hij) fun h => hr (reaches_deletion h)

/-- Two cycles; one item of the first depends on one of the second. -/
def twoCycles : List Entity :=
  let item (id : String) (targets : List String) : Entity :=
    { identifier := id, blueprint := "service" : Entity }.withRelation "next" (.many targets)
  [item "c" ["d", "a"], item "d" ["c"], item "a" ["b"], item "b" ["a"]]

/-- The second cycle comes first on creation, although both are broken. -/
theorem twoCycles_in_order :
    DependsAt .creation twoCycles 0 2 ∧ ¬ ReflTransGen (DependsAt .creation twoCycles) 2 0 ∧
      (indices .creation twoCycles).idxOf 2 < (indices .creation twoCycles).idxOf 0 := by
  have hij : DependsAt .creation twoCycles 0 2 := by decide
  have hstep : ∀ i ∈ [2, 3], ∀ j < 4, DependsAt .creation twoCycles i j → j ∈ [2, 3] := by decide
  have hinside : ∀ i, ReflTransGen (DependsAt .creation twoCycles) 2 i → i ∈ [2, 3] := by
    intro i hi
    induction hi with
    | refl => decide
    | tail _ he ih =>
      obtain ⟨-, -, -, y, hy, -⟩ := id he
      exact hstep _ ih _ (List.getElem?_eq_some_iff.mp hy).1 he
  have hr : ¬ ReflTransGen (DependsAt .creation twoCycles) 2 0 := fun h => absurd (hinside 0 h) (by decide)
  exact ⟨hij, hr, (indices_honour_dependencies .creation twoCycles).2.2 0 2 hij hr⟩

/-! ### Items without cycles -/

section Items
variable {x y : α} {before after : List α}

/-- The first depends on the second, another of these items. -/
structure DependsIn (items : List α) (x y : α) : Prop where
  left : x ∈ items
  right : y ∈ items
  key_ne : Keyed.key x ≠ Keyed.key y
  depends : dependsOn x y

/-- No item depends on itself through others. -/
def Acyclic (items : List α) : Prop := ∀ x, ¬ TransGen (DependsIn items) x x

theorem Acyclic.of_subset {others : List α} (h : Acyclic items) (hsub : ∀ x ∈ others, x ∈ items) : Acyclic others := by
  have hmono : ∀ x y, DependsIn others x y → DependsIn items x y := fun x y hd =>
    ⟨hsub x hd.left, hsub y hd.right, hd.key_ne, hd.depends⟩
  exact fun x hx => h x (TransGen.mono hmono _ _ hx)

/-- Where each item only depends on earlier ones, there is no cycle. -/
theorem acyclic_of_lt (h : ∀ x ∈ items, ∀ y ∈ items, Keyed.key x ≠ Keyed.key y → dependsOn x y →
    (Keyed.keys items).idxOf (Keyed.key y) < (Keyed.keys items).idxOf (Keyed.key x)) : Acyclic items := by
  have hlt : ∀ x y, TransGen (DependsIn items) x y →
      (Keyed.keys items).idxOf (Keyed.key y) < (Keyed.keys items).idxOf (Keyed.key x) := fun x y hxy => by
    induction hxy with
    | single hd => exact h _ hd.left _ hd.right hd.key_ne hd.depends
    | tail _ hd ih => exact (h _ hd.left _ hd.right hd.key_ne hd.depends).trans ih
  exact fun x hx => Nat.lt_irrefl _ (hlt x x hx)

theorem dependsIn_of_dependsAt (hn : (Keyed.keys items).Nodup) (h : DependsAt d items u v) (hx : items[u]? = some x) :
    ∃ y, items[v]? = some y ∧ DependsIn items x y := by
  obtain ⟨hne, x', hx', y, hy, -, -, hd⟩ := h
  obtain rfl : x = x' := Option.some.inj (hx.symm.trans hx')
  refine ⟨y, hy, List.mem_of_getElem? hx, List.mem_of_getElem? hy, fun hkey => hne ?_, hd⟩
  have hu : (Keyed.keys items)[u]? = some (Keyed.key x) := by rw [Keyed.keys, List.getElem?_map, hx]; rfl
  have hv : (Keyed.keys items)[v]? = some (Keyed.key x) := by rw [Keyed.keys, List.getElem?_map, hy, hkey]; rfl
  exact (List.getElem?_inj (List.getElem?_eq_some_iff.mp hu).1 hn).mp (hu.trans hv.symm)

theorem dependsIn_of_reflTransGen (hn : (Keyed.keys items).Nodup) (h : ReflTransGen (DependsAt d items) u v)
    (hx : items[u]? = some x) : ∃ y, items[v]? = some y ∧ ReflTransGen (DependsIn items) x y := by
  induction h with
  | refl => exact ⟨x, hx, .refl⟩
  | tail _ hd ih =>
    obtain ⟨y, hy, hxy⟩ := ih
    obtain ⟨z, hz, hyz⟩ := dependsIn_of_dependsAt hn hd hy
    exact ⟨z, hz, hxy.tail hyz⟩

/-- A split of the items in order is one of their positions. -/
theorem indices_of_order_split (h : order d items = before ++ x :: after) : ∃ pre v post,
    indices d items = pre ++ v :: post ∧ items[v]? = some x ∧ pre.map (items[·]?) = before.map some := by
  have hmap : (order d items).map some = (indices d items).map (items[·]?) := map_some_order
  rw [h, List.map_append, List.map_cons] at hmap
  obtain ⟨pre, rest, hsplit, hpre, hrest⟩ := List.map_eq_append_iff.mp hmap.symm
  obtain ⟨v, post, rfl, hv, -⟩ := List.map_eq_cons_iff.mp hrest
  exact ⟨pre, v, post, hsplit, hv, hpre⟩

theorem mem_of_order_split (h : order d items = before ++ x :: after) (hy : y ∈ items) (hne : Keyed.key x ≠ Keyed.key y)
    (hx : takesPart d x) (hty : takesPart d y) (hw : waitsFor d x y)
    (hr : ∀ u v, items[u]? = some y → items[v]? = some x → ¬ (prerequisites d items).Reaches u v) : y ∈ before := by
  obtain ⟨pre, v, post, hsplit, hv, hpre⟩ := indices_of_order_split h
  obtain ⟨u, hu⟩ := List.mem_iff_getElem?.mp hy
  have huv : u ≠ v := by
    rintro rfl
    exact hne (congrArg Keyed.key (Option.some.inj (hv.symm.trans hu)))
  have hnext : u ∈ (prerequisites d items).next v := mem_next.mpr ⟨huv, x, hv, y, hu, hx, hty, hw⟩
  have hmem : some y ∈ before.map some := by
    rw [← hpre, ← hu]
    exact List.mem_map_of_mem (mem_of_indices_split hsplit hnext (hr u v hu hv))
  simpa using hmem

/-- Before an item is written come those that it depends on. -/
theorem mem_of_creation_split (ha : Acyclic items) (hn : (Keyed.keys items).Nodup)
    (ht : ∀ x ∈ items, Linked.usesSearchIdentifier x = false)
    (h : order .creation items = before ++ x :: after) (hxy : DependsIn items x y) : y ∈ before := by
  have htakes : ∀ x ∈ items, takesPart .creation x := fun x hx => by simp [takesPart, ht x hx]
  refine mem_of_order_split h hxy.right hxy.key_ne (htakes _ hxy.left) (htakes _ hxy.right) hxy.depends ?_
  intro u v hu hv hr
  obtain ⟨z, hz, hyz⟩ := dependsIn_of_reflTransGen hn (reaches_creation hr) hu
  obtain rfl : x = z := Option.some.inj (hv.symm.trans hz)
  exact ha x (.head' hxy hyz)

/-- Before an item is deleted come those that depend on it. -/
theorem mem_of_deletion_split (ha : Acyclic items) (hn : (Keyed.keys items).Nodup)
    (h : order .deletion items = before ++ x :: after) (hyx : DependsIn items y x) : y ∈ before := by
  refine mem_of_order_split h hyx.left hyx.key_ne.symm rfl rfl hyx.depends fun u v hu hv hr => ?_
  obtain ⟨z, hz, hxz⟩ := dependsIn_of_reflTransGen hn (reaches_deletion hr) hv
  obtain rfl : y = z := Option.some.inj (hu.symm.trans hz)
  exact ha y (.head' hyx hxz)

end Items
end CatalogSync.Order
