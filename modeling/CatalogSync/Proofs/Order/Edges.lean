import CatalogSync.Proofs.Order.Selection
import Mathlib.Tactic.IntervalCases

/-! What the order can tell of the items: which of them the store finds by a query, and which depend on which.

Two lists that agree on that are put in the same order, whatever else is different, even the kind of items. So entities
may be renamed, and their blueprints, properties and relations may change, as long as each still relates to the same
others. -/

namespace CatalogSync.Order

variable {α β : Type} [Linked α] [Linked β] {d : Direction} {xs : List α} {ys : List β} {i j : Nat}

/-- The identifier of the item at `j` is among the targets of the one at `i`. -/
def EdgeAt (items : List α) (i j : Nat) : Prop := ∃ x ∈ items[i]?, ∃ y ∈ items[j]?, Keyed.identifier y ∈ Linked.targets x

instance : DecidableRel (EdgeAt xs) := fun i j =>
  inferInstanceAs (Decidable (∃ x ∈ xs[i]?, ∃ y ∈ xs[j]?, Keyed.identifier y ∈ Linked.targets x))

/-- As many items, with the same search flags and the same edges between different ones. -/
structure Resemble (xs : List α) (ys : List β) : Prop where
  search : xs.map Linked.usesSearchIdentifier = ys.map Linked.usesSearchIdentifier
  edges : ∀ i j, i ≠ j → (EdgeAt xs i j ↔ EdgeAt ys i j)

theorem takesPartAt_iff : TakesPartAt d xs i ↔ (xs.map (takesPart d))[i]? = some true := by
  simp [TakesPartAt]

theorem dependsAt_iff : DependsAt d xs i j ↔ i ≠ j ∧ TakesPartAt d xs i ∧ TakesPartAt d xs j ∧ EdgeAt xs i j := by
  refine and_congr_right fun _ => ⟨?_, ?_⟩
  · rintro ⟨x, hx, y, hy, htx, hty, hd⟩
    exact ⟨⟨x, hx, htx⟩, ⟨y, hy, hty⟩, x, hx, y, hy, by simpa [dependsOn] using hd⟩
  · rintro ⟨⟨x, hx, htx⟩, ⟨y, hy, hty⟩, x', hx', y', hy', hd⟩
    obtain rfl := Option.mem_unique hx hx'
    obtain rfl := Option.mem_unique hy hy'
    exact ⟨x, hx, y, hy, htx, hty, by simpa [dependsOn] using hd⟩

theorem leading_eq : leading .creation xs =
    (List.range (xs.map Linked.usesSearchIdentifier).length).filter fun i =>
      (xs.map Linked.usesSearchIdentifier)[i]? = some true := by
  rw [leading, List.length_map]
  refine List.filter_congr fun i _ => ?_
  cases hx : xs[i]? <;> simp [hx]

namespace Resemble

theorem takesPart_eq (h : Resemble xs ys) (d : Direction) : xs.map (takesPart d) = ys.map (takesPart d) := by
  have hflags := congrArg (List.map fun b => d == .deletion || !b) h.search
  rw [List.map_map, List.map_map] at hflags
  exact hflags

theorem takesPartAt_eq (h : Resemble xs ys) : TakesPartAt d xs = TakesPartAt d ys := by
  funext i
  rw [takesPartAt_iff, takesPartAt_iff, h.takesPart_eq d]

theorem dependsAt_eq (h : Resemble xs ys) : DependsAt d xs = DependsAt d ys := by
  funext i j
  rw [dependsAt_iff, dependsAt_iff, h.takesPartAt_eq]
  exact propext (and_congr_right fun hne => and_congr_right fun _ => and_congr_right fun _ => h.edges i j hne)

theorem comesAfter_eq (h : Resemble xs ys) : ComesAfter d xs = ComesAfter d ys := by
  funext i j
  cases d <;> simp only [ComesAfter, h.dependsAt_eq]

theorem leading_eq (h : Resemble xs ys) : leading d xs = leading d ys := by
  cases d with
  | creation => rw [Order.leading_eq, Order.leading_eq, h.search]
  | deletion => rfl

theorem indices_eq (h : Resemble xs ys) (d : Direction) : indices d xs = indices d ys := by
  have hsequel : Sequel (ComesAfter d xs) (TakesPartAt d xs) [] ((steps d ys).map (·.node)) := by
    rw [h.comesAfter_eq, h.takesPartAt_eq]
    exact sequel_steps
  rw [indices, indices, exempt_eq_leading, exempt_eq_leading, h.leading_eq, sequel_steps.unique hsequel]

end Resemble

/-! ### Entities that are written anew -/

/-- `y` is `x` under another identifier. Whatever else differs, it relates to the same ones of `others`. -/
structure Recasts (rename : String → String) (others : List String) (x y : Entity) : Prop where
  identifier : y.identifier = rename x.identifier
  search : y.usesSearchIdentifier = x.usesSearchIdentifier
  kept : ∀ s ∈ x.targets, s ∈ others → rename s ∈ y.targets
  known : ∀ t ∈ y.targets, t ∈ others.map rename → ∃ s ∈ x.targets, s ∈ others ∧ rename s = t

section Entities
variable {rename : String → String} {es fs : List Entity}

/-- The identifiers of the entities at other positions. -/
def others (es : List Entity) (i : Nat) : List String := (es.eraseIdx i).map (·.identifier)

theorem mem_others {z : Entity} (hz : es[j]? = some z) (hne : i ≠ j) : z.identifier ∈ others es i :=
  List.mem_map_of_mem (List.mem_eraseIdx_iff_getElem?.mpr ⟨j, hne.symm, hz⟩)

theorem Recasts.mem_targets {x y z w : Entity} (hinj : Set.InjOn rename {t | t ∈ es.map (·.identifier)})
    (hxy : Recasts rename (others es i) x y) (hz : es[j]? = some z) (hw : w.identifier = rename z.identifier) (hne : i ≠ j) :
    z.identifier ∈ x.targets ↔ w.identifier ∈ y.targets := by
  have hother : z.identifier ∈ others es i := mem_others hz hne
  have hknown : ∀ t ∈ others es i, t ∈ es.map (·.identifier) := fun t ht =>
    (List.eraseIdx_sublist ..).map _ |>.subset ht
  rw [hw]
  constructor
  · intro ht
    exact hxy.kept _ ht hother
  · intro ht
    obtain ⟨s, hs, hso, heq⟩ := hxy.known _ ht (List.mem_map_of_mem hother)
    rwa [← hinj (hknown s hso) (hknown _ hother) heq]

/-- The same entities, under other identifiers perhaps. -/
def RecastAll (rename : String → String) (es fs : List Entity) : Prop :=
  es.length = fs.length ∧ ∀ i x y, es[i]? = some x → fs[i]? = some y → Recasts rename (others es i) x y

theorem RecastAll.cases (h : RecastAll rename es fs) (i : Nat) : (es[i]? = none ∧ fs[i]? = none) ∨
    ∃ x y, es[i]? = some x ∧ fs[i]? = some y ∧ Recasts rename (others es i) x y := by
  cases hx : es[i]? with
  | none => exact .inl ⟨rfl, List.getElem?_eq_none (h.1 ▸ List.getElem?_eq_none_iff.mp hx)⟩
  | some x =>
    have hi : i < fs.length := h.1 ▸ (List.getElem?_eq_some_iff.mp hx).1
    exact .inr ⟨x, fs[i], rfl, List.getElem?_eq_getElem hi, h.2 i x _ hx (List.getElem?_eq_getElem hi)⟩

theorem RecastAll.resemble (h : RecastAll rename es fs) (hinj : Set.InjOn rename {t | t ∈ es.map (·.identifier)}) :
    Resemble es fs where
  search := by
    refine List.ext_getElem? fun i => ?_
    rw [List.getElem?_map, List.getElem?_map]
    rcases h.cases i with ⟨hx, hy⟩ | ⟨x, y, hx, hy, hxy⟩
    · rw [hx, hy]
    · rw [hx, hy]
      exact congrArg some hxy.search.symm
  edges i j hne := by
    rcases h.cases i with ⟨hx, hy⟩ | ⟨x, y, hx, hy, hxy⟩
    · simp [EdgeAt, hx, hy]
    rcases h.cases j with ⟨hz, hw⟩ | ⟨z, w, hz, hw, hzw⟩
    · simp [EdgeAt, hz, hw]
    · simp only [EdgeAt, hx, hy, hz, hw, Option.mem_some_iff, exists_eq_left']
      exact hxy.mem_targets hinj hz hzw.identifier hne

/-- Flags and edges decide the order. So entities may be written anew, even under other identifiers, as long as each
    still relates to the same others. -/
theorem edges_decide_order :
    (∀ {α β : Type} [Linked α] [Linked β] (xs : List α) (ys : List β), Resemble xs ys →
      ∀ d, indices d xs = indices d ys) ∧
    ∀ (rename : String → String) (es fs : List Entity), Set.InjOn rename {t | t ∈ es.map (·.identifier)} →
      RecastAll rename es fs → ∀ d, indices d es = indices d fs :=
  ⟨fun _ _ h => h.indices_eq, fun _ _ _ hinj h => (h.resemble hinj).indices_eq⟩

/-- The items of `twoCycles` under other identifiers and blueprints. One relates to itself too, one to something that
    is not there, and one twice to the same. -/
def recastCycles : List Entity :=
  let item (id blueprint : String) (relation : String) (target : RelationTarget) : Entity :=
    { identifier := id, blueprint, title := some id : Entity }.withRelation relation target
  [(item "new-c" "team" "first" (.one "new-d")).withRelation "second" (.many ["new-a", "new-c", "new-a"]),
    item "new-d" "service" "owner" (.many ["elsewhere", "new-c"]), item "new-a" "team" "next" (.one "new-b"),
    (item "new-b" "host" "next" (.one "new-a")).withProperty "cores" (.bool true)]

theorem recastCycles_in_order : (∀ d, indices d twoCycles = indices d recastCycles) ∧
    Resemble twoCycles recastCycles ∧ indices .creation recastCycles = [2, 3, 0, 1] := by
  have hinj : Set.InjOn ("new-" ++ ·) {t | t ∈ twoCycles.map (·.identifier)} := by
    have h : ∀ s ∈ twoCycles.map (·.identifier), ∀ t ∈ twoCycles.map (·.identifier), "new-" ++ s = "new-" ++ t → s = t := by
      decide
    exact fun s hs t ht => h s hs t ht
  have hrecast : RecastAll ("new-" ++ ·) twoCycles recastCycles := by
    refine ⟨rfl, fun i x y hx hy => ?_⟩
    have hi : i < 4 := (List.getElem?_eq_some_iff.mp hx).1
    interval_cases i <;> cases hx <;> cases hy <;> constructor <;> decide
  have hresemble := hrecast.resemble hinj
  have hindices := edges_decide_order.1 _ _ hresemble
  exact ⟨edges_decide_order.2 _ _ _ hinj hrecast, hresemble, (hindices .creation).symm.trans (by decide)⟩

end Entities
end CatalogSync.Order
