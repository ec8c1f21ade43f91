import CatalogSync.Order.Events
import CatalogSync.Proofs.Order.Selection
import Mathlib.Order.Lattice.Nat

/-! What an ordering tells of the cycles.

The first member of a component of two or more that comes waits for another one, so it is forced; and all its members
can be entered then, so it is the lowest. A member that is forced later is of a component that was told of before. -/

namespace CatalogSync

namespace Sequence
open CatalogSync.Order

variable {g : Adjacency} {nodes : List Nat} {past pre post : List Step} {s : Step} {u v : Nat}

/-- The nodes at which a cycle was broken for the first time. -/
def warned (steps : List Step) : List Nat := (steps.filter fun s => s.cause = .cycleBroken).map (·.node)

theorem mem_warned {steps : List Step} : v ∈ warned steps ↔ ∃ s ∈ steps, s.cause = .cycleBroken ∧ s.node = v := by
  simp [warned, and_assoc]

/-! ### One step -/

namespace Follows

theorem enterable (h : Follows g nodes past s) (hc : s.cause ≠ .ready) :
    ¬ Free g.Waits (past.map (·.node)) s.node ∧
      IsLeast {v | Pending (· ∈ nodes) (past.map (·.node)) v ∧ Enterable g.Waits (· ∈ nodes) (past.map (·.node)) v}
        s.node := by
  have hfree : ¬ Free g.Waits (past.map (·.node)) s.node := fun hf => hc (h.ready.mpr hf)
  rcases h.next with hnext | hnext
  · exact absurd hnext.1.2 hfree
  · exact ⟨hfree, hnext.2⟩

/-- A node that is forced waits for another one of its component. -/
theorem nontrivial (h : Follows g nodes past s) (ha : Among g nodes) (hc : s.cause ≠ .ready) :
    {u | Entangled g.Waits s.node u}.Nontrivial := by
  obtain ⟨hfree, hleast⟩ := h.enterable hc
  obtain ⟨u, hu, hpast⟩ : ∃ u, g.Waits s.node u ∧ u ∉ past.map (·.node) := by
    simpa [Free] using hfree
  have hent : Entangled g.Waits s.node u := hleast.1.2 s.node hleast.1.1 (.refl _ _) u hu hpast
  exact ⟨s.node, .refl _ _, u, hent, fun heq => ha.irrefl s.node (by rwa [Adjacency.Waits, ← heq] at hu)⟩

variable (h : Follows g nodes past s) (hfirst : ∀ t ∈ past, ¬ Entangled g.Waits s.node t.node)
include h hfirst

/-- The first member that comes is told of. -/
theorem cause_of_first (hn : {u | Entangled g.Waits s.node u}.Nontrivial) : s.cause = .cycleBroken := by
  obtain ⟨u, hu, hne⟩ := hn.exists_ne s.node
  have hpast : ∀ w ∈ past.map (·.node), ¬ Entangled g.Waits s.node w := by simpa using hfirst
  cases hc : s.cause with
  | ready => exact absurd (h.ready.mp hc) (not_free_of_entangled hu hne hpast)
  | cycleBroken => rfl
  | brokenAgain =>
    obtain ⟨t, ht, -, hent⟩ := h.again hc
    exact absurd hent.symm (hfirst t ht)

/-- The first member that comes is the lowest one. -/
theorem isLeast (ha : Among g nodes) (hc : s.cause ≠ .ready) : IsLeast {u | Entangled g.Waits s.node u} s.node := by
  obtain ⟨-, hleast⟩ := h.enterable hc
  refine ⟨.refl _ _, fun u (hu : Entangled g.Waits s.node u) => hleast.2 ⟨⟨?_, ?_⟩, hleast.1.2.of_entangled hu⟩⟩
  · exact hu.takesPart (fun v u hv => ha.next v hv u) hleast.1.1.1
  · rw [List.mem_map]
    rintro ⟨t, ht, rfl⟩
    exact hfirst t ht hu

end Follows

/-! ### The whole run -/

theorem exists_first {α : Type} {P : α → Prop} {l : List α} (h : ∃ x ∈ l, P x) :
    ∃ pre x post, l = pre ++ x :: post ∧ P x ∧ ∀ y ∈ pre, ¬ P y := by
  classical
  obtain ⟨x, hx⟩ := Option.isSome_iff_exists.mp (List.find?_isSome.mpr (by simpa using h : ∃ x ∈ l, decide (P x) = true))
  obtain ⟨hP, pre, post, hsplit, hpre⟩ := List.find?_eq_some_iff_append.mp hx
  exact ⟨pre, x, post, hsplit, by simpa using hP, fun y hy => by simpa using hpre y hy⟩

section Run
variable {before : Adjacency} (hc : before.Closed) (ha : Among before nodes)
include hc ha

theorem nodup_run : ((run before nodes).map (·.node)).Nodup :=
  (perm_run hc ha).nodup_iff.mpr (ha.ascending.imp Nat.ne_of_lt)

theorem nodup_warned : (warned (run before nodes)).Nodup :=
  (List.filter_sublist.map _).nodup (nodup_run hc ha)

/-- Where a cycle is broken for the first time, no other member of the component has come. -/
theorem first_of_cycleBroken (h : run before nodes = pre ++ s :: post) (hs : s.cause = .cycleBroken) :
    ∀ t ∈ pre, ¬ Entangled before.Waits s.node t.node := by
  by_contra hex
  push Not at hex
  -- the first member that has come was told of
  obtain ⟨pre', t, post', rfl, ht, hfirst⟩ := exists_first (P := fun t : Step => Entangled before.Waits s.node t.node) hex
  have hsplit : run before nodes = pre' ++ t :: (post' ++ s :: post) := by simpa using h
  have hne : t.node ≠ s.node := by
    have hnodup := nodup_run hc ha
    rw [hsplit] at hnodup
    simp only [List.map_append, List.map_cons, List.nodup_append, List.nodup_cons] at hnodup
    exact fun heq => hnodup.2.1.1 (by simp [heq])
  have htold : t.cause = .cycleBroken :=
    (follows_of_run_split hc ha hsplit).cause_of_first (fun x hx hent => hfirst x hx (ht.trans hent))
      ⟨t.node, .refl _ _, s.node, ht.symm, hne⟩
  exact (follows_of_run_split hc ha h).first hs t (by simp) htold ht.symm

/-- A cycle is broken for the first time at the lowest member of each component of two or more. -/
theorem mem_warned_iff : v ∈ warned (run before nodes) ↔ ∃ C ∈ knots before.Waits (· ∈ nodes), IsLeast C v := by
  rw [mem_warned]
  constructor
  · rintro ⟨s, hs, hcause, rfl⟩
    obtain ⟨pre, post, hsplit⟩ := List.append_of_mem hs
    have hfollows := follows_of_run_split hc ha hsplit
    have hforced : s.cause ≠ .ready := by simp [hcause]
    exact ⟨_, ⟨hfollows.nontrivial ha hforced, s.node, hfollows.next.pending.1, rfl⟩,
      hfollows.isLeast (first_of_cycleBroken hc ha hsplit hcause) ha hforced⟩
  · rintro ⟨-, ⟨hn, w, hw, rfl⟩, hleast⟩
    obtain ⟨t, ht, rfl⟩ := List.mem_map.mp ((perm_run hc ha).mem_iff.mpr hw)
    obtain ⟨pre, s, post, hsplit, hts, hfirst⟩ :=
      exists_first (P := fun s : Step => Entangled before.Waits t.node s.node) ⟨t, ht, .refl _ _⟩
    have hfollows := follows_of_run_split hc ha hsplit
    have hfirst : ∀ x ∈ pre, ¬ Entangled before.Waits s.node x.node := fun x hx hent => hfirst x hx (hts.trans hent)
    rw [← hts.component_eq] at hn hleast
    have hcause := hfollows.cause_of_first hfirst hn
    have hforced : s.cause ≠ .ready := by simp [hcause]
    exact ⟨s, by simp [hsplit], hcause, (hfollows.isLeast hfirst ha hforced).unique hleast⟩

/-- The components of two members or more are those that are told of. -/
theorem knots_eq_image : knots before.Waits (· ∈ nodes) =
    (fun v => {u | Entangled before.Waits v u}) '' {v | v ∈ warned (run before nodes)} := by
  have hcomponent : ∀ C ∈ knots before.Waits (· ∈ nodes), ∀ v ∈ C, {u | Entangled before.Waits v u} = C := by
    rintro - ⟨-, w, -, rfl⟩ v hv
    exact Entangled.component_eq hv
  ext C
  constructor
  · intro hC
    have hleast : IsLeast C (sInf C) := ⟨Nat.sInf_mem hC.1.nonempty, fun _ => Nat.sInf_le⟩
    exact ⟨sInf C, (mem_warned_iff hc ha).mpr ⟨C, hC, hleast⟩, hcomponent C hC _ hleast.1⟩
  · rintro ⟨v, hv, rfl⟩
    obtain ⟨C, hC, hleast⟩ := (mem_warned_iff hc ha).mp hv
    have heq : {u | Entangled before.Waits v u} = C := hcomponent C hC v hleast.1
    exact (heq ▸ hC :)

theorem length_warned : (warned (run before nodes)).length = (knots before.Waits (· ∈ nodes)).ncard := by
  have hinj : Set.InjOn (fun v => {u | Entangled before.Waits v u}) {v | v ∈ warned (run before nodes)} := by
    intro v hv w hw (heq : {u | Entangled before.Waits v u} = {u | Entangled before.Waits w u})
    have hleast : ∀ x ∈ warned (run before nodes), IsLeast {u | Entangled before.Waits x u} x := by
      intro x hx
      obtain ⟨-, ⟨-, y, -, rfl⟩, hleast⟩ := (mem_warned_iff hc ha).mp hx
      rwa [Entangled.component_eq hleast.1]
    exact (hleast v hv).unique (heq ▸ hleast w hw)
  rw [knots_eq_image hc ha, hinj.ncard_image, ← List.coe_toFinset, Set.ncard_coe_finset,
    List.toFinset_card_of_nodup (nodup_warned hc ha)]

/-- Without a warning nothing is forced. -/
theorem ready_of_warned_eq_nil (h : warned (run before nodes) = []) (hs : s ∈ run before nodes) : s.cause = .ready := by
  have hnone : ∀ t ∈ run before nodes, t.cause ≠ .cycleBroken := fun t ht hcause => by
    have hmem : t.node ∈ warned (run before nodes) := mem_warned.mpr ⟨t, ht, hcause, rfl⟩
    rw [h] at hmem
    cases hmem
  obtain ⟨pre, post, hsplit⟩ := List.append_of_mem hs
  cases hcause : s.cause with
  | ready => rfl
  | cycleBroken => exact absurd hcause (hnone s hs)
  | brokenAgain =>
    obtain ⟨t, ht, htold, -⟩ := (follows_of_run_split hc ha hsplit).again hcause
    exact absurd htold (hnone t (by simp [hsplit, ht]))

end Run
end Sequence

namespace Order
open Relation Sequence

variable {α : Type} [Linked α] {d : Direction} {items : List α} {s : Step} {e : Event}

/-! ### Components of items -/

theorem entangled_comesAfter : Entangled (ComesAfter d items) = Entangled (DependsAt d items) := by
  cases d with
  | creation => rfl
  | deletion =>
    have hswap : ∀ u v, ReflTransGen (ComesAfter .deletion items) u v ↔ ReflTransGen (DependsAt .deletion items) v u :=
      fun _ _ => reflTransGen_swap
    funext u v
    exact propext ((and_congr (hswap u v) (hswap v u)).trans and_comm)

theorem knots_prerequisites : knots (prerequisites d items).Waits (· ∈ nodes d items) =
    knots (DependsAt d items) (TakesPartAt d items) := by
  rw [waits_prerequisites, mem_nodes_eq, knots, entangled_comesAfter]
  rfl

theorem takesPartAt_of_dependsAt {i j : Nat} (h : DependsAt d items i j) : TakesPartAt d items i := by
  obtain ⟨-, x, hx, -, -, ht, -⟩ := h
  exact ⟨x, hx, ht⟩

/-! ### Events -/

/-- The steps that are forced. -/
def told (d : Direction) (items : List α) : List Step := (steps d items).filter fun s => s.cause ≠ .ready

theorem warned_told : warned (told d items) = warned (steps d items) := by
  rw [warned, told, List.filter_filter, warned]
  refine congrArg _ (List.filter_congr fun s _ => ?_)
  cases s.cause <;> rfl

/-- What is told of a forced step: the key of the item at its node, and whether its cycle was told of before. -/
inductive TellsOf (items : List α) (s : Step) : Event → Prop
  | warning {x : α} : items[s.node]? = some x → s.cause = .cycleBroken → TellsOf items s (.cycleBroken (Keyed.key x))
  | again {x : α} : items[s.node]? = some x → s.cause = .brokenAgain → TellsOf items s (.cycleBrokenAgain (Keyed.key x))

theorem TellsOf.level_eq_warn_iff (h : TellsOf items s e) : e.level = .warn ↔ s.cause = .cycleBroken := by
  cases h with
  | warning _ hc => simp [Event.level, hc]
  | again _ hc => simp [Event.level, hc]

theorem event?_eq_none (h : s.cause = .ready) : event? items s = none := by
  rw [event?, h]
  cases items[s.node]? <;> rfl

theorem exists_tellsOf {x : α} (hx : items[s.node]? = some x) (h : s.cause ≠ .ready) :
    ∃ e, event? items s = some e ∧ TellsOf items s e := by
  rw [event?, hx]
  cases hc : s.cause with
  | ready => exact absurd hc h
  | cycleBroken => exact ⟨_, rfl, .warning hx hc⟩
  | brokenAgain => exact ⟨_, rfl, .again hx hc⟩

theorem forall₂_filterMap {β γ : Type} {R : β → γ → Prop} {f : β → Option γ} {p : β → Bool} {l : List β}
    (hsome : ∀ x ∈ l, p x = true → ∃ y, f x = some y ∧ R x y) (hnone : ∀ x ∈ l, p x = false → f x = none) :
    List.Forall₂ R (l.filter p) (l.filterMap f) := by
  induction l with
  | nil => exact .nil
  | cons x l ih =>
    obtain ⟨hx, hl⟩ := List.forall_mem_cons.mp hsome
    obtain ⟨hx', hl'⟩ := List.forall_mem_cons.mp hnone
    cases hp : p x with
    | true =>
      obtain ⟨y, hy, hxy⟩ := hx hp
      rw [List.filter_cons_of_pos hp, List.filterMap_cons_some hy]
      exact .cons hxy (ih hl hl')
    | false =>
      rw [List.filter_cons_of_neg (by simp [hp]), List.filterMap_cons_none (hx' hp)]
      exact ih hl hl'

theorem forall₂_events : List.Forall₂ (TellsOf items) (told d items) (events d items) := by
  refine forall₂_filterMap (fun s hs hforced => ?_) fun s _ hready => event?_eq_none (by simpa using hready)
  have hmem : s.node ∈ nodes d items :=
    (Sequence.perm_run closed_prerequisites among_nodes).mem_iff.mp (List.mem_map_of_mem hs)
  obtain ⟨x, hx, -⟩ := mem_nodes.mp hmem
  exact exists_tellsOf hx (by simpa using hforced)

theorem length_warnings {es : List Event} {l : List Step} (h : List.Forall₂ (TellsOf items) l es) :
    (es.filter (·.level = .warn)).length = (warned l).length := by
  induction h with
  | nil => rfl
  | @cons s e l es he _ ih =>
    simp only [warned, List.length_map, List.filter_cons, he.level_eq_warn_iff] at ih ⊢
    split <;> simp [ih]

/-- What an ordering tells of the cycles among `items`. -/
structure TellsCycles (d : Direction) (items : List α) : Prop where
  /-- Each event is about one forced step, and names the item there. -/
  events : List.Forall₂ (TellsOf items) (told d items) (events d items)
  /-- No component is warned of twice. -/
  nodup : (warned (told d items)).Nodup
  /-- Each warning is about the lowest member of a component of two or more, and there is one for each. -/
  lowest : ∀ v, v ∈ warned (told d items) ↔ ∃ C ∈ knots (DependsAt d items) (TakesPartAt d items), IsLeast C v
  count : ((Order.events d items).filter (·.level = .warn)).length =
    (knots (DependsAt d items) (TakesPartAt d items)).ncard
  /-- A cycle that is broken again is of a component that was warned of before. -/
  again : ∀ before s after, told d items = before ++ s :: after → s.cause = .brokenAgain →
    ∃ v ∈ warned before, Entangled (DependsAt d items) v s.node
  silent : Order.events d items = [] ↔ ∀ v, ¬ TransGen (DependsAt d items) v v

theorem again_of_told {before after : List Step} (h : told d items = before ++ s :: after) (hs : s.cause = .brokenAgain) :
    ∃ v ∈ warned before, Entangled (DependsAt d items) v s.node := by
  obtain ⟨first, rest, hsplit, rfl, hrest⟩ := List.filter_eq_append_iff.mp h
  obtain ⟨skipped, last, rfl, hskipped, -, -⟩ := List.filter_eq_cons_iff.mp hrest
  have hrun : steps d items = (first ++ skipped) ++ s :: last := by simpa using hsplit
  obtain ⟨t, ht, htold, hent⟩ := (Sequence.follows_of_run_split closed_prerequisites among_nodes hrun).again hs
  rw [waits_prerequisites, entangled_comesAfter] at hent
  have hforced : t.cause ≠ .ready := by simp [htold]
  have hfirst : t ∈ first := (List.mem_append.mp ht).resolve_right fun h => by simpa [hforced] using hskipped t h
  exact ⟨t.node, mem_warned.mpr ⟨t, List.mem_filter.mpr ⟨hfirst, by simpa using hforced⟩, htold, rfl⟩, hent⟩

theorem mem_warned_told_iff {v : Nat} :
    v ∈ warned (told d items) ↔ ∃ C ∈ knots (DependsAt d items) (TakesPartAt d items), IsLeast C v := by
  rw [warned_told, ← knots_prerequisites]
  exact mem_warned_iff closed_prerequisites among_nodes

theorem length_warned_told : (warned (told d items)).length = (knots (DependsAt d items) (TakesPartAt d items)).ncard := by
  rw [warned_told, ← knots_prerequisites]
  exact length_warned closed_prerequisites among_nodes

/-- Without a warning there is no event at all. -/
theorem events_eq_nil_iff : events d items = [] ↔ warned (told d items) = [] := by
  rw [warned_told]
  constructor
  · intro h
    have hevents : List.Forall₂ (TellsOf items) (told d items) (events d items) := forall₂_events
    rw [h, List.forall₂_nil_right_iff] at hevents
    rw [← warned_told, hevents]
    rfl
  · intro h
    refine List.filterMap_eq_nil_iff.mpr fun s hs => event?_eq_none ?_
    exact ready_of_warned_eq_nil closed_prerequisites among_nodes h hs

theorem warned_eq_nil_iff : warned (told d items) = [] ↔ ∀ v, ¬ TransGen (DependsAt d items) v v := by
  have hirrefl : ∀ v, ¬ DependsAt d items v v := fun v h => h.1 rfl
  rw [← knots_eq_empty_iff hirrefl fun _ _ => takesPartAt_of_dependsAt, ← knots_prerequisites,
    knots_eq_image closed_prerequisites among_nodes, Set.image_eq_empty, warned_told]
  exact List.eq_nil_iff_forall_not_mem.trans Set.eq_empty_iff_forall_notMem.symm

theorem tells_cycles (d : Direction) (items : List α) : TellsCycles d items where
  events := forall₂_events
  nodup := by
    rw [warned_told]
    exact nodup_warned closed_prerequisites among_nodes
  lowest _ := mem_warned_told_iff
  count := (length_warnings forall₂_events).trans length_warned_told
  again _ _ _ := again_of_told
  silent := events_eq_nil_iff.trans warned_eq_nil_iff

/-- Each of three items depends on the other two: the first cycle is broken at the lowest, and another one is left. -/
example :
    let item (id : String) (targets : List String) : Entity :=
      { identifier := id, blueprint := "service" : Entity }.withRelation "next" (.many targets)
    events .creation [item "a" ["b", "c"], item "b" ["a", "c"], item "c" ["a", "b"]] =
      [.cycleBroken ⟨"a", "service"⟩, .cycleBrokenAgain ⟨"b", "service"⟩] := by decide

end Order
end CatalogSync
