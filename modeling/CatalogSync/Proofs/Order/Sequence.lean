import CatalogSync.Order.Sequence
import CatalogSync.Proofs.Order.Choice
import CatalogSync.Proofs.Order.Components

/-! The order in which nodes follow one another.

The counts always tell how many of the nodes before each one have not come, also of a node at which a cycle was
broken; so what is ready is what waits for nothing, and each step is the one that `IsNext` describes. From
this it follows that each node comes once, and that one that a node waits for comes before it unless the two wait
for one another. -/

namespace CatalogSync

namespace Adjacency
open Relation

variable {g : Adjacency} {u v : Nat}

/-- An edge leads from each node to those that come before it. -/
def Waits (g : Adjacency) (v u : Nat) : Prop := u ∈ g.next v

theorem reaches_iff : g.Reaches u v ↔ ReflTransGen g.Waits u v := by
  constructor
  · intro h
    induction h with
    | refl => exact .refl
    | step he _ ih => exact .head he ih
  · intro h
    induction h with
    | refl => exact .refl u
    | tail _ he ih => exact ih.trans (.single he)

theorem mutual_iff : g.Mutual u v ↔ Order.Entangled g.Waits u v := and_congr reaches_iff reaches_iff

/-! ### The other way round -/

theorem size_reverse : g.reverse.size = g.size := by simp [reverse]

theorem next_reverse (hv : v < g.size) :
    g.reverse.next v = (List.range g.size).filter fun u => (g.next u).contains v := by
  simp [next, reverse, hv]

theorem next_of_size_le (hv : g.size ≤ v) : g.next v = [] := by
  simp [next, Array.getD_eq_getD_getElem?, hv]

theorem mem_next_reverse : u ∈ g.reverse.next v ↔ v < g.size ∧ u < g.size ∧ v ∈ g.next u := by
  by_cases hv : v < g.size
  · simp [next_reverse hv, hv]
  · rw [next_of_size_le (by rw [size_reverse]; omega)]
    simp [hv]

theorem nodup_next_reverse : (g.reverse.next v).Nodup := by
  by_cases hv : v < g.size
  · rw [next_reverse hv]
    exact List.nodup_range.filter _
  · rw [next_of_size_le (by rw [size_reverse]; omega)]
    exact .nil

theorem closed_reverse : g.reverse.Closed := fun v _ u hu => by
  rw [size_reverse]
  exact (mem_next_reverse.mp hu).2.1

theorem Reaches.of_reverse (h : g.reverse.Reaches u v) : g.Reaches v u := by
  induction h with
  | refl => exact .refl _
  | step he _ ih => exact ih.trans (.single (mem_next_reverse.mp he).2.2)

theorem Reaches.reverse (hg : g.Closed) (h : g.Reaches u v) (hu : u < g.size) : g.reverse.Reaches v u := by
  induction h with
  | refl => exact .refl _
  | step he _ ih =>
    have hlt := hg _ hu _ he
    exact (ih hlt).trans (.single (mem_next_reverse.mpr ⟨hlt, hu, he⟩))

theorem mutual_reverse (hg : g.Closed) (hu : u < g.size) (hv : v < g.size) : g.reverse.Mutual u v ↔ g.Mutual u v :=
  ⟨fun h => ⟨h.2.of_reverse, h.1.of_reverse⟩, fun h => ⟨h.2.reverse hg hv, h.1.reverse hg hu⟩⟩

end Adjacency

namespace Sequence
open CatalogSync.Order

variable {g : Graph} {nodes : List Nat} {past pre post : List Step} {s : Step} {p q : Progress} {u v w limit : Nat}

/-! ### Graphs -/

/-- Nodes of a graph that wait only for one another. -/
structure Among (g : Adjacency) (nodes : List Nat) : Prop where
  lt : ∀ v ∈ nodes, v < g.size
  next : ∀ v ∈ nodes, ∀ u ∈ g.next v, u ∈ nodes
  irrefl : ∀ v, v ∉ g.next v
  ascending : nodes.Pairwise (· < ·)
  /-- No node is waited for twice. -/
  distinct : ∀ v, (g.next v).Nodup

namespace Graph

structure Consistent (g : Graph) : Prop where
  mem_after : ∀ u v, u ∈ g.after.next v ↔ v < g.before.size ∧ u < g.before.size ∧ v ∈ g.before.next u
  nodup_after : ∀ v, (g.after.next v).Nodup
  label_eq_iff : ∀ u < g.before.size, ∀ v < g.before.size, g.label u = g.label v ↔ Entangled g.before.Waits u v

theorem consistent_ofPrerequisites {before : Adjacency} (hc : before.Closed) : (ofPrerequisites before).Consistent where
  mem_after _ _ := Adjacency.mem_next_reverse
  nodup_after _ := Adjacency.nodup_next_reverse
  label_eq_iff := by
    intro u (hu : u < before.size) v (hv : v < before.size)
    have hlen := Components.length_labels before.closed_reverse
    rw [Adjacency.size_reverse] at hlen
    show _ ↔ Entangled before.Waits u v
    rw [← Adjacency.mutual_iff, ← Adjacency.mutual_reverse hc hu hv,
      ← Components.label_eq_iff Adjacency.closed_reverse (Adjacency.size_reverse.symm ▸ hu)
        (Adjacency.size_reverse.symm ▸ hv)]
    simp [label, ofPrerequisites, Array.getD, hlen, hu, hv]

end Graph

/-! ### Counts -/

namespace Progress

/-- The nodes in `rest` remain, and each node waits for as many as `count` says. -/
structure Counts (g : Graph) (rest : List Nat) (count : Nat → Nat) (p : Progress) : Prop where
  remaining : p.remaining = rest
  unmet : ∀ v < g.before.size, p.unmet[v]? = some (count v)
  ready : p.ready = rest.filter fun v => count v = 0

theorem insertNode_filter {P : Nat → Prop} [DecidablePred P] {rest : List Nat} (ha : rest.Pairwise (· < ·))
    (hw : w ∈ rest) (hP : ¬ P w) : insertNode w (rest.filter P) = rest.filter fun v => v = w ∨ P v := by
  induction rest with
  | nil => cases hw
  | cons x xs ih =>
    obtain ⟨hx, hxs⟩ := List.pairwise_cons.mp ha
    rcases List.mem_cons.mp hw with rfl | hw
    · -- all that follows is higher
      have htail : (xs.filter fun v => v = w ∨ P v) = xs.filter P := by
        refine List.filter_congr fun v hv => ?_
        simp [(hx v hv).ne']
      rw [List.filter_cons_of_neg (by simpa using hP), List.filter_cons_of_pos (by simp), htail]
      cases hf : xs.filter P with
      | nil => rfl
      | cons y ys =>
        have hy : y ∈ xs.filter P := hf ▸ List.mem_cons_self
        rw [insertNode, if_pos (hx y (List.mem_filter.mp hy).1)]
    · have hxw := hx w hw
      by_cases hPx : P x
      · rw [List.filter_cons_of_pos (by simpa using hPx), List.filter_cons_of_pos (by simp [hPx]), insertNode,
          if_neg (by omega), if_neg (by omega), ih hxs hw]
      · rw [List.filter_cons_of_neg (by simpa using hPx), List.filter_cons_of_neg (by simp [hPx, hxw.ne]), ih hxs hw]

theorem mem_insertNode {l : List Nat} : u ∈ insertNode v l ↔ u = v ∨ u ∈ l := by
  induction l with
  | nil => simp [insertNode]
  | cons w l ih =>
    rw [insertNode]
    split
    · exact List.mem_cons
    · split
      · rename_i hv
        simp [hv]
      · rw [List.mem_cons, ih, List.mem_cons, or_left_comm]

theorem pairwise_insertNode {l : List Nat} (ha : l.Pairwise (· < ·)) : (insertNode v l).Pairwise (· < ·) := by
  induction l with
  | nil => simp [insertNode]
  | cons w l ih =>
    obtain ⟨hw, hl⟩ := List.pairwise_cons.mp ha
    rw [insertNode]
    split
    · rename_i hv
      exact List.pairwise_cons.mpr ⟨List.forall_mem_cons.mpr ⟨hv, fun u hu => hv.trans (hw u hu)⟩, ha⟩
    · split
      · exact ha
      · refine List.pairwise_cons.mpr ⟨fun u hu => ?_, ih hl⟩
        rcases mem_insertNode.mp hu with rfl | hu
        · omega
        · exact hw u hu

variable {rest : List Nat} {count : Nat → Nat}

theorem Counts.release (h : p.Counts g rest count) (ha : rest.Pairwise (· < ·)) (hw : w < g.before.size)
    (hc : 0 < count w) : (p.release w).Counts g rest (Function.update count w (count w - 1)) := by
  have hunmet : ∀ v < g.before.size, (p.unmet.modify w (· - 1))[v]? = some (Function.update count w (count w - 1) v) := by
    intro v hv
    rw [Array.getElem?_modify, h.unmet v hv]
    by_cases hvw : v = w
    · simp [hvw]
    · simp [hvw, Ne.symm hvw]
  refine ⟨h.remaining, hunmet, ?_⟩
  simp only [Progress.release, hunmet w hw, Function.update_self, Option.some_inj, h.remaining, h.ready]
  split
  · rename_i hz
    rw [insertNode_filter ha hz.2 (by omega)]
    refine List.filter_congr fun v _ => ?_
    by_cases hvw : v = w
    · simp [hvw, hz.1]
    · simp [hvw]
  · rename_i hz
    refine List.filter_congr fun v hv => ?_
    by_cases hvw : v = w
    · subst hvw
      have hne : count v - 1 ≠ 0 := fun h0 => hz ⟨h0, hv⟩
      simp [hne, hc.ne']
    · simp [hvw]

theorem broken_release (p : Progress) (w : Nat) : (p.release w).broken = p.broken := rfl

theorem Counts.foldl_release {ws : List Nat} (h : p.Counts g rest count) (ha : rest.Pairwise (· < ·)) (hn : ws.Nodup)
    (hws : ∀ w ∈ ws, w < g.before.size ∧ 0 < count w) :
    (ws.foldl Progress.release p).Counts g rest (fun v => if v ∈ ws then count v - 1 else count v) := by
  induction ws generalizing p count with
  | nil => simpa using h
  | cons w ws ih =>
    obtain ⟨hw, hn⟩ := List.nodup_cons.mp hn
    obtain ⟨⟨hlt, hpos⟩, hws⟩ := List.forall_mem_cons.mp hws
    have hne : ∀ {v}, v ∈ ws → v ≠ w := fun hv he => hw (he ▸ hv)
    have heq : (fun v => if v ∈ w :: ws then count v - 1 else count v) = fun v =>
        if v ∈ ws then Function.update count w (count w - 1) v - 1 else Function.update count w (count w - 1) v := by
      funext v
      by_cases hvw : v = w
      · simp [hvw, hw]
      · simp [hvw]
    rw [List.foldl_cons, heq]
    refine ih (h.release ha hlt hpos) hn fun v hv => ?_
    rw [Function.update_of_ne (hne hv)]
    exact hws v hv

theorem broken_foldl_release (ws : List Nat) (p : Progress) : (ws.foldl Progress.release p).broken = p.broken := by
  induction ws generalizing p with
  | nil => rfl
  | cons w ws ih => rw [List.foldl_cons, ih, broken_release]

end Progress

namespace Graph

/-- How many of those before `v` have not come. -/
def unmet (g : Graph) (past : List Nat) (v : Nat) : Nat := (g.before.next v).countP (· ∉ past)

section
variable {past : List Nat}

theorem unmet_eq_zero : g.unmet past v = 0 ↔ Free g.before.Waits past v := by
  simp [unmet, List.countP_eq_zero, Free, Adjacency.Waits]

theorem unmet_pos (hu : u ∈ g.before.next v) (hp : u ∉ past) : 0 < g.unmet past v := by
  rw [unmet, List.countP_pos_iff]
  exact ⟨u, hu, by simpa using hp⟩

theorem filter_past_append (l past : List Nat) (v : Nat) :
    (l.filter fun u => u ∉ past ++ [v]) = (l.filter fun u => u ∉ past).filter (· != v) := by
  rw [List.filter_filter]
  refine List.filter_congr fun u _ => ?_
  rw [Bool.eq_iff_iff]
  simp only [List.mem_append, List.mem_singleton, not_or, decide_eq_true_eq, Bool.and_eq_true, bne_iff_ne]
  exact and_comm

theorem filter_past_erase {l : List Nat} (hn : l.Nodup) (past : List Nat) (v : Nat) :
    (l.filter fun u => u ∉ past).erase v = l.filter fun u => u ∉ past ++ [v] := by
  rw [filter_past_append, (hn.filter _).erase_eq_filter]

/-- The count goes down by one where `u` is waited for. -/
theorem unmet_append (hn : (g.before.next v).Nodup) (hu : u ∉ past) :
    g.unmet (past ++ [u]) v = if u ∈ g.before.next v then g.unmet past v - 1 else g.unmet past v := by
  simp only [unmet, List.countP_eq_length_filter]
  rw [← filter_past_erase hn]
  split
  · rename_i hmem
    exact List.length_erase_of_mem (by simpa using ⟨hmem, hu⟩)
  · rename_i hmem
    rw [List.erase_of_not_mem (by simp [hmem])]

end
end Graph

/-! ### One step -/

namespace Progress

/-- The counts stay right when a pending node comes. -/
theorem counts_emit {past : List Nat} (hg : g.Consistent) (ha : Among g.before nodes) (hv : v ∈ nodes) (hp : v ∉ past)
    (hrem : p.remaining = nodes.filter fun u => u ∉ past)
    (hunmet : ∀ u < g.before.size, p.unmet[u]? = some (g.unmet past u))
    (hready : p.ready = (nodes.filter fun u => u ∉ past ++ [v]).filter fun u => g.unmet past u = 0) :
    (p.emit g v).Counts g (nodes.filter fun u => u ∉ past ++ [v]) (g.unmet (past ++ [v])) := by
  have hnodup : nodes.Nodup := ha.ascending.imp Nat.ne_of_lt
  have h : Counts g (nodes.filter fun u => u ∉ past ++ [v]) (g.unmet past) { p with remaining := p.remaining.erase v } :=
    ⟨by rw [hrem, Graph.filter_past_erase hnodup], hunmet, hready⟩
  have hlower : (fun u => if u ∈ g.after.next v then g.unmet past u - 1 else g.unmet past u) = g.unmet (past ++ [v]) := by
    funext u
    have hiff : u ∈ g.after.next v ↔ v ∈ g.before.next u := by
      rw [hg.mem_after]
      refine ⟨fun h => h.2.2, fun h => ⟨ha.lt v hv, ?_, h⟩⟩
      by_contra hu
      rw [Adjacency.next_of_size_le (by omega)] at h
      cases h
    rw [Graph.unmet_append (ha.distinct u) hp, if_congr hiff rfl rfl]
  rw [← hlower]
  refine h.foldl_release (ha.ascending.filter _) (hg.nodup_after v) fun u hu => ?_
  obtain ⟨-, hlt, hmem⟩ := (hg.mem_after u v).mp hu
  exact ⟨hlt, Graph.unmet_pos hmem hp⟩

theorem broken_emit (g : Graph) (p : Progress) (v : Nat) : (p.emit g v).broken = p.broken :=
  broken_foldl_release _ _

theorem next?_eq_some (h : p.next? g = some (s, q)) :
    (s.cause = .ready ∧ ∃ ready, p.ready = s.node :: ready ∧ q = { p with ready }.emit g s.node) ∨
    (p.ready = [] ∧ ∃ first ∈ p.remaining.head?, s.node = (p.remaining.find? (p.canEnter g)).getD first ∧
      s.cause = (if g.label s.node ∈ p.broken then .brokenAgain else .cycleBroken) ∧
      q = { p with broken := g.label s.node :: p.broken }.emit g s.node) := by
  unfold next? at h
  split at h
  · cases h
  · rename_i v ready _ hready
    obtain ⟨rfl, rfl⟩ := Prod.mk.inj (Option.some.inj h)
    exact .inl ⟨rfl, ready, hready, rfl⟩
  · rename_i first rest hrem hready
    obtain ⟨rfl, rfl⟩ := Prod.mk.inj (Option.some.inj h)
    exact .inr ⟨hready, first, by rw [hrem]; rfl, rfl, rfl, rfl⟩

theorem next?_eq_none (h : p.next? g = none) : p.remaining = [] := by
  unfold next? at h
  split at h
  · assumption
  · cases h
  · cases h

end Progress

/-- Where the search stands once the steps in `past` have been made. -/
structure Tracks (g : Graph) (nodes : List Nat) (past : List Step) (p : Progress) : Prop where
  mem_nodes : ∀ t ∈ past, t.node ∈ nodes
  counts : p.Counts g (nodes.filter fun v => v ∉ past.map (·.node)) (g.unmet (past.map (·.node)))
  broken : ∀ a, a ∈ p.broken ↔ ∃ t ∈ past, t.cause = .cycleBroken ∧ g.label t.node = a

/-- What is true of a step `s` that is made after those in `past`. -/
structure Follows (g : Adjacency) (nodes : List Nat) (past : List Step) (s : Step) : Prop where
  next : IsNext g.Waits (· ∈ nodes) (past.map (·.node)) s.node
  ready : s.cause = .ready ↔ Free g.Waits (past.map (·.node)) s.node
  /-- The first cycle of a component is told as such. -/
  first : s.cause = .cycleBroken → ∀ t ∈ past, t.cause = .cycleBroken → ¬ Entangled g.Waits t.node s.node
  again : s.cause = .brokenAgain → ∃ t ∈ past, t.cause = .cycleBroken ∧ Entangled g.Waits t.node s.node

theorem tracks_start (g : Graph) (nodes : List Nat) : Tracks g nodes [] (.start g nodes) where
  mem_nodes := by simp
  counts := by
    have hnil : ∀ v, g.unmet [] v = (g.before.next v).length := fun v => by simp [Graph.unmet]
    refine ⟨by simp [Progress.start], fun v hv => ?_, ?_⟩
    · simp [Progress.start, hnil, Adjacency.next, hv]
    · have hready : nodes.filter (fun v => (g.before.next v).isEmpty) = nodes.filter fun v => g.unmet [] v = 0 := by
        refine List.filter_congr fun v _ => ?_
        rw [hnil]
        cases g.before.next v <;> rfl
      simpa [Progress.start] using hready
  broken := by simp [Progress.start]

namespace Tracks

theorem mem_remaining (h : Tracks g nodes past p) : v ∈ p.remaining ↔ Pending (· ∈ nodes) (past.map (·.node)) v := by
  rw [h.counts.remaining, List.mem_filter, decide_eq_true_eq]
  rfl

theorem ascending_remaining (h : Tracks g nodes past p) (ha : Among g.before nodes) : p.remaining.Pairwise (· < ·) := by
  rw [h.counts.remaining]
  exact ha.ascending.filter _

theorem canEnter_iff (h : Tracks g nodes past p) (hg : g.Consistent) (ha : Among g.before nodes) (hv : v ∈ nodes) :
    p.canEnter g v ↔ Enterable g.before.Waits (· ∈ nodes) (past.map (·.node)) v := by
  have hlabel : ∀ u ∈ nodes, g.label u = g.label v ↔ Entangled g.before.Waits v u := fun u hu => by
    rw [eq_comm, hg.label_eq_iff v (ha.lt v hv) u (ha.lt u hu)]
  simp only [Progress.canEnter, List.all_eq_true, List.mem_filter, beq_iff_eq, Bool.or_eq_true, Bool.not_eq_true',
    List.contains_eq_mem, decide_eq_false_iff_not, h.mem_remaining]
  constructor
  · intro hall m hm hvm u hmu hu
    have hun := ha.next m hm.1 u hmu
    rcases hall m ⟨hm, (hlabel m hm.1).mpr hvm⟩ u hmu with hnot | heq
    · exact absurd ⟨hun, hu⟩ hnot
    · exact (hlabel u hun).mp heq
  · rintro henter m ⟨hm, heq⟩ u hmu
    refine or_iff_not_imp_left.mpr fun hu => ?_
    rw [not_not] at hu
    exact (hlabel u hu.1).mpr (henter m hm ((hlabel m hm.1).mp heq) u hmu hu.2)

/-- The first of what remains is never taken for want of a better one. -/
theorem exists_find (h : Tracks g nodes past p) (hg : g.Consistent) (ha : Among g.before nodes) (hne : p.remaining ≠ []) :
    ∃ v, p.remaining.find? (p.canEnter g) = some v := by
  obtain ⟨x, hx⟩ := List.exists_mem_of_ne_nil _ hne
  obtain ⟨v, hv, henter⟩ :=
    exists_enterable (List.finite_toSet nodes) (fun m u hm => ha.next m hm u) (h.mem_remaining.mp hx)
  refine Option.isSome_iff_exists.mp (List.find?_isSome.mpr ⟨v, h.mem_remaining.mpr hv, ?_⟩)
  exact (h.canEnter_iff hg ha hv.1).mpr henter

/-- What is ready is what waits for nothing. -/
theorem mem_ready (h : Tracks g nodes past p) :
    v ∈ p.ready ↔ Pending (· ∈ nodes) (past.map (·.node)) v ∧ Free g.before.Waits (past.map (·.node)) v := by
  rw [h.counts.ready, List.mem_filter, decide_eq_true_eq, Graph.unmet_eq_zero, ← h.counts.remaining, h.mem_remaining]

theorem label_mem_broken (h : Tracks g nodes past p) (hg : g.Consistent) (ha : Among g.before nodes) (hv : v ∈ nodes) :
    g.label v ∈ p.broken ↔ ∃ t ∈ past, t.cause = .cycleBroken ∧ Entangled g.before.Waits t.node v := by
  rw [h.broken]
  refine exists_congr fun t => and_congr_right fun ht => and_congr_right fun _ => ?_
  exact hg.label_eq_iff t.node (ha.lt _ (h.mem_nodes t ht)) v (ha.lt v hv)

theorem isLeast_of_ready (h : Tracks g nodes past p) (ha : Among g.before nodes) {ready : List Nat}
    (hready : p.ready = v :: ready) :
    IsLeast {u | Pending (· ∈ nodes) (past.map (·.node)) u ∧ Free g.before.Waits (past.map (·.node)) u} v := by
  have hsorted := (h.ascending_remaining ha).filter (fun u => g.unmet (past.map (·.node)) u = 0)
  rw [h.counts.remaining, ← h.counts.ready, hready, List.pairwise_cons] at hsorted
  refine ⟨h.mem_ready.mp (hready ▸ List.mem_cons_self), fun u hu => ?_⟩
  have hmem := h.mem_ready.mpr hu
  rw [hready] at hmem
  rcases List.mem_cons.mp hmem with rfl | hmem
  · exact Nat.le_refl _
  · exact (hsorted.1 u hmem).le

theorem isLeast_of_find? (h : Tracks g nodes past p) (hg : g.Consistent) (ha : Among g.before nodes)
    (hv : p.remaining.find? (p.canEnter g) = some v) :
    IsLeast {u | Pending (· ∈ nodes) (past.map (·.node)) u ∧ Enterable g.before.Waits (· ∈ nodes) (past.map (·.node)) u}
      v := by
  have hset : ∀ u, Pending (· ∈ nodes) (past.map (·.node)) u ∧
      Enterable g.before.Waits (· ∈ nodes) (past.map (·.node)) u ↔ u ∈ p.remaining ∧ p.canEnter g u := fun u => by
    rw [h.mem_remaining]
    exact and_congr_right fun hu => (h.canEnter_iff hg ha hu.1).symm
  have hsorted := h.ascending_remaining ha
  obtain ⟨hP, before, after, hsplit, hbefore⟩ := List.find?_eq_some_iff_append.mp hv
  refine ⟨(hset v).mpr ⟨by simp [hsplit], hP⟩, fun u hu => ?_⟩
  obtain ⟨hu, henter⟩ := (hset u).mp hu
  rw [hsplit] at hu hsorted
  rcases List.mem_append.mp hu with hu | hu
  · have := hbefore u hu
    simp [henter] at this
  · rcases List.mem_cons.mp hu with rfl | hu
    · exact Nat.le_refl _
    · rw [List.pairwise_append, List.pairwise_cons] at hsorted
      exact (hsorted.2.1.1 u hu).le

/-- What is ready when `v` comes, before others are released. -/
theorem ready_erase (h : Tracks g nodes past p) (ha : Among g.before nodes) (v : Nat) :
    p.ready.erase v =
      (nodes.filter fun u => u ∉ past.map (·.node) ++ [v]).filter fun u => g.unmet (past.map (·.node)) u = 0 := by
  have hnodup : nodes.Nodup := ha.ascending.imp Nat.ne_of_lt
  rw [h.counts.ready, ((hnodup.filter _).filter _).erase_eq_filter, Graph.filter_past_append]
  simp only [List.filter_filter]
  exact List.filter_congr fun u _ => Bool.and_left_comm _ _ _

/-- A pending node comes, and is not ready any more. -/
theorem emitted (h : Tracks g nodes past p) (hg : g.Consistent) (ha : Among g.before nodes)
    (hs : Pending (· ∈ nodes) (past.map (·.node)) s.node) (hremaining : q.remaining = p.remaining)
    (hunmet : q.unmet = p.unmet) (hready : q.ready = p.ready.erase s.node)
    (hbroken : ∀ a, a ∈ q.broken ↔ ∃ t ∈ past ++ [s], t.cause = .cycleBroken ∧ g.label t.node = a) :
    Tracks g nodes (past ++ [s]) (q.emit g s.node) where
  mem_nodes := by simpa [or_imp, forall_and] using ⟨h.mem_nodes, hs.1⟩
  counts := by
    rw [List.map_append]
    exact Progress.counts_emit hg ha hs.1 hs.2 (hremaining.trans h.counts.remaining) (hunmet ▸ h.counts.unmet)
      (hready.trans (h.ready_erase ha s.node))
  broken a := by
    rw [Progress.broken_emit]
    exact hbroken a

theorem ready_step (h : Tracks g nodes past p) (hg : g.Consistent) (ha : Among g.before nodes) {ready : List Nat}
    (hcause : s.cause = .ready) (hready : p.ready = s.node :: ready) :
    Follows g.before nodes past s ∧ Tracks g nodes (past ++ [s]) ({ p with ready }.emit g s.node) := by
  have hleast := h.isLeast_of_ready ha hready
  refine ⟨⟨.inl hleast, iff_of_true hcause hleast.1.2, by simp [hcause], by simp [hcause]⟩,
    h.emitted hg ha hleast.1.1 rfl rfl ?_ fun a => ?_⟩
  · rw [hready, List.erase_cons_head]
  · rw [h.broken]
    simp [or_and_right, exists_or, hcause]

theorem broken_step (h : Tracks g nodes past p) (hg : g.Consistent) (ha : Among g.before nodes) (hready : p.ready = [])
    (hfind : p.remaining.find? (p.canEnter g) = some s.node)
    (hcause : s.cause = if g.label s.node ∈ p.broken then .brokenAgain else .cycleBroken) :
    Follows g.before nodes past s ∧
      Tracks g nodes (past ++ [s]) ({ p with broken := g.label s.node :: p.broken }.emit g s.node) := by
  have hleast := h.isLeast_of_find? hg ha hfind
  have hnone : ∀ u, Pending (· ∈ nodes) (past.map (·.node)) u → ¬ Free g.before.Waits (past.map (·.node)) u := by
    intro u hu hfree
    have := h.mem_ready.mpr ⟨hu, hfree⟩
    rw [hready] at this
    cases this
  have hmem := h.label_mem_broken hg ha hleast.1.1.1
  refine ⟨⟨.inr ⟨hnone, hleast⟩, iff_of_false ?_ (hnone _ hleast.1.1), ?_, ?_⟩,
    h.emitted hg ha hleast.1.1 rfl rfl ?_ fun a => ?_⟩
  · rw [hcause]
    split <;> simp
  · intro hc t ht htc hent
    rw [if_pos (hmem.mpr ⟨t, ht, htc, hent⟩)] at hcause
    cases hcause.symm.trans hc
  · intro hc
    refine hmem.mp ?_
    by_contra hnot
    rw [if_neg hnot] at hcause
    cases hcause.symm.trans hc
  · show p.ready = _
    rw [hready]
    rfl
  · rw [List.mem_cons, h.broken]
    by_cases hb : g.label s.node ∈ p.broken
    · obtain ⟨t, ht, htc, hl⟩ := (h.broken _).mp hb
      rw [if_pos hb] at hcause
      have hlast : (∃ t ∈ past ++ [s], t.cause = .cycleBroken ∧ g.label t.node = a) ↔
          ∃ t ∈ past, t.cause = .cycleBroken ∧ g.label t.node = a := by simp [or_and_right, exists_or, hcause]
      rw [hlast]
      exact or_iff_right_of_imp fun heq => ⟨t, ht, htc, hl.trans heq.symm⟩
    · rw [if_neg hb] at hcause
      simp [or_and_right, exists_or, hcause, or_comm, eq_comm]

/-- Each step is the one that comes next, and what is left is tracked. -/
theorem step (h : Tracks g nodes past p) (hg : g.Consistent) (ha : Among g.before nodes) (hs : p.next? g = some (s, q)) :
    Follows g.before nodes past s ∧ Tracks g nodes (past ++ [s]) q := by
  rcases Progress.next?_eq_some hs with ⟨hcause, ready, hready, rfl⟩ | ⟨hready, first, hfirst, hnode, hcause, rfl⟩
  · exact h.ready_step hg ha hcause hready
  · have hne : p.remaining ≠ [] := fun hnil => by
      rw [hnil] at hfirst
      cases hfirst
    obtain ⟨v, hv⟩ := h.exists_find hg ha hne
    rw [hv, Option.getD_some] at hnode
    exact h.broken_step hg ha hready (hnode ▸ hv) hcause

end Tracks

/-! ### All steps -/

/-- One step leads from `p` to `q`. -/
def Progress.Leads (g : Graph) (p q : Progress) : Prop := ∃ s, p.next? g = some (s, q)

theorem exists_tracks (hg : g.Consistent) (ha : Among g.before nodes)
    (h : Relation.ReflTransGen (Progress.Leads g) (.start g nodes) p) : ∃ past, Tracks g nodes past p := by
  induction h with
  | refl => exact ⟨[], tracks_start g nodes⟩
  | tail _ hs ih =>
    obtain ⟨past, hp⟩ := ih
    obtain ⟨s, hs⟩ := hs
    exact ⟨past ++ [s], (hp.step hg ha hs).2⟩

/-- Each step follows those before it. -/
theorem Tracks.follows (h : Tracks g nodes past p) (hg : g.Consistent) (ha : Among g.before nodes)
    (hs : p.steps g limit = pre ++ s :: post) : Follows g.before nodes (past ++ pre) s := by
  induction limit generalizing past pre p with
  | zero => simp [Progress.steps] at hs
  | succ limit ih =>
    rw [Progress.steps] at hs
    split at hs
    · simp at hs
    · rename_i t q hnext
      obtain ⟨hfollows, hq⟩ := h.step hg ha hnext
      cases pre with
      | nil =>
        obtain ⟨rfl, -⟩ := List.cons.inj hs
        simpa using hfollows
      | cons a pre =>
        obtain ⟨rfl, htail⟩ := List.cons.inj hs
        simpa using ih hq htail

/-- The steps take all that remains. -/
theorem Tracks.perm (h : Tracks g nodes past p) (hg : g.Consistent) (ha : Among g.before nodes)
    (hl : p.remaining.length = limit) : ((p.steps g limit).map (·.node)).Perm p.remaining := by
  induction limit generalizing past p with
  | zero =>
    rw [List.length_eq_zero_iff.mp hl]
    exact .refl _
  | succ limit ih =>
    rw [Progress.steps]
    split
    · rename_i hnext
      rw [Progress.next?_eq_none hnext] at hl
      cases hl
    · rename_i s q hnext
      obtain ⟨hfollows, hq⟩ := h.step hg ha hnext
      have hmem : s.node ∈ p.remaining := h.mem_remaining.mpr hfollows.next.pending
      have hrest : q.remaining = p.remaining.erase s.node := by
        rw [hq.counts.remaining, h.counts.remaining, List.map_append,
          Graph.filter_past_erase (ha.ascending.imp Nat.ne_of_lt)]
        rfl
      have hlen : q.remaining.length = limit := by
        rw [hrest, List.length_erase_of_mem hmem, hl]
        rfl
      exact ((ih hq hlen).cons _).trans (hrest ▸ (List.perm_cons_erase hmem).symm)

section Run
variable {before : Adjacency} (hc : before.Closed) (ha : Among before nodes)
include hc ha

theorem perm_run : ((run before nodes).map (·.node)).Perm nodes :=
  (tracks_start _ nodes).perm (Graph.consistent_ofPrerequisites hc) ha rfl

theorem follows_of_run_split (h : run before nodes = pre ++ s :: post) : Follows before nodes pre s := by
  have hfollows := (tracks_start _ nodes).follows (Graph.consistent_ofPrerequisites hc) ha h
  rwa [List.nil_append] at hfollows

/-- Each node comes once, and always the one that comes next. -/
theorem sequel_run : Sequel before.Waits (· ∈ nodes) [] ((run before nodes).map (·.node)) := by
  refine .of_splits (fun pre v post h => ?_) fun v hv => (perm_run hc ha).mem_iff.mpr hv.1
  obtain ⟨pre, rest, hsplit, rfl, hrest⟩ := List.map_eq_append_iff.mp h
  obtain ⟨s, post, rfl, rfl, -⟩ := List.map_eq_cons_iff.mp hrest
  exact (follows_of_run_split hc ha hsplit).next

theorem mem_of_run_split {xs ys : List Nat} (h : (run before nodes).map (·.node) = xs ++ v :: ys) (hu : u ∈ before.next v)
    (hm : ¬ before.Reaches u v) : u ∈ xs := by
  obtain ⟨pre, rest, hsplit, rfl, hrest⟩ := List.map_eq_append_iff.mp h
  obtain ⟨s, post, rfl, rfl, -⟩ := List.map_eq_cons_iff.mp hrest
  by_contra hpast
  have hent := (follows_of_run_split hc ha hsplit).next.entangled hu hpast
  exact hm (Adjacency.reaches_iff.mpr hent.2)

end Run
end Sequence
end CatalogSync
