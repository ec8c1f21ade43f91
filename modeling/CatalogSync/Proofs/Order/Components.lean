import CatalogSync.Proofs.Collections
import CatalogSync.Proofs.Order.Search
import Mathlib.Data.Fintype.Card

/-! The search finds the strongly connected components.

Each node that a visit leaves on the stack reaches something below. So a visit that sees nothing below itself leaves a
set of nodes that reach one another and have no edge to another open node: a component. Each step follows an edge or
ends a visit, so there are as many steps as nodes and edges. -/

namespace CatalogSync

namespace Components

variable {g : Adjacency} {s s' : Search} {u v w : Nat} {rest new below : List Nat} {trail : List Visit}

/-! ### The end of a visit -/

/-- Nodes of which all edges are followed are left on the stack above `v`. -/
theorem Visiting.extend (h : Visiting g s v rest new below) {more : List Nat} (hr : ∀ u ∈ more, g.Reaches u v)
    (hl : ∀ u ∈ more, ∀ w ∈ g.next u, s.Noted (s.low v) w) : Visiting g s v rest (more ++ new) below :=
  { h with
    returns := by
      intro u hu
      rw [List.append_assoc] at hu
      rcases List.mem_append.mp hu with hu | hu
      · exact hr u hu
      · exact h.returns u hu
    left := by
      intro u hu
      rcases List.mem_append.mp hu with hu | hu
      · exact hl u hu
      · exact h.left u hu }

namespace Top
variable {p : Nat} {newer older : List Nat} {above : List Visit}

/-- The visit of `v` ends and `v` stays open: it has seen a lower node, and its parent `p` takes that over. -/
theorem leave (h : Top g s v [] new (newer ++ p :: older) above) (hl : s.low v < s.index v)
    (hp : Visiting g s p rest newer older) (ht : Trailing g s trail older) :
    Top g (s.lowered p (s.low v)) p rest (new ++ v :: newer) older trail := by
  have hst : s.stack = (new ++ v :: newer) ++ p :: older := by simp [h.stack]
  have hps : p ∈ s.stack := by simp [hst]
  have hlater := Search.later_lowered (k := s.low v) h.sound hps
  obtain ⟨z, hz, hzl, hr⟩ := h.visiting.seen
  have hz : z ∈ newer ++ p :: older := by
    refine (List.mem_cons.mp hz).resolve_left fun he => ?_
    rw [he] at hzl
    omega
  have hpv : g.Reaches p v := (h.sound.reaches_of_append hst).1 v (by simp)
  have hvisit : Visiting g (s.lowered p (s.low v)) p rest newer older := by
    refine hp.lowered h.sound hps ?_
    rcases List.mem_append.mp hz with hz | hz
    · have := (h.sound.index_lt_of_append hst).1 z (by simp [hz])
      have := hp.low_le
      exact .inl (by omega)
    · exact .inr ⟨z, hz, hzl, hpv.trans hr⟩
  refine ⟨h.sound.lowered hps, hst, ?_, ?_⟩
  · have hmem : ∀ u ∈ new ++ [v], u ∈ v :: new := fun u hu => by simpa [or_comm] using hu
    have hback : ∀ u ∈ new ++ [v], g.Reaches u p := fun u hu =>
      (h.visiting.back u (hmem u hu)).trans (hr.trans (hp.returns z hz))
    have hnoted : ∀ u ∈ new ++ [v], ∀ w ∈ g.next u, (s.lowered p (s.low v)).Noted ((s.lowered p (s.low v)).low p) w := by
      intro u hu w hw
      refine (h.visiting.edges u (hmem u hu) w hw).mono hlater ?_
      rw [Search.low_lowered h.sound hps]
      exact Nat.min_le_right _ _
    simpa using hvisit.extend hback hnoted
  · refine ht.of_marks hlater fun u hu => Search.marks_lowered_of_ne fun he => ?_
    have hn := h.sound.nodup
    rw [hst, List.nodup_append, List.nodup_cons] at hn
    exact hn.2.1.1 (he ▸ hu)

end Top

namespace Search

/-- The state in which the nodes `us` belong to the component that is closed next. -/
def taken (s : Search) (us : List Nat) : Search := us.foldl (fun s u => s.mark u (.closed s.closed)) s

/-- The state in which `v` and what stands above it have been closed. -/
def closing (s : Search) (v : Nat) (new below : List Nat) : Search :=
  { s.taken (new ++ [v]) with stack := below, closed := s.closed + 1 }

theorem taken_cons (s : Search) (u : Nat) (us : List Nat) :
    s.taken (u :: us) = (s.mark u (.closed s.closed)).taken us := rfl

theorem taken_eq (us : List Nat) (s : Search) : s.taken us = { s with marks := (s.taken us).marks } := by
  induction us generalizing s with
  | nil => rfl
  | cons u us ih => rw [taken_cons, ih]; rfl

@[simp] theorem closed_taken (us : List Nat) (s : Search) : (s.taken us).closed = s.closed := by rw [taken_eq]

@[simp] theorem trail_taken (us : List Nat) (s : Search) : (s.taken us).trail = s.trail := by rw [taken_eq]

@[simp] theorem met_taken (us : List Nat) (s : Search) : (s.taken us).met = s.met := by rw [taken_eq]

@[simp] theorem size_taken (us : List Nat) (s : Search) : (s.taken us).marks.size = s.marks.size := by
  induction us generalizing s with
  | nil => rfl
  | cons u us ih => rw [taken_cons, ih, mark, Array.size_setIfInBounds]

theorem getElem?_taken {us : List Nat} (hlt : ∀ u ∈ us, u < s.marks.size) :
    (s.taken us).marks[w]? = if w ∈ us then some (.closed s.closed) else s.marks[w]? := by
  induction us generalizing s with
  | nil => rfl
  | cons u us ih =>
    obtain ⟨hu, hus⟩ := List.forall_mem_cons.mp hlt
    rw [taken_cons, ih (by simpa [mark] using hus), getElem?_mark hu]
    by_cases hw : w = u
    · simp [hw, mark]
    · simp [hw, mark]

theorem unwind?_eq (hlt : ∀ u ∈ new ++ [v], u < s.marks.size) (hv : v ∉ new) :
    unwind? v (new ++ v :: below) s = some { s.taken (new ++ [v]) with stack := below } := by
  induction new generalizing s with
  | nil =>
    rw [List.nil_append, unwind?, mark?_eq (hlt v (by simp))]
    simp [taken]
  | cons u new ih =>
    obtain ⟨hu, hnew⟩ := List.forall_mem_cons.mp hlt
    rw [List.mem_cons, not_or] at hv
    obtain ⟨hne, hv⟩ := hv
    have ih := ih (s := s.mark u (.closed s.closed)) (by simpa [mark] using hnew) hv
    rw [List.cons_append, unwind?, mark?_eq hu, List.cons_append, taken_cons, ← ih]
    simp [Ne.symm hne]

end Search

namespace Top

theorem mem_stack_iff (h : Top g s v rest new below trail) : u ∈ s.stack ↔ u ∈ v :: new ∨ u ∈ below := by
  rw [h.stack, List.mem_append, List.mem_cons, List.mem_cons]
  tauto

theorem not_mem_below (h : Top g s v rest new below trail) (hu : u ∈ v :: new) : u ∉ below := by
  rcases List.mem_cons.mp hu with rfl | hu
  · exact h.not_mem.2.1
  · exact h.not_mem.2.2 u hu

section
variable (h : Top g s v rest new below trail)
include h

theorem marks_closing : (s.closing v new below).marks[u]? =
    if u ∈ v :: new then some (.closed s.closed) else s.marks[u]? := by
  have hmem : u ∈ new ++ [v] ↔ u ∈ v :: new := by simp [or_comm]
  rw [← if_congr hmem rfl rfl]
  refine Search.getElem?_taken fun w hw => h.sound.lt_size (h.mem_stack_iff.mpr (.inl ?_))
  simpa [or_comm] using hw

theorem marks_closing_of_mem (hu : u ∈ v :: new) : (s.closing v new below).marks[u]? = some (.closed s.closed) := by
  rw [h.marks_closing, if_pos hu]

theorem marks_closing_of_notMem (hu : u ∉ v :: new) : (s.closing v new below).marks[u]? = s.marks[u]? := by
  rw [h.marks_closing, if_neg hu]

theorem marks_closing_of_below (hu : u ∈ below) : (s.closing v new below).marks[u]? = s.marks[u]? :=
  h.marks_closing_of_notMem fun hn => h.not_mem_below hn hu

theorem hasLabel_closing {a : Nat} :
    (s.closing v new below).HasLabel u a ↔ (u ∈ v :: new ∧ a = s.closed) ∨ s.HasLabel u a := by
  by_cases hu : u ∈ v :: new
  · have hnot : ¬ s.HasLabel u a := fun ha =>
      ((h.sound.mem_stack u).mp (h.mem_stack_iff.mpr (.inl hu))).not_isClosed ⟨a, ha⟩
    rw [Search.HasLabel, h.marks_closing_of_mem hu]
    simp [hu, hnot, eq_comm]
  · rw [Search.HasLabel, h.marks_closing_of_notMem hu]
    simp [hu, Search.HasLabel]

theorem isClosed_closing : (s.closing v new below).IsClosed u ↔ u ∈ v :: new ∨ s.IsClosed u := by
  simp only [Search.IsClosed, h.hasLabel_closing, exists_or, exists_and_left, exists_eq, and_true]

theorem later_closing : Search.Later s (s.closing v new below) where
  closed w hw := h.isClosed_closing.mpr (.inr hw)
  stack w hw := by
    rcases h.mem_stack_iff.mp hw with hw | hw
    · exact .inr (h.isClosed_closing.mpr (.inl hw))
    · refine .inl ⟨hw, ?_⟩
      rw [Search.index, h.marks_closing_of_below hw]
      rfl

theorem isOpen_closing : u ∈ below ↔ (s.closing v new below).IsOpen u := by
  by_cases hu : u ∈ v :: new
  · refine iff_of_false (h.not_mem_below hu) fun ⟨i, l, hm⟩ => ?_
    cases (h.marks_closing_of_mem hu).symm.trans hm
  · rw [Search.IsOpen, h.marks_closing_of_notMem hu, ← Search.IsOpen, ← h.sound.mem_stack, h.mem_stack_iff]
    simp [hu]

theorem close?_eq : s.close? v = some (s.closing v new below) := by
  have hlt : ∀ u ∈ new ++ [v], u < s.marks.size := fun u hu =>
    h.sound.lt_size (h.mem_stack_iff.mpr (.inl (by simpa [or_comm] using hu)))
  rw [Search.close?, h.stack, Search.unwind?_eq hlt h.not_mem.1]
  simp [Search.closing]

theorem due_closing : due g (s.closing v new below) = due g s := by
  refine due_congr (fun u => ?_) (Search.trail_taken _ s)
  by_cases hu : u ∈ v :: new
  · have hm := h.sound.mark_eq (h.mem_stack_iff.mpr (.inl hu))
    simp [Search.IsUnmet, h.marks_closing_of_mem hu, hm]
  · rw [Search.IsUnmet, h.marks_closing_of_notMem hu, Search.IsUnmet]

end

section
variable (h : Top g s v [] new below trail) (hl : s.low v = s.index v)
include h hl

/-- Nothing below was seen: no edge leads from the new nodes to a lower one. -/

theorem inside (hu : u ∈ v :: new) (hw : w ∈ g.next u) : w ∈ v :: new ∨ s.IsClosed w := by
  rcases h.visiting.edges u hu w hw with ⟨hw, hle⟩ | hw
  · refine .inl ((h.mem_stack_iff.mp hw).resolve_right fun hb => ?_)
    have := (h.sound.index_lt_of_append h.stack).2 w hb
    omega
  · exact .inr hw

theorem inside_of_reaches (hu : u ∈ v :: new) (hr : g.Reaches u w) : w ∈ v :: new ∨ s.IsClosed w := by
  induction hr with
  | refl => exact .inl hu
  | step he hr ih =>
    rcases h.inside hl hu he with hw | hw
    · exact ih hw
    · exact .inr (h.sound.isClosed_of_reaches hw hr)

theorem mutual_iff (hu : u ∈ v :: new) : g.Mutual u w ↔ w ∈ v :: new := by
  have hout : ∀ u ∈ v :: new, g.Reaches v u := fun u hu => by
    rcases List.mem_cons.mp hu with rfl | hu
    · exact .refl u
    · exact (h.sound.reaches_of_append h.stack).1 u hu
  constructor
  · intro hm
    -- what is closed reaches only what is closed, and `u` is open
    refine (h.inside_of_reaches hl hu hm.1).resolve_right fun hc => ?_
    exact ((h.sound.mem_stack u).mp (h.mem_stack_iff.mpr (.inl hu))).not_isClosed
      (h.sound.isClosed_of_reaches hc hm.2)
  · exact fun hw => ⟨(h.visiting.back u hu).trans (hout w hw), (h.visiting.back w hw).trans (hout u hu)⟩

theorem component_closing {a b : Nat} (hu : (s.closing v new below).HasLabel u a)
    (hw : (s.closing v new below).HasLabel w b) : a = b ↔ g.Mutual u w := by
  -- a label given before is not the new one, and its nodes reach only nodes that were closed before
  have hold : ∀ {x y c}, y ∈ v :: new → s.HasLabel x c → c ≠ s.closed ∧ ¬ g.Mutual x y := fun {x y c} hy hx =>
    ⟨(h.sound.label_lt x c hx).ne, fun hm =>
      ((h.sound.mem_stack y).mp (h.mem_stack_iff.mpr (.inl hy))).not_isClosed
        (h.sound.isClosed_of_reaches ⟨c, hx⟩ hm.1)⟩
  rcases h.hasLabel_closing.mp hu with ⟨hu', ha⟩ | hu' <;> rcases h.hasLabel_closing.mp hw with ⟨hw', hb⟩ | hw'
  · exact iff_of_true (ha.trans hb.symm) ((h.mutual_iff hl hu').mpr hw')
  · rw [ha]
    exact iff_of_false (hold hu' hw').1.symm fun hm => (hold hu' hw').2 hm.symm
  · rw [hb]
    exact iff_of_false (hold hw' hu').1 (hold hw' hu').2
  · exact h.sound.component u w a b hu' hw'

theorem sound_closing : (s.closing v new below).Sound g where
  size := (Search.size_taken _ s).trans h.sound.size
  mem_stack u := h.isOpen_closing
  descending := by
    have hd := h.sound.descending
    rw [h.stack, List.pairwise_append, List.pairwise_cons] at hd
    refine hd.2.1.2.imp_of_mem fun hu hw hlt => ?_
    rwa [Search.index, Search.index, h.marks_closing_of_below hu, h.marks_closing_of_below hw]
  index_lt u hu := by
    rw [Search.index, h.marks_closing_of_below hu]
    exact (h.sound.index_lt u (h.mem_stack_iff.mpr (.inr hu))).trans_eq (Search.met_taken _ s).symm
  climbs := by
    have hc := h.sound.climbs
    rw [h.stack, List.pairwise_append, List.pairwise_cons] at hc
    exact hc.2.1.2
  component u w a b hu hw := h.component_closing hl hu hw
  label_lt u a hu := by
    show a < s.closed + 1
    rcases h.hasLabel_closing.mp hu with ⟨-, rfl⟩ | hu
    · exact Nat.lt_succ_self _
    · exact Nat.lt_succ_of_lt (h.sound.label_lt u a hu)
  used a ha := by
    rcases Nat.lt_succ_iff_lt_or_eq.mp ha with ha | rfl
    · exact (h.sound.used a ha).imp fun _ hu => h.hasLabel_closing.mpr (.inr hu)
    · exact ⟨v, h.hasLabel_closing.mpr (.inl ⟨List.mem_cons_self, rfl⟩)⟩
  inside u hu w hw := by
    rcases h.isClosed_closing.mp hu with hu | hu
    · exact h.isClosed_closing.mpr (h.inside hl hu hw)
    · exact h.isClosed_closing.mpr (.inr (h.sound.inside u hu w hw))

theorem inv_closing (ht : s.trail = trail) : Inv g (s.closing v new below) where
  sound := h.sound_closing hl
  trailing := by
    show Trailing g _ (s.taken (new ++ [v])).trail below
    rw [Search.trail_taken, ht]
    exact h.trailing.of_marks h.later_closing fun u hu => h.marks_closing_of_below hu

end
end Top

theorem Search.lowered_of_le (h : s.Sound g) (hv : v ∈ s.stack) {k : Nat} (hk : s.low v ≤ k) : s.lowered v k = s := by
  rw [Search.lowered, Nat.min_eq_left hk, Search.mark_self (h.mark_eq hv)]

/-! ### Steps -/

namespace Top

/-- Nothing lower was seen: the component of `v` closes. -/
theorem exists_leave_closing (h : Top g s v [] new below trail) (hl : s.low v = s.index v) :
    ∃ s', s.leave? v trail = some s' ∧ Inv g s' ∧ Search.Later s s' ∧ due g s' = due g { s with trail := trail } := by
  have ht := h.withTrail trail
  refine ⟨Search.closing { s with trail := trail } v new below, ?_, ht.inv_closing hl rfl,
    (Search.Later.withTrail s trail).trans ht.later_closing, ht.due_closing⟩
  simp only [Search.leave?, h.sound.mark_eq h.mem_stack, if_pos hl, ← ht.close?_eq]
  cases hc : ht.trailing with
  | nil => rfl
  | @cons p rest newer older tr hp htr =>
    -- the parent has seen something lower already
    have hps : p ∈ s.stack := h.mem_stack_iff.mpr (.inr (by simp))
    have hlow : s.low p ≤ s.low v := by
      have hlt := (h.sound.index_lt_of_append h.stack).2 p (by simp)
      exact hl ▸ hp.low_le.trans hlt.le
    have heq := Search.lower?_eq (k := s.low v) ht.sound hps
    rw [Search.lowered_of_le ht.sound hps hlow] at heq
    simp only [heq]
    rfl

/-- Something lower was seen: `v` stays open, and there is a visit below that takes this over. -/
theorem exists_leave_open (h : Top g s v [] new below trail) (hl : s.low v < s.index v) :
    ∃ s', s.leave? v trail = some s' ∧ Inv g s' ∧ Search.Later s s' ∧ due g s' = due g { s with trail := trail } := by
  have ht := h.withTrail trail
  cases hc : ht.trailing with
  | nil =>
    obtain ⟨z, hz, hzl, -⟩ := h.visiting.seen
    rw [List.mem_singleton.mp hz] at hzl
    omega
  | @cons p rest newer older tr hp htr =>
    have hps : p ∈ s.stack := h.mem_stack_iff.mpr (.inr (by simp))
    have heq := Search.lower?_eq (k := s.low v) ht.sound hps
    refine ⟨_, ?_, (ht.leave hl hp htr).inv rfl, (Search.Later.withTrail s _).trans (Search.later_lowered ht.sound hps),
      due_lowered ht.sound hps⟩
    simp only [Search.leave?, h.sound.mark_eq h.mem_stack, if_neg hl.ne, heq]
    rfl

theorem exists_leave (h : Top g s v [] new below trail) :
    ∃ s', s.leave? v trail = some s' ∧ Inv g s' ∧ Search.Later s s' ∧ due g s' = due g { s with trail := trail } :=
  h.visiting.low_le.lt_or_eq.elim h.exists_leave_open h.exists_leave_closing

end Top

/-- Each step of a visit finds what it looks up, and takes one from what is still to be done. -/
theorem Inv.exists_step (h : Inv g s) (hg : g.Closed) (ht : s.trail ≠ []) :
    ∃ s', s.step? g = some s' ∧ Inv g s' ∧ Search.Later s s' ∧ due g s' + 1 = due g s := by
  obtain ⟨⟨v, rest⟩, trail, hcons⟩ := List.exists_cons_of_ne_nil ht
  obtain ⟨new, below, htop⟩ := h.top hcons
  cases rest with
  | nil =>
    obtain ⟨s', hs', hinv, hlater, hdue⟩ := htop.exists_leave
    refine ⟨s', by rw [Search.step?, hcons]; exact hs', hinv, hlater, ?_⟩
    rw [hdue, due_withTrail, due, hcons, owed]
    dsimp only [List.length_nil]
    omega
  | cons w rest =>
    obtain ⟨s', hs', hinv, hlater, hdue⟩ := (htop.withTrail (⟨v, rest⟩ :: trail)).exists_follow hg rfl
    refine ⟨s', by rw [Search.step?, hcons]; exact hs', hinv, (Search.Later.withTrail s _).trans hlater, ?_⟩
    rw [hdue, due_withTrail, due, hcons, owed, owed]
    dsimp only [List.length_cons]
    omega

theorem due_pos (ht : s.trail ≠ []) : 0 < due g s := by
  obtain ⟨x, trail, hcons⟩ := List.exists_cons_of_ne_nil ht
  rw [due, hcons, owed]
  omega

theorem extent_eq (g : Adjacency) : g.extent = ∑ v ∈ Finset.range g.size, ((g.next v).length + 1) := by
  rw [Adjacency.extent]
  generalize g.size = n
  induction n with
  | zero => rfl
  | succ n ih => rw [List.range_succ, List.foldl_append, ih, Finset.sum_range_succ]; rfl

theorem due_le_extent (ht : s.trail = []) : due g s ≤ g.extent := by
  rw [due, ht, owed, Nat.add_zero, extent_eq]
  exact Finset.sum_le_sum_of_subset (Finset.filter_subset s.IsUnmet (Finset.range g.size))

/-! ### The whole search -/

theorem Inv.stack_eq_nil (h : Inv g s) (ht : s.trail = []) : s.stack = [] := by
  have htr := h.trailing
  rw [ht] at htr
  generalize s.stack = stack at htr
  cases htr
  rfl

/-- A visit comes to its end within the steps that are still to be done. -/
theorem exists_finish (hg : g.Closed) {limit : Nat} (h : Inv g s) (hd : due g s ≤ limit) :
    ∃ s', s.finish? g limit = some s' ∧ Inv g s' ∧ s'.trail = [] ∧ Search.Later s s' := by
  induction limit generalizing s with
  | zero =>
    have ht : s.trail = [] := by
      by_contra ht
      have := due_pos (g := g) ht
      omega
    exact ⟨s, by simp [Search.finish?, ht], h, ht, .refl s⟩
  | succ limit ih =>
    by_cases ht : s.trail = []
    · exact ⟨s, by simp [Search.finish?, ht], h, ht, .refl s⟩
    · obtain ⟨t, hstep, ht', hlater, hdue⟩ := h.exists_step hg ht
      obtain ⟨s', hs', hinv, hnil, hlater'⟩ := ih ht' (by omega)
      exact ⟨s', by simp [Search.finish?, ht, hstep, hs'], hinv, hnil, hlater.trans hlater'⟩

/-- Between visits of the whole search: no node is open, and those up to `n` are closed. -/
structure Between (g : Adjacency) (n : Nat) (s : Search) : Prop where
  inv : Inv g s
  trail : s.trail = []
  closed : ∀ v < n, s.IsClosed v

theorem Between.start (g : Adjacency) : Between g 0 (.start g) := by
  have hnot : ∀ {v : Nat} {m : Mark}, (Search.start g).marks[v]? = some m → m = .unmet := fun {v m} h => by
    simp only [Search.start, Array.getElem?_replicate, Option.ite_none_right_eq_some] at h
    exact (Option.some.inj h.2).symm
  refine ⟨⟨⟨by simp [Search.start], fun v => ?_, .nil, by simp [Search.start], .nil, fun u v a b hu _ => ?_,
    fun v a hv => ?_, by simp [Search.start], fun v ⟨a, ha⟩ => ?_⟩, .nil⟩, rfl, by simp⟩
  · exact iff_of_false (by simp [Search.start]) fun ⟨i, l, h⟩ => by cases hnot h
  · cases hnot hu
  · cases hnot hv
  · cases hnot ha

theorem Between.exists_visit {n : Nat} (h : Between g n s) (hg : g.Closed) (hn : n < g.size) :
    ∃ s', s.visit? g n = some s' ∧ Between g (n + 1) s' := by
  have hstack := h.inv.stack_eq_nil h.trail
  rcases h.inv.sound.met_or_unmet hn with hu | hu | ⟨a, ha⟩
  · have hent : Enters g s n := ⟨h.inv.sound, hn, hu, by simp [hstack]⟩
    have hinv : Inv g (s.entered g n) := hent.inv (by rw [h.trail, hstack]; exact .nil)
    have hdue : due g (s.entered g n) ≤ g.extent := hent.due_eq.trans_le (due_le_extent h.trail)
    obtain ⟨s', hs', hinv', htrail, hlater⟩ := exists_finish hg hinv hdue
    refine ⟨s', ?_, hinv', htrail, fun v hv => ?_⟩
    · simp [Search.visit?, show s.marks[n]? = some .unmet from hu, Search.enter?_eq h.inv.sound hn, hs']
    · rcases Nat.lt_succ_iff_lt_or_eq.mp hv with hv | rfl
      · exact hlater.closed v (hent.later.closed v (h.closed v hv))
      · refine (hlater.stack v List.mem_cons_self).resolve_left fun hm => ?_
        rw [hinv'.stack_eq_nil htrail] at hm
        exact List.not_mem_nil hm.1
  · rw [hstack] at hu
    cases hu
  · refine ⟨s, by simp [Search.visit?, show s.marks[n]? = some (.closed a) from ha], h.inv, h.trail, fun v hv => ?_⟩
    rcases Nat.lt_succ_iff_lt_or_eq.mp hv with hv | rfl
    · exact h.closed v hv
    · exact ⟨a, ha⟩

theorem exists_between (hg : g.Closed) {n : Nat} (hn : n ≤ g.size) :
    ∃ s, (List.range n).foldlM (Search.visit? g) (.start g) = some s ∧ Between g n s := by
  induction n with
  | zero => exact ⟨_, rfl, .start g⟩
  | succ n ih =>
    obtain ⟨s, hs, h⟩ := ih (Nat.le_of_succ_le hn)
    obtain ⟨s', hs', h'⟩ := h.exists_visit hg hn
    exact ⟨s', by simp [List.range_succ, List.foldlM_append, hs, hs'], h'⟩

/-! ### Labels -/

/-- There are no more components than nodes. -/
theorem Search.Sound.closed_le_size (h : s.Sound g) : s.closed ≤ g.size := by
  choose node hnode using h.used
  have hlt : ∀ a, ∀ ha : a < s.closed, node a ha < g.size := fun a ha =>
    h.size ▸ (Array.getElem?_eq_some_iff.mp (hnode a ha)).1
  let f (a : Fin s.closed) : Fin g.size := ⟨node a a.2, hlt a a.2⟩
  have hinj : Function.Injective f := fun a b hab => by
    have hn : node a a.2 = node b b.2 := congrArg Fin.val hab
    have ha := hnode a a.2
    rw [hn] at ha
    exact Fin.ext (Mark.closed.inj (Option.some.inj (ha.symm.trans (hnode b b.2))))
  simpa using Fintype.card_le_of_injective f hinj

theorem exists_labels (hg : g.Closed) :
    ∃ (s : Search) (ls : List Nat), s.Sound g ∧ labels? g = some ls ∧ ls.length = g.size ∧
      ∀ v < g.size, ∃ a, ls[v]? = some a ∧ s.HasLabel v a := by
  obtain ⟨s, hs, h⟩ := exists_between hg (Nat.le_refl _)
  have hsize := h.inv.sound.size
  have hlabel : ∀ m ∈ s.marks.toList, m.label? = some (m.label?.getD 0) := by
    intro m hm
    obtain ⟨v, hv⟩ := List.mem_iff_getElem?.mp hm
    rw [Array.getElem?_toList] at hv
    obtain ⟨a, ha⟩ := h.closed v (hsize ▸ (Array.getElem?_eq_some_iff.mp hv).1)
    cases hv.symm.trans ha
    rfl
  refine ⟨s, s.marks.toList.map fun m => m.label?.getD 0, h.inv.sound, ?_, by simp [hsize], fun v hv => ?_⟩
  · rw [labels?, search?, hs]
    exact mapM_eq_some hlabel
  · obtain ⟨a, ha⟩ := h.closed v hv
    exact ⟨a, by simp [show s.marks[v]? = some (.closed a) from ha, Mark.label?], ha⟩

theorem labels_eq {ls : List Nat} (h : labels? g = some ls) : labels g = ls := by rw [labels, h, Option.getD_some]

theorem length_labels (hg : g.Closed) : (labels g).length = g.size := by
  obtain ⟨s, ls, -, hls, hlen, -⟩ := exists_labels hg
  rw [labels_eq hls, hlen]

theorem label_eq_iff (hg : g.Closed) (hu : u < g.size) (hv : v < g.size) :
    (labels g)[u]? = (labels g)[v]? ↔ g.Mutual u v := by
  obtain ⟨s, ls, hs, hls, -, hlabel⟩ := exists_labels hg
  obtain ⟨a, hua, ha⟩ := hlabel u hu
  obtain ⟨b, hvb, hb⟩ := hlabel v hv
  rw [labels_eq hls, hua, hvb, Option.some_inj]
  exact hs.component u v a b ha hb

/-- The search comes to its end and finds every node that it looks up. Each node is given a label below the number of
    nodes, and two nodes are given the same one iff each reaches the other. -/
theorem labels_tell_components (hg : g.Closed) :
    ∃ ls, labels? g = some ls ∧ ls.length = g.size ∧ (∀ a ∈ ls, a < g.size) ∧
      ∀ u < g.size, ∀ v < g.size, ls[u]? = ls[v]? ↔ g.Mutual u v := by
  obtain ⟨s, ls, hs, hls, hlen, hlabel⟩ := exists_labels hg
  refine ⟨ls, hls, hlen, fun a ha => ?_, fun u hu v hv => labels_eq hls ▸ label_eq_iff hg hu hv⟩
  obtain ⟨v, hv⟩ := List.mem_iff_getElem?.mp ha
  obtain ⟨b, hb, hvb⟩ := hlabel v (hlen ▸ (List.getElem?_eq_some_iff.mp hv).1)
  obtain rfl : a = b := Option.some.inj (hv.symm.trans hb)
  exact (hs.label_lt v a hvb).trans_le hs.closed_le_size

/-- A cycle with an edge that comes twice, a node with an edge to itself and a node without edges. -/
def knot : Adjacency := #[[1, 1], [2], [0, 3], [3], []]

theorem knot_labelled :
    knot.Closed ∧ labels? knot = some [1, 1, 1, 0, 2] ∧ knot.Mutual 0 2 ∧ ¬ knot.Mutual 2 3 ∧ ¬ knot.Mutual 3 4 := by
  have hc : knot.Closed := by decide
  have hl : labels? knot = some [1, 1, 1, 0, 2] := by decide
  obtain ⟨ls, hls, -, -, h⟩ := labels_tell_components hc
  cases hl.symm.trans hls
  refine ⟨hc, hl, (h 0 (by decide) 2 (by decide)).mp rfl, fun hm => ?_, fun hm => ?_⟩
  · exact absurd ((h 2 (by decide) 3 (by decide)).mpr hm) (by decide)
  · exact absurd ((h 3 (by decide) 4 (by decide)).mpr hm) (by decide)

end Components
end CatalogSync
