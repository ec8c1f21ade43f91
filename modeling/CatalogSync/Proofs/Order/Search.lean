import CatalogSync.Order.Components
import Mathlib.Algebra.Order.BigOperators.Group.Finset

/-! What the search for components keeps while it meets nodes and follows edges.

While a node is visited, all that stands on the stack reaches it; the nodes of the trail cut the stack into pieces.
The low index of each of them is that of a node which it reaches, and no edge that it or its piece has followed leads
to an open node of a lower index. -/

namespace CatalogSync

namespace Adjacency
variable {g : Adjacency} {u v w : Nat}

theorem Reaches.single (h : v ∈ g.next u) : g.Reaches u v := .step h (.refl v)

theorem Reaches.trans (h₁ : g.Reaches u v) (h₂ : g.Reaches v w) : g.Reaches u w := by
  induction h₁ with
  | refl => exact h₂
  | step he _ ih => exact .step he (ih h₂)

/-- Each of the two nodes reaches the other. -/
def Mutual (g : Adjacency) (u v : Nat) : Prop := g.Reaches u v ∧ g.Reaches v u

theorem Mutual.symm (h : g.Mutual u v) : g.Mutual v u := ⟨h.2, h.1⟩

theorem getElem?_eq_next (hv : v < g.size) : g[v]? = some (g.next v) := by
  simp [next, hv]

end Adjacency

namespace Components
open Adjacency

variable {g : Adjacency} {s s' : Search} {u v w : Nat} {m : Mark}

/-! ### The state of a search -/

def Mark.index : Mark → Nat
  | opened index _ => index
  | _ => 0

def Mark.low : Mark → Nat
  | opened _ low => low
  | _ => 0

namespace Search

def index (s : Search) (v : Nat) : Nat := s.marks[v]?.elim 0 Mark.index

def low (s : Search) (v : Nat) : Nat := s.marks[v]?.elim 0 Mark.low

def IsUnmet (s : Search) (v : Nat) : Prop := s.marks[v]? = some .unmet

instance : DecidablePred s.IsUnmet := fun v => inferInstanceAs (Decidable (s.marks[v]? = some .unmet))

def IsOpen (s : Search) (v : Nat) : Prop := ∃ index low, s.marks[v]? = some (.opened index low)

def HasLabel (s : Search) (v a : Nat) : Prop := s.marks[v]? = some (.closed a)

def IsClosed (s : Search) (v : Nat) : Prop := ∃ a, s.HasLabel v a

/-- An edge to `w` is taken account of: if `w` is open, its index is not below `low`. -/
def Noted (s : Search) (low w : Nat) : Prop := (w ∈ s.stack ∧ low ≤ s.index w) ∨ s.IsClosed w

theorem IsOpen.mark_eq (h : s.IsOpen v) : s.marks[v]? = some (.opened (s.index v) (s.low v)) := by
  obtain ⟨i, l, h⟩ := h
  simp [index, low, h, Mark.index, Mark.low]

theorem IsOpen.not_isClosed (h : s.IsOpen v) : ¬ s.IsClosed v := by
  rintro ⟨a, ha⟩
  cases h.mark_eq.symm.trans ha

theorem mark?_eq (hv : v < s.marks.size) : s.mark? v m = some (s.mark v m) := if_pos hv

theorem getElem?_mark (hv : v < s.marks.size) : (s.mark v m).marks[u]? = if u = v then some m else s.marks[u]? := by
  rw [mark, Array.getElem?_setIfInBounds, if_pos hv]
  exact if_congr eq_comm rfl rfl

/-- What is known of a node can be written down again. -/
theorem mark_self (h : s.marks[v]? = some m) : s.mark v m = s := by
  have hm : s.marks.setIfInBounds v m = s.marks := by
    refine Array.ext_getElem? fun u => ?_
    have hv := (Array.getElem?_eq_some_iff.mp h).1
    rw [show s.marks.setIfInBounds v m = (s.mark v m).marks from rfl, getElem?_mark hv]
    split
    · rename_i hu
      rw [hu, h]
    · rfl
  rw [mark, hm]

/-! ### What every search keeps -/

structure Sound (g : Adjacency) (s : Search) : Prop where
  size : s.marks.size = g.size
  mem_stack : ∀ v, v ∈ s.stack ↔ s.IsOpen v
  descending : s.stack.Pairwise fun u w => s.index w < s.index u
  index_lt : ∀ v ∈ s.stack, s.index v < s.met
  /-- Lower nodes of the stack reach higher ones. -/
  climbs : s.stack.Pairwise fun u w => g.Reaches w u
  component : ∀ u v a b, s.HasLabel u a → s.HasLabel v b → (a = b ↔ g.Mutual u v)
  label_lt : ∀ v a, s.HasLabel v a → a < s.closed
  used : ∀ a < s.closed, ∃ v, s.HasLabel v a
  /-- No edge leaves what is closed. -/
  inside : ∀ v, s.IsClosed v → ∀ w ∈ g.next v, s.IsClosed w

namespace Sound

theorem isClosed_of_reaches (h : s.Sound g) (hv : s.IsClosed v) (hr : g.Reaches v w) : s.IsClosed w := by
  induction hr with
  | refl => exact hv
  | step he _ ih => exact ih (h.inside _ hv _ he)

theorem mark_eq (h : s.Sound g) (hv : v ∈ s.stack) : s.marks[v]? = some (.opened (s.index v) (s.low v)) :=
  ((h.mem_stack v).mp hv).mark_eq

theorem lt_size (h : s.Sound g) (hv : v ∈ s.stack) : v < s.marks.size :=
  (Array.getElem?_eq_some_iff.mp (h.mark_eq hv)).1

theorem nodup (h : s.Sound g) : s.stack.Nodup :=
  h.descending.imp fun hlt heq => by
    rw [heq] at hlt
    exact Nat.lt_irrefl _ hlt

/-- A node of the stack is above another iff its index is greater. -/
theorem index_lt_of_append (h : s.Sound g) {new below : List Nat} (hs : s.stack = new ++ v :: below) :
    (∀ u ∈ new, s.index v < s.index u) ∧ ∀ u ∈ below, s.index u < s.index v := by
  have hd := h.descending
  rw [hs, List.pairwise_append, List.pairwise_cons] at hd
  exact ⟨fun u hu => hd.2.2 u hu v List.mem_cons_self, hd.2.1.1⟩

theorem reaches_of_append (h : s.Sound g) {new below : List Nat} (hs : s.stack = new ++ v :: below) :
    (∀ u ∈ new, g.Reaches v u) ∧ ∀ u ∈ below, g.Reaches u v := by
  have hc := h.climbs
  rw [hs, List.pairwise_append, List.pairwise_cons] at hc
  exact ⟨fun u hu => hc.2.2 u hu v List.mem_cons_self, hc.2.1.1⟩

theorem met_or_unmet (h : s.Sound g) (hv : v < g.size) : s.IsUnmet v ∨ v ∈ s.stack ∨ s.IsClosed v := by
  obtain ⟨m, hm⟩ : ∃ m, s.marks[v]? = some m := ⟨_, Array.getElem?_eq_getElem (h.size ▸ hv)⟩
  cases m with
  | unmet => exact .inl hm
  | opened i l => exact .inr (.inl ((h.mem_stack v).mpr ⟨i, l, hm⟩))
  | closed a => exact .inr (.inr ⟨a, hm⟩)

end Sound

/-- What a search keeps from `s` to `s'`. -/
structure Later (s s' : Search) : Prop where
  closed : ∀ w, s.IsClosed w → s'.IsClosed w
  stack : ∀ w ∈ s.stack, (w ∈ s'.stack ∧ s'.index w = s.index w) ∨ s'.IsClosed w

theorem Noted.mono {low low' : Nat} (h : s.Noted low w) (hl : Later s s') (hlow : low' ≤ low) : s'.Noted low' w := by
  rcases h with ⟨hw, hi⟩ | hw
  · rcases hl.stack w hw with ⟨hw', he⟩ | hw'
    · exact .inl ⟨hw', he ▸ hlow.trans hi⟩
    · exact .inr hw'
  · exact .inr (hl.closed w hw)

theorem Later.refl (s : Search) : Later s s := ⟨fun _ h => h, fun _ h => .inl ⟨h, rfl⟩⟩

/-- Which nodes are being visited does not matter. -/
theorem Later.withTrail (s : Search) (trail : List Visit) : Later s { s with trail := trail } :=
  ⟨fun _ h => h, fun _ h => .inl ⟨h, rfl⟩⟩

theorem Later.trans {s'' : Search} (h : Later s s') (h' : Later s' s'') : Later s s'' where
  closed w hw := h'.closed w (h.closed w hw)
  stack w hw := by
    rcases h.stack w hw with ⟨hw', he⟩ | hw'
    · exact (h'.stack w hw').imp_left fun ⟨hw'', he'⟩ => ⟨hw'', he'.trans he⟩
    · exact .inr (h'.closed w hw')

end Search

/-! ### The nodes that are being visited -/

/-- The visit of `v` has its edges `rest` to follow; `new` stands above `v` on the stack and `below` under it. -/
structure Visiting (g : Adjacency) (s : Search) (v : Nat) (rest new below : List Nat) : Prop where
  low_le : s.low v ≤ s.index v
  /-- The node that gave `v` its low index. -/
  seen : ∃ z ∈ v :: below, s.index z = s.low v ∧ g.Reaches v z
  returns : ∀ u ∈ new ++ v :: below, g.Reaches u v
  left : ∀ u ∈ new, ∀ w ∈ g.next u, s.Noted (s.low v) w
  own : ∃ followed, g.next v = followed ++ rest ∧ ∀ w ∈ followed, s.Noted (s.low v) w

/-- The nodes of the trail cut the stack into pieces. -/
inductive Trailing (g : Adjacency) (s : Search) : List Visit → List Nat → Prop
  | nil : Trailing g s [] []
  | cons {v : Nat} {rest new below : List Nat} {trail : List Visit} (h : Visiting g s v rest new below)
      (ht : Trailing g s trail below) : Trailing g s (⟨v, rest⟩ :: trail) (new ++ v :: below)

variable {rest new below : List Nat} {trail : List Visit}

namespace Visiting

/-- The visit goes on in a state where at most the low index of `v` has come down. -/
theorem mono (h : Visiting g s v rest new below) (hl : Search.Later s s')
    (hi : ∀ u ∈ v :: below, s'.index u = s.index u) (hlow : s'.low v ≤ s.low v)
    (hseen : ∃ z ∈ v :: below, s'.index z = s'.low v ∧ g.Reaches v z) : Visiting g s' v rest new below where
  low_le := by
    rw [hi v List.mem_cons_self]
    exact hlow.trans h.low_le
  seen := hseen
  returns := h.returns
  left u hu w hw := (h.left u hu w hw).mono hl hlow
  own := by
    obtain ⟨followed, he, hn⟩ := h.own
    exact ⟨followed, he, fun w hw => (hn w hw).mono hl hlow⟩

theorem of_marks (h : Visiting g s v rest new below) (hl : Search.Later s s')
    (hm : ∀ u ∈ v :: below, s'.marks[u]? = s.marks[u]?) : Visiting g s' v rest new below := by
  have hi : ∀ u ∈ v :: below, s'.index u = s.index u := fun u hu => by rw [Search.index, hm u hu]; rfl
  have hlow : s'.low v = s.low v := by rw [Search.low, hm v List.mem_cons_self]; rfl
  obtain ⟨z, hz, hzi, hr⟩ := h.seen
  exact h.mono hl hi hlow.le ⟨z, hz, by rw [hi z hz, hlow, hzi], hr⟩

/-- An edge that is taken account of is followed. -/
theorem follow (h : Visiting g s v (w :: rest) new below) (hw : s.Noted (s.low v) w) :
    Visiting g s v rest new below :=
  { h with
    own := by
      obtain ⟨followed, he, hn⟩ := h.own
      refine ⟨followed ++ [w], by simp [he], fun u hu => ?_⟩
      rcases List.mem_append.mp hu with hu | hu
      · exact hn u hu
      · exact List.mem_singleton.mp hu ▸ hw }

theorem mem_next (h : Visiting g s v (w :: rest) new below) : w ∈ g.next v := by
  obtain ⟨followed, he, -⟩ := h.own
  simp [he]

theorem back (h : Visiting g s v rest new below) : ∀ u ∈ v :: new, g.Reaches u v := fun u hu => by
  rcases List.mem_cons.mp hu with rfl | hu
  · exact .refl u
  · exact h.returns u (List.mem_append_left _ hu)

/-- Once all edges are followed. -/
theorem edges (h : Visiting g s v [] new below) : ∀ u ∈ v :: new, ∀ w ∈ g.next u, s.Noted (s.low v) w := by
  intro u hu w hw
  rcases List.mem_cons.mp hu with rfl | hu
  · obtain ⟨followed, he, hn⟩ := h.own
    rw [he, List.append_nil] at hw
    exact hn w hw
  · exact h.left u hu w hw

end Visiting

theorem Trailing.of_marks {stack : List Nat} (h : Trailing g s trail stack) (hl : Search.Later s s')
    (hm : ∀ u ∈ stack, s'.marks[u]? = s.marks[u]?) : Trailing g s' trail stack := by
  induction h with
  | nil => exact .nil
  | cons h _ ih =>
    refine .cons (h.of_marks hl fun u hu => hm u (List.mem_append_right _ hu)) (ih fun u hu => ?_)
    exact hm u (List.mem_append_right _ (List.mem_cons_of_mem _ hu))

/-- What every search keeps, with the nodes that it is visiting. -/
structure Inv (g : Adjacency) (s : Search) : Prop where
  sound : s.Sound g
  trailing : Trailing g s s.trail s.stack

/-! ### Meeting a node -/

namespace Search

/-- The state in which `v` has just been met. -/
def entered (g : Adjacency) (s : Search) (v : Nat) : Search :=
  { s.mark v (.opened s.met s.met) with
    stack := v :: s.stack, trail := ⟨v, g.next v⟩ :: s.trail, met := s.met + 1 }

theorem enter?_eq (h : s.Sound g) (hv : v < g.size) : s.enter? g v = some (s.entered g v) := by
  simp [enter?, getElem?_eq_next hv, mark?_eq (h.size ▸ hv), entered, mark]

theorem getElem?_entered (h : s.Sound g) (hv : v < g.size) :
    (s.entered g v).marks[u]? = if u = v then some (.opened s.met s.met) else s.marks[u]? :=
  getElem?_mark (h.size ▸ hv)

end Search

/-- When `v` may be met. -/
structure Enters (g : Adjacency) (s : Search) (v : Nat) : Prop where
  sound : s.Sound g
  lt : v < g.size
  unmet : s.IsUnmet v
  returns : ∀ u ∈ s.stack, g.Reaches u v

namespace Enters

theorem not_mem (h : Enters g s v) : v ∉ s.stack := fun hv => by
  cases h.unmet.symm.trans (h.sound.mark_eq hv)

theorem not_hasLabel (h : Enters g s v) (a : Nat) : ¬ s.HasLabel v a := fun ha => by
  cases h.unmet.symm.trans ha

theorem marks_self (h : Enters g s v) : (s.entered g v).marks[v]? = some (.opened s.met s.met) := by
  rw [Search.getElem?_entered h.sound h.lt, if_pos rfl]

theorem marks_of_ne (h : Enters g s v) (hu : u ≠ v) : (s.entered g v).marks[u]? = s.marks[u]? := by
  rw [Search.getElem?_entered h.sound h.lt, if_neg hu]

theorem marks_of_mem (h : Enters g s v) (hu : u ∈ s.stack) : (s.entered g v).marks[u]? = s.marks[u]? :=
  h.marks_of_ne fun he => h.not_mem (he ▸ hu)

theorem index_self (h : Enters g s v) : (s.entered g v).index v = s.met := by
  rw [Search.index, h.marks_self]; rfl

theorem index_of_mem (h : Enters g s v) (hu : u ∈ s.stack) : (s.entered g v).index u = s.index u := by
  rw [Search.index, h.marks_of_mem hu]; rfl

theorem hasLabel_iff (h : Enters g s v) {a : Nat} : (s.entered g v).HasLabel u a ↔ s.HasLabel u a := by
  by_cases hu : u = v
  · subst hu
    exact iff_of_false (fun ha => by cases h.marks_self.symm.trans ha) (h.not_hasLabel a)
  · rw [Search.HasLabel, h.marks_of_ne hu, Search.HasLabel]

theorem isClosed_iff (h : Enters g s v) : (s.entered g v).IsClosed u ↔ s.IsClosed u :=
  exists_congr fun _ => h.hasLabel_iff

theorem later (h : Enters g s v) : Search.Later s (s.entered g v) where
  closed _ hw := h.isClosed_iff.mpr hw
  stack _ hw := .inl ⟨List.mem_cons_of_mem _ hw, h.index_of_mem hw⟩

theorem mem_stack (h : Enters g s v) (u : Nat) : u ∈ (s.entered g v).stack ↔ (s.entered g v).IsOpen u := by
  show u ∈ v :: s.stack ↔ _
  by_cases hu : u = v
  · subst hu
    exact iff_of_true List.mem_cons_self ⟨_, _, h.marks_self⟩
  · rw [List.mem_cons, or_iff_right hu, h.sound.mem_stack, Search.IsOpen, Search.IsOpen, h.marks_of_ne hu]

theorem sound_entered (h : Enters g s v) : (s.entered g v).Sound g where
  size := (Array.size_setIfInBounds ..).trans h.sound.size
  mem_stack := h.mem_stack
  descending := by
    refine List.pairwise_cons.mpr ⟨fun u hu => ?_, h.sound.descending.imp_of_mem fun hu hw hlt => ?_⟩
    · rw [h.index_self, h.index_of_mem hu]
      exact h.sound.index_lt u hu
    · rwa [h.index_of_mem hu, h.index_of_mem hw]
  index_lt u hu := by
    show _ < s.met + 1
    rcases List.mem_cons.mp hu with rfl | hu
    · rw [h.index_self]
      exact Nat.lt_succ_self _
    · rw [h.index_of_mem hu]
      exact Nat.lt_succ_of_lt (h.sound.index_lt u hu)
  climbs := List.pairwise_cons.mpr ⟨h.returns, h.sound.climbs⟩
  component u w a b hu hw := h.sound.component u w a b (h.hasLabel_iff.mp hu) (h.hasLabel_iff.mp hw)
  label_lt u a hu := h.sound.label_lt u a (h.hasLabel_iff.mp hu)
  used a ha := (h.sound.used a ha).imp fun _ => h.hasLabel_iff.mpr
  inside u hu w hw := h.isClosed_iff.mpr (h.sound.inside u (h.isClosed_iff.mp hu) w hw)

theorem visiting (h : Enters g s v) : Visiting g (s.entered g v) v (g.next v) [] s.stack where
  low_le := by rw [Search.low, Search.index, h.marks_self]; exact Nat.le_refl _
  seen := ⟨v, List.mem_cons_self, by rw [Search.low, Search.index, h.marks_self]; rfl, .refl v⟩
  returns u hu := by
    rcases List.mem_cons.mp hu with rfl | hu
    · exact .refl u
    · exact h.returns u hu
  left := by simp
  own := ⟨[], rfl, by simp⟩

/-- The state in which `v` is met keeps all, whatever was visited before. -/
theorem inv (h : Enters g s v) (ht : Trailing g (s.entered g v) s.trail s.stack) : Inv g (s.entered g v) :=
  ⟨h.sound_entered, .cons h.visiting ht⟩

end Enters

/-! ### Lowering -/

namespace Search

/-- The state in which `v` is known to reach the index `k`. -/
def lowered (s : Search) (v k : Nat) : Search := s.mark v (.opened (s.index v) (min (s.low v) k))

section Lowered
variable {k : Nat}

theorem lower?_eq (h : s.Sound g) (hv : v ∈ s.stack) : s.lower? v k = some (s.lowered v k) := by
  simp only [lower?, h.mark_eq hv]
  exact mark?_eq (h.lt_size hv)

theorem marks_lowered_of_ne (hu : u ≠ v) : (s.lowered v k).marks[u]? = s.marks[u]? := by
  rw [lowered, mark, Array.getElem?_setIfInBounds, if_neg hu.symm]

theorem marks_lowered_self (h : s.Sound g) (hv : v ∈ s.stack) :
    (s.lowered v k).marks[v]? = some (.opened (s.index v) (min (s.low v) k)) := by
  rw [lowered, getElem?_mark (h.lt_size hv), if_pos rfl]

theorem index_lowered (h : s.Sound g) (hv : v ∈ s.stack) : (s.lowered v k).index u = s.index u := by
  by_cases hu : u = v
  · rw [hu, index, marks_lowered_self h hv]
    rfl
  · rw [index, marks_lowered_of_ne hu]
    rfl

theorem low_lowered (h : s.Sound g) (hv : v ∈ s.stack) : (s.lowered v k).low v = min (s.low v) k := by
  rw [low, marks_lowered_self h hv]
  rfl

theorem hasLabel_lowered (h : s.Sound g) (hv : v ∈ s.stack) {a : Nat} : (s.lowered v k).HasLabel u a ↔ s.HasLabel u a := by
  by_cases hu : u = v
  · subst hu
    refine iff_of_false (fun ha => ?_) fun ha => ?_
    · cases (marks_lowered_self h hv).symm.trans ha
    · cases (h.mark_eq hv).symm.trans ha
  · rw [HasLabel, marks_lowered_of_ne hu, HasLabel]

theorem isOpen_lowered (h : s.Sound g) (hv : v ∈ s.stack) : (s.lowered v k).IsOpen u ↔ s.IsOpen u := by
  by_cases hu : u = v
  · subst hu
    exact iff_of_true ⟨_, _, marks_lowered_self h hv⟩ ⟨_, _, h.mark_eq hv⟩
  · rw [IsOpen, marks_lowered_of_ne hu, IsOpen]

theorem later_lowered (h : s.Sound g) (hv : v ∈ s.stack) : Later s (s.lowered v k) where
  closed _ hw := hw.imp fun _ => (hasLabel_lowered h hv).mpr
  stack _ hw := .inl ⟨hw, index_lowered h hv⟩

theorem Sound.lowered (h : s.Sound g) (hv : v ∈ s.stack) : (s.lowered v k).Sound g where
  size := (Array.size_setIfInBounds ..).trans h.size
  mem_stack u := (h.mem_stack u).trans (isOpen_lowered h hv).symm
  descending := h.descending.imp fun hlt => by rwa [index_lowered h hv, index_lowered h hv]
  index_lt u hu := by
    rw [index_lowered h hv]
    exact h.index_lt u hu
  climbs := h.climbs
  component u w a b hu hw := h.component u w a b ((hasLabel_lowered h hv).mp hu) ((hasLabel_lowered h hv).mp hw)
  label_lt u a hu := h.label_lt u a ((hasLabel_lowered h hv).mp hu)
  used a ha := (h.used a ha).imp fun _ => (hasLabel_lowered h hv).mpr
  inside u hu w hw :=
    (h.inside u (hu.imp fun _ => (hasLabel_lowered h hv).mp) w hw).imp fun _ => (hasLabel_lowered h hv).mpr

end Lowered
end Search

/-- A lower index is taken over where it is that of a node further down, or not lower at all. -/
theorem Visiting.lowered (h : Visiting g s v rest new below) (hs : s.Sound g) (hv : v ∈ s.stack) {k : Nat}
    (hk : s.low v ≤ k ∨ ∃ z ∈ v :: below, s.index z = k ∧ g.Reaches v z) :
    Visiting g (s.lowered v k) v rest new below := by
  refine h.mono (Search.later_lowered hs hv) (fun _ _ => Search.index_lowered hs hv) ?_ ?_
  · rw [Search.low_lowered hs hv]
    exact Nat.min_le_left _ _
  · simp only [Search.index_lowered hs hv, Search.low_lowered hs hv]
    rcases Nat.le_total (s.low v) k with hle | hle
    · rw [Nat.min_eq_left hle]
      exact h.seen
    · rw [Nat.min_eq_right hle]
      rcases hk with hk | hk
      · exact Nat.le_antisymm hk hle ▸ h.seen
      · exact hk

/-! ### Following an edge -/

/-- A step for each edge that is still to be followed, and one for the end of each visit. -/
def owed : List Visit → Nat
  | [] => 0
  | x :: trail => x.rest.length + 1 + owed trail

/-- What is still to be done: what the visits owe, and the whole visit of each node that has not been met. -/
def due (g : Adjacency) (s : Search) : Nat :=
  ∑ v ∈ (Finset.range g.size).filter s.IsUnmet, ((g.next v).length + 1) + owed s.trail

theorem due_congr (h : ∀ v, s'.IsUnmet v ↔ s.IsUnmet v) (ht : s'.trail = s.trail) : due g s' = due g s := by
  simp only [due, h, ht]

theorem due_withTrail (trail : List Visit) : due g { s with trail := trail } =
    ∑ v ∈ (Finset.range g.size).filter s.IsUnmet, ((g.next v).length + 1) + owed trail :=
  rfl

theorem Enters.due_eq (h : Enters g s v) : due g (s.entered g v) = due g s := by
  have herase : (Finset.range g.size).filter (s.entered g v).IsUnmet =
      ((Finset.range g.size).filter s.IsUnmet).erase v := by
    ext u
    by_cases hu : u = v
    · simp [hu, Search.IsUnmet, h.marks_self]
    · simp [hu, Search.IsUnmet, h.marks_of_ne hu]
  have hv : v ∈ (Finset.range g.size).filter s.IsUnmet := by simp [h.lt, h.unmet]
  have hsum := Finset.sum_erase_add _ (fun u => (g.next u).length + 1) hv
  have htrail : (s.entered g v).trail = ⟨v, g.next v⟩ :: s.trail := rfl
  rw [due, due, herase, htrail, owed]
  dsimp only
  omega

theorem due_lowered {k : Nat} (h : s.Sound g) (hv : v ∈ s.stack) : due g (s.lowered v k) = due g s := by
  refine due_congr (fun u => ?_) rfl
  by_cases hu : u = v
  · subst hu
    simp [Search.IsUnmet, Search.marks_lowered_self h hv, h.mark_eq hv]
  · rw [Search.IsUnmet, Search.marks_lowered_of_ne hu, Search.IsUnmet]

/-- A visit on top of the stack, with what was visited before it. -/
structure Top (g : Adjacency) (s : Search) (v : Nat) (rest new below : List Nat) (trail : List Visit) : Prop where
  sound : s.Sound g
  stack : s.stack = new ++ v :: below
  visiting : Visiting g s v rest new below
  trailing : Trailing g s trail below

theorem Inv.top (h : Inv g s) (ht : s.trail = ⟨v, rest⟩ :: trail) : ∃ new below, Top g s v rest new below trail := by
  obtain ⟨hs, htr⟩ := h
  rw [ht] at htr
  generalize hst : s.stack = stack at htr
  cases htr with
  | cons hv htr => exact ⟨_, _, hs, hst, hv, htr⟩

namespace Top

theorem inv (h : Top g s v rest new below trail) (ht : s.trail = ⟨v, rest⟩ :: trail) : Inv g s :=
  ⟨h.sound, by rw [ht, h.stack]; exact .cons h.visiting h.trailing⟩

theorem mem_stack (h : Top g s v rest new below trail) : v ∈ s.stack := by simp [h.stack]

theorem withTrail (h : Top g s v rest new below trail) (other : List Visit) :
    Top g { s with trail := other } v rest new below trail := by
  have hl := Search.Later.withTrail s other
  obtain ⟨h₁, h₂, h₃, h₄, h₅, h₆, h₇, h₈, h₉⟩ := h.sound
  exact ⟨⟨h₁, h₂, h₃, h₄, h₅, h₆, h₇, h₈, h₉⟩, h.stack, h.visiting.of_marks hl fun _ _ => rfl,
    h.trailing.of_marks hl fun _ _ => rfl⟩

theorem not_mem (h : Top g s v rest new below trail) : v ∉ new ∧ v ∉ below ∧ ∀ u ∈ new, u ∉ below := by
  have hn := h.sound.nodup
  rw [h.stack, List.nodup_append, List.nodup_cons] at hn
  obtain ⟨-, ⟨hv, -⟩, hd⟩ := hn
  exact ⟨fun hm => hd v hm v List.mem_cons_self rfl, hv,
    fun u hu hs => hd u hu u (List.mem_cons_of_mem _ hs) rfl⟩

/-- An edge leads to a node of the stack. -/
theorem lowered (h : Top g s v rest new below trail) (hw : w ∈ s.stack) (hr : g.Reaches v w) :
    Top g (s.lowered v (s.index w)) v rest new below trail where
  sound := h.sound.lowered h.mem_stack
  stack := h.stack
  visiting := by
    refine h.visiting.lowered h.sound h.mem_stack ?_
    rw [h.stack] at hw
    rcases List.mem_append.mp hw with hw | hw
    · have := (h.sound.index_lt_of_append h.stack).1 w hw
      exact .inl (h.visiting.low_le.trans this.le)
    · exact .inr ⟨w, hw, rfl, hr⟩
  trailing := by
    refine h.trailing.of_marks (Search.later_lowered h.sound h.mem_stack) fun u hu => ?_
    exact Search.marks_lowered_of_ne fun he => h.not_mem.2.1 (he ▸ hu)

theorem lt_size (h : Top g s v rest new below trail) : v < g.size :=
  h.sound.size ▸ h.sound.lt_size h.mem_stack

theorem exists_follow (h : Top g s v (w :: rest) new below trail) (hg : g.Closed) (ht : s.trail = ⟨v, rest⟩ :: trail) :
    ∃ s', s.follow? g v w = some s' ∧ Inv g s' ∧ Search.Later s s' ∧ due g s' = due g s := by
  have he := h.visiting.mem_next
  have hlt : w < g.size := hg v h.lt_size w he
  rcases h.sound.met_or_unmet hlt with hw | hw | ⟨a, ha⟩
  · have hret : ∀ u ∈ s.stack, g.Reaches u w := fun u hu =>
      (h.visiting.returns u (h.stack ▸ hu)).trans (.single he)
    have hent : Enters g s w := ⟨h.sound, hlt, hw, hret⟩
    have hmarks : ∀ u ∈ new ++ v :: below, (s.entered g w).marks[u]? = s.marks[u]? := fun u hu =>
      hent.marks_of_mem (h.stack ▸ hu)
    have hv := h.visiting.of_marks hent.later fun u hu => hmarks u (List.mem_append_right _ hu)
    have hlow : (s.entered g w).low v ≤ s.met := by
      rw [Search.low, hent.marks_of_mem h.mem_stack]
      exact h.visiting.low_le.trans (h.sound.index_lt v h.mem_stack).le
    refine ⟨s.entered g w, ?_, hent.inv ?_, hent.later, hent.due_eq⟩
    · simp only [Search.follow?, show s.marks[w]? = some .unmet from hw, Search.enter?_eq h.sound hlt]
    · rw [ht, h.stack]
      refine .cons (hv.follow (.inl ⟨List.mem_cons_self, ?_⟩)) (h.trailing.of_marks hent.later fun u hu => ?_)
      · rw [hent.index_self]
        exact hlow
      · exact hmarks u (List.mem_append_right _ (List.mem_cons_of_mem _ hu))
  · have htop := h.lowered hw (.single he)
    refine ⟨s.lowered v (s.index w), ?_, ?_, Search.later_lowered h.sound h.mem_stack, due_lowered h.sound h.mem_stack⟩
    · simp only [Search.follow?, h.sound.mark_eq hw, Search.lower?_eq h.sound h.mem_stack]
    · refine Top.inv { htop with visiting := htop.visiting.follow (.inl ⟨hw, ?_⟩) } ht
      rw [Search.low_lowered h.sound h.mem_stack, Search.index_lowered h.sound h.mem_stack]
      exact Nat.min_le_right _ _
  · refine ⟨s, ?_, ?_, .refl s, rfl⟩
    · simp only [Search.follow?, show s.marks[w]? = some (.closed a) from ha]
    · exact Top.inv { h with visiting := h.visiting.follow (.inr ⟨a, ha⟩) } ht

end Top

end Components
end CatalogSync
