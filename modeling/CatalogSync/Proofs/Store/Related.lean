import CatalogSync.Entity.Sample
import CatalogSync.Proofs.Collections
import CatalogSync.Proofs.Store.Contents

/-! What a store in memory answers when it is asked what entities relate to.

Each target of the entities that are asked about has a place: an argument, a relation of it and a position there. The
look-up goes through the places in their order and through the stored keys at each, so what it comes by is in order; and
of each key it keeps the place where it came by it first. -/

namespace CatalogSync.LocalStore

/-! ### Places -/

/-- Where an identifier is named: by which argument, in which of its relations and at which position there. -/
structure Place where
  argument : Nat
  relation : String
  position : Nat

/-- By argument, then by the name of the relation, then by position. -/
def Place.Before (a b : Place) : Prop :=
  a.argument < b.argument ∨ a.argument = b.argument ∧
    (compare a.relation b.relation = .lt ∨ a.relation = b.relation ∧ a.position < b.position)

/-- The stored version of an argument names the identifier at this place. -/
def NamesAt (s : LocalStore) (rs : List EntityRef) (a : Place) (id : String) : Prop :=
  ∃ r e target, rs[a.argument]? = some r ∧ s.get? r = some e ∧ e.relations.get? a.relation = some target ∧
    target.identifiers[a.position]? = some id

/-- The first is named somewhere before the second is named at all, or both are named there first and the first key is
lower. -/
def FoundBefore (s : LocalStore) (rs : List EntityRef) (k l : EntityRef) : Prop :=
  ∃ a, s.NamesAt rs a k.identifier ∧ ∀ b, s.NamesAt rs b l.identifier → a.Before b ∨ a = b ∧ compare k l = .lt

/-- These are the stored keys whose identifier a stored version of `rs` relates to, each once, as they are found. -/
structure OneHop (s : LocalStore) (rs found : List EntityRef) : Prop where
  distinct : found.Nodup
  mem : ∀ k, k ∈ found ↔ s.contains k ∧ ∃ r ∈ rs, ∃ e, s.get? r = some e ∧ k.identifier ∈ e.targets
  order : found.Pairwise (s.FoundBefore rs)

variable {s : LocalStore} {rs found found' : List EntityRef} {a b : Place} {id : String} {k l : EntityRef}

theorem Place.Before.asymm (h : a.Before b) : ¬ b.Before a := by
  rcases h with h | ⟨harg, h | ⟨hrel, h⟩⟩ <;> rintro (h' | ⟨harg', h' | ⟨hrel', h'⟩⟩)
  · omega
  · omega
  · omega
  · omega
  · exact Std.OrientedCmp.not_lt_of_lt h h'
  · simp [hrel', Std.ReflCmp.compare_self] at h
  · omega
  · simp [hrel, Std.ReflCmp.compare_self] at h'
  · omega

theorem Place.Before.irrefl : ¬ a.Before a := fun h => h.asymm h

theorem FoundBefore.asymm (h : s.FoundBefore rs k l) : ¬ s.FoundBefore rs l k := by
  obtain ⟨a, ha, hal⟩ := h
  rintro ⟨b, hb, hbk⟩
  rcases hal b hb with hab | ⟨rfl, hkl⟩
  · rcases hbk a ha with hba | ⟨rfl, -⟩
    · exact hab.asymm hba
    · exact hab.irrefl
  · rcases hbk a ha with haa | ⟨-, hlk⟩
    · exact haa.irrefl
    · exact Std.OrientedCmp.not_lt_of_lt hkl hlk

/-- No other list would do. -/
theorem OneHop.unique (h : s.OneHop rs found) (h' : s.OneHop rs found') : found = found' := by
  have hperm : found.Perm found' :=
    (List.perm_ext_iff_of_nodup h.distinct h'.distinct).mpr fun k => (h.mem k).trans (h'.mem k).symm
  exact hperm.eq_of_pairwise (fun k l _ _ hkl hlk => absurd hlk hkl.asymm) h.order h'.order

/-! ### What is named -/

/-- What the argument of this number names, if `e` is stored for it. -/
def namedBy (argument : Nat) (e : Entity) : List (Place × String) :=
  e.relations.entries.flatMap fun relation =>
    relation.2.identifiers.zipIdx.map fun id => (⟨argument, relation.1, id.2⟩, id.1)

/-- All that is named, in the order of the places. -/
def named (s : LocalStore) (rs : List EntityRef) : List (Place × String) :=
  rs.zipIdx.flatMap fun r => (s.get? r.1).toList.flatMap (namedBy r.2)

theorem mem_named : (a, id) ∈ s.named rs ↔ s.NamesAt rs a id := by
  obtain ⟨argument, relation, position⟩ := a
  simp only [named, namedBy, NamesAt, List.mem_flatMap, List.mem_map, Prod.exists, List.mem_zipIdx_iff_getElem?,
    Option.mem_toList, Prod.mk.injEq, Place.mk.injEq]
  constructor
  · rintro ⟨r, _, hr, e, he, _, target, htarget, _, _, hid, ⟨rfl, rfl, rfl⟩, rfl⟩
    exact ⟨r, e, target, hr, he, SortedMap.get?_eq_some_iff.mpr htarget, hid⟩
  · rintro ⟨r, e, target, hr, he, htarget, hid⟩
    exact ⟨r, _, hr, e, he, _, target, SortedMap.get?_eq_some_iff.mp htarget, _, _, hid, ⟨rfl, rfl, rfl⟩, rfl⟩

theorem map_snd_namedBy (argument : Nat) (e : Entity) : (namedBy argument e).map (·.2) = e.targets := by
  rw [namedBy, List.map_flatMap, Entity.targets, SortedMap.values, List.flatMap_map]
  refine List.flatMap_congr fun relation _ => ?_
  rw [List.map_map]
  exact List.zipIdx_map_fst 0 _

theorem map_snd_named : (s.named rs).map (·.2) = (rs.filterMap s.get?).flatMap (·.targets) := by
  have hstored : ∀ r : EntityRef × Nat, ((s.get? r.1).toList.flatMap (namedBy r.2)).map (·.2) =
      (s.get? r.1).toList.flatMap (·.targets) := fun r => by
    simp only [List.map_flatMap, map_snd_namedBy]
  rw [named, List.map_flatMap, List.filterMap_eq_flatMap_toList, List.flatMap_assoc]
  simp only [hstored]
  rw [← List.flatMap_map (f := Prod.fst) (g := fun r => (s.get? r).toList.flatMap (·.targets)), List.zipIdx_map_fst]

theorem pairwise_namedBy (argument : Nat) (e : Entity) :
    (namedBy argument e).Pairwise fun x y => x.1.Before y.1 := by
  refine List.pairwise_flatMap.mpr ⟨fun relation _ => ?_, e.relations.ascending.imp fun {m n} hlt x hx y hy => ?_⟩
  · exact List.pairwise_map.mpr ((pairwise_zipIdx _ 0).imp fun h => .inr ⟨rfl, .inr ⟨rfl, h⟩⟩)
  · obtain ⟨_, -, rfl⟩ := List.mem_map.mp hx
    obtain ⟨_, -, rfl⟩ := List.mem_map.mp hy
    exact .inr ⟨rfl, .inl hlt⟩

theorem argument_of_mem_namedBy {argument : Nat} {e : Entity} {x : Place × String} (h : x ∈ namedBy argument e) :
    x.1.argument = argument := by
  obtain ⟨relation, -, hx⟩ := List.mem_flatMap.mp h
  obtain ⟨_, -, rfl⟩ := List.mem_map.mp hx
  rfl

theorem pairwise_named : (s.named rs).Pairwise fun x y => x.1.Before y.1 := by
  refine List.pairwise_flatMap.mpr ⟨fun r _ => ?_, (pairwise_zipIdx rs 0).imp fun {q r} hlt x hx y hy => ?_⟩
  · cases s.get? r.1 with
    | none => exact .nil
    | some e => simpa using pairwise_namedBy r.2 e
  · obtain ⟨_, -, hx⟩ := List.mem_flatMap.mp hx
    obtain ⟨_, -, hy⟩ := List.mem_flatMap.mp hy
    exact .inl (by rwa [argument_of_mem_namedBy hx, argument_of_mem_namedBy hy])

/-! ### What is found -/

/-- The stored keys under an identifier. -/
def bearing (s : LocalStore) (id : String) : List EntityRef := s.refs.filter fun k => k.identifier = id

/-- What the look-up comes by, with the places. -/
def met (s : LocalStore) (rs : List EntityRef) : List (Place × EntityRef) :=
  (s.named rs).flatMap fun x => (s.bearing x.2).map (x.1, ·)

theorem mem_bearing : k ∈ s.bearing id ↔ s.contains k ∧ k.identifier = id := by
  have hrefs : k ∈ s.refs ↔ s.contains k := SortedMap.mem_keys_iff
  rw [bearing, List.mem_filter, hrefs, decide_eq_true_eq]

theorem mem_met : (a, k) ∈ s.met rs ↔ s.contains k ∧ s.NamesAt rs a k.identifier := by
  simp only [met, List.mem_flatMap, List.mem_map, mem_bearing, Prod.exists, Prod.mk.injEq, mem_named]
  constructor
  · rintro ⟨_, _, hnames, _, ⟨hk, rfl⟩, rfl, rfl⟩
    exact ⟨hk, hnames⟩
  · rintro ⟨hk, hnames⟩
    exact ⟨a, _, hnames, k, ⟨hk, rfl⟩, rfl, rfl⟩

theorem pairwise_met : (s.met rs).Pairwise fun x y => x.1.Before y.1 ∨ x.1 = y.1 ∧ compare x.2 y.2 = .lt := by
  refine List.pairwise_flatMap.mpr ⟨fun x _ => ?_, pairwise_named.imp fun {x y} hbefore m hm n hn => ?_⟩
  · have hrefs : s.refs.Pairwise fun k l => compare k l = .lt := List.pairwise_map.mpr s.entities.ascending
    exact List.pairwise_map.mpr ((hrefs.filter _).imp fun h => .inr ⟨rfl, h⟩)
  · obtain ⟨_, -, rfl⟩ := List.mem_map.mp hm
    obtain ⟨_, -, rfl⟩ := List.mem_map.mp hn
    exact .inl hbefore

theorem relatedRefs_eq : s.relatedRefs rs = ((s.met rs).map (·.2)).eraseDups := by
  have hmet : (s.met rs).map (·.2) = ((s.named rs).map (·.2)).flatMap s.bearing := by
    simp [met, List.map_flatMap, List.flatMap_map, Function.comp_def]
  rw [hmet, map_snd_named]
  rfl

theorem oneHop_relatedRefs : s.OneHop rs (s.relatedRefs rs) := by
  have hfirst : FirstOccurrences ((s.met rs).map (·.2)) (s.relatedRefs rs) := by
    rw [relatedRefs_eq]
    exact firstOccurrences_eraseDups _
  refine ⟨hfirst.nodup, fun k => mem_relatedRefs, ?_⟩
  refine (hfirst.pairwise pairwise_met).imp_of_mem fun {k l} _ hl h => ?_
  obtain ⟨a, ha, hbefore⟩ := h
  exact ⟨a, (mem_met.mp ha).2, fun b hb => hbefore b (mem_met.mpr ⟨contains_of_mem_relatedRefs hl, hb⟩)⟩

/-- Asked what entities relate to, a store in memory answers with what is one relation away, in the order in which it
is found, and stays as it is. -/
theorem related_found_in_order (s : LocalStore) (rs : List EntityRef) (havailable : s.relatedAvailable = true) :
    ∃ found, (Store.ofLocal.related rs : StateM LocalStore _).run s = (.ok found, s) ∧
      ∀ l, s.OneHop rs l ↔ l = found := by
  refine ⟨s.relatedRefs rs, ?_, fun l => ⟨fun h => h.unique oneHop_relatedRefs, ?_⟩⟩
  · show (s.related rs, s) = _
    rw [LocalStore.related, if_pos havailable]
  · rintro rfl
    exact oneHop_relatedRefs

/-- The service `api` relates to the others: to two of them by one name, and to one that relates to nothing stored. -/
def crossroads : LocalStore := .ofEntities
  [Sample.service "cache", Sample.team "db", Sample.service "db", (Sample.team "core").withRelation "parent" (.one "mail"),
    ((Sample.service "api").withRelation "uses" (.many ["db", "cache"])).withRelation "owner" (.one "core")]

/-- One key is asked about twice, another is not stored, and a third relates to nothing that is. -/
def inquiry : List EntityRef :=
  [⟨"api", "team"⟩, Sample.serviceRef "api", ⟨"core", "team"⟩, Sample.serviceRef "api"]

theorem crossroads_found : crossroads.relatedAvailable = true ∧
    crossroads.OneHop inquiry [⟨"core", "team"⟩, Sample.serviceRef "db", ⟨"db", "team"⟩, Sample.serviceRef "cache"] := by
  have havailable : crossroads.relatedAvailable = true := rfl
  obtain ⟨found, hrun, hall⟩ := related_found_in_order crossroads inquiry havailable
  have hfound : crossroads.related inquiry = .ok found := congrArg Prod.fst hrun
  refine ⟨havailable, (hall _).mpr ?_⟩
  exact Except.ok.inj ((show crossroads.related inquiry = .ok _ by decide +kernel).symm.trans hfound)

end CatalogSync.LocalStore
