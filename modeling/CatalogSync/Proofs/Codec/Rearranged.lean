import CatalogSync.Json.Codec
import CatalogSync.Proofs.Collections
import Mathlib.Data.List.Nodup

/-! Reading what was written, with the members of objects in any order.

Records list their fields as they are declared, while a free-form value lists its members by key. Where no name comes
twice the order says nothing, so what is read does not depend on it. -/

namespace CatalogSync

namespace Json

/-- `f` lists the members of objects in another order, also of objects inside. It may do anything to an object that
    has a name twice. -/
structure Rearranges (f : Json → Json) : Prop where
  null : f .null = .null
  bool : ∀ b, f (.bool b) = .bool b
  number : ∀ n, f (.number n) = .number n
  string : ∀ s, f (.string s) = .string s
  array : ∀ items, f (.array items) = .array (items.map f)
  object : ∀ members, (members.map (·.1)).Nodup →
    ∃ others, f (.object members) = .object others ∧ others.Perm (members.map fun m => (m.1, f m.2))

theorem rearranges_id : Rearranges id where
  null := rfl
  bool _ := rfl
  number _ := rfl
  string _ := rfl
  array items := by simp
  object members _ := ⟨members, rfl, by simp⟩

/-! ### By key -/

mutual

/-- As a reader of free-form values lists the members. -/
def sorted : Json → Json
  | .array items => .array (sortedItems items)
  | .object members => .object (Shape.sortMembers (sortedMembers members))
  | j => j

def sortedItems : List Json → List Json
  | [] => []
  | j :: js => j.sorted :: sortedItems js

def sortedMembers : List (String × Json) → List (String × Json)
  | [] => []
  | (k, j) :: ms => (k, j.sorted) :: sortedMembers ms

end

theorem sortedItems_eq (items : List Json) : sortedItems items = items.map sorted := by
  induction items with
  | nil => rfl
  | cons j js ih => rw [sortedItems, ih, List.map_cons]

theorem sortedMembers_eq (members : List (String × Json)) :
    sortedMembers members = members.map fun m => (m.1, m.2.sorted) := by
  induction members with
  | nil => rfl
  | cons m ms ih => rw [sortedMembers, ih, List.map_cons]

theorem perm_sortMembers {members : List (String × Json)} (hn : (members.map (·.1)).Nodup) :
    (Shape.sortMembers members).Perm members := by
  have hkeys : (SortedMap.ofList members).entries.Nodup := List.Nodup.of_map _ (SortedMap.nodup_keys _)
  refine (List.perm_ext_iff_of_nodup hkeys (List.Nodup.of_map _ hn)).mpr fun m => ?_
  rw [← SortedMap.get?_eq_some_iff (k := m.1) (v := m.2), SortedMap.get?_ofList hn]

theorem rearranges_sorted : Rearranges sorted where
  null := rfl
  bool _ := rfl
  number _ := rfl
  string _ := rfl
  array items := by rw [sorted, sortedItems_eq]
  object members hn := by
    refine ⟨_, by rw [sorted, sortedMembers_eq], perm_sortMembers ?_⟩
    simpa [List.map_map, Function.comp_def] using hn

end Json

namespace Codec
open Json

/-- Reading undoes writing. In what is read the members of objects may stand in any order; the free-form values that
    `x` holds are themselves part of it, so these have to stay as they are. -/
structure RoundTrips (α : Type) [Codec α] (held : α → List Json) : Prop where
  decode_encode : ∀ x : α, decode (encode x) = some x
  decode_rearranged : ∀ f, Rearranges f → ∀ x : α, (∀ v ∈ held x, f v = v) → decode (f (encode x)) = some x

/-- Nothing free-form. -/
def noneHeld {α : Type} (_ : α) : List Json := []

variable {α : Type} [Codec α] {held : α → List Json} {f : Json → Json}

theorem RoundTrips.of_rearranged
    (h : ∀ f, Rearranges f → ∀ x : α, (∀ v ∈ held x, f v = v) → decode (f (encode x)) = some x) : RoundTrips α held :=
  ⟨fun x => h id rearranges_id x fun _ _ => rfl, h⟩

theorem RoundTrips.mono {others : α → List Json} (h : RoundTrips α held) (hsub : ∀ x, held x ⊆ others x) :
    RoundTrips α others :=
  .of_rearranged fun f hf x hx => h.decode_rearranged f hf x fun v hv => hx v (hsub x hv)

theorem RoundTrips.read (h : RoundTrips α noneHeld) (hf : Rearranges f) (x : α) : decode (f (encode x)) = some x :=
  h.decode_rearranged f hf x nofun

/-! ### Simple types -/

theorem roundTrips_json : RoundTrips Json fun j => [j] :=
  .of_rearranged fun _ _ j hj => congrArg some (hj j (List.mem_singleton_self j))

theorem roundTrips_string : RoundTrips String noneHeld := .of_rearranged fun f hf s _ => by
  show decode (f (.string s)) = _
  rw [hf.string]
  rfl

theorem roundTrips_bool : RoundTrips Bool noneHeld := .of_rearranged fun f hf b _ => by
  show decode (f (.bool b)) = _
  rw [hf.bool]
  rfl

theorem below?_nat {n bound : Nat} (h : n < bound) : (Json.nat n).below? bound = some n := by
  simp [Json.nat, Json.below?, Json.int?, h]

theorem roundTrips_uint64 : RoundTrips UInt64 noneHeld := .of_rearranged fun f hf n _ => by
  show decode (f (.nat n.toNat)) = _
  rw [Json.nat, hf.number]
  show (Json.below? UInt64.size (.nat n.toNat)).map UInt64.ofNat = _
  rw [below?_nat n.toNat_lt]
  simp

/-- What stands for nothing must not stand for something too. -/
theorem RoundTrips.option (h : RoundTrips α held) (hnull : (decode .null : Option α) = none) :
    RoundTrips (Option α) fun o => o.toList.flatMap held := .of_rearranged fun f hf o ho => by
  cases o with
  | none =>
    show decode (f .null) = _
    rw [hf.null]
    rfl
  | some x =>
    have hx : decode (f (encode x)) = some x := h.decode_rearranged f hf x (by simpa using ho)
    show decode (f (encode x)) = _
    cases hj : f (encode x) with
    | null =>
      rw [hj, hnull] at hx
      cases hx
    | _ => exact congrArg (Option.map some) (hj ▸ hx)

theorem RoundTrips.list (h : RoundTrips α held) : RoundTrips (List α) fun xs => xs.flatMap held :=
  .of_rearranged fun f hf xs hxs => by
    have hdecode : ∀ x ∈ xs, decode (f (encode x)) = some x := fun x hx =>
      h.decode_rearranged f hf x fun v hv => hxs v (List.mem_flatMap.mpr ⟨x, hx, hv⟩)
    show decode (f (.array (xs.map encode))) = _
    rw [hf.array, List.map_map]
    show (xs.map (f ∘ encode)).mapM decode = _
    rw [List.mapM_map]
    exact (mapM_eq_some hdecode).trans (by simp)

theorem RoundTrips.map (h : RoundTrips α held) : RoundTrips (SortedMap String α) fun m => m.values.flatMap held :=
  .of_rearranged fun f hf m hm => by
    have hdecode : ∀ e ∈ m.entries, decode (f (encode e.2)) = some e.2 := fun e he =>
      h.decode_rearranged f hf e.2 fun v hv => hm v (List.mem_flatMap.mpr ⟨e.2, List.mem_map_of_mem he, hv⟩)
    have hnames : ((m.entries.map fun e => (e.1, encode e.2)).map (·.1)).Nodup := by
      rw [List.map_map]
      exact m.nodup_keys
    obtain ⟨others, hobject, hperm⟩ := hf.object _ hnames
    rw [List.map_map] at hperm
    obtain ⟨es, hes, rfl⟩ := exists_map_of_perm hperm
    show decode (f (.object (m.entries.map fun e => (e.1, encode e.2)))) = _
    rw [hobject]
    show SortedMap.ofList <$> decodeMembers (es.map _) = _
    have hmembers : decodeMembers (es.map ((fun m => (m.1, f m.2)) ∘ fun e => (e.1, encode e.2))) = some es := by
      rw [decodeMembers, List.mapM_map]
      refine (mapM_eq_some (k := id) fun e he => ?_).trans (by simp)
      simp [hdecode e (hes.mem_iff.mp he)]
    rw [hmembers]
    exact congrArg some (SortedMap.ofList_eq_of_perm hes)

/-! ### Records -/

/-- `j` is a record with these members and no others, each as `f` makes it. -/
structure Lists (f : Json → Json) (members : List (String × Json)) (j : Json) : Prop where
  isRecord : ∀ fields, isRecord fields j = true
  field?_eq_some : ∀ fields name v, (name, v) ∈ members → field? fields j name = some (f v)
  field?_eq_none : ∀ fields name, name ∉ members.map (·.1) → field? fields j name = none

variable {members : List (String × Json)} {j : Json} {fields : Fields} {x : α}

theorem lists_object (hf : Rearranges f) (hn : (members.map (·.1)).Nodup) : Lists f members (f (.object members)) := by
  obtain ⟨others, hobject, hperm⟩ := hf.object members hn
  have hnames : (others.map (·.1)).Perm (members.map (·.1)) := by
    simpa [List.map_map, Function.comp_def] using hperm.map (·.1)
  rw [hobject]
  refine ⟨fun _ => rfl, fun _ name v hv => ?_, fun _ name hname => ?_⟩
  · exact (lookup_eq_some_iff_mem (hnames.nodup_iff.mpr hn)).mpr
      (hperm.mem_iff.mpr (List.mem_map_of_mem (f := fun m : String × Json => (m.1, f m.2)) hv))
  · refine List.lookup_eq_none_iff.mpr fun m hm => ?_
    rw [← hnames.mem_iff] at hname
    exact bne_iff_ne.mpr fun h => hname (h ▸ List.mem_map_of_mem hm)

theorem Lists.required (h : Lists f members j) (name : String) (hx : decode (f (encode x)) = some x)
    (hmem : (name, encode x) ∈ members) : required fields j name = some x := by
  rw [Codec.required, h.field?_eq_some _ _ _ hmem]
  exact hx

theorem Lists.withDefault (h : Lists f members j) (name : String) {default : α} (hx : decode (f (encode x)) = some x)
    (hmem : (name, encode x) ∈ members) : withDefault default fields j name = some x := by
  rw [Codec.withDefault, h.field?_eq_some _ _ _ hmem]
  exact hx

/-- A field that is not written has its default. -/
theorem Lists.withDefault_of_not_mem (h : Lists f members j) (name : String) {default : α}
    (hname : name ∉ members.map (·.1)) (hx : x = default) : Codec.withDefault default fields j name = some x := by
  rw [Codec.withDefault, h.field?_eq_none _ _ hname, hx]

end Codec
end CatalogSync
