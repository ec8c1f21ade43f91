/-! Maps kept as lists of entries with strictly ascending keys.

Two maps that answer every look-up alike are equal (`ext`), so a map is its contents: it does not
remember in which order its keys came. Iteration goes by key. -/

namespace CatalogSync

structure SortedMap (κ ν : Type) [Ord κ] where
  entries : List (κ × ν)
  ascending : entries.Pairwise fun a b => compare a.1 b.1 = .lt

namespace SortedMap

variable {κ ν : Type} [Ord κ]

/-! ### Lists of entries -/

def insertEntry (k : κ) (v : ν) : List (κ × ν) → List (κ × ν)
  | [] => [(k, v)]
  | e :: es =>
    match compare k e.1 with
    | .lt => (k, v) :: e :: es
    | .eq => (k, v) :: es
    | .gt => e :: insertEntry k v es

def lookup (k : κ) : List (κ × ν) → Option ν
  | [] => none
  | e :: es => if compare k e.1 = .eq then some e.2 else lookup k es

theorem mem_insertEntry {k : κ} {v : ν} {e : κ × ν} {es : List (κ × ν)} (h : e ∈ insertEntry k v es) :
    e = (k, v) ∨ e ∈ es := by
  induction es with
  | nil => simpa [insertEntry] using h
  | cons d es ih =>
    unfold insertEntry at h
    split at h
    · simpa using h
    · rcases List.mem_cons.mp h with h | h
      · exact .inl h
      · exact .inr (List.mem_cons_of_mem _ h)
    · rcases List.mem_cons.mp h with h | h
      · exact .inr (h ▸ List.mem_cons_self)
      · exact (ih h).imp_right (List.mem_cons_of_mem _)

theorem pairwise_insertEntry [Std.TransOrd κ] {k : κ} {v : ν} {es : List (κ × ν)}
    (h : es.Pairwise fun a b => compare a.1 b.1 = .lt) :
    (insertEntry k v es).Pairwise fun a b => compare a.1 b.1 = .lt := by
  induction es with
  | nil => simp [insertEntry]
  | cons d es ih =>
    have hd := List.pairwise_cons.mp h
    unfold insertEntry
    split
    · rename_i hlt
      refine List.pairwise_cons.mpr ⟨fun b hb => ?_, h⟩
      rcases List.mem_cons.mp hb with rfl | hb
      · exact hlt
      · exact Std.TransCmp.lt_trans hlt (hd.1 b hb)
    · rename_i heq
      exact List.pairwise_cons.mpr ⟨fun b hb => Std.TransCmp.lt_of_eq_of_lt heq (hd.1 b hb), hd.2⟩
    · rename_i hgt
      refine List.pairwise_cons.mpr ⟨fun b hb => ?_, ih hd.2⟩
      rcases mem_insertEntry hb with rfl | hb
      · exact Std.OrientedCmp.lt_of_gt hgt
      · exact hd.1 b hb

/-! ### Maps -/

def empty : SortedMap κ ν := ⟨[], .nil⟩

instance : EmptyCollection (SortedMap κ ν) := ⟨empty⟩
instance : Inhabited (SortedMap κ ν) := ⟨empty⟩

instance [BEq κ] [BEq ν] : BEq (SortedMap κ ν) := ⟨fun m n => m.entries == n.entries⟩

instance [DecidableEq κ] [DecidableEq ν] : DecidableEq (SortedMap κ ν) := fun m n =>
  decidable_of_iff (m.entries = n.entries) ⟨fun h => by cases m; cases n; simp_all, fun h => h ▸ rfl⟩

def get? (m : SortedMap κ ν) (k : κ) : Option ν := lookup k m.entries

def contains (m : SortedMap κ ν) (k : κ) : Bool := (m.get? k).isSome

def keys (m : SortedMap κ ν) : List κ := m.entries.map (·.1)

def values (m : SortedMap κ ν) : List ν := m.entries.map (·.2)

def size (m : SortedMap κ ν) : Nat := m.entries.length

/-- The entry of an equal key is replaced. -/
def insert [Std.TransOrd κ] (m : SortedMap κ ν) (k : κ) (v : ν) : SortedMap κ ν :=
  ⟨insertEntry k v m.entries, pairwise_insertEntry m.ascending⟩

def filter (m : SortedMap κ ν) (p : κ → ν → Bool) : SortedMap κ ν :=
  ⟨m.entries.filter fun e => p e.1 e.2, m.ascending.filter _⟩

def erase (m : SortedMap κ ν) (k : κ) : SortedMap κ ν :=
  m.filter fun k' _ => compare k k' != .eq

/-- Of entries with equal keys the last one counts. -/
def ofList [Std.TransOrd κ] (es : List (κ × ν)) : SortedMap κ ν :=
  es.foldl (fun m e => m.insert e.1 e.2) empty

/-- What `m` lacks is taken from `fallback`. -/
def orElse [Std.TransOrd κ] (m fallback : SortedMap κ ν) : SortedMap κ ν :=
  m.entries.foldl (fun acc e => acc.insert e.1 e.2) fallback

/-! ### Look-ups -/

@[simp] theorem get?_empty (k : κ) : (∅ : SortedMap κ ν).get? k = none := rfl

theorem lookup_eq_none [Std.TransOrd κ] {k : κ} {es : List (κ × ν)}
    (h : ∀ e ∈ es, compare k e.1 ≠ .eq) : lookup k es = none := by
  induction es with
  | nil => rfl
  | cons d es ih =>
    rw [lookup, if_neg (h d List.mem_cons_self), ih fun e he => h e (List.mem_cons_of_mem _ he)]

theorem lookup_insertEntry [Std.TransOrd κ] [Std.LawfulEqOrd κ] (k k' : κ) (v : ν) (es : List (κ × ν)) :
    lookup k' (insertEntry k v es) = if compare k' k = .eq then some v else lookup k' es := by
  induction es with
  | nil => rfl
  | cons d es ih =>
    unfold insertEntry
    split
    · rfl
    · rename_i heq
      have : k = d.1 := Std.LawfulEqOrd.eq_of_compare heq
      simp only [lookup, this]
      split <;> rfl
    · rename_i hgt
      simp only [lookup, ih]
      by_cases h : compare k' k = .eq
      · have hk : k' = k := Std.LawfulEqOrd.eq_of_compare h
        have hne : compare k' d.1 ≠ .eq := by rw [hk, hgt]; decide
        simp [h, hne]
      · simp [h]

theorem get?_insert [Std.TransOrd κ] [Std.LawfulEqOrd κ] (m : SortedMap κ ν) (k k' : κ) (v : ν) :
    (m.insert k v).get? k' = if compare k' k = .eq then some v else m.get? k' :=
  lookup_insertEntry k k' v m.entries

theorem get?_eq_some_iff [Std.TransOrd κ] [Std.LawfulEqOrd κ] {m : SortedMap κ ν} {k : κ} {v : ν} :
    m.get? k = some v ↔ (k, v) ∈ m.entries := by
  obtain ⟨es, hs⟩ := m
  show lookup k es = some v ↔ (k, v) ∈ es
  induction es with
  | nil => simp [lookup]
  | cons d es ih =>
    have hd := List.pairwise_cons.mp hs
    have ih := ih hd.2
    rw [lookup]
    split
    · rename_i h
      have hk : k = d.1 := Std.LawfulEqOrd.eq_of_compare h
      constructor
      · rintro ⟨rfl⟩
        rw [hk]
        exact List.mem_cons_self
      · intro hm
        rcases List.mem_cons.mp hm with hm | hm
        · rw [← hm]
        · have := hd.1 _ hm
          rw [hk] at this
          simp [Std.ReflCmp.compare_self] at this
    · rename_i h
      rw [ih]
      refine ⟨List.mem_cons_of_mem _, fun hm => (List.mem_cons.mp hm).resolve_left fun hm => h ?_⟩
      rw [← hm]
      exact Std.ReflCmp.compare_self

theorem mem_keys_iff [Std.TransOrd κ] [Std.LawfulEqOrd κ] {m : SortedMap κ ν} {k : κ} :
    k ∈ m.keys ↔ (m.get? k).isSome := by
  constructor
  · intro h
    obtain ⟨e, he, rfl⟩ := List.mem_map.mp h
    rw [get?_eq_some_iff.mpr (show (e.1, e.2) ∈ m.entries from he)]
    rfl
  · intro h
    obtain ⟨v, hv⟩ := Option.isSome_iff_exists.mp h
    exact List.mem_map.mpr ⟨_, get?_eq_some_iff.mp hv, rfl⟩

theorem get?_filter [Std.TransOrd κ] [Std.LawfulEqOrd κ] (m : SortedMap κ ν) (p : κ → ν → Bool) (k : κ) :
    (m.filter p).get? k = (m.get? k).filter (p k) := by
  apply Option.ext
  intro v
  rw [get?_eq_some_iff, filter, List.mem_filter, Option.filter_eq_some_iff, get?_eq_some_iff]

theorem get?_erase [Std.TransOrd κ] [Std.LawfulEqOrd κ] (m : SortedMap κ ν) (k k' : κ) :
    (m.erase k).get? k' = if compare k k' = .eq then none else m.get? k' := by
  rw [erase, get?_filter]
  by_cases h : compare k k' = .eq
  · simp [h]
  · simp only [h, ↓reduceIte]
    cases m.get? k' <;> simp [Option.filter, h]

theorem ext [Std.TransOrd κ] [Std.LawfulEqOrd κ] {m n : SortedMap κ ν} (h : ∀ k, m.get? k = n.get? k) : m = n := by
  have hmem : ∀ e, e ∈ m.entries ↔ e ∈ n.entries := fun e => by
    have := h e.1
    rw [← get?_eq_some_iff (k := e.1) (v := e.2), ← get?_eq_some_iff (k := e.1) (v := e.2), this]
  obtain ⟨es, hs⟩ := m
  obtain ⟨fs, ht⟩ := n
  suffices es = fs by subst this; rfl
  clear h
  induction es generalizing fs with
  | nil =>
    cases fs with
    | nil => rfl
    | cons f fs => exact absurd ((hmem f).mpr List.mem_cons_self) (by simp)
  | cons e es ih =>
    cases fs with
    | nil => exact absurd ((hmem e).mp List.mem_cons_self) (by simp)
    | cons f fs =>
      have he := List.pairwise_cons.mp hs
      have hf := List.pairwise_cons.mp ht
      have hef : e = f := by
        rcases List.mem_cons.mp ((hmem e).mp List.mem_cons_self) with h | h
        · exact h
        · rcases List.mem_cons.mp ((hmem f).mpr List.mem_cons_self) with h' | h'
          · exact h'.symm
          · have := Std.TransCmp.lt_trans (hf.1 e h) (he.1 f h')
            simp [Std.ReflCmp.compare_self] at this
      subst hef
      refine congrArg (e :: ·) (ih he.2 fs hf.2 fun d => ?_)
      have hd := hmem d
      simp only [List.mem_cons] at hd
      constructor
      · intro hde
        refine (hd.mp (.inr hde)).resolve_left ?_
        rintro rfl
        have := he.1 d hde
        simp [Std.ReflCmp.compare_self] at this
      · intro hdf
        refine (hd.mpr (.inr hdf)).resolve_left ?_
        rintro rfl
        have := hf.1 d hdf
        simp [Std.ReflCmp.compare_self] at this

end SortedMap
end CatalogSync
