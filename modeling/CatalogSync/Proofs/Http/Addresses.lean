import CatalogSync.Http.Endpoint
import CatalogSync.Proofs.Text.Percent

/-! Endpoints that differ have different addresses.

Behind the name of a blueprint, in its encoded form, a path goes on with a slash or is at its end. So the name can be
told from what follows it; what follows tells the operations of one method apart, and gives an identifier and the flags
of a query away. -/

namespace CatalogSync.Http.Endpoint
open Text.Percent

variable {e f : Endpoint} {b d : String} {r : EntityRef} {o o' : CallOptions}

/-! ### Queries -/

theorem writeQuery_eq (o : CallOptions) : writeQuery o = "?upsert=true&merge=" ++ flag o.merge ++
    "&create_missing_related_entities=" ++ flag o.createMissingRelated ++ "&validation_only=" ++
    flag o.validationOnly := rfl

theorem deleteQuery_eq (o : CallOptions) : deleteQuery o = "?delete_dependents=" ++ flag o.deleteDependents := rfl

theorem flag_append_inj {x y : Bool} {u v : List Char} (h : (flag x).toList ++ u = (flag y).toList ++ v) :
    x = y ∧ u = v := by
  cases x <;> cases y <;> simp_all [flag]

theorem flag_inj {x y : Bool} (h : (flag x).toList = (flag y).toList) : x = y := by
  rw [← List.append_nil (flag x).toList, ← List.append_nil (flag y).toList] at h
  exact (flag_append_inj h).1

theorem writeQuery_inj (h : (writeQuery o).toList = (writeQuery o').toList) :
    o.merge = o'.merge ∧ o.createMissingRelated = o'.createMissingRelated ∧ o.validationOnly = o'.validationOnly := by
  simp only [writeQuery_eq, String.toList_append, List.append_assoc, List.append_cancel_left_eq] at h
  obtain ⟨hmerge, h⟩ := flag_append_inj h
  obtain ⟨hcreate, h⟩ := flag_append_inj (List.append_cancel_left h)
  exact ⟨hmerge, hcreate, flag_inj (List.append_cancel_left h)⟩

theorem deleteQuery_inj (h : (deleteQuery o).toList = (deleteQuery o').toList) :
    o.deleteDependents = o'.deleteDependents := by
  simp only [deleteQuery_eq, String.toList_append, List.append_cancel_left_eq] at h
  exact flag_inj h

/-! ### Paths -/

def blueprint? : Endpoint → Option String
  | upsert b _ | upsertBulk b _ | deleteBulk b _ | schema b => some b
  | delete r _ => some r.blueprint
  | search => none

/-- What follows the blueprint in the path. -/
def afterBlueprint : Endpoint → List Char
  | upsert _ o => "/entities".toList ++ (writeQuery o).toList
  | upsertBulk _ o => "/entities/bulk".toList ++ (writeQuery o).toList
  | delete r o => "/entities/".toList ++ ((encode r.identifier).toList ++ (deleteQuery o).toList)
  | deleteBulk _ o => "/bulk/entities/delete".toList ++ (deleteQuery o).toList
  | search | schema _ => []

@[simp] theorem afterBlueprint_upsert : (upsert b o).afterBlueprint = "/entities".toList ++ (writeQuery o).toList := rfl

@[simp] theorem afterBlueprint_upsertBulk :
    (upsertBulk b o).afterBlueprint = "/entities/bulk".toList ++ (writeQuery o).toList := rfl

@[simp] theorem afterBlueprint_delete : (delete r o).afterBlueprint =
    "/entities/".toList ++ ((encode r.identifier).toList ++ (deleteQuery o).toList) := rfl

@[simp] theorem afterBlueprint_deleteBulk :
    (deleteBulk b o).afterBlueprint = "/bulk/entities/delete".toList ++ (deleteQuery o).toList := rfl

@[simp] theorem afterBlueprint_search : search.afterBlueprint = [] := rfl

@[simp] theorem afterBlueprint_schema : (schema b).afterBlueprint = [] := rfl

theorem blueprintPath_eq (b : String) : blueprintPath b = "/v1/blueprints/" ++ encode b := rfl

theorem toList_path (h : e.blueprint? = some b) :
    e.path.toList = "/v1/blueprints/".toList ++ ((encode b).toList ++ e.afterBlueprint) := by
  cases e <;> cases h <;> simp [path, blueprintPath_eq]

theorem ends_afterBlueprint (e : Endpoint) : ∀ c ∈ e.afterBlueprint.head?, endsPart c = true := by
  cases e <;> simp [endsPart]

theorem ends_deleteQuery (o : CallOptions) : ∀ c ∈ (deleteQuery o).toList.head?, endsPart c = true := by
  simp [deleteQuery_eq, endsPart]

theorem parts_of_path_eq (he : e.blueprint? = some b) (hf : f.blueprint? = some d) (h : e.path = f.path) :
    b = d ∧ e.afterBlueprint = f.afterBlueprint := by
  replace h := congrArg String.toList h
  rw [toList_path he, toList_path hf] at h
  exact encode_append_inj (ends_afterBlueprint e) (ends_afterBlueprint f) (List.append_cancel_left h)

theorem path_ne_search (h : e.blueprint? = some b) : e.path ≠ search.path := by
  intro hpath
  replace hpath := congrArg String.toList hpath
  rw [toList_path h] at hpath
  simp [path] at hpath

/-! ### What is addressed -/

/-- The same operation on the same things, with the same flags as far as an address shows them. -/
inductive SamePlace : Endpoint → Endpoint → Prop
  | upsert {b : String} {o o' : CallOptions} : o.merge = o'.merge → o.createMissingRelated = o'.createMissingRelated →
      o.validationOnly = o'.validationOnly → SamePlace (upsert b o) (upsert b o')
  | upsertBulk {b : String} {o o' : CallOptions} : o.merge = o'.merge →
      o.createMissingRelated = o'.createMissingRelated →
      o.validationOnly = o'.validationOnly → SamePlace (upsertBulk b o) (upsertBulk b o')
  | delete {r : EntityRef} {o o' : CallOptions} : o.deleteDependents = o'.deleteDependents →
      SamePlace (delete r o) (delete r o')
  | deleteBulk {b : String} {o o' : CallOptions} : o.deleteDependents = o'.deleteDependents →
      SamePlace (deleteBulk b o) (deleteBulk b o')
  | search : SamePlace search search
  | schema {b : String} : SamePlace (schema b) (schema b)

theorem ref_eq_of_samePlace {r r' : EntityRef} (h : SamePlace (delete r o) (delete r' o')) : r = r' := by
  cases h
  rfl

theorem samePlace_of_eq (hmethod : e.method = f.method) (hpath : e.path = f.path) : SamePlace e f := by
  cases e with
  | upsert b o =>
    cases f with
    | upsert d o' =>
      obtain ⟨rfl, hafter⟩ := parts_of_path_eq rfl rfl hpath
      obtain ⟨hmerge, hcreate, hvalidation⟩ := writeQuery_inj (List.append_cancel_left hafter)
      exact .upsert hmerge hcreate hvalidation
    | upsertBulk | deleteBulk =>
      have hafter := (parts_of_path_eq rfl rfl hpath).2
      simp [writeQuery_eq] at hafter
    | search => exact absurd hpath (path_ne_search rfl)
    | delete | schema => cases hmethod
  | upsertBulk b o =>
    cases f with
    | upsertBulk d o' =>
      obtain ⟨rfl, hafter⟩ := parts_of_path_eq rfl rfl hpath
      obtain ⟨hmerge, hcreate, hvalidation⟩ := writeQuery_inj (List.append_cancel_left hafter)
      exact .upsertBulk hmerge hcreate hvalidation
    | upsert | deleteBulk =>
      have hafter := (parts_of_path_eq rfl rfl hpath).2
      simp [writeQuery_eq] at hafter
    | search => exact absurd hpath (path_ne_search rfl)
    | delete | schema => cases hmethod
  | deleteBulk b o =>
    cases f with
    | deleteBulk d o' =>
      obtain ⟨rfl, hafter⟩ := parts_of_path_eq rfl rfl hpath
      exact .deleteBulk (deleteQuery_inj (List.append_cancel_left hafter))
    | upsert | upsertBulk =>
      have hafter := (parts_of_path_eq rfl rfl hpath).2
      simp at hafter
    | search => exact absurd hpath (path_ne_search rfl)
    | delete | schema => cases hmethod
  | search =>
    cases f with
    | upsert | upsertBulk | deleteBulk => exact absurd hpath.symm (path_ne_search rfl)
    | search => exact .search
    | delete | schema => cases hmethod
  | delete r o =>
    cases f with
    | delete r' o' =>
      obtain ⟨hblueprint, hafter⟩ := parts_of_path_eq rfl rfl hpath
      obtain ⟨hidentifier, hquery⟩ :=
        encode_append_inj (ends_deleteQuery o) (ends_deleteQuery o') (List.append_cancel_left hafter)
      cases r
      cases r'
      cases hblueprint
      cases hidentifier
      exact .delete (deleteQuery_inj hquery)
    | upsert | upsertBulk | deleteBulk | search | schema => cases hmethod
  | schema b =>
    cases f with
    | schema d =>
      obtain ⟨rfl, -⟩ := parts_of_path_eq rfl rfl hpath
      exact .schema
    | upsert | upsertBulk | deleteBulk | search | delete => cases hmethod

theorem eq_of_samePlace (h : SamePlace e f) : e.method = f.method ∧ e.path = f.path := by
  cases h with
  | upsert hmerge hcreate hvalidation => simp [method, path, writeQuery_eq, hmerge, hcreate, hvalidation]
  | upsertBulk hmerge hcreate hvalidation => simp [method, path, writeQuery_eq, hmerge, hcreate, hvalidation]
  | delete hdependents => simp [method, path, deleteQuery_eq, hdependents]
  | deleteBulk hdependents => simp [method, path, deleteQuery_eq, hdependents]
  | search | schema => exact ⟨rfl, rfl⟩

/-- An address is shared by no two endpoints but those that differ in nothing it shows. -/
theorem method_path_eq_iff : e.method = f.method ∧ e.path = f.path ↔ SamePlace e f :=
  ⟨fun h => samePlace_of_eq h.1 h.2, eq_of_samePlace⟩

end CatalogSync.Http.Endpoint
