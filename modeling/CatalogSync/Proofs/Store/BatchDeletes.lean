import CatalogSync.Proofs.Store.Batches

/-! Batches of deletions sent to a catalog: one request for each blueprint, whatever came of those before.

The batch has one result, which the outcomes decide in their order: it is fine if all of them are, and else it is
the error of the first one that is not. -/

namespace CatalogSync.Catalog
open Codec Http

/-! ### What is sent -/

/-- The identifiers listed under a blueprint, in order. -/
def named (rs : List EntityRef) (blueprint : String) : List String :=
  (rs.filter fun r => r.blueprint = blueprint).map (·.identifier)

/-- The request to delete what is listed under one blueprint. -/
def bulkDeletion {m : Type → Type} (c : Catalog m) (rs : List EntityRef) (o : CallOptions) (p : Provenance)
    (blueprint : String) : Request where
  method := .post
  url := c.baseUrl ++ (Endpoint.deleteBulk blueprint o).path
  headers := [("User-Agent", agent p), ("Content-Type", "application/json")]
  body := some (Json.object [("entities", .array ((named rs blueprint).map .string))]).compact

theorem count_named (rs : List EntityRef) (r : EntityRef) :
    (named rs r.blueprint).count r.identifier = rs.count r := by
  induction rs with
  | nil => rfl
  | cons d rs ih =>
    unfold named at ih ⊢
    by_cases hblueprint : d.blueprint = r.blueprint
    · have hsame : d.identifier = r.identifier ↔ d = r := by
        cases d
        cases r
        simpa using fun _ => hblueprint
      simp [hblueprint, List.count_cons, ih, hsame]
    · have hne : d ≠ r := fun hd => hblueprint (hd ▸ rfl)
      simp [hblueprint, ih, hne]

variable {γ : Type} {o : CallOptions} {p : Provenance}

theorem sends_deleteGroup (c : Catalog (StateM γ)) (rs : List EntityRef) (b : String) :
    Sends (c.noted.deleteGroup (group rs b) o p b) (bulkDeletion c rs o p b) (answer (reader Json)) := by
  have hbody : (named rs b).map Json.string = (group rs b).map fun r => .string r.identifier := List.map_map
  unfold bulkDeletion
  rw [hbody]
  exact sends_call c (reader Json) (.deleteBulk b o) _ p

/-! ### What comes of it -/

/-- There is a response, it is a success, and its body is empty or JSON. -/
def Accepted (outcome : Except String Response) : Prop :=
  ∃ response, outcome = .ok response ∧ 200 ≤ response.status ∧ response.status < 300 ∧
    (response.body = [] ∨ ∃ j, ofBytes? Json response.body = some j)

variable {outcome : Except String Response} {outcomes : List (Except String Response)} {err : StoreError}

theorem accepted_iff : Accepted outcome ↔ ∃ j, answer (reader Json) outcome = .ok j := by
  constructor
  · rintro ⟨response, rfl, hlow, hhigh, hbody⟩
    by_cases hempty : response.body = []
    · exact ⟨.null, answer_eq_ok_iff.mpr ⟨response, rfl, hlow, hhigh, by rw [hempty]; rfl⟩⟩
    · obtain ⟨j, hj⟩ := hbody.resolve_left hempty
      exact ⟨j, answer_eq_ok_iff.mpr ⟨response, rfl, hlow, hhigh, by rwa [if_neg (by simpa using hempty)]⟩⟩
  · rintro ⟨j, hj⟩
    obtain ⟨response, rfl, hlow, hhigh, hbody⟩ := answer_eq_ok_iff.mp hj
    refine ⟨response, rfl, hlow, hhigh, ?_⟩
    by_cases hempty : response.body = []
    · exact .inl hempty
    · exact .inr ⟨j, by rwa [if_neg (by simpa using hempty)] at hbody⟩

theorem firstError?_eq_none_iff : firstError? (outcomes.map (answer (reader Json))) = none ↔
    ∀ outcome ∈ outcomes, Accepted outcome := by
  simp only [firstError?, List.findSome?_map, List.findSome?_eq_none_iff]
  refine forall₂_congr fun outcome _ => ?_
  rw [Function.comp_apply, accepted_iff]
  cases answer (reader Json) outcome <;> simp

theorem firstError?_eq_some_iff : firstError? (outcomes.map (answer (reader Json))) = some err ↔
    ∃ earlier outcome later, outcomes = earlier ++ outcome :: later ∧ (∀ x ∈ earlier, Accepted x) ∧
      Fails (reader Json) outcome err := by
  simp only [firstError?, List.findSome?_map, List.findSome?_eq_some_iff]
  refine exists₃_congr fun earlier outcome later => and_congr_right fun _ => ?_
  rw [and_comm, ← firstError?_eq_none_iff, ← answer_eq_error_iff, firstError?, List.findSome?_map,
    List.findSome?_eq_none_iff]
  refine and_congr_right fun _ => ?_
  rw [Function.comp_apply]
  cases answer (reader Json) outcome <;> simp

/-! ### Whole batches -/

theorem deleteBatch_eq (c : Catalog (StateM γ)) (rs : List EntityRef) (o : CallOptions) (p : Provenance) :
    (Store.catalog c.noted).deleteBatch rs o p =
      (fun results => (firstError? results).elim (.ok ()) .error) <$>
        (blueprints rs).mapM fun b => c.noted.deleteGroup (group rs b) o p b := by
  rw [map_eq_pure_bind]
  refine bind_congr fun results => ?_
  cases firstError? results <;> rfl

/-- Each blueprint of a batch is asked for once, with all that is listed under it as often and in the order in which it
is listed, whatever came of those before; and the first of the outcomes that is not fine decides. -/
theorem first_refusal_told (c : Catalog (StateM γ)) (rs : List EntityRef) (o : CallOptions) (p : Provenance) (s : γ) :
    let ((result, trips), _) := (((Store.catalog c.noted).deleteBatch rs o p).run []).run s
    ∃ bs outcomes, FirstAppearances (rs.map (·.blueprint)) bs ∧ outcomes.length = bs.length ∧
      trips = List.zipWith (fun b outcome => ⟨bulkDeletion c rs o p b, outcome⟩) bs outcomes ∧
      (∀ r, (named rs r.blueprint).count r.identifier = rs.count r) ∧
      (result = .ok () ↔ ∀ outcome ∈ outcomes, Accepted outcome) ∧
      ∀ err, result = .error err ↔ ∃ earlier outcome later, outcomes = earlier ++ outcome :: later ∧
        (∀ x ∈ earlier, Accepted x) ∧ Fails (reader Json) outcome err := by
  obtain ⟨outcomes, t, hlen, hrun⟩ :=
    exists_outcomes (fun b => sends_deleteGroup (o := o) (p := p) c rs b) (blueprints rs) [] s
  rw [deleteBatch_eq, StateT.run_map, StateT.run_map, hrun]
  refine ⟨blueprints rs, outcomes, firstAppearances_eraseDups _, hlen, rfl, count_named rs, ?_⟩
  have hresults : List.zipWith (fun _ => answer (reader Json)) (blueprints rs) outcomes =
      outcomes.map (answer (reader Json)) := List.zipWith_comm.trans (zipWith_left hlen.symm)
  rw [hresults]
  constructor
  · rw [← firstError?_eq_none_iff]
    cases firstError? (outcomes.map (answer (reader Json))) <;> simp
  · intro err
    rw [← firstError?_eq_some_iff]
    cases firstError? (outcomes.map (answer (reader Json))) <;> simp

end CatalogSync.Catalog
