import CatalogSync.Proofs.Dialogue
import CatalogSync.Proofs.Http.Addresses
import CatalogSync.Proofs.Store.BatchDeletes
import CatalogSync.Proofs.Store.Schemas

/-! What the requests of a catalog's store address.

Each call to the store has its own endpoints, and whatever a call sends goes to one of them. So two requests to one
address come from calls of one kind, about the same things. -/

namespace CatalogSync.Catalog
open Codec Http

/-- A call has this request, for this endpoint. -/
inductive Builds {m : Type → Type} (c : Catalog m) : Call → Endpoint → Request → Prop
  | upsertOne {e : Entity} {o : CallOptions} {p : Provenance} : Builds c (.upsertOne e o p) (.upsert e.blueprint o)
      (c.request (.upsert e.blueprint o) (some (encode e)) p)
  | upsertBatch {es : List Entity} {o : CallOptions} {p : Provenance} {b : String} : b ∈ es.map (·.blueprint) →
      Builds c (.upsertBatch es o p) (.upsertBulk b o) (bulkRequest c es o p b)
  | deleteOne {r : EntityRef} {o : CallOptions} {p : Provenance} :
      Builds c (.deleteOne r o p) (.delete r o) (c.request (.delete r o) none p)
  | deleteBatch {rs : List EntityRef} {o : CallOptions} {p : Provenance} {b : String} : b ∈ rs.map (·.blueprint) →
      Builds c (.deleteBatch rs o p) (.deleteBulk b o) (bulkDeletion c rs o p b)
  | search {rs : List EntityRef} : Builds c (.related rs) .search (searchRequest c rs)
  | schema {rs : List EntityRef} {b : String} : Builds c (.related rs) (.schema b) (schemaRequest c b)

theorem Builds.address {m : Type → Type} {c : Catalog m} {x : Call} {e : Endpoint} {r : Request} (h : Builds c x e r) :
    r.method = e.method ∧ r.url = c.baseUrl ++ e.path := by
  cases h <;> exact ⟨rfl, rfl⟩

section Sent
variable {γ β : Type} {c : Catalog (StateM γ)} {o : CallOptions} {p : Provenance}

/-- The round trips of a call, made in the state `s`. -/
def tripsOfCall (c : Catalog (StateM γ)) (x : Call) (s : γ) : List RoundTrip :=
  ((((Store.catalog c.noted).answer x).run []).run s).1.2

variable {s : γ} {trip : RoundTrip}

theorem request_of_sends {act : StateT (List RoundTrip) (StateM γ) β} {r : Request}
    {result : Except String Response → β} (h : Sends act r result) (ht : trip ∈ ((act.run []).run s).1.2) :
    trip.request = r := by
  obtain ⟨outcome, t, hrun⟩ := h [] s
  rw [hrun] at ht
  rw [List.mem_singleton.mp ht]

theorem exists_request_of_sends {act : String → StateT (List RoundTrip) (StateM γ) β} {request : String → Request}
    {result : String → Except String Response → β} (h : ∀ b, Sends (act b) (request b) (result b)) {bs : List String}
    (ht : trip ∈ (((bs.mapM act).run []).run s).1.2) : ∃ b ∈ bs, trip.request = request b := by
  obtain ⟨outcomes, t, -, hrun⟩ := exists_outcomes h bs [] s
  have hsent : trip ∈ List.zipWith (fun b outcome => ⟨request b, outcome⟩) bs outcomes := by
    simpa only [hrun, List.nil_append] using ht
  rw [← List.map_uncurry_zip_eq_zipWith] at hsent
  obtain ⟨⟨b, outcome⟩, hmem, rfl⟩ := List.mem_map.mp hsent
  exact ⟨b, (List.of_mem_zip hmem).1, rfl⟩

theorem Resolved.exists_schema {es : List Entity} {trips : List RoundTrip} {result : Except StoreError (List EntityRef)}
    (h : Resolved c es trips result) (ht : trip ∈ trips) : ∃ b, trip.request = schemaRequest c b := by
  have hfetched : ∀ {turns : List Turn} {bs : List String}, (tripsOf turns).map (·.request) = bs.map (schemaRequest c) →
      trip ∈ tripsOf turns → ∃ b, trip.request = schemaRequest c b := by
    intro turns bs hrequests hmem
    obtain ⟨b, -, hb⟩ := List.mem_map.mp (hrequests ▸ List.mem_map_of_mem hmem)
    exact ⟨b, hb.symm⟩
  cases h with
  | all _ _ _ hrequests => exact hfetched hrequests ht
  | stopped _ _ _ hrequests =>
    rcases List.mem_append.mp ht with ht | ht
    · exact hfetched hrequests ht
    · rw [List.mem_singleton.mp ht]
      exact ⟨_, rfl⟩

theorem exists_builds (x : Call) (ht : trip ∈ tripsOfCall c x s) :
    ∃ e, Builds c x e trip.request := by
  cases x with
  | upsertOne e o p =>
    rw [request_of_sends (sends_call c upsertResponse (.upsert e.blueprint o) (some (encode e)) p) ht]
    exact ⟨_, .upsertOne⟩
  | upsertBatch es o p =>
    rw [tripsOfCall, Store.answer, upsertBatch_eq] at ht
    obtain ⟨b, hb, hrequest⟩ := exists_request_of_sends (fun b => (sends_writeGroup c es b).map (b, ·)) ht
    rw [hrequest]
    exact ⟨_, .upsertBatch (List.mem_eraseDups.mp hb)⟩
  | deleteOne r o p =>
    rw [request_of_sends (sends_call c (reader Json) (.delete r o) none p) ht]
    exact ⟨_, .deleteOne⟩
  | deleteBatch rs o p =>
    rw [tripsOfCall, Store.answer, deleteBatch_eq] at ht
    obtain ⟨b, hb, hrequest⟩ := exists_request_of_sends (fun b => sends_deleteGroup c rs b) ht
    rw [hrequest]
    exact ⟨_, .deleteBatch (List.mem_eraseDups.mp hb)⟩
  | related rs =>
    by_cases hrs : rs = []
    · subst hrs
      cases ht
    · obtain ⟨outcome, more, result, u, hrun, hcases⟩ := exists_trips_related c hrs s
      rw [tripsOfCall, Store.answer, hrun] at ht
      rcases List.mem_cons.mp ht with rfl | ht
      · exact ⟨_, .search⟩
      · rcases hcases with ⟨err, -, rfl, -⟩ | ⟨es, -, hresolved⟩
        · cases ht
        · obtain ⟨b, hb⟩ := hresolved.exists_schema ht
          rw [hb]
          exact ⟨_, .schema⟩

end Sent

/-- Whatever a call sends is one of its requests; and of all requests of all calls, two have one address only if they
are for the same operation on the same things, with the same flags as far as an address shows them. -/
theorem requests_address_what_they_name {γ : Type} (c : Catalog (StateM γ)) :
    (∀ (x : Call) (s : γ), ∀ trip ∈ tripsOfCall c x s, ∃ e, Builds c x e trip.request) ∧
    ∀ x y e f r r', Builds c x e r → Builds c y f r' →
      (r.method = r'.method ∧ r.url = r'.url ↔ Endpoint.SamePlace e f) := by
  refine ⟨fun x s trip ht => exists_builds x ht, fun x y e f r r' hr hr' => ?_⟩
  rw [hr.address.1, hr.address.2, hr'.address.1, hr'.address.2, String.append_right_inj]
  exact Endpoint.method_path_eq_iff

/-- Nobody answers. -/
def silent : Catalog (StateM Unit) := ⟨"http://c", ⟨fun _ => pure (.error "there is nobody")⟩⟩

/-- Written out as they are, both would be deleted at `/v1/blueprints/a/entities/entities/x`. -/
theorem slashes_told_apart : ∃ trip ∈ tripsOfCall silent (.deleteOne ⟨"x", "a/entities"⟩ {} .automated) (),
    ∃ trip' ∈ tripsOfCall silent (.deleteOne ⟨"entities/x", "a"⟩ {} .automated) (),
      trip.request.method = trip'.request.method ∧ trip.request.url ≠ trip'.request.url := by
  have ⟨hbuilds, hplaces⟩ := requests_address_what_they_name silent
  refine ⟨_, List.mem_cons_self, _, List.mem_cons_self, rfl, fun hurl => ?_⟩
  obtain ⟨e, he⟩ := hbuilds (.deleteOne ⟨"x", "a/entities"⟩ {} .automated) () _ List.mem_cons_self
  obtain ⟨f, hf⟩ := hbuilds (.deleteOne ⟨"entities/x", "a"⟩ {} .automated) () _ List.mem_cons_self
  have hplace := (hplaces _ _ _ _ _ _ he hf).mp ⟨rfl, hurl⟩
  cases he
  cases hf
  exact absurd (Endpoint.ref_eq_of_samePlace hplace) (by decide)

end CatalogSync.Catalog
