import CatalogSync.Proofs.Collections
import CatalogSync.Proofs.Http.RoundTrips

/-! What entities are related to, by the schemas that a catalog has for their blueprints.

The entities that a search found are taken in turn. The first one of a blueprint has its schema fetched, and a later one
is read by the schema of the earlier; so each schema is fetched once, before any entity is read by it. What is known
when an entity is reached is what the turns before it tell, and this carries the induction along the entities. -/

namespace CatalogSync

/-- Every answer to a request that only reads depends on its URL alone. -/
def Http.Client.AnswersByUrl {γ : Type} (client : Client (StateM γ)) (answers : String → Except String Response) :
    Prop :=
  ∀ r s, r.method = .get → ((client.send r).run s).1 = answers r.url

namespace Catalog
open Codec Http

/-! ### Requests -/

section Requests
variable {m : Type → Type} (c : Catalog m)

/-- The request for all entities that have one of these keys. -/
def searchRequest (rs : List EntityRef) : Request where
  method := .post
  url := c.baseUrl ++ Endpoint.search.path
  headers := [("User-Agent", agent .automated), ("Content-Type", "application/json")]
  body := some (Json.object [("combinator", .string "or"), ("rules", .array (rs.map fun r =>
    .object [("combinator", .string "and"), ("rules", .array [
      .object [("operator", .string "="), ("property", .string "$identifier"), ("value", .string r.identifier)],
      .object [("operator", .string "="), ("property", .string "$blueprint"), ("value", .string r.blueprint)]])]))
    ]).compact

/-- The request for the schema of a blueprint. -/
def schemaRequest (blueprint : String) : Request where
  method := .get
  url := c.baseUrl ++ (Endpoint.schema blueprint).path
  headers := [("User-Agent", agent .automated), ("Content-Type", "application/json")]
  body := none

end Requests

/-! ### Turns -/

/-- An entity is read by the schema of its blueprint, which may be fetched right before. -/
structure Turn where
  fetched : Option RoundTrip
  entity : Entity
  schema : Schema

/-- The targets of each relation that the schema declares, by the names of the relations. -/
def Turn.refs (t : Turn) : List EntityRef :=
  t.entity.relations.entries.flatMap fun (name, target) =>
    (t.schema.get? name).toList.flatMap fun blueprint => target.identifiers.map (⟨·, blueprint⟩)

def blueprintsOf (turns : List Turn) : List String := turns.map (·.entity.blueprint)

def tripsOf (turns : List Turn) : List RoundTrip := turns.filterMap (·.fetched)

variable {γ : Type} {c : Catalog (StateM γ)} {turns : List Turn} {es : List Entity} {e : Entity} {b : String}
  {known : List (String × Schema)} {schema : Schema} {t : Turn}

/-- The schema of a blueprint is fetched in the first turn of an entity of it, and is the same in all later ones. -/
inductive InTurn (c : Catalog (StateM γ)) : List Turn → Prop
  | nil : InTurn c []
  | first {turns : List Turn} {e : Entity} {outcome : Except String Response} {schema : Schema} : InTurn c turns →
      e.blueprint ∉ blueprintsOf turns → Delivers schemaResponse outcome schema →
      InTurn c (turns ++ [⟨some ⟨schemaRequest c e.blueprint, outcome⟩, e, schema⟩])
  | again {turns : List Turn} {e : Entity} {t : Turn} : InTurn c turns → t ∈ turns →
      t.entity.blueprint = e.blueprint → InTurn c (turns ++ [⟨none, e, t.schema⟩])

theorem InTurn.exists_blueprints (h : InTurn c turns) : ∃ bs, FirstOccurrences (blueprintsOf turns) bs ∧
    (tripsOf turns).map (·.request) = bs.map (schemaRequest c) := by
  induction h with
  | nil => exact ⟨[], ⟨fun _ => Iff.rfl, .nil⟩, rfl⟩
  | @first turns e outcome schema _ hnew _ ih =>
    obtain ⟨bs, hbs, hrequests⟩ := ih
    refine ⟨bs ++ [e.blueprint], ?_, ?_⟩
    · simpa [blueprintsOf] using hbs.append_new hnew
    · simpa [tripsOf] using hrequests
  | @again turns e t _ ht hblueprint ih =>
    obtain ⟨bs, hbs, hrequests⟩ := ih
    refine ⟨bs, ?_, ?_⟩
    · have hold : e.blueprint ∈ blueprintsOf turns := List.mem_map.mpr ⟨t, ht, hblueprint⟩
      simpa [blueprintsOf] using hbs.append_old hold
    · simpa [tripsOf] using hrequests

/-- `known` has the schema of each blueprint that had a turn, and no other. -/
structure Knows (turns : List Turn) (known : List (String × Schema)) : Prop where
  sound : ∀ b schema, known.lookup b = some schema → ∃ t ∈ turns, t.entity.blueprint = b ∧ t.schema = schema
  complete : ∀ b, known.lookup b = none → b ∉ blueprintsOf turns

theorem Knows.again (h : Knows turns known) (he : e.blueprint ∈ blueprintsOf turns) (fetched : Option RoundTrip)
    (schema : Schema) : Knows (turns ++ [⟨fetched, e, schema⟩]) known where
  sound b schema hb := by
    obtain ⟨t, ht, hrest⟩ := h.sound b schema hb
    exact ⟨t, List.mem_append_left _ ht, hrest⟩
  complete b hb := by
    have hold := h.complete b hb
    have hne : b ≠ e.blueprint := fun hb' => hold (hb' ▸ he)
    simpa [blueprintsOf, hne] using hold

theorem Knows.first (h : Knows turns known) (fetched : Option RoundTrip) (e : Entity) (schema : Schema) :
    Knows (turns ++ [⟨fetched, e, schema⟩]) ((e.blueprint, schema) :: known) where
  sound b schema' hb := by
    by_cases hbe : b = e.blueprint
    · subst hbe
      rw [List.lookup_cons_self, Option.some.injEq] at hb
      exact ⟨⟨fetched, e, schema⟩, by simp, rfl, hb⟩
    · rw [List.lookup_cons, beq_false_of_ne hbe] at hb
      obtain ⟨t, ht, hrest⟩ := h.sound b schema' hb
      exact ⟨t, List.mem_append_left _ ht, hrest⟩
  complete b hb := by
    by_cases hbe : b = e.blueprint
    · subst hbe
      rw [List.lookup_cons_self] at hb
      cases hb
    · rw [List.lookup_cons, beq_false_of_ne hbe] at hb
      simpa [blueprintsOf, hbe] using h.complete b hb

theorem sends_schema (c : Catalog (StateM γ)) (b : String) :
    Sends (c.noted.call schemaResponse (.schema b) none .automated) (schemaRequest c b) (answer schemaResponse) :=
  sends_call c schemaResponse (.schema b) none .automated

theorem sends_search (c : Catalog (StateM γ)) (rs : List EntityRef) :
    Sends (c.noted.call searchResponse .search (some (query rs)) .automated) (searchRequest c rs)
      (answer searchResponse) :=
  sends_call c searchResponse .search (some (query rs)) .automated

theorem refs_eq (t : Turn) : relationRefs t.schema t.entity = t.refs := by
  unfold relationRefs Turn.refs
  refine congrArg (List.flatMap · _) (funext fun (name, target) => ?_)
  dsimp only
  cases t.schema.get? name <;> simp

theorem map_refs_append (turns : List Turn) (t : Turn) (result : Except StoreError (List EntityRef)) :
    result.map ((turns ++ [t]).flatMap Turn.refs ++ ·) =
      (result.map (relationRefs t.schema t.entity ++ ·)).map (turns.flatMap Turn.refs ++ ·) := by
  cases result <;> simp [Except.map, refs_eq]

/-- The entities are taken in turn as far as schemas can be got. -/
inductive Gone (c : Catalog (StateM γ)) (es : List Entity) : List RoundTrip → Except StoreError (List Turn) → Prop
  | through {turns : List Turn} : InTurn c turns → turns.map (·.entity) = es → Gone c es (tripsOf turns) (.ok turns)
  | stopped {turns : List Turn} {e : Entity} {later : List Entity} {outcome : Except String Response}
      {err : StoreError} : InTurn c turns → es = turns.map (·.entity) ++ e :: later → e.blueprint ∉ blueprintsOf turns →
      Fails schemaResponse outcome err →
      Gone c es (tripsOf turns ++ [⟨schemaRequest c e.blueprint, outcome⟩]) (.error err)

theorem exists_gone (es : List Entity) (hturns : InTurn c turns) (hknown : Knows turns known) (log : List RoundTrip)
    (s : γ) : ∃ result more u, ((c.noted.resolve known es).run log).run s = ((result, log ++ more), u) ∧
      ∃ gone, Gone c (turns.map (·.entity) ++ es) (tripsOf turns ++ more) gone ∧
        gone.map (·.flatMap Turn.refs) = result.map (turns.flatMap Turn.refs ++ ·) := by
  induction es generalizing turns known log s with
  | nil =>
    refine ⟨.ok [], [], s, by rw [List.append_nil]; rfl, .ok turns, ?_, by simp [Except.map]⟩
    simpa using Gone.through hturns rfl
  | cons e es ih =>
    cases hlookup : known.lookup e.blueprint with
    | some schema =>
      obtain ⟨t, ht, hblueprint, rfl⟩ := hknown.sound _ _ hlookup
      have hold : e.blueprint ∈ blueprintsOf turns := List.mem_map.mpr ⟨t, ht, hblueprint⟩
      obtain ⟨result, more, u, hrun, gone, hgone, hrefs⟩ :=
        ih (hturns.again ht hblueprint) (hknown.again hold none t.schema) log s
      refine ⟨result.map (relationRefs t.schema e ++ ·), more, u, ?_, gone, ?_, ?_⟩
      · rw [resolve, hlookup]
        dsimp only
        rw [run_bind_of hrun]
        rfl
      · simpa [tripsOf] using hgone
      · rw [hrefs, map_refs_append]
    | none =>
      obtain ⟨outcome, u, hcall⟩ := sends_schema c e.blueprint log s
      have hnew : e.blueprint ∉ blueprintsOf turns := hknown.complete _ hlookup
      cases hanswer : answer schemaResponse outcome with
      | error err =>
        refine ⟨.error err, [⟨schemaRequest c e.blueprint, outcome⟩], u, ?_, .error err, ?_, rfl⟩
        · rw [resolve, hlookup]
          dsimp only
          rw [run_bind_of hcall, hanswer]
          rfl
        · exact .stopped hturns rfl hnew (fails_of_answer hanswer)
      | ok schema =>
        have hdelivers : Delivers schemaResponse outcome schema := answer_eq_ok_iff.mp hanswer
        let trip : RoundTrip := ⟨schemaRequest c e.blueprint, outcome⟩
        obtain ⟨result, more, v, hrun, gone, hgone, hrefs⟩ :=
          ih (hturns.first hnew hdelivers) (hknown.first (some trip) e schema) (log ++ [trip]) u
        refine ⟨result.map (relationRefs schema e ++ ·), trip :: more, v, ?_, gone, ?_, ?_⟩
        · rw [resolve, hlookup]
          dsimp only
          rw [run_bind_of hcall, hanswer]
          dsimp only
          rw [run_bind_of hrun, List.append_assoc]
          rfl
        · simpa [tripsOf] using hgone
        · rw [hrefs, map_refs_append]

/-! ### Whole look-ups -/

/-- What comes of the entities that were found, and what is sent for it. -/
inductive Resolved (c : Catalog (StateM γ)) (es : List Entity) :
    List RoundTrip → Except StoreError (List EntityRef) → Prop
  /-- One schema is fetched for each blueprint. -/
  | all {turns : List Turn} {bs : List String} {refs : List EntityRef} : InTurn c turns → turns.map (·.entity) = es →
      FirstOccurrences (es.map (·.blueprint)) bs → (tripsOf turns).map (·.request) = bs.map (schemaRequest c) →
      FirstOccurrences (turns.flatMap Turn.refs) refs → Resolved c es (tripsOf turns) (.ok refs)
  /-- The schema for `e` cannot be got, and nothing is sent after the request for it. -/
  | stopped {turns : List Turn} {bs : List String} {e : Entity} {later : List Entity} {outcome : Except String Response}
      {err : StoreError} : InTurn c turns → es = turns.map (·.entity) ++ e :: later →
      FirstOccurrences (blueprintsOf turns) bs → (tripsOf turns).map (·.request) = bs.map (schemaRequest c) →
      e.blueprint ∉ bs → Fails schemaResponse outcome err →
      Resolved c es (tripsOf turns ++ [⟨schemaRequest c e.blueprint, outcome⟩]) (.error err)

theorem Gone.resolved {trips : List RoundTrip} {gone : Except StoreError (List Turn)} (h : Gone c es trips gone) :
    Resolved c es trips (gone.map fun turns => (turns.flatMap Turn.refs).eraseDups) := by
  cases h with
  | @through turns hturns hes =>
    obtain ⟨bs, hbs, hrequests⟩ := hturns.exists_blueprints
    have hnames : es.map (·.blueprint) = blueprintsOf turns := by rw [← hes, List.map_map]; rfl
    exact .all hturns hes (hnames ▸ hbs) hrequests (firstOccurrences_eraseDups _)
  | @stopped turns e _ _ _ hturns hes hnew hfails =>
    obtain ⟨bs, hbs, hrequests⟩ := hturns.exists_blueprints
    exact .stopped hturns hes hbs hrequests (fun he => hnew ((hbs.mem _).mp he)) hfails

theorem exists_resolved (c : Catalog (StateM γ)) (es : List Entity) (log : List RoundTrip) (s : γ) :
    ∃ result more u, ((c.noted.resolve [] es).run log).run s = ((result, log ++ more), u) ∧
      Resolved c es more (result.map List.eraseDups) := by
  have hknown : Knows [] [] := ⟨fun b schema hb => (nomatch hb), fun b _ => List.not_mem_nil⟩
  obtain ⟨result, more, u, hrun, gone, hgone, hrefs⟩ := exists_gone es (.nil (c := c)) hknown log s
  refine ⟨result, more, u, hrun, ?_⟩
  have hresult : result.map List.eraseDups = gone.map fun turns => (turns.flatMap Turn.refs).eraseDups := by
    cases gone <;> cases result <;> simp_all [Except.map]
  rw [hresult]
  exact hgone.resolved

/-- What a look-up sends, and what comes of it. -/
theorem exists_trips_related (c : Catalog (StateM γ)) {rs : List EntityRef} (hrs : rs ≠ []) (s : γ) :
    ∃ outcome more result u,
      (((Store.catalog c.noted).related rs).run []).run s = ((result, ⟨searchRequest c rs, outcome⟩ :: more), u) ∧
      ((∃ err, Fails searchResponse outcome err ∧ more = [] ∧ result = .error err) ∨
        ∃ es, Delivers searchResponse outcome es ∧ Resolved c es more result) := by
  obtain ⟨outcome, u, hcall⟩ := sends_search c rs [] s
  have hrelated : (Store.catalog c.noted).related rs = c.noted.related rs := rfl
  rw [hrelated, related, if_neg (by simpa using hrs), run_bind_of hcall]
  cases hanswer : answer searchResponse outcome with
  | error err => exact ⟨outcome, [], .error err, u, rfl, .inl ⟨err, fails_of_answer hanswer, rfl, rfl⟩⟩
  | ok es =>
    obtain ⟨result, more, v, hrun, hresolved⟩ := exists_resolved c es [⟨searchRequest c rs, outcome⟩] u
    refine ⟨outcome, more, result.map List.eraseDups, v, ?_, .inr ⟨es, answer_eq_ok_iff.mp hanswer, hresolved⟩⟩
    rw [List.nil_append]
    dsimp only
    rw [run_bind_of hrun]
    rfl

/-! ### Fetching anew -/

section Anew
variable {m : Type → Type} [Monad m] [Reporting m]

/-- As `resolve`, but the schema is fetched anew for every entity. -/
def resolveAnew (c : Catalog m) : List Entity → m (Except StoreError (List EntityRef))
  | [] => return .ok []
  | e :: es => do
    match ← c.call schemaResponse (.schema e.blueprint) none .automated with
    | .error err => return .error err
    | .ok schema => return (← resolveAnew c es).map (relationRefs schema e ++ ·)

def relatedAnew (c : Catalog m) (rs : List EntityRef) : m (Except StoreError (List EntityRef)) := do
  if rs.isEmpty then return .ok []
  match ← c.call searchResponse .search (some (query rs)) .automated with
  | .error err => return .error err
  | .ok es => return (← c.resolveAnew es).map List.eraseDups

end Anew

theorem exists_run_schema {answers : String → Except String Response} (h : c.client.AnswersByUrl answers) (b : String)
    (s : γ) : ∃ u, (c.call schemaResponse (.schema b) none .automated).run s =
      (answer schemaResponse (answers (schemaRequest c b).url), u) :=
  ⟨((c.client.send (schemaRequest c b)).run s).2,
    Prod.ext (congrArg (answer schemaResponse) (h (schemaRequest c b) s rfl)) rfl⟩

/-- What is known is what would be fetched now. -/
theorem resolve_eq_anew {answers : String → Except String Response} (h : c.client.AnswersByUrl answers)
    (hknown : ∀ b schema, known.lookup b = some schema →
      answer schemaResponse (answers (schemaRequest c b).url) = .ok schema)
    (s t : γ) : ((c.resolve known es).run s).1 = ((c.resolveAnew es).run t).1 := by
  induction es generalizing known s t with
  | nil => rfl
  | cons e es ih =>
    obtain ⟨v, hanew⟩ := exists_run_schema h e.blueprint t
    rw [resolve, resolveAnew, StateT.run_bind, hanew]
    cases hlookup : known.lookup e.blueprint with
    | some schema =>
      rw [hknown _ _ hlookup]
      exact congrArg (Except.map (relationRefs schema e ++ ·)) (ih hknown s v)
    | none =>
      obtain ⟨u, hfetched⟩ := exists_run_schema h e.blueprint s
      dsimp only
      rw [StateT.run_bind, hfetched]
      cases hanswer : answer schemaResponse (answers (schemaRequest c e.blueprint).url) with
      | error err => rfl
      | ok schema =>
        refine congrArg (Except.map (relationRefs schema e ++ ·)) (ih (fun b schema' hb => ?_) u v)
        by_cases hbe : b = e.blueprint
        · subst hbe
          rw [List.lookup_cons_self, Option.some.injEq] at hb
          rw [hanswer, hb]
        · rw [List.lookup_cons, beq_false_of_ne hbe] at hb
          exact hknown b schema' hb

theorem related_eq_anew {answers : String → Except String Response} (h : c.client.AnswersByUrl answers)
    (rs : List EntityRef) (s : γ) : (((Store.catalog c).related rs).run s).1 = ((c.relatedAnew rs).run s).1 := by
  have hrelated : (Store.catalog c).related rs = c.related rs := rfl
  rw [hrelated, related, relatedAnew]
  split
  · rfl
  · rcases hcall : (c.call searchResponse .search (some (query rs)) .automated).run s with ⟨err | es, u⟩
    · rw [StateT.run_bind, StateT.run_bind, hcall]
      rfl
    · rw [StateT.run_bind, StateT.run_bind, hcall]
      have hnone : ∀ b schema, ([] : List (String × Schema)).lookup b = some schema →
          answer schemaResponse (answers (schemaRequest c b).url) = .ok schema := fun b schema hb => nomatch hb
      exact congrArg (Except.map List.eraseDups) (resolve_eq_anew h hnone u u)

/-- A look-up makes one search and then fetches each schema once, up to the first request that fails; what it finds is
what it would find if it fetched a schema for every entity. -/
theorem related_by_schemas (c : Catalog (StateM γ)) (rs : List EntityRef) (hrs : rs ≠ []) (s : γ) :
    (let ((result, trips), _) := (((Store.catalog c.noted).related rs).run []).run s
      ∃ outcome more, trips = ⟨searchRequest c rs, outcome⟩ :: more ∧
        ((∃ err, Fails searchResponse outcome err ∧ more = [] ∧ result = .error err) ∨
          ∃ es, Delivers searchResponse outcome es ∧ Resolved c es more result)) ∧
    ∀ answers, c.client.AnswersByUrl answers →
      (((Store.catalog c).related rs).run s).1 = ((c.relatedAnew rs).run s).1 := by
  obtain ⟨outcome, more, result, u, hrun, hcases⟩ := exists_trips_related c hrs s
  rw [hrun]
  exact ⟨⟨outcome, more, rfl, hcases⟩, fun answers h => related_eq_anew h rs s⟩

/-- Entities of two blueprints; one of the relations is not declared. -/
def mesh : List Entity := [
  { identifier := "api", blueprint := "service",
    relations := .ofList [("depends_on", .many ["db", "api"]), ("note", .one "x"), ("owner", .one "ops")] },
  { identifier := "ops", blueprint := "team", relations := .ofList [("lead", .one "ann")] },
  { identifier := "web", blueprint := "service",
    relations := .ofList [("depends_on", .one "db"), ("owner", .one "ops")] }]

def declares (relations : List (String × String)) : Except String Response :=
  .ok (.json 200 (.object [("blueprint", .object [("relations",
    .object (relations.map fun r => (r.1, .object [("target", .string r.2)])))])]))

def meshSchemas (url : String) : Except String Response :=
  if url = "http://c/v1/blueprints/service" then declares [("depends_on", "service"), ("owner", "team")]
  else if url = "http://c/v1/blueprints/team" then declares [("lead", "person")]
  else .error "there is no such blueprint"

/-- Every search finds `mesh`. The requests are counted. -/
def meshClient : Client (StateM Nat) :=
  ⟨fun r n => (match r.method with
    | .get => meshSchemas r.url
    | _ => .ok (.json 200 (.object [("entities", encode mesh)])), n + 1)⟩

def meshCatalog : Catalog (StateM Nat) := ⟨"http://c", meshClient⟩

/-- Three requests find what four would find. -/
theorem mesh_related :
    ((Store.catalog meshCatalog).related [⟨"api", "service"⟩]).run 0 =
      (.ok [⟨"db", "service"⟩, ⟨"api", "service"⟩, ⟨"ops", "team"⟩, ⟨"ann", "person"⟩], 3) ∧
    (meshCatalog.relatedAnew [⟨"api", "service"⟩]).run 0 =
      (.ok [⟨"db", "service"⟩, ⟨"api", "service"⟩, ⟨"ops", "team"⟩, ⟨"ann", "person"⟩], 4) := by
  have hanswers : meshClient.AnswersByUrl meshSchemas := fun r n hget => by
    obtain ⟨method, url, headers, body⟩ := r
    cases hget
    rfl
  have hfound : (((Store.catalog meshCatalog).related [⟨"api", "service"⟩]).run 0).1 =
      .ok [⟨"db", "service"⟩, ⟨"api", "service"⟩, ⟨"ops", "team"⟩, ⟨"ann", "person"⟩] := by decide +kernel
  have hsame := (related_by_schemas meshCatalog [⟨"api", "service"⟩] (List.cons_ne_nil _ _) 0).2 meshSchemas hanswers
  exact ⟨Prod.ext hfound (by decide +kernel), Prod.ext (hsame.symm.trans hfound) (by decide +kernel)⟩

end Catalog
end CatalogSync
