import CatalogSync.Consumer.Command
import CatalogSync.Consumer.Settings
import CatalogSync.Policy
import CatalogSync.Proofs.Codec.Rearranged

/-! Reading undoes writing, for all that has a JSON form.

A field with nothing to say is not written, and a missing field has the default that says nothing. The three forms of
a relation's targets are told apart by their kinds of JSON. -/

namespace CatalogSync
open Codec Json

variable {f : Json → Json} {p : Provenance}

/-! ### Parts of records -/

theorem roundTrips_optionString : RoundTrips (Option String) noneHeld :=
  (roundTrips_string.option rfl).mono fun x v hv => by simp [noneHeld] at hv

theorem roundTrips_strings : RoundTrips (List String) noneHeld :=
  roundTrips_string.list.mono fun x v hv => by simp [noneHeld] at hv

theorem roundTrips_relationTarget : RoundTrips RelationTarget noneHeld := .of_rearranged fun f hf t _ => by
  cases t with
  | empty =>
    show decode (f .null) = _
    rw [hf.null]
    rfl
  | one id =>
    show decode (f (.string id)) = _
    rw [hf.string]
    rfl
  | many ids =>
    have hids : (Json.array? (f (encode ids))).bind (·.mapM Json.string?) = some ids := roundTrips_strings.read hf ids
    show decode (f (.array (ids.map .string))) = _
    change (Json.array? (f (.array (ids.map .string)))).bind (·.mapM Json.string?) = _ at hids
    rw [hf.array] at hids ⊢
    exact congrArg (Option.map RelationTarget.many) hids

theorem roundTrips_relations : RoundTrips (SortedMap String RelationTarget) noneHeld :=
  roundTrips_relationTarget.map.mono fun x v hv => by simp [noneHeld] at hv

theorem roundTrips_properties : RoundTrips (SortedMap String Json) SortedMap.values :=
  roundTrips_json.map.mono fun m v hv => by simpa using hv

/-! ### Entities and references -/

theorem roundTrips_entityRef : RoundTrips EntityRef noneHeld := .of_rearranged fun f hf r _ => by
  have hj : Lists f [("identifier", encode r.identifier), ("blueprint", encode r.blueprint)] (f (encode r)) :=
    lists_object hf (by simp)
  show (if isRecord EntityRef.fields (f (encode r)) then _ else none) = _
  rw [if_pos (hj.isRecord _), hj.required "identifier" (roundTrips_string.read hf r.identifier) (by simp),
    hj.required "blueprint" (roundTrips_string.read hf r.blueprint) (by simp)]
  rfl

namespace Entity

/-- The free-form values of an entity. -/
def held (e : Entity) : List Json := e.properties.values

@[simp] theorem mem_fieldUnless {silent : Bool} {name : String} {value : Json} {m : String × Json} :
    m ∈ fieldUnless silent name value ↔ silent = false ∧ m = (name, value) := by
  cases silent <;> simp [fieldUnless]

/-- What is written of an entity. -/
def members (e : Entity) : List (String × Json) :=
  [("identifier", encode e.identifier), ("blueprint", encode e.blueprint)] ++
    fieldUnless e.title.isNone "title" (encode e.title) ++ fieldUnless e.team.isEmpty "team" (encode e.team) ++
    fieldUnless e.icon.isNone "icon" (encode e.icon) ++
    [("properties", encode e.properties), ("relations", encode e.relations)] ++
    fieldUnless (!e.usesSearchIdentifier) "usesSearchIdentifier" (encode e.usesSearchIdentifier)

theorem nodup_members (e : Entity) : (e.members.map (·.1)).Nodup := by
  have hone (silent : Bool) (name : String) (value : Json) :
      ((fieldUnless silent name value).map (·.1)).Sublist [name] := by
    cases silent with
    | true => exact List.nil_sublist _
    | false => exact .refl _
  have hsub : (e.members.map (·.1)).Sublist (fields.map (·.1)) := by
    simp only [members, List.map_append]
    exact ((((List.Sublist.refl _).append (hone _ _ _)).append (hone _ _ _)).append (hone _ _ _)).append (.refl _)
      |>.append (hone _ _ _)
  exact List.Nodup.sublist hsub (by decide)

/-- An optional field says nothing if it is not written. -/
theorem withDefault_fieldUnless {α : Type} [Codec α] {e : Entity} {j : Json} (h : Lists f e.members j) (name : String)
    {x default : α} {silent : Bool} (hx : decode (f (encode x)) = some x)
    (hmem : ∀ v, (name, v) ∈ e.members ↔ silent = false ∧ v = encode x) (hsilent : silent = true → x = default) :
    withDefault default fields j name = some x := by
  cases silent with
  | false => exact h.withDefault name hx ((hmem _).mpr ⟨rfl, rfl⟩)
  | true =>
    refine h.withDefault_of_not_mem name (fun hname => ?_) (hsilent rfl)
    obtain ⟨⟨_, v⟩, hv, rfl⟩ := List.mem_map.mp hname
    cases ((hmem v).mp hv).1

end Entity

theorem roundTrips_entity : RoundTrips Entity Entity.held := .of_rearranged fun f hf e he => by
  have hj : Lists f e.members (f (encode e)) := lists_object hf e.nodup_members
  have hstring (s : String) := roundTrips_string.read hf s
  have hoption (o : Option String) := roundTrips_optionString.read hf o
  show (if isRecord Entity.fields (f (encode e)) then _ else none) = _
  rw [if_pos (hj.isRecord _), hj.required "identifier" (hstring e.identifier) (by simp [Entity.members]),
    hj.required "blueprint" (hstring e.blueprint) (by simp [Entity.members]),
    Entity.withDefault_fieldUnless hj "title" (hoption e.title) (by simp [Entity.members]) Option.isNone_iff_eq_none.mp,
    Entity.withDefault_fieldUnless hj "team" (roundTrips_strings.read hf e.team) (by simp [Entity.members])
      List.isEmpty_iff.mp,
    Entity.withDefault_fieldUnless hj "icon" (hoption e.icon) (by simp [Entity.members]) Option.isNone_iff_eq_none.mp,
    hj.withDefault "properties" (roundTrips_properties.decode_rearranged f hf e.properties he) (by simp [Entity.members]),
    hj.withDefault "relations" (roundTrips_relations.read hf e.relations) (by simp [Entity.members]),
    Entity.withDefault_fieldUnless hj "usesSearchIdentifier" (roundTrips_bool.read hf e.usesSearchIdentifier)
      (by simp [Entity.members]) fun h => Bool.not_eq_true' _ |>.mp h]
  rfl

/-! ### Options and settings -/

theorem roundTrips_callOptions : RoundTrips CallOptions noneHeld := .of_rearranged fun f hf o _ => by
  have hj : Lists f [("merge", encode o.merge), ("create_missing_related_entities", encode o.createMissingRelated),
      ("delete_dependent_entities", encode o.deleteDependents), ("validation_only", encode o.validationOnly)]
      (f (encode o)) := lists_object hf (by simp)
  have hbool (b : Bool) := roundTrips_bool.read hf b
  show (if isRecord CallOptions.fields (f (encode o)) then _ else none) = _
  rw [if_pos (hj.isRecord _), hj.withDefault "merge" (hbool o.merge) (by simp),
    hj.withDefault "create_missing_related_entities" (hbool o.createMissingRelated) (by simp),
    hj.withDefault "delete_dependent_entities" (hbool o.deleteDependents) (by simp),
    hj.withDefault "validation_only" (hbool o.validationOnly) (by simp)]
  rfl

theorem roundTrips_policy : RoundTrips Policy noneHeld := .of_rearranged fun f hf p _ => by
  have hj : Lists f [("auto_create_missing_related", encode p.autoCreateRelated),
      ("cascade_delete_dependents", encode p.cascadeDeletes), ("request_options", encode p.options)] (f (encode p)) :=
    lists_object hf (by simp)
  have hbool (b : Bool) := roundTrips_bool.read hf b
  show (if isRecord Policy.fields (f (encode p)) then _ else none) = _
  rw [if_pos (hj.isRecord _), hj.withDefault "auto_create_missing_related" (hbool p.autoCreateRelated) (by simp),
    hj.withDefault "cascade_delete_dependents" (hbool p.cascadeDeletes) (by simp),
    hj.withDefault "request_options" (roundTrips_callOptions.read hf p.options) (by simp)]
  rfl

theorem roundTrips_consumerSettings : RoundTrips ConsumerSettings noneHeld := .of_rearranged fun f hf c _ => by
  have hj : Lists f [("org_id", encode c.organization), ("brokers", encode c.brokers),
      ("security_enabled", encode c.secured), ("security_protocol", encode c.protocol),
      ("authentication_mechanism", encode c.mechanism), ("username", encode c.username),
      ("password", encode c.password), ("poll_timeout_ms", encode c.pollMillis)] (f (encode c)) :=
    lists_object hf (by simp)
  have hstring (s : String) := roundTrips_string.read hf s
  have hoption (o : Option String) := roundTrips_optionString.read hf o
  show (if isRecord ConsumerSettings.fields (f (encode c)) then _ else none) = _
  rw [if_pos (hj.isRecord _), hj.withDefault "org_id" (hoption c.organization) (by simp),
    hj.withDefault "brokers" (hstring c.brokers) (by simp),
    hj.withDefault "security_enabled" (roundTrips_bool.read hf c.secured) (by simp),
    hj.withDefault "security_protocol" (hstring c.protocol) (by simp),
    hj.withDefault "authentication_mechanism" (hstring c.mechanism) (by simp),
    hj.withDefault "username" (hoption c.username) (by simp), hj.withDefault "password" (hoption c.password) (by simp),
    hj.withDefault "poll_timeout_ms" (roundTrips_uint64.read hf c.pollMillis) (by simp)]
  rfl

/-! ### Diffs and commands -/

/-- The free-form values on both sides. -/
def Diff.held {α : Type} (held : α → List Json) (d : Diff α) : List Json :=
  d.before.flatMap held ++ d.after.flatMap held

section Diff
variable {α : Type} [Codec α] {held : α → List Json} {j : Json} {members : List (String × Json)} {d : Diff α}

/-- Both sides of a diff, among the fields of a record. -/
theorem Codec.RoundTrips.sides (h : RoundTrips α held) (fields : Fields) (hf : Rearranges f)
    (hd : ∀ v ∈ d.held held, f v = v) (hj : Lists f members j) (hbefore : ("before", encode d.before) ∈ members)
    (hafter : ("after", encode d.after) ∈ members) :
    withDefault [] fields j "before" = some d.before ∧ withDefault [] fields j "after" = some d.after :=
  ⟨hj.withDefault "before" (h.list.decode_rearranged f hf d.before fun v hv => hd v (List.mem_append_left _ hv)) hbefore,
    hj.withDefault "after" (h.list.decode_rearranged f hf d.after fun v hv => hd v (List.mem_append_right _ hv)) hafter⟩

theorem Codec.RoundTrips.diff (h : RoundTrips α held) : RoundTrips (Diff α) (Diff.held held) :=
  .of_rearranged fun f hf d hd => by
    have hj : Lists f [("before", encode d.before), ("after", encode d.after)] (f (encode d)) :=
      lists_object hf (by simp)
    obtain ⟨hbefore, hafter⟩ := h.sides (Diff.fields α) hf hd hj (by simp) (by simp)
    show (if isRecord (Diff.fields α) (f (encode d)) then _ else none) = _
    rw [if_pos (hj.isRecord _), hbefore, hafter]
    rfl

end Diff

theorem Provenance.ofText?_text (p : Provenance) : Provenance.ofText? p.text = some p := by
  cases p <;> decide

theorem roundTrips_provenance : RoundTrips Provenance noneHeld := .of_rearranged fun f hf p _ => by
  show decode (f (.string p.text)) = _
  rw [hf.string]
  exact p.ofText?_text

namespace Command

/-- The free-form values of the entities that a command carries. -/
def held : Command → List Json
  | apply _ d => d.held Entity.held
  | delete _ _ => []

section Body
variable {α : Type} [Codec α] {held : α → List Json} {d : Diff α} {kind : String}

theorem lists_body (hf : Rearranges f) (kind : String) (p : Provenance) (d : Diff α) :
    Lists f [("kind", encode kind), ("provenance", encode p), ("before", encode d.before), ("after", encode d.after)]
      (f (encodeBody kind p d)) := lists_object hf (by simp)

theorem field?_kind (hf : Rearranges f) :
    (field? [("kind", .any)] (f (encodeBody kind p d)) "kind").bind Json.string? = some kind := by
  rw [(lists_body hf kind p d).field?_eq_some _ _ (encode kind) (by simp)]
  exact roundTrips_string.read hf kind

theorem decodeBody_encodeBody (h : RoundTrips α held) (hf : Rearranges f) (hd : ∀ v ∈ d.held held, f v = v) :
    decodeBody α (f (encodeBody kind p d)) = some (p, d) := by
  have hj := lists_body hf kind p d
  obtain ⟨hbefore, hafter⟩ := h.sides (taggedFields α) hf hd hj (by simp) (by simp)
  have hheld : Provenance.decodeHeld (f (encode p)) = some p := by
    show Provenance.decodeHeld (f (.string p.text)) = _
    rw [hf.string]
    exact p.ofText?_text
  rw [decodeBody, if_pos (hj.isRecord _), hj.field?_eq_some _ _ (encode p) (by simp), hbefore, hafter]
  show (Provenance.decodeHeld (f (encode p))).bind _ = _
  rw [hheld]
  rfl

/-- The kind tells how the rest is read. -/
theorem decode_of_kind {j : Json} (hkind : (field? [("kind", .any)] j "kind").bind Json.string? = some kind) :
    decode j = if kind = "apply" then (fun b => apply b.1 b.2) <$> decodeBody Entity j
      else if kind = "delete" then (fun b => delete b.1 b.2) <$> decodeBody EntityRef j else none := by
  show ((field? [("kind", .any)] j "kind").bind Json.string?).bind _ = _
  rw [hkind]
  rfl

end Body
end Command

theorem roundTrips_command : RoundTrips Command Command.held := .of_rearranged fun f hf c hc => by
  cases c with
  | apply p d =>
    show decode (f (Command.encodeBody "apply" p d)) = _
    rw [Command.decode_of_kind (Command.field?_kind hf), if_pos rfl,
      Command.decodeBody_encodeBody roundTrips_entity hf hc]
    rfl
  | delete p d =>
    have hd : ∀ v ∈ d.held noneHeld, f v = v := by simp [Diff.held, noneHeld]
    show decode (f (Command.encodeBody "delete" p d)) = _
    rw [Command.decode_of_kind (Command.field?_kind hf), if_neg (by decide), if_pos rfl,
      Command.decodeBody_encodeBody roundTrips_entityRef hf hd]
    rfl

/-! ### All of them -/

/-- Reading undoes writing, whatever the values are and however the members of objects are listed. -/
theorem decode_undoes_encode :
    RoundTrips Entity Entity.held ∧ RoundTrips EntityRef noneHeld ∧
    RoundTrips (Diff Entity) (Diff.held Entity.held) ∧ RoundTrips (Diff EntityRef) (Diff.held noneHeld) ∧
    RoundTrips Provenance noneHeld ∧ RoundTrips CallOptions noneHeld ∧ RoundTrips Policy noneHeld ∧
    RoundTrips ConsumerSettings noneHeld ∧ RoundTrips Command Command.held :=
  ⟨roundTrips_entity, roundTrips_entityRef, roundTrips_entity.diff, roundTrips_entityRef.diff, roundTrips_provenance,
    roundTrips_callOptions, roundTrips_policy, roundTrips_consumerSettings, roundTrips_command⟩

/-- An entity with relations of each form, also to nothing, an icon without a name and no title. -/
def handful : Entity where
  identifier := "api"
  blueprint := "service"
  icon := some ""
  properties := .ofList [("tags", .array [.null, .string "a"]), ("owner", .object [("a", .null), ("b", .bool true)])]
  relations := .ofList [("next", .one ""), ("none", .empty), ("all", .many []), ("some", .many ["db", ""])]

/-- The members of `handful` are written in one order and may be read in another. -/
theorem handful_read :
    decode (encode (Command.apply .userTriggered { after := [handful] })).sorted =
      some (Command.apply .userTriggered { after := [handful] }) := by
  obtain ⟨-, -, -, -, -, -, -, -, hcommand⟩ := decode_undoes_encode
  refine hcommand.decode_rearranged _ rearranges_sorted _ fun v hv => ?_
  have hheld : v ∈ [Json.object [("a", .null), ("b", .bool true)], .array [.null, .string "a"]] := hv
  rcases List.mem_pair.mp hheld with rfl | rfl <;> rfl

end CatalogSync
