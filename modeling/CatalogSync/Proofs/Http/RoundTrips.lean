import CatalogSync.Store.Catalog

/-! What passes between a catalog's store and its client.

Over a client whose round trips are noted, a call makes one of them, and its result follows from the outcome alone. So
a list of calls makes one round trip each, in order, whatever came of those before. -/

namespace CatalogSync

namespace Http
variable {γ β δ : Type}

/-- A request, and what came of it; an error says why there was no response. -/
structure RoundTrip where
  request : Request
  outcome : Except String Response

/-- The same client; each round trip is noted. -/
def Client.noted (client : Client (StateM γ)) : Client (StateT (List RoundTrip) (StateM γ)) :=
  ⟨fun r => do
    let outcome ← client.send r
    modify (· ++ [⟨r, outcome⟩])
    return outcome⟩

/-- It makes this one request, and the outcome decides on the result. -/
def Sends (act : StateT (List RoundTrip) (StateM γ) β) (r : Request) (result : Except String Response → β) : Prop :=
  ∀ log s, ∃ outcome t, (act.run log).run s = ((result outcome, log ++ [⟨r, outcome⟩]), t)

theorem sends_noted (client : Client (StateM γ)) (r : Request) : Sends (client.noted.send r) r id :=
  fun _ s => ⟨((client.send r).run s).1, ((client.send r).run s).2, rfl⟩

variable {act : StateT (List RoundTrip) (StateM γ) β} {r : Request} {result : Except String Response → β}

theorem Sends.map (h : Sends act r result) (f : β → δ) : Sends (f <$> act) r (f ∘ result) := by
  intro log s
  obtain ⟨outcome, t, hrun⟩ := h log s
  refine ⟨outcome, t, ?_⟩
  rw [StateT.run_map, StateT.run_map, hrun]
  rfl

/-- What comes after an act goes on from where the act led. -/
theorem run_bind_of {f : β → StateT (List RoundTrip) (StateM γ) δ} {b : β} {log log' : List RoundTrip} {s t : γ}
    (h : (act.run log).run s = ((b, log'), t)) : ((act >>= f).run log).run s = ((f b).run log').run t := by
  rw [StateT.run_bind, StateT.run_bind, h]
  rfl

/-- One request for each of `bs`. -/
theorem exists_outcomes {act : String → StateT (List RoundTrip) (StateM γ) β} {request : String → Request}
    {result : String → Except String Response → β} (h : ∀ b, Sends (act b) (request b) (result b)) (bs : List String)
    (log : List RoundTrip) (s : γ) : ∃ outcomes t, outcomes.length = bs.length ∧
      ((bs.mapM act).run log).run s = ((List.zipWith result bs outcomes,
        log ++ List.zipWith (fun b outcome => ⟨request b, outcome⟩) bs outcomes), t) := by
  induction bs generalizing log s with
  | nil =>
    refine ⟨[], s, rfl, ?_⟩
    rw [List.zipWith_nil_left, List.zipWith_nil_left, List.append_nil]
    rfl
  | cons b bs ih =>
    obtain ⟨outcome, t, hrun⟩ := h b log s
    obtain ⟨outcomes, u, hlen, hrest⟩ := ih (log ++ [⟨request b, outcome⟩]) t
    refine ⟨outcome :: outcomes, u, congrArg (· + 1) hlen, ?_⟩
    rw [List.append_assoc] at hrest
    rw [List.mapM_cons, run_bind_of hrun, run_bind_of hrest]
    rfl

end Http

namespace Catalog
open Http
variable {γ α : Type} {reader : Reader α} {outcome : Except String Response} {a : α}

/-- The same catalog, over the client whose round trips are noted. -/
def noted (c : Catalog (StateM γ)) : Catalog (StateT (List RoundTrip) (StateM γ)) := ⟨c.baseUrl, c.client.noted⟩

theorem sends_call (c : Catalog (StateM γ)) (reader : Reader α) (e : Endpoint) (body : Option Json) (p : Provenance) :
    Sends (c.noted.call reader e body p) (c.request e body p) (answer reader) :=
  (sends_noted c.client (c.request e body p)).map (answer reader)

/-- There is a response, it is a success and its body spells `a`. An empty body spells what null does. -/
def Delivers (reader : Reader α) (outcome : Except String Response) (a : α) : Prop :=
  ∃ response, outcome = .ok response ∧ 200 ≤ response.status ∧ response.status < 300 ∧
    reader.ofBytes? (if response.body.isEmpty then Text.bytes "null" else response.body) = some a

theorem answer_eq_ok_iff : answer reader outcome = .ok a ↔ Delivers reader outcome a := by
  cases outcome with
  | error message => simp [answer, Delivers]
  | ok response =>
    have hdelivers : Delivers reader (.ok response) a ↔ response.isSuccess = true ∧
        reader.ofBytes? (if response.body.isEmpty then Text.bytes "null" else response.body) = some a := by
      simp [Delivers, Response.isSuccess, and_assoc]
    rw [hdelivers, answer]
    cases hsuccess : response.isSuccess with
    | true =>
      rw [if_pos rfl, and_iff_right rfl]
      split
      · rename_i x hx
        rw [hx, Except.ok.injEq, Option.some.injEq]
      · rename_i hx
        rw [hx]
        simp
    | false => simp

/-- There is no response, or one that is no success, or its body does not decode; and this is what is told. -/
inductive Fails (reader : Reader α) : Except String Response → StoreError → Prop
  | unanswered {message : String} : Fails reader (.error message) (.transport message true)
  | notFound {response : Response} : response.status = 404 →
      Fails reader (.ok response) (.notFound (Text.decodeLossy response.body))
  | rejected {response : Response} : ¬ (200 ≤ response.status ∧ response.status < 300) → response.status ≠ 404 →
      Fails reader (.ok response) (.rejected response.status (Text.decodeLossy response.body))
  | undecoded {response : Response} : 200 ≤ response.status → response.status < 300 →
      reader.ofBytes? (if response.body.isEmpty then Text.bytes "null" else response.body) = none →
      Fails reader (.ok response) (.codec "failed to decode response")

theorem fails_of_answer {err : StoreError} (h : answer reader outcome = .error err) : Fails reader outcome err := by
  cases outcome with
  | error message =>
    cases h
    exact .unanswered
  | ok response =>
    rw [answer] at h
    by_cases hsuccess : 200 ≤ response.status ∧ response.status < 300
    · rw [if_pos (by simpa [Response.isSuccess] using hsuccess)] at h
      split at h
      · cases h
      · rename_i hnone
        cases h
        exact .undecoded hsuccess.1 hsuccess.2 hnone
    · rw [if_neg (by simpa [Response.isSuccess] using hsuccess)] at h
      dsimp only at h
      split at h
      · rename_i hstatus
        cases h
        exact .notFound hstatus
      · rename_i hstatus
        cases h
        exact .rejected hsuccess hstatus

theorem answer_of_fails {err : StoreError} (h : Fails reader outcome err) : answer reader outcome = .error err := by
  cases h with
  | unanswered => rfl
  | notFound hstatus => simp [answer, Response.isSuccess, hstatus]
  | rejected hsuccess hstatus =>
    rw [answer, if_neg (by simpa [Response.isSuccess] using hsuccess)]
    dsimp only
    rw [if_neg hstatus]
  | undecoded hlow hhigh hnone =>
    rw [answer, if_pos (by simpa [Response.isSuccess] using ⟨hlow, hhigh⟩), hnone]

theorem answer_eq_error_iff {err : StoreError} : answer reader outcome = .error err ↔ Fails reader outcome err :=
  ⟨fails_of_answer, answer_of_fails⟩

end Catalog
end CatalogSync
