import CatalogSync.Consumer.Loop

/-! How consuming goes, over a state in which the source, the handler and the token may do as they like.

One round is a poll with what it brings. The loop is a chain of rounds, and it ends where the token is found cancelled
or a round finds the source exhausted. What holds of a whole run is proved of a round and then along the chain. -/

namespace CatalogSync.Consumer

/-! ### One round -/

/-- The message counts as processed or as failed. -/
def Stats.attempted (stats : Stats) : Except ConsumerError Unit → Stats
  | .ok _ => { stats with processed := stats.processed + 1 }
  | .error _ => { stats with failed := stats.failed + 1 }

/-- The commit counts if it succeeds. -/
def Stats.settled (stats : Stats) : Except ConsumerError Unit → Stats
  | .ok _ => { stats with committed := stats.committed + 1 }
  | .error _ => stats

def Stats.pollFailed (stats : Stats) : Stats := { stats with sourceErrors := stats.sourceErrors + 1 }

variable {ω : Type} {source : Source (StateM ω)} {handle : Handler (StateM ω)} {cancelled : StateM ω Bool}
  {timeout : Duration} {settings : ConsumerSettings} {limit : Nat} {w w' w₁ w₂ w₃ w₄ : ω}

/-- A poll with what it brings: the stats and the state after it, and whether the loop is over. -/
inductive Round (source : Source (StateM ω)) (handle : Handler (StateM ω)) (timeout : Duration) (stats : Stats) (w : ω) :
    Stats → Bool → ω → Prop
  | message {message : Message} {result answer : Except ConsumerError Unit} {w₁ w₂ w₃ : ω} :
      (source.poll timeout).run w = (.ok (some message), w₁) → (handlePayload handle message).run w₁ = (result, w₂) →
      (source.commit message).run w₂ = (answer, w₃) →
      Round source handle timeout stats w ((stats.attempted result).settled answer) false w₃
  | nothing {ended : Bool} {w₁ w₂ : ω} : (source.poll timeout).run w = (.ok none, w₁) →
      source.isExhausted.run w₁ = (ended, w₂) → Round source handle timeout stats w stats ended w₂
  | failure {err : ConsumerError} {ended : Bool} {w₁ w₂ : ω} : (source.poll timeout).run w = (.error err, w₁) →
      source.isExhausted.run w₁ = (ended, w₂) → Round source handle timeout stats w stats.pollFailed ended w₂

/-- Nobody listens. -/
theorem run_report_bind {α : Type} (e : Event) (f : Unit → StateM ω α) : (report e >>= f).run w = (f ()).run w := rfl

theorem run_bind_of {α β : Type} {x : StateM ω α} {f : α → StateM ω β} {a : α} (h : x.run w = (a, w')) :
    (x >>= f).run w = (f a).run w' := by
  rw [StateT.run_bind, h]
  rfl

theorem deliver_run (stats : Stats) {message : Message} {result answer : Except ConsumerError Unit}
    (hresult : (handlePayload handle message).run w = (result, w₁))
    (hanswer : (source.commit message).run w₁ = (answer, w₂)) :
    (deliver source handle stats message).run w = ((stats.attempted result).settled answer, w₂) := by
  rw [deliver, run_report_bind, run_bind_of hresult]
  cases result with
  | ok =>
    dsimp only
    rw [pure_bind, run_bind_of hanswer]
    cases answer <;> rfl
  | error err =>
    dsimp only
    rw [run_report_bind, pure_bind, run_bind_of hanswer]
    cases answer <;> rfl

theorem exists_round (stats : Stats) (w : ω) : ∃ stats' ended w', Round source handle timeout stats w stats' ended w' := by
  rcases hpoll : (source.poll timeout).run w with ⟨err | _ | message, w₁⟩
  · exact ⟨_, _, _, .failure hpoll rfl⟩
  · exact ⟨_, _, _, .nothing hpoll rfl⟩
  · exact ⟨_, _, _, .message hpoll rfl rfl⟩

/-! ### The loop -/

/-- The rounds of at most so many polls; there are no stats if these did not suffice. -/
inductive Rounds (source : Source (StateM ω)) (handle : Handler (StateM ω)) (cancelled : StateM ω Bool)
    (timeout : Duration) : Nat → Stats → ω → Option Stats → ω → Prop
  | cancelled {limit : Nat} {stats : Stats} {w w₁ : ω} : cancelled.run w = (true, w₁) →
      Rounds source handle cancelled timeout limit stats w (some stats) w₁
  | spent {stats : Stats} {w w₁ : ω} : cancelled.run w = (false, w₁) →
      Rounds source handle cancelled timeout 0 stats w none w₁
  | last {limit : Nat} {stats stats' : Stats} {w w₁ w₂ : ω} : cancelled.run w = (false, w₁) →
      Round source handle timeout stats w₁ stats' true w₂ →
      Rounds source handle cancelled timeout (limit + 1) stats w (some stats') w₂
  | next {limit : Nat} {stats stats' : Stats} {w w₁ w₂ w₃ : ω} {total : Option Stats} : cancelled.run w = (false, w₁) →
      Round source handle timeout stats w₁ stats' false w₂ →
      Rounds source handle cancelled timeout limit stats' w₂ total w₃ →
      Rounds source handle cancelled timeout (limit + 1) stats w total w₃

theorem pollAtMost_succ {stats stats' : Stats} {ended : Bool} (hcancelled : cancelled.run w = (false, w₁))
    (h : Round source handle timeout stats w₁ stats' ended w₂) :
    (pollAtMost source handle cancelled timeout (limit + 1) stats).run w =
      if ended then (some stats', w₂) else (pollAtMost source handle cancelled timeout limit stats').run w₂ := by
  rw [pollAtMost, run_bind_of hcancelled, if_neg Bool.false_ne_true]
  cases h with
  | message hpoll hresult hanswer =>
    rw [run_bind_of hpoll]
    dsimp only
    rw [run_bind_of (deliver_run stats hresult hanswer)]
    rfl
  | nothing hpoll hended =>
    rw [run_bind_of hpoll]
    dsimp only
    rw [run_bind_of hended]
    cases ended <;> rfl
  | failure hpoll hended =>
    rw [run_bind_of hpoll]
    dsimp only
    rw [run_report_bind, run_bind_of hended]
    cases ended <;> rfl

theorem pollAtMost_of_rounds {stats : Stats} {total : Option Stats}
    (h : Rounds source handle cancelled timeout limit stats w total w') :
    (pollAtMost source handle cancelled timeout limit stats).run w = (total, w') := by
  induction h with
  | cancelled hcancelled =>
    rw [pollAtMost.eq_def, run_bind_of hcancelled]
    rfl
  | spent hcancelled =>
    rw [pollAtMost, run_bind_of hcancelled]
    rfl
  | last hcancelled hround => exact pollAtMost_succ hcancelled hround
  | next hcancelled hround _ ih => exact (pollAtMost_succ hcancelled hround).trans ih

theorem exists_rounds (limit : Nat) (stats : Stats) (w : ω) : ∃ total w',
    (pollAtMost source handle cancelled timeout limit stats).run w = (total, w') ∧
      Rounds source handle cancelled timeout limit stats w total w' := by
  suffices h : ∃ total w', Rounds source handle cancelled timeout limit stats w total w' by
    obtain ⟨total, w', hrounds⟩ := h
    exact ⟨total, w', pollAtMost_of_rounds hrounds, hrounds⟩
  induction limit generalizing stats w with
  | zero =>
    rcases hc : cancelled.run w with ⟨_ | _, w₁⟩
    · exact ⟨_, _, .spent hc⟩
    · exact ⟨_, _, .cancelled hc⟩
  | succ limit ih =>
    rcases hc : cancelled.run w with ⟨_ | _, w₁⟩
    · obtain ⟨stats', ended, w₂, hround⟩ : ∃ stats' ended w', Round source handle timeout stats w₁ stats' ended w' :=
        exists_round stats w₁
      cases ended with
      | true => exact ⟨_, _, .last hc hround⟩
      | false =>
        obtain ⟨total, w', hrounds⟩ := ih stats' w₂
        exact ⟨_, _, .next hc hround hrounds⟩
    · exact ⟨_, _, .cancelled hc⟩

theorem Rounds.of_le {limit' : Nat} {stats final : Stats}
    (h : Rounds source handle cancelled timeout limit stats w (some final) w') (hle : limit ≤ limit') :
    Rounds source handle cancelled timeout limit' stats w (some final) w' := by
  generalize htotal : some final = total at h
  induction h generalizing limit' with
  | cancelled hcancelled => exact .cancelled hcancelled
  | spent => cases htotal
  | last hcancelled hround =>
    obtain ⟨limit', rfl⟩ := Nat.exists_eq_add_of_le' hle
    exact .last hcancelled hround
  | next hcancelled hround _ ih =>
    obtain ⟨more, rfl⟩ := Nat.exists_eq_add_of_le' hle
    exact .next hcancelled hround (ih (Nat.le_add_left _ more) htotal)

/-! ### Whole runs -/

/-- How a run goes: what it comes to, and the state it leaves. -/
inductive Course (settings : ConsumerSettings) (source : Source (StateM ω)) (handle : Handler (StateM ω))
    (cancelled : StateM ω Bool) (limit : Nat) (w : ω) : Option (Except ConsumerError Stats) → ω → Prop
  | misconfigured {fault : ConfigFault} : settings.fault? = some fault →
      Course settings source handle cancelled limit w (some (.error (.config fault))) w
  | notSubscribed {err : ConsumerError} {answer : Except ConsumerError Unit} {w₁ w₂ : ω} : settings.fault? = none →
      (source.subscribe settings.topics).run w = (.error err, w₁) → source.close.run w₁ = (answer, w₂) →
      Course settings source handle cancelled limit w (some (.error err)) w₂
  | unfinished {w₁ w₂ : ω} : settings.fault? = none → (source.subscribe settings.topics).run w = (.ok (), w₁) →
      Rounds source handle cancelled settings.pollTimeout limit {} w₁ none w₂ →
      Course settings source handle cancelled limit w none w₂
  | finished {stats : Stats} {test : Bool} {answer : Except ConsumerError Unit} {w₁ w₂ w₃ w₄ : ω} :
      settings.fault? = none → (source.subscribe settings.topics).run w = (.ok (), w₁) →
      Rounds source handle cancelled settings.pollTimeout limit {} w₁ (some stats) w₂ →
      cancelled.run w₂ = (test, w₃) → source.close.run w₃ = (answer, w₄) →
      Course settings source handle cancelled limit w (some (answer.map fun _ => stats)) w₄

theorem reportCancelled_run {test : Bool} (h : cancelled.run w = (test, w')) :
    (reportCancelled cancelled).run w = ((), w') := by
  rw [reportCancelled, run_bind_of h]
  cases test <;> rfl

theorem run_of_course {outcome : Option (Except ConsumerError Stats)}
    (h : Course settings source handle cancelled limit w outcome w') :
    (run settings source handle cancelled limit).run w = (outcome, w') := by
  unfold run
  cases h with
  | misconfigured hfault =>
    rw [hfault]
    rfl
  | notSubscribed hfault hsubscribe hclose =>
    rw [hfault]
    dsimp only
    rw [run_report_bind, run_bind_of hsubscribe]
    dsimp only
    rw [run_report_bind, run_bind_of hclose]
    rfl
  | unfinished hfault hsubscribe hrounds =>
    rw [hfault]
    dsimp only
    rw [run_report_bind, run_bind_of hsubscribe]
    dsimp only
    rw [run_bind_of (pollAtMost_of_rounds hrounds)]
    rfl
  | @finished _ _ answer _ _ _ _ hfault hsubscribe hrounds hcancelled hclose =>
    rw [hfault]
    dsimp only
    rw [run_report_bind, run_bind_of hsubscribe]
    dsimp only
    rw [run_bind_of (pollAtMost_of_rounds hrounds)]
    dsimp only
    rw [run_bind_of (reportCancelled_run hcancelled), run_report_bind, run_bind_of hclose]
    cases answer <;> rfl

theorem exists_course (settings : ConsumerSettings) (source : Source (StateM ω)) (handle : Handler (StateM ω))
    (cancelled : StateM ω Bool) (limit : Nat) (w : ω) : ∃ outcome w',
    (run settings source handle cancelled limit).run w = (outcome, w') ∧
      Course settings source handle cancelled limit w outcome w' := by
  suffices h : ∃ outcome w', Course settings source handle cancelled limit w outcome w' by
    obtain ⟨outcome, w', hcourse⟩ := h
    exact ⟨outcome, w', run_of_course hcourse, hcourse⟩
  cases hfault : settings.fault? with
  | some fault => exact ⟨_, _, .misconfigured hfault⟩
  | none =>
    rcases hsubscribe : (source.subscribe settings.topics).run w with ⟨err | _, w₁⟩
    · exact ⟨_, _, .notSubscribed hfault hsubscribe rfl⟩
    · obtain ⟨total, w₂, -, hrounds⟩ := exists_rounds limit {} w₁
      cases total with
      | none => exact ⟨_, _, .unfinished hfault hsubscribe hrounds⟩
      | some stats => exact ⟨_, _, .finished hfault hsubscribe hrounds rfl rfl⟩

/-- A run that is over goes the same way if more polls are allowed. -/
theorem run_of_le {limit' : Nat} {result : Except ConsumerError Stats}
    (h : (run settings source handle cancelled limit).run w = (some result, w')) (hle : limit ≤ limit') :
    (run settings source handle cancelled limit').run w = (some result, w') := by
  obtain ⟨outcome, w₁, hrun, hcourse⟩ := exists_course settings source handle cancelled limit w
  obtain ⟨rfl, rfl⟩ := Prod.mk.inj (h.symm.trans hrun)
  refine run_of_course ?_
  generalize houtcome : some result = outcome at hcourse
  cases hcourse with
  | misconfigured hfault => exact .misconfigured hfault
  | notSubscribed hfault hsubscribe hclose => exact .notSubscribed hfault hsubscribe hclose
  | unfinished => cases houtcome
  | finished hfault hsubscribe hrounds hcancelled hclose =>
    exact .finished hfault hsubscribe (hrounds.of_le hle) hcancelled hclose

end CatalogSync.Consumer
