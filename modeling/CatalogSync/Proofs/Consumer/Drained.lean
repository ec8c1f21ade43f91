import CatalogSync.Consumer.Queue
import CatalogSync.Proofs.Consumer.Course

/-! What a consumer makes of a queue in memory, and where it leaves off.

It goes through the entries in their order until the handler cancels it or none is left. Nobody hears of a message of
another topic: the poll that takes what comes next passes it over. What it comes to that one entry was gone through is
stated as for many, so that it adds up along the queue. -/

namespace CatalogSync.Consumer

variable {η : Type}

/-! ### A queue and a handler -/

/-- A queue, and a handler with a state of its own. -/
structure Scene (η : Type) where
  queue : MessageQueue
  state : η
  /-- What the handler was called on, first one first. -/
  calls : List (String × Json) := []

namespace Scene

instance : MonadStateOf MessageQueue (StateM (Scene η)) where
  get := do return (← getThe (Scene η)).queue
  set queue := modifyThe (Scene η) fun w => { w with queue }
  modifyGet f := modifyGetThe (Scene η) fun w => ((f w.queue).1, { w with queue := (f w.queue).2 })

abbrev source : Source (StateM (Scene η)) := Source.queue

def handling (handle : Handler (StateM η)) : Handler (StateM (Scene η)) := fun topic payload =>
  modifyGetThe (Scene η) fun w =>
    let (result, state) := (handle topic payload).run w.state
    (result, { w with state, calls := w.calls ++ [(topic, payload)] })

/-- Only the handler has a hold on the token. -/
def cancelled (token : η → Bool) : StateM (Scene η) Bool := do return token (← getThe (Scene η)).state

/-- The scene with these entries in the queue. -/
def left (w : Scene η) (rest : List QueueEntry) : Scene η := { w with queue := { w.queue with entries := rest } }

end Scene

/-! ### What entries come to -/

/-- The message, if it is of these topics. -/
def wanted? (topics : List String) : QueueEntry → Option Message
  | .ok message => if message.topic ∈ topics then some message else none
  | .error _ => none

def wanted (topics : List String) (es : List QueueEntry) : List Message := es.filterMap (wanted? topics)

/-- What a handler hears of a message whose payload is JSON. -/
def heard? (message : Message) : Option (String × Json) :=
  (Codec.ofBytes? Json message.payload).map (message.topic, ·)

def heard (topics : List String) (es : List QueueEntry) : List (String × Json) := (wanted topics es).filterMap heard?

/-- The handler is called on these, one after the other. -/
def replay (handle : Handler (StateM η)) (calls : List (String × Json)) : StateM η (List (Except ConsumerError Unit)) :=
  calls.mapM fun call => handle call.1 call.2

def resultsOf (handle : Handler (StateM η)) (topics : List String) (es : List QueueEntry) (v : η) :
    List (Except ConsumerError Unit) :=
  ((replay handle (heard topics es)).run v).1

/-- The state of the handler once it has heard all these entries. -/
def stateAfter (handle : Handler (StateM η)) (topics : List String) (es : List QueueEntry) (v : η) : η :=
  ((replay handle (heard topics es)).run v).2

/-- The way from one scene and its stats to another is to go through `taken`. -/
structure Consumed (handle : Handler (StateM η)) (topics : List String) (taken : List QueueEntry) (w : Scene η)
    (stats : Stats) (w' : Scene η) (stats' : Stats) : Prop where
  entries : w.queue.entries = taken ++ w'.queue.entries
  /-- Nothing else of the queue changes than what waits and what is committed. -/
  queue : w'.queue = { w.queue with
    entries := w'.queue.entries
    committed := w.queue.committed ++ if w.queue.refusesCommits then [] else wanted topics taken }
  calls : w'.calls = w.calls ++ heard topics taken
  state : w'.state = stateAfter handle topics taken w.state
  processed : stats'.processed = stats.processed + (resultsOf handle topics taken w.state).countP Except.isOk
  attempted : stats'.processed + stats'.failed = stats.processed + stats.failed + (wanted topics taken).length
  committed : stats'.committed = stats.committed + if w.queue.refusesCommits then 0 else (wanted topics taken).length
  sourceErrors : stats'.sourceErrors = stats.sourceErrors + taken.countP (! ·.isOk)

/-- The token is found cancelled after `taken` and not before, unless nothing is left. -/
structure StopsAfter (handle : Handler (StateM η)) (token : η → Bool) (topics : List String)
    (taken rest : List QueueEntry) (v : η) : Prop where
  going : ∀ seen, seen <+: taken → seen ≠ taken → token (stateAfter handle topics seen v) = false
  ended : token (stateAfter handle topics taken v) = true ∨ rest = []

variable {handle : Handler (StateM η)} {token : η → Bool} {topics : List String} {taken more rest : List QueueEntry}
  {e : QueueEntry} {w w₁ w₂ : Scene η} {stats stats₁ stats₂ : Stats} {v : η} {timeout : Duration} {limit : Nat}
  {q : MessageQueue} {message : Message}

theorem wanted_append : wanted topics (taken ++ more) = wanted topics taken ++ wanted topics more :=
  List.filterMap_append

theorem wanted_ok_of_mem (hm : message.topic ∈ topics) : wanted topics [.ok message] = [message] := by
  simp [wanted, wanted?, hm]

theorem wanted_ok_of_not_mem (hm : message.topic ∉ topics) : wanted topics [.ok message] = [] := by
  simp [wanted, wanted?, hm]

theorem heard_append : heard topics (taken ++ more) = heard topics taken ++ heard topics more := by
  rw [heard, wanted_append, List.filterMap_append, heard, heard]

theorem replay_append {calls later : List (String × Json)} : (replay handle (calls ++ later)).run v =
    (((replay handle calls).run v).1 ++ ((replay handle later).run ((replay handle calls).run v).2).1,
      ((replay handle later).run ((replay handle calls).run v).2).2) := by
  rw [replay, List.mapM_append]
  rfl

theorem stateAfter_append :
    stateAfter handle topics (taken ++ more) v = stateAfter handle topics more (stateAfter handle topics taken v) := by
  rw [stateAfter, heard_append, replay_append]
  rfl

theorem resultsOf_append : resultsOf handle topics (taken ++ more) v =
    resultsOf handle topics taken v ++ resultsOf handle topics more (stateAfter handle topics taken v) := by
  rw [resultsOf, heard_append, replay_append]
  rfl

theorem Consumed.refl : Consumed handle topics [] w stats w stats where
  entries := rfl
  queue := by rw [wanted, List.filterMap_nil, ite_self, List.append_nil]
  calls := (List.append_nil _).symm
  state := rfl
  processed := rfl
  attempted := rfl
  committed := by rw [wanted, List.filterMap_nil, List.length_nil, ite_self, Nat.add_zero]
  sourceErrors := rfl

theorem Consumed.append (h : Consumed handle topics taken w stats w₁ stats₁)
    (hmore : Consumed handle topics more w₁ stats₁ w₂ stats₂) :
    Consumed handle topics (taken ++ more) w stats w₂ stats₂ := by
  have hrefuses : w₁.queue.refusesCommits = w.queue.refusesCommits := by rw [h.queue]
  refine ⟨?_, ?_, ?_, ?_, ?_, ?_, ?_, ?_⟩
  · rw [h.entries, hmore.entries, List.append_assoc]
  · rw [hmore.queue, h.queue, wanted_append]
    cases w.queue.refusesCommits <;> simp
  · rw [hmore.calls, h.calls, heard_append, List.append_assoc]
  · rw [hmore.state, h.state, stateAfter_append]
  · rw [hmore.processed, h.processed, h.state, resultsOf_append, List.countP_append, Nat.add_assoc]
  · rw [hmore.attempted, h.attempted, wanted_append, List.length_append, Nat.add_assoc]
  · rw [hmore.committed, h.committed, hrefuses, wanted_append, List.length_append]
    cases w.queue.refusesCommits <;> simp [Nat.add_assoc]
  · rw [hmore.sourceErrors, h.sourceErrors, List.countP_append, Nat.add_assoc]

/-- An entry of which nobody hears counts only if it is a failure. -/
theorem Consumed.of_unwanted (hq : w.queue.entries = e :: rest) (hnone : wanted topics [e] = []) :
    Consumed handle topics [e] w stats (w.left rest) (if e.isOk then stats else stats.pollFailed) := by
  have hheard : heard topics [e] = [] := by rw [heard, hnone, List.filterMap_nil]
  refine ⟨hq, ?_, ?_, ?_, ?_, ?_, ?_, ?_⟩
  · rw [hnone, ite_self, List.append_nil]
    rfl
  · rw [hheard, List.append_nil]
    rfl
  · rw [stateAfter, hheard]
    rfl
  · rw [resultsOf, hheard]
    cases e <;> rfl
  · rw [hnone]
    cases e <;> rfl
  · rw [hnone, List.length_nil, ite_self]
    cases e <;> rfl
  · cases e <;> rfl

theorem StopsAfter.tail (h : StopsAfter handle token topics (e :: taken) rest v) :
    token v = false ∧ StopsAfter handle token topics taken rest (stateAfter handle topics [e] v) := by
  have hcons : ∀ es, stateAfter handle topics (e :: es) v =
      stateAfter handle topics es (stateAfter handle topics [e] v) := fun es => by
    rw [← stateAfter_append, List.singleton_append]
  refine ⟨h.going [] (List.nil_prefix) (by simp), fun seen hseen hne => ?_, hcons taken ▸ h.ended⟩
  rw [← hcons]
  exact h.going _ (List.prefix_cons_inj e |>.mpr hseen) (by simpa using hne)

/-! ### Calls to the queue -/

/-- A poll is not refused. -/
structure Ready (topics : List String) (q : MessageQueue) : Prop where
  notClosed : q.closed = false
  subscribed : q.subscribed = topics
  some_topic : topics ≠ []

theorem Ready.fault?_eq (h : Ready topics q) : q.fault? = none := by
  rw [MessageQueue.fault?, h.notClosed, if_neg Bool.false_ne_true, h.subscribed,
    if_neg (by simpa using h.some_topic)]

theorem Consumed.ready (h : Consumed handle topics taken w stats w₁ stats₁) (hready : Ready topics w.queue) :
    Ready topics w₁.queue := by
  rw [h.queue]
  exact ⟨hready.notClosed, hready.subscribed, hready.some_topic⟩

theorem reportAll_run {ω : Type} (events : List Event) (s : ω) :
    (reportAll events : StateM ω Unit).run s = ((), s) := by
  induction events with
  | nil => rfl
  | cons e events ih => exact ih

theorem poll_run (w : Scene η) :
    (Scene.source.poll timeout).run w = (w.queue.poll.1, { w with queue := w.queue.poll.2 }) := by
  have hget : (getThe MessageQueue : StateM (Scene η) MessageQueue).run w = (w.queue, w) := rfl
  exact (run_bind_of hget).trans (run_bind_of (reportAll_run _ w))

/-- What is of another topic. -/
def Passed (topics : List String) (e : QueueEntry) : Prop := ∃ message, e = .ok message ∧ message.topic ∉ topics

theorem foreign_iff : MessageQueue.foreign topics e = true ↔ Passed topics e := by
  cases e <;> simp [MessageQueue.foreign, Passed]

theorem poll_passed (hready : Ready topics w.queue) (hq : w.queue.entries = e :: rest) (he : Passed topics e) :
    (Scene.source.poll timeout).run w = (Scene.source.poll timeout).run (w.left rest) := by
  have hready' : Ready topics (w.left rest).queue := ⟨hready.notClosed, hready.subscribed, hready.some_topic⟩
  have hforeign : MessageQueue.foreign w.queue.subscribed e = true := by
    rw [hready.subscribed]
    exact foreign_iff.mpr he
  have hpoll : w.queue.poll = (w.left rest).queue.poll := by
    rw [MessageQueue.poll, MessageQueue.poll, hready.fault?_eq, hready'.fault?_eq, hq,
      List.dropWhile_cons_of_pos hforeign]
    rfl
  rw [poll_run, poll_run, hpoll]
  rfl

theorem poll_next (hready : Ready topics w.queue) (hq : w.queue.entries = e :: rest) (he : ¬ Passed topics e) :
    (Scene.source.poll timeout).run w = (e.mapError ConsumerError.source |>.map some, w.left rest) := by
  have hforeign : ¬ MessageQueue.foreign w.queue.subscribed e = true := by
    rw [hready.subscribed]
    exact fun h => he (foreign_iff.mp h)
  rw [poll_run, MessageQueue.poll, hready.fault?_eq, hq, List.dropWhile_cons_of_neg hforeign]
  cases e <;> rfl

theorem poll_none (hready : Ready topics w.queue) (hq : w.queue.entries = []) :
    (Scene.source.poll timeout).run w = (.ok none, w) := by
  rw [poll_run, MessageQueue.poll, hready.fault?_eq, hq]
  dsimp only [List.dropWhile_nil]
  rw [← hq]

/-! ### Rounds -/

theorem Stats.counted (stats : Stats) (result answer : Except ConsumerError Unit) :
    ((stats.attempted result).settled answer).processed = stats.processed + (if result.isOk then 1 else 0) ∧
      ((stats.attempted result).settled answer).processed + ((stats.attempted result).settled answer).failed =
        stats.processed + stats.failed + 1 ∧
      ((stats.attempted result).settled answer).committed = stats.committed + (if answer.isOk then 1 else 0) ∧
      ((stats.attempted result).settled answer).sourceErrors = stats.sourceErrors := by
  cases result with
  | ok => cases answer <;> exact ⟨rfl, Nat.add_right_comm .., rfl, rfl⟩
  | error => cases answer <;> exact ⟨rfl, rfl, rfl, rfl⟩

theorem cancelled_run {test : Bool} (h : token w.state = test) : (Scene.cancelled token).run w = (test, w) := by
  rw [← h]
  rfl

/-- What a handler makes of one message. -/
theorem exists_hearing (handle : Handler (StateM η)) (message : Message) (w : Scene η) : ∃ result w',
    (handlePayload (Scene.handling handle) message).run w = (result, w') ∧ w'.queue = w.queue ∧
      w'.calls = w.calls ++ (heard? message).toList ∧
      w'.state = ((replay handle (heard? message).toList).run w.state).2 ∧
      ((replay handle (heard? message).toList).run w.state).1.countP Except.isOk = if result.isOk then 1 else 0 := by
  unfold handlePayload heard?
  cases Codec.ofBytes? Json message.payload with
  | none => exact ⟨_, _, rfl, rfl, (List.append_nil _).symm, rfl, rfl⟩
  | some payload => exact ⟨_, _, rfl, rfl, rfl, rfl, List.countP_singleton⟩

/-- What a queue makes of a commit. -/
theorem exists_answer (hready : Ready topics w.queue) (message : Message) : ∃ answer w',
    (Scene.source.commit message).run w = (answer, w') ∧ w'.calls = w.calls ∧ w'.state = w.state ∧
      w'.queue = { w.queue with
        committed := w.queue.committed ++ if w.queue.refusesCommits then [] else [message] } ∧
      answer.isOk = ! w.queue.refusesCommits := by
  obtain ⟨⟨entries, subscribed, committed, closed, refusesCommits⟩, state, calls⟩ := w
  obtain rfl : closed = false := hready.notClosed
  cases refusesCommits with
  | false => exact ⟨_, _, rfl, rfl, rfl, rfl, rfl⟩
  | true =>
    refine ⟨_, _, rfl, rfl, rfl, ?_, rfl⟩
    rw [if_pos rfl, List.append_nil]
    rfl

theorem exists_round_message (hready : Ready topics w.queue) (hq : w.queue.entries = .ok message :: rest)
    (hm : message.topic ∈ topics) (stats : Stats) : ∃ stats' w',
    Round Scene.source (Scene.handling handle) timeout stats w stats' false w' ∧
      Consumed handle topics [.ok message] w stats w' stats' := by
  have hpoll : (Scene.source.poll timeout).run w = (.ok (some message), w.left rest) :=
    poll_next hready hq fun ⟨_, heq, hn⟩ => hn (Except.ok.inj heq ▸ hm)
  obtain ⟨result, w₁, hresult, hqueue, hcalls, hstate, hcount⟩ := exists_hearing handle message (w.left rest)
  have hready₁ : Ready topics w₁.queue := hqueue ▸ ⟨hready.notClosed, hready.subscribed, hready.some_topic⟩
  obtain ⟨answer, w₂, hanswer, hcalls₂, hstate₂, hqueue₂, hsettled⟩ := exists_answer hready₁ message
  rw [hqueue] at hqueue₂ hsettled
  have hwanted : wanted topics [.ok message] = [message] := wanted_ok_of_mem hm
  have hheard : heard topics [.ok message] = (heard? message).toList := by
    rw [heard, hwanted, List.filterMap_cons, List.filterMap_nil]
    cases heard? message <;> rfl
  obtain ⟨hprocessed, hattempted, hcommitted, herrors⟩ := stats.counted result answer
  refine ⟨_, w₂, .message hpoll hresult hanswer, ?_, ?_, ?_, ?_, ?_, ?_, ?_, ?_⟩
  · rw [hqueue₂, hq]
    rfl
  · rw [hqueue₂, hwanted]
    rfl
  · rw [hcalls₂, hcalls, hheard]
    rfl
  · rw [hstate₂, hstate, stateAfter, hheard]
    rfl
  · rw [resultsOf, hheard, hprocessed]
    exact congrArg _ hcount.symm
  · rw [hwanted, hattempted]
    rfl
  · rw [hwanted, hcommitted, hsettled]
    cases hrefuses : w.queue.refusesCommits <;> simp [Scene.left, hrefuses]
  · exact herrors

/-- The loop is over after a failure that comes last, and after no other entry. -/
theorem exists_round_next (hready : Ready topics w.queue) (hq : w.queue.entries = e :: rest) (he : ¬ Passed topics e)
    (stats : Stats) : ∃ stats' ended w',
    Round Scene.source (Scene.handling handle) timeout stats w stats' ended w' ∧ (ended = true → rest = []) ∧
      Consumed handle topics [e] w stats w' stats' := by
  cases e with
  | error failure =>
    exact ⟨_, rest.isEmpty, _, .failure (poll_next hready hq he) rfl, List.isEmpty_iff.mp, .of_unwanted hq rfl⟩
  | ok message =>
    have hm : message.topic ∈ topics := Decidable.of_not_not fun hm => he ⟨message, rfl, hm⟩
    obtain ⟨stats', w', hround, hfirst⟩ := exists_round_message hready hq hm stats
    exact ⟨stats', false, w', hround, (nomatch ·), hfirst⟩

/-- What comes after an entry of another topic comes as if it were first. -/
theorem Rounds.of_passed {total : Stats} (hready : Ready topics w.queue) (hq : w.queue.entries = e :: rest)
    (he : Passed topics e) (htoken : token w.state = false)
    (h : Rounds Scene.source (Scene.handling handle) (Scene.cancelled token) timeout limit stats (w.left rest)
      (some total) w₁) :
    Rounds Scene.source (Scene.handling handle) (Scene.cancelled token) timeout limit stats w (some total) w₁ := by
  have hpoll : ∀ {reply : Except ConsumerError (Option Message)} {w' : Scene η},
      (Scene.source.poll timeout).run (w.left rest) = (reply, w') → (Scene.source.poll timeout).run w = (reply, w') :=
    (poll_passed hready hq he).trans
  have hround : ∀ {stats' : Stats} {ended : Bool} {w' : Scene η},
      Round Scene.source (Scene.handling handle) timeout stats (w.left rest) stats' ended w' →
        Round Scene.source (Scene.handling handle) timeout stats w stats' ended w' := by
    rintro _ _ _ (⟨h, hresult, hanswer⟩ | ⟨h, hended⟩ | ⟨h, hended⟩)
    · exact .message (hpoll h) hresult hanswer
    · exact .nothing (hpoll h) hended
    · exact .failure (hpoll h) hended
  have htest : (Scene.cancelled token).run w = (false, w) := cancelled_run htoken
  have htest' : (Scene.cancelled token).run (w.left rest) = (false, w.left rest) := cancelled_run htoken
  cases h with
  | cancelled hcancelled => cases hcancelled.symm.trans htest'
  | last hcancelled hlast =>
    cases hcancelled.symm.trans htest'
    exact .last htest (hround hlast)
  | next hcancelled hnext hrounds =>
    cases hcancelled.symm.trans htest'
    exact .next htest (hround hnext) hrounds

theorem exists_rounds_consumed (hready : Ready topics w.queue) (hq : w.queue.entries = taken ++ rest)
    (hstops : StopsAfter handle token topics taken rest w.state) (stats : Stats) : ∃ stats' w',
    Rounds Scene.source (Scene.handling handle) (Scene.cancelled token) timeout (w.queue.entries.length + 1) stats w
        (some stats') w' ∧
      Consumed handle topics taken w stats w' stats' := by
  induction taken generalizing w stats with
  | nil =>
    by_cases htoken : token w.state = true
    · exact ⟨stats, w, .cancelled (cancelled_run htoken), .refl⟩
    · obtain rfl : rest = [] := hstops.ended.resolve_left htoken
      have htest : (Scene.cancelled token).run w = (false, w) := cancelled_run (eq_false_of_ne_true htoken)
      have hend : Scene.source.isExhausted.run w = (true, w) := by
        show (w.queue.entries.isEmpty, w) = _
        rw [hq]
        rfl
      exact ⟨stats, w, .last htest (.nothing (poll_none hready hq) hend), .refl⟩
  | cons e taken ih =>
    obtain ⟨htoken, hstops⟩ := hstops.tail
    have htest : (Scene.cancelled token).run w = (false, w) := cancelled_run htoken
    rw [List.cons_append] at hq
    have hlength : w.queue.entries.length = (taken ++ rest).length + 1 := by rw [hq, List.length_cons]
    have hmore : ∀ {w₁ : Scene η} {stats₁ : Stats}, Consumed handle topics [e] w stats w₁ stats₁ → ∃ stats' w',
        Rounds Scene.source (Scene.handling handle) (Scene.cancelled token) timeout w.queue.entries.length stats₁ w₁
          (some stats') w' ∧ Consumed handle topics (e :: taken) w stats w' stats' := fun {w₁ stats₁} hfirst => by
      have hq₁ : w₁.queue.entries = taken ++ rest := (List.cons.inj (hfirst.entries.symm.trans hq)).2
      obtain ⟨stats', w', hrounds, hconsumed⟩ := ih (hfirst.ready hready) hq₁ (hfirst.state ▸ hstops) stats₁
      rw [hq₁, ← hlength] at hrounds
      exact ⟨stats', w', hrounds, hfirst.append hconsumed⟩
    by_cases he : Passed topics e
    · -- It takes no round of its own: the rounds after it begin with the poll that passes it over.
      obtain ⟨message, rfl, hm⟩ := he
      have hfirst : Consumed handle topics [.ok message] w stats (w.left (taken ++ rest)) stats :=
        .of_unwanted hq (wanted_ok_of_not_mem hm)
      obtain ⟨stats', w', hrounds, hconsumed⟩ := hmore hfirst
      exact ⟨stats', w', (hrounds.of_passed hready hq ⟨message, rfl, hm⟩ htoken).of_le (Nat.le_succ _), hconsumed⟩
    · obtain ⟨stats₁, ended, w₁, hround, hlast, hfirst⟩ : ∃ stats₁ ended w₁,
          Round _ _ timeout stats w stats₁ ended w₁ ∧ _ := exists_round_next hready hq he stats
      cases ended with
      | true =>
        obtain ⟨rfl, -⟩ := List.append_eq_nil_iff.mp (hlast rfl)
        exact ⟨stats₁, w₁, .last htest hround, hfirst⟩
      | false =>
        obtain ⟨stats', w', hrounds, hconsumed⟩ := hmore hfirst
        exact ⟨stats', w', .next htest hround hrounds, hconsumed⟩

/-! ### Whole runs -/

/-- The run ends well and closes the queue, after it has gone through `taken` and left `rest`. -/
def EndsAfter (settings : ConsumerSettings) (handle : Handler (StateM η)) (token : η → Bool) (limit : Nat)
    (q : MessageQueue) (v : η) (taken rest : List QueueEntry) : Prop :=
  ∃ stats w, (run settings Source.queue (Scene.handling handle) (Scene.cancelled token) limit).run
      { queue := q, state := v } = (some (.ok stats), { w with queue := w.queue.close }) ∧
    Consumed handle settings.topics taken { queue := { q with subscribed := settings.topics }, state := v } {} w stats ∧
    w.queue.entries = rest

/-- Whatever a handler with this state hears, it does not cancel the token. -/
def NeverCancels (handle : Handler (StateM η)) (token : η → Bool) : Prop :=
  ∀ topic payload v, token v = false → token ((handle topic payload).run v).2 = false

/-- The token is not cancelled at any place along these entries. -/
def Uncancelled (handle : Handler (StateM η)) (token : η → Bool) (topics : List String) (es : List QueueEntry) (v : η) :
    Prop :=
  ∀ seen, seen <+: es → token (stateAfter handle topics seen v) = false

theorem NeverCancels.replay (h : NeverCancels handle token) (hv : token v = false) (calls : List (String × Json)) :
    token ((replay handle calls).run v).2 = false := by
  induction calls generalizing v with
  | nil => exact hv
  | cons call calls ih =>
    rw [← List.singleton_append, replay_append]
    exact ih (h call.1 call.2 v hv)

theorem endsAfter_of_stops {settings : ConsumerSettings} (hvalid : settings.fault? = none) (hopen : q.closed = false)
    (hlimit : q.pollLimit ≤ limit) (hq : q.entries = taken ++ rest)
    (hstops : StopsAfter handle token settings.topics taken rest v) :
    EndsAfter settings handle token limit q v taken rest := by
  have hsubscribe : (Scene.source.subscribe settings.topics).run { queue := q, state := v } =
      (.ok (), { queue := { q with subscribed := settings.topics }, state := v }) := by
    have hrun : (Scene.source.subscribe settings.topics).run { queue := q, state := v } =
      ((q.subscribe settings.topics).1, { queue := (q.subscribe settings.topics).2, state := v }) := rfl
    rw [hrun, MessageQueue.subscribe, MessageQueue.ifOpen, if_neg (by rw [hopen]; exact Bool.false_ne_true)]
  obtain ⟨stats, w, hrounds, hconsumed⟩ : ∃ stats w, Rounds _ _ _ settings.pollTimeout _ _ _ (some stats) w ∧ _ :=
    exists_rounds_consumed (w := { queue := { q with subscribed := settings.topics }, state := v })
      ⟨hopen, rfl, List.cons_ne_nil _ _⟩ hq hstops {}
  have hcourse : Course settings Source.queue (Scene.handling handle) (Scene.cancelled token) q.pollLimit _ _ _ :=
    .finished hvalid hsubscribe hrounds rfl rfl
  refine ⟨stats, w, run_of_le (run_of_course hcourse) hlimit, hconsumed, ?_⟩
  exact List.append_cancel_left (hconsumed.entries.symm.trans hq)

/-- A run over a queue in memory goes through all of it, unless the handler cancels it. Then it goes on to the commit of
the message that the handler was busy with, and no further. -/
theorem queue_drained (settings : ConsumerSettings) (handle : Handler (StateM η)) (token : η → Bool) (limit : Nat)
    (q : MessageQueue) (v : η) (hvalid : settings.fault? = none) (hopen : q.closed = false)
    (hlimit : q.pollLimit ≤ limit) :
    (NeverCancels handle token → token v = false → Uncancelled handle token settings.topics q.entries v) ∧
      (Uncancelled handle token settings.topics q.entries v →
        EndsAfter settings handle token limit q v q.entries []) ∧
      ∀ front message rest, q.entries = front ++ .ok message :: rest →
        Uncancelled handle token settings.topics front v →
        token (stateAfter handle settings.topics (front ++ [.ok message]) v) = true →
        EndsAfter settings handle token limit q v (front ++ [.ok message]) rest ∧
          wanted settings.topics (front ++ [.ok message]) = wanted settings.topics front ++ [message] := by
  refine ⟨fun hnever hv seen _ => hnever.replay hv _, fun hgoing => ?_, fun front message rest hq hgoing hcancels => ?_⟩
  · have hstops : StopsAfter handle token settings.topics q.entries [] v :=
      ⟨fun seen hseen _ => hgoing seen hseen, .inr rfl⟩
    exact endsAfter_of_stops hvalid hopen hlimit (List.append_nil _).symm hstops
  · have hstops : StopsAfter handle token settings.topics (front ++ [.ok message]) rest v := by
      refine ⟨fun seen hseen hne => hgoing seen ?_, .inl hcancels⟩
      exact (List.prefix_concat_iff.mp hseen).resolve_left hne
    refine ⟨endsAfter_of_stops hvalid hopen hlimit (by rw [hq, List.append_assoc]; rfl) hstops, ?_⟩
    rw [wanted_append]
    by_cases hm : message.topic ∈ settings.topics
    · rw [wanted_ok_of_mem hm]
    · -- Of a message of another topic the handler does not hear, so it cannot have cancelled then.
      have hunheard : stateAfter handle settings.topics [.ok message] (stateAfter handle settings.topics front v) =
          stateAfter handle settings.topics front v := by
        rw [stateAfter, heard, wanted_ok_of_not_mem hm]
        rfl
      rw [stateAfter_append, hunheard, hgoing front List.prefix_rfl] at hcancels
      cases hcancels

/-- Failures at both ends, a message of another topic, one that is no JSON, and two that are handled. -/
def backlog : MessageQueue where
  entries := [.error "broken", .ok ⟨"runs", 0, 1, [123, 125]⟩, .ok ⟨"mail", 0, 1, [123, 125]⟩,
    .ok ⟨"runs", 0, 2, [123]⟩, .ok ⟨"change.log", 0, 1, [91, 93]⟩, .ok ⟨"mail", 0, 2, [123]⟩, .error "broken"]
  committed := [⟨"runs", 0, 0, []⟩]

/-- Counts what it hears, and takes nothing but objects. -/
def counting : Handler (StateM Nat) := fun _ payload => do
  modify (· + 1)
  return match payload with
    | .object _ => .ok ()
    | _ => .error .invalidPayload

/-- Left alone, it goes through all of it. Cancelled once it has heard of one message, it leaves what comes next. -/
theorem backlog_drained :
    (∃ stats w,
      (run {} Source.queue (Scene.handling counting) (Scene.cancelled fun _ => false) 8).run ⟨backlog, 0, []⟩ =
        (some (.ok stats), w) ∧
      stats.processed = 1 ∧ stats.processed + stats.failed = 3 ∧ stats.committed = 3 ∧ stats.sourceErrors = 2 ∧
      w.queue.entries = [] ∧ w.calls = [("runs", .object []), ("change.log", .array [])]) ∧
    ∃ stats w,
      (run {} Source.queue (Scene.handling counting) (Scene.cancelled (· == 1)) 8).run ⟨backlog, 0, []⟩ =
        (some (.ok stats), w) ∧
      w.queue.entries = backlog.entries.drop 2 ∧
      w.queue.committed = backlog.committed ++ [⟨"runs", 0, 1, [123, 125]⟩] := by
  obtain ⟨hnever, hdrained, -⟩ := queue_drained {} counting (fun _ => false) 8 backlog 0 rfl rfl (by decide)
  obtain ⟨stats, w, hrun, h, hrest⟩ := hdrained (hnever (fun _ _ _ _ => rfl) rfl)
  obtain ⟨-, -, hcancelled⟩ := queue_drained {} counting (· == 1) 8 backlog 0 rfl rfl (by decide)
  have hgoing : Uncancelled counting (· == 1) ["runs", "change.log"] [.error "broken"] 0 := fun seen hseen => by
    rcases List.prefix_cons_iff.mp hseen with rfl | ⟨more, rfl, hmore⟩
    · rfl
    · rw [List.prefix_nil.mp hmore]
      rfl
  obtain ⟨⟨stats', w', hrun', h', hrest'⟩, -⟩ :=
    hcancelled [.error "broken"] ⟨"runs", 0, 1, [123, 125]⟩ _ rfl hgoing rfl
  have hcommitted : w'.queue.committed = backlog.committed ++ [⟨"runs", 0, 1, [123, 125]⟩] := by
    rw [h'.queue]
    rfl
  exact ⟨⟨stats, _, hrun, h.processed, h.attempted, h.committed, h.sourceErrors, hrest, h.calls⟩,
    stats', _, hrun', hrest', hcommitted⟩

end CatalogSync.Consumer
