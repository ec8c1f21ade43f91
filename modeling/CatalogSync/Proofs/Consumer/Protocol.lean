import CatalogSync.Consumer.Queue
import CatalogSync.Proofs.Consumer.Course
import Mathlib.Data.List.Chain

/-! The protocol of consuming, towards any source, handler and token.

They share one state, which each of them may change as it likes when it is called. What the consumer does to them is
written down beside that state. It is a subscription, a chain of turns with one poll each, and the closing; what the
protocol asks for is proved of a turn and then along the chain. -/

namespace CatalogSync.Consumer

/-- What a consumer does, with the answer it gets. -/
inductive Deed
  | sourced (call : SourceCall)
  /-- The source is asked whether it is exhausted. -/
  | asked (ended : Bool)
  /-- The token is tested. -/
  | tested (cancelled : Bool)
  | handled (topic : String) (payload : Json) (result : Except ConsumerError Unit)

namespace Deed

def isPoll : Deed → Bool
  | sourced (.poll ..) => true
  | _ => false

/-- The source is opened or closed. -/
def isFrame : Deed → Bool
  | sourced (.subscribe ..) | sourced (.close _) => true
  | _ => false

def isHandling : Deed → Bool
  | handled .. => true
  | _ => false

def isCommit : Deed → Bool
  | sourced (.commit ..) => true
  | _ => false

def delivers : Deed → Bool
  | sourced (.poll _ (.ok (some _))) => true
  | _ => false

def pollFails : Deed → Bool
  | sourced (.poll _ (.error _)) => true
  | _ => false

def succeeds : Deed → Bool
  | handled _ _ (.ok _) => true
  | _ => false

def settles : Deed → Bool
  | sourced (.commit _ (.ok _)) => true
  | _ => false

end Deed

variable {α ω : Type} {source : Source (StateM ω)} {handle : Handler (StateM ω)} {cancelled : StateM ω Bool}
  {settings : ConsumerSettings} {timeout : Duration} {limit : Nat} {message : Message}
  {result answer : Except ConsumerError Unit} {stats stats' stats'' : Stats} {ended : Bool}
  {deeds trace more : List Deed}

/-! ### Writing deeds down -/

/-- A state, with the deeds so far. -/
structure Watched (ω : Type) where
  state : ω
  /-- First one first. -/
  deeds : List Deed := []

def watch (act : StateM ω α) (deed : α → Deed) : StateM (Watched ω) α :=
  modifyGet fun w =>
    let (a, s) := act.run w.state
    (a, ⟨s, w.deeds ++ [deed a]⟩)

def watchedSource (source : Source (StateM ω)) : Source (StateM (Watched ω)) where
  subscribe topics := watch (source.subscribe topics) fun a => .sourced (.subscribe topics a)
  poll timeout := watch (source.poll timeout) fun a => .sourced (.poll timeout a)
  commit message := watch (source.commit message) fun a => .sourced (.commit message a)
  close := watch source.close fun a => .sourced (.close a)
  isExhausted := watch source.isExhausted .asked

def watchedHandler (handle : Handler (StateM ω)) : Handler (StateM (Watched ω)) := fun topic payload =>
  watch (handle topic payload) (.handled topic payload)

variable {w w' : Watched ω}

/-- It acts as it does by itself. -/
theorem of_watch {act : StateM ω α} {a : α} (deed : α → Deed) (h : (watch act deed).run w = (a, w')) :
    act.run w.state = (a, w'.state) ∧ w'.deeds = w.deeds ++ [deed a] := by
  obtain ⟨rfl, rfl⟩ := Prod.mk.inj h
  exact ⟨rfl, rfl⟩

theorem watched_subscribe {topics : List String} (h : ((watchedSource source).subscribe topics).run w = (answer, w')) :
    (source.subscribe topics).run w.state = (answer, w'.state) ∧
      w'.deeds = w.deeds ++ [.sourced (.subscribe topics answer)] :=
  of_watch (fun a => .sourced (.subscribe topics a)) h

theorem watched_poll {reply : Except ConsumerError (Option Message)}
    (h : ((watchedSource source).poll timeout).run w = (reply, w')) :
    (source.poll timeout).run w.state = (reply, w'.state) ∧ w'.deeds = w.deeds ++ [.sourced (.poll timeout reply)] :=
  of_watch (fun a => .sourced (.poll timeout a)) h

theorem watched_commit (h : ((watchedSource source).commit message).run w = (answer, w')) :
    (source.commit message).run w.state = (answer, w'.state) ∧
      w'.deeds = w.deeds ++ [.sourced (.commit message answer)] :=
  of_watch (fun a => .sourced (.commit message a)) h

theorem watched_close (h : (watchedSource source).close.run w = (answer, w')) :
    source.close.run w.state = (answer, w'.state) ∧ w'.deeds = w.deeds ++ [.sourced (.close answer)] :=
  of_watch (fun a => .sourced (.close a)) h

theorem watched_isExhausted (h : (watchedSource source).isExhausted.run w = (ended, w')) :
    source.isExhausted.run w.state = (ended, w'.state) ∧ w'.deeds = w.deeds ++ [.asked ended] :=
  of_watch .asked h

/-- A run with the deeds written down. -/
def watchedRun (settings : ConsumerSettings) (source : Source (StateM ω)) (handle : Handler (StateM ω))
    (cancelled : StateM ω Bool) (limit : Nat) : StateM (Watched ω) (Option (Except ConsumerError Stats)) :=
  run settings (watchedSource source) (watchedHandler handle) (watch cancelled .tested) limit

/-! ### What the protocol asks for -/

/-- One attempt at a message. The handler hears of a payload only if it is JSON. -/
inductive Tried (message : Message) : List Deed → Except ConsumerError Unit → Prop
  | undecoded : Codec.ofBytes? Json message.payload = none → Tried message [] (.error .invalidPayload)
  | handled {payload : Json} {result : Except ConsumerError Unit} : Codec.ofBytes? Json message.payload = some payload →
      Tried message [.handled message.topic payload result] result

/-- A message that is delivered is tried once and then committed once before anything else happens, and nothing is
    handled or committed at any other time. -/
inductive Served : List Deed → Prop
  | done : Served []
  | aside {deed : Deed} {trace : List Deed} : deed.delivers = false → deed.isHandling = false → deed.isCommit = false →
      Served trace → Served (deed :: trace)
  | message {timeout : Duration} {message : Message} {result answer : Except ConsumerError Unit} {deeds trace : List Deed} :
      Tried message deeds result → Served trace →
      Served (.sourced (.poll timeout (.ok (some message))) :: (deeds ++ .sourced (.commit message answer) :: trace))

/-- What is done between the opening and the closing. -/
structure Orderly (trace : List Deed) : Prop where
  unframed : ∀ deed ∈ trace, deed.isFrame = false
  served : Served trace
  startsTested : ∃ cancelled rest, trace = .tested cancelled :: rest
  /-- Right before a poll the token was found not to be cancelled. -/
  pollsTested : trace.IsChain fun deed next => next.isPoll → deed = .tested false
  /-- Once it was found cancelled there is no poll. -/
  quiet : trace.Pairwise fun deed later => deed = .tested true → later.isPoll = false

/-- What is counted on the way from `stats` to `stats'`. -/
structure Tallied (stats : Stats) (trace : List Deed) (stats' : Stats) : Prop where
  attempted : stats'.processed + stats'.failed = stats.processed + stats.failed + trace.countP Deed.delivers
  processed : stats'.processed = stats.processed + trace.countP Deed.succeeds
  committed : stats'.committed = stats.committed + trace.countP Deed.settles
  sourceErrors : stats'.sourceErrors = stats.sourceErrors + trace.countP Deed.pollFails

/-- What is done in a run that comes to the result. -/
inductive Protocol (settings : ConsumerSettings) : List Deed → Except ConsumerError Stats → Prop
  | misconfigured {fault : ConfigFault} : settings.fault? = some fault → Protocol settings [] (.error (.config fault))
  /-- What the closing says does not count then. -/
  | notSubscribed {err : ConsumerError} {answer : Except ConsumerError Unit} : settings.fault? = none →
      Protocol settings [.sourced (.subscribe settings.topics (.error err)), .sourced (.close answer)] (.error err)
  | finished {trace : List Deed} {stats : Stats} {answer : Except ConsumerError Unit} : settings.fault? = none →
      Orderly trace → Tallied {} trace stats → stats.committed ≤ stats.processed + stats.failed →
      Protocol settings (.sourced (.subscribe settings.topics (.ok ())) :: (trace ++ [.sourced (.close answer)]))
        (answer.map fun _ => stats)

/-! ### Turns -/

/-- A test of the token that lets the loop go on, a poll and what comes of it; and whether the loop is over then. -/
inductive Turn (timeout : Duration) (stats : Stats) : List Deed → Stats → Bool → Prop
  | message {message : Message} {deeds : List Deed} {result answer : Except ConsumerError Unit} :
      Tried message deeds result → Turn timeout stats
        (.tested false :: .sourced (.poll timeout (.ok (some message))) :: (deeds ++ [.sourced (.commit message answer)]))
        ((stats.attempted result).settled answer) false
  | nothing {ended : Bool} :
      Turn timeout stats [.tested false, .sourced (.poll timeout (.ok none)), .asked ended] stats ended
  | failure {err : ConsumerError} {ended : Bool} :
      Turn timeout stats [.tested false, .sourced (.poll timeout (.error err)), .asked ended] stats.pollFailed ended

/-- The turns of a loop, up to the end of it. -/
inductive Turns (timeout : Duration) : Stats → List Deed → Stats → Prop
  | cancelled {stats : Stats} : Turns timeout stats [.tested true] stats
  | last {deeds : List Deed} {stats stats' : Stats} : Turn timeout stats deeds stats' true →
      Turns timeout stats deeds stats'
  | next {deeds more : List Deed} {stats stats' stats'' : Stats} : Turn timeout stats deeds stats' false →
      Turns timeout stats' more stats'' → Turns timeout stats (deeds ++ more) stats''

/-! ### Turns of a watched run -/

theorem watched_handlePayload (h : (handlePayload (watchedHandler handle) message).run w = (result, w')) :
    (handlePayload handle message).run w.state = (result, w'.state) ∧
      ∃ deeds, w'.deeds = w.deeds ++ deeds ∧ Tried message deeds result := by
  unfold handlePayload at h ⊢
  split at h
  · rename_i hnone
    obtain ⟨rfl, rfl⟩ := Prod.mk.inj h
    exact ⟨rfl, [], (List.append_nil _).symm, .undecoded hnone⟩
  · rename_i payload hsome
    obtain ⟨hrun, hdeeds⟩ := of_watch (.handled message.topic payload) h
    exact ⟨hrun, _, hdeeds, .handled hsome⟩

theorem Round.of_watched (h : Round (watchedSource source) (watchedHandler handle) timeout stats w stats' ended w') :
    Round source handle timeout stats w.state stats' ended w'.state ∧
      ∃ deeds, w'.deeds = w.deeds ++ deeds ∧ Turn timeout stats (.tested false :: deeds) stats' ended := by
  cases h with
  | message hpoll hresult hanswer =>
    obtain ⟨hpoll, hpolled⟩ := watched_poll hpoll
    obtain ⟨hresult, deeds, hdeeds, htried⟩ := watched_handlePayload hresult
    obtain ⟨hanswer, hcommitted⟩ := watched_commit hanswer
    refine ⟨.message hpoll hresult hanswer, _, ?_, .message htried⟩
    rw [hcommitted, hdeeds, hpolled, List.append_assoc, List.append_assoc]
    rfl
  | nothing hpoll hended =>
    obtain ⟨hpoll, hpolled⟩ := watched_poll hpoll
    obtain ⟨hended, hasked⟩ := watched_isExhausted hended
    refine ⟨.nothing hpoll hended, _, ?_, .nothing⟩
    rw [hasked, hpolled, List.append_assoc]
    rfl
  | @failure err _ _ _ hpoll hended =>
    obtain ⟨hpoll, hpolled⟩ := watched_poll hpoll
    obtain ⟨hended, hasked⟩ := watched_isExhausted hended
    refine ⟨.failure hpoll hended, [.sourced (.poll timeout (.error err)), .asked ended], ?_, .failure⟩
    rw [hasked, hpolled, List.append_assoc]
    rfl

theorem Rounds.of_watched {total : Option Stats} (h : Rounds (watchedSource source) (watchedHandler handle)
    (watch cancelled .tested) timeout limit stats w total w') :
    Rounds source handle cancelled timeout limit stats w.state total w'.state ∧
      ∀ final, total = some final → ∃ deeds, w'.deeds = w.deeds ++ deeds ∧ Turns timeout stats deeds final := by
  induction h with
  | cancelled hcancelled =>
    obtain ⟨hcancelled, htested⟩ := of_watch .tested hcancelled
    refine ⟨.cancelled hcancelled, ?_⟩
    rintro _ ⟨⟩
    exact ⟨_, htested, .cancelled⟩
  | spent hcancelled => exact ⟨.spent (of_watch .tested hcancelled).1, fun _ htotal => nomatch htotal⟩
  | last hcancelled hround =>
    obtain ⟨hcancelled, htested⟩ := of_watch .tested hcancelled
    obtain ⟨hround, deeds, hdeeds, hturn⟩ := hround.of_watched
    refine ⟨.last hcancelled hround, ?_⟩
    rintro _ ⟨⟩
    refine ⟨_, ?_, .last hturn⟩
    rw [hdeeds, htested, List.append_assoc]
    rfl
  | next hcancelled hround _ ih =>
    obtain ⟨hcancelled, htested⟩ := of_watch .tested hcancelled
    obtain ⟨hround, deeds, hdeeds, hturn⟩ := hround.of_watched
    obtain ⟨hrounds, hmore⟩ := ih
    refine ⟨.next hcancelled hround hrounds, fun final htotal => ?_⟩
    obtain ⟨more, hmore, hturns⟩ := hmore final htotal
    refine ⟨_, ?_, .next hturn hturns⟩
    rw [hmore, hdeeds, htested, List.append_assoc, List.append_assoc]
    rfl

/-! ### What a turn keeps, and a chain of turns -/

theorem Tried.served (h : Tried message deeds result) (hmore : Served more) :
    Served (.sourced (.poll timeout (.ok (some message))) :: (deeds ++ [.sourced (.commit message answer)]) ++ more) := by
  rw [List.cons_append, List.append_assoc]
  exact .message h hmore

theorem Turn.served (h : Turn timeout stats deeds stats' ended) (hmore : Served more) : Served (deeds ++ more) := by
  cases h with
  | message htried => exact .aside rfl rfl rfl (htried.served hmore)
  | nothing => exact .aside rfl rfl rfl (.aside rfl rfl rfl (.aside rfl rfl rfl hmore))
  | failure => exact .aside rfl rfl rfl (.aside rfl rfl rfl (.aside rfl rfl rfl hmore))

theorem Turn.unframed (h : Turn timeout stats deeds stats' ended) : ∀ deed ∈ deeds, deed.isFrame = false := by
  rcases h with ⟨_ | _⟩ | _ | _ <;> simp [Deed.isFrame]

theorem Turn.pollsTested (h : Turn timeout stats deeds stats' ended) :
    deeds.IsChain fun deed next => next.isPoll → deed = .tested false := by
  rcases h with ⟨_ | _⟩ | _ | _ <;> simp [Deed.isPoll]

theorem Turn.notCancelled (h : Turn timeout stats deeds stats' ended) : ∀ deed ∈ deeds, deed ≠ .tested true := by
  rcases h with ⟨_ | _⟩ | _ | _ <;> simp

theorem Turn.orderly (h : Turn timeout stats deeds stats' ended) (hmore : Orderly more) : Orderly (deeds ++ more) where
  unframed := List.forall_mem_append.mpr ⟨h.unframed, hmore.unframed⟩
  served := h.served hmore.served
  startsTested := by cases h <;> exact ⟨_, _, rfl⟩
  pollsTested := by
    -- What comes next begins with a test, so nothing is asked of the end of the turn.
    refine h.pollsTested.append hmore.pollsTested fun last _ first hfirst hpoll => ?_
    obtain ⟨test, rest, rfl⟩ := hmore.startsTested
    obtain rfl : Deed.tested test = first := Option.some.inj hfirst
    cases hpoll
  quiet := by
    refine List.pairwise_append.mpr ⟨?_, hmore.quiet, fun deed hdeed _ _ htest => absurd htest (h.notCancelled deed hdeed)⟩
    exact List.pairwise_of_forall_mem_list fun deed hdeed _ _ htest => absurd htest (h.notCancelled deed hdeed)

theorem Turns.orderly (h : Turns timeout stats trace stats') (test : Bool) : Orderly (trace ++ [.tested test]) := by
  -- The last test is only for the report, but the chain has to end in something that begins with a test.
  have htest : Orderly [.tested test] :=
    ⟨by simp [Deed.isFrame], .aside rfl rfl rfl .done, ⟨_, _, rfl⟩, .singleton _, List.pairwise_singleton _ _⟩
  induction h with
  | cancelled =>
    exact ⟨by simp [Deed.isFrame], .aside rfl rfl rfl htest.served, ⟨_, _, rfl⟩, by simp [Deed.isPoll], by simp [Deed.isPoll]⟩
  | last hturn => exact hturn.orderly htest
  | next hturn _ ih =>
    rw [List.append_assoc]
    exact hturn.orderly ih

theorem Tallied.append (h : Tallied stats trace stats') (hmore : Tallied stats' more stats'') :
    Tallied stats (trace ++ more) stats'' where
  attempted := by rw [hmore.attempted, h.attempted, List.countP_append, Nat.add_assoc]
  processed := by rw [hmore.processed, h.processed, List.countP_append, Nat.add_assoc]
  committed := by rw [hmore.committed, h.committed, List.countP_append, Nat.add_assoc]
  sourceErrors := by rw [hmore.sourceErrors, h.sourceErrors, List.countP_append, Nat.add_assoc]

theorem Turn.tallied (h : Turn timeout stats deeds stats' ended) : Tallied stats deeds stats' := by
  cases h with
  | @message _ _ result answer htried =>
    cases htried with
    | undecoded => cases answer <;> exact ⟨rfl, rfl, rfl, rfl⟩
    | handled =>
      cases result with
      | error err => cases answer <;> exact ⟨rfl, rfl, rfl, rfl⟩
      | ok => cases answer <;> exact ⟨Nat.add_right_comm .., rfl, rfl, rfl⟩
  | nothing => exact ⟨rfl, rfl, rfl, rfl⟩
  | failure => exact ⟨rfl, rfl, rfl, rfl⟩

theorem Turns.tallied (h : Turns timeout stats trace stats') : Tallied stats trace stats' := by
  induction h with
  | cancelled => exact ⟨rfl, rfl, rfl, rfl⟩
  | last hturn => exact hturn.tallied
  | next hturn _ ih => exact hturn.tallied.append ih

theorem Turn.committed_le (h : Turn timeout stats deeds stats' ended)
    (hle : stats.committed ≤ stats.processed + stats.failed) : stats'.committed ≤ stats'.processed + stats'.failed := by
  cases h with
  | @message _ _ result answer => cases result <;> cases answer <;> simp only [Stats.attempted, Stats.settled] <;> omega
  | nothing => exact hle
  | failure => exact hle

theorem Turns.committed_le (h : Turns timeout stats trace stats')
    (hle : stats.committed ≤ stats.processed + stats.failed) : stats'.committed ≤ stats'.processed + stats'.failed := by
  induction h with
  | cancelled => exact hle
  | last hturn => exact hturn.committed_le hle
  | next hturn _ ih => exact ih (hturn.committed_le hle)

theorem Course.of_watched {outcome : Option (Except ConsumerError Stats)} (h : Course settings (watchedSource source)
    (watchedHandler handle) (watch cancelled .tested) limit w outcome w') (hempty : w.deeds = []) :
    Course settings source handle cancelled limit w.state outcome w'.state ∧
      ∀ result, outcome = some result → Protocol settings w'.deeds result := by
  cases h with
  | misconfigured hfault =>
    refine ⟨.misconfigured hfault, ?_⟩
    rintro _ ⟨⟩
    rw [hempty]
    exact .misconfigured hfault
  | notSubscribed hfault hsubscribe hclose =>
    obtain ⟨hsubscribe, hopened⟩ := watched_subscribe hsubscribe
    obtain ⟨hclose, hclosed⟩ := watched_close hclose
    refine ⟨.notSubscribed hfault hsubscribe hclose, ?_⟩
    rintro _ ⟨⟩
    rw [hclosed, hopened, hempty]
    exact .notSubscribed hfault
  | unfinished hfault hsubscribe hrounds =>
    exact ⟨.unfinished hfault (watched_subscribe hsubscribe).1 hrounds.of_watched.1, fun _ houtcome => nomatch houtcome⟩
  | @finished stats test _ _ _ _ _ hfault hsubscribe hrounds hcancelled hclose =>
    obtain ⟨hsubscribe, hopened⟩ := watched_subscribe hsubscribe
    obtain ⟨hrounds, hturns⟩ := hrounds.of_watched
    obtain ⟨hcancelled, htested⟩ := of_watch .tested hcancelled
    obtain ⟨hclose, hclosed⟩ := watched_close hclose
    refine ⟨.finished hfault hsubscribe hrounds hcancelled hclose, ?_⟩
    rintro _ ⟨⟩
    obtain ⟨trace, htrace, hturns⟩ := hturns stats rfl
    -- The test for the report belongs to what is done in between, and counts for nothing.
    have htallied : Tallied {} (trace ++ [.tested test]) stats := hturns.tallied.append ⟨rfl, rfl, rfl, rfl⟩
    rw [hclosed, htested, htrace, hopened, hempty, List.nil_append, List.append_assoc, List.append_assoc,
      ← List.append_assoc trace]
    exact .finished hfault (hturns.orderly test) htallied (hturns.committed_le (Nat.le_refl 0))

/-- Whatever the source, the handler and the token do. -/
theorem protocol_kept {s s' : ω} {result : Except ConsumerError Stats}
    (h : (run settings source handle cancelled limit).run s = (some result, s')) :
    ∃ trace, (watchedRun settings source handle cancelled limit).run ⟨s, []⟩ = (some result, ⟨s', trace⟩) ∧
      Protocol settings trace result := by
  obtain ⟨outcome, w, hrun, hcourse⟩ := exists_course settings (watchedSource source) (watchedHandler handle)
    (watch cancelled .tested) limit (⟨s, []⟩ : Watched ω)
  obtain ⟨hcourse, hprotocol⟩ := hcourse.of_watched rfl
  obtain ⟨rfl, rfl⟩ := Prod.mk.inj (h.symm.trans (run_of_course hcourse))
  exact ⟨w.deeds, hrun, hprotocol result rfl⟩

def crowd : MessageQueue where
  entries := [.error "broken", .ok ⟨"runs", 0, 1, [123]⟩, .ok ⟨"runs", 0, 2, [123, 125]⟩, .ok ⟨"runs", 0, 3, [123, 125]⟩]

/-- A poll that fails, a payload that is no JSON, one that is handled, and a message that is left when the token is
    cancelled. -/
theorem crowd_kept : ∃ trace,
    (watchedRun {} Source.queue (fun _ _ => pure (.ok ())) (do return (← get).committed.length == 2) 9).run ⟨crowd, []⟩ =
      (some (.ok ⟨1, 1, 2, 1⟩), ⟨{ crowd with
        entries := crowd.entries.drop 3, subscribed := ["runs", "change.log"], closed := true,
        committed := [⟨"runs", 0, 1, [123]⟩, ⟨"runs", 0, 2, [123, 125]⟩] }, trace⟩) ∧
      Protocol {} trace (.ok ⟨1, 1, 2, 1⟩) :=
  protocol_kept rfl

end CatalogSync.Consumer
