import CatalogSync.Proofs.Consumer.Drained
import CatalogSync.Proofs.Consumer.Lines
import CatalogSync.Proofs.Partition

/-! What becomes of the entries of a queue in memory, whatever is pushed and asked in whatever order.

Of its past a queue that was new keeps whether it was closed, which topics it was last subscribed to before that, what
was committed before that, and what waits. What an action does is said once in these terms (`Answered`); that the entries
are neither lost nor doubled nor put in another order is read off it. -/

namespace CatalogSync.MessageQueue
open Consumer (Passed Ready foreign_iff reportAll_run run_bind_of)

/-! ### Histories -/

inductive Action
  | push (e : QueueEntry)
  | ask (request : SourceRequest)

/-- The answer, if there is one, and the queue afterwards. -/
def act (q : MessageQueue) : Action → Option SourceCall × MessageQueue
  | .push e => (none, q.push e)
  | .ask request => Prod.map some id (((Source.queue (m := StateM MessageQueue)).perform request).run q)

/-- The queue that was new before all this. -/
def after (past : List Action) : MessageQueue := past.foldl (fun q a => (q.act a).2) {}

/-- What is noted at each action, one after the other. -/
def collect {α : Type} (note : MessageQueue → Action → List α) : MessageQueue → List Action → List α
  | _, [] => []
  | q, a :: more => note q a ++ collect note (q.act a).2 more

/-- What waited at the front and waits no longer. -/
def dequeued (q q' : MessageQueue) : List QueueEntry := q.entries.take (q.entries.length - q'.entries.length)

/-- The entry that a poll hands on. -/
def handed? : SourceCall → Option QueueEntry
  | .poll _ (.ok (some message)) => some (.ok message)
  | .poll _ (.error (.source failure)) => some (.error failure)
  | _ => none

def consumed (past : List Action) : List QueueEntry := collect (fun q a => dequeued q (q.act a).2) {} past

def delivered (past : List Action) : List QueueEntry := collect (fun q a => ((q.act a).1.bind handed?).toList) {} past

/-! ### What a history tells -/

namespace Action

def pushed? : Action → Option QueueEntry
  | push e => some e
  | ask _ => none

def topics? : Action → Option (List String)
  | ask (.subscribe topics) => some topics
  | _ => none

def committed? : Action → Option Message
  | ask (.commit message) => some message
  | _ => none

def isClose : Action → Bool
  | ask .close => true
  | _ => false

end Action

def pushed (past : List Action) : List QueueEntry := past.filterMap Action.pushed?

/-- What is found in the history up to where the queue was closed. -/
def told {α : Type} (find? : Action → Option α) (past : List Action) : List α :=
  (past.takeWhile (! ·.isClose)).filterMap find?

/-- The topics of the subscription in force, none if there is no subscription. -/
def inForce (past : List Action) : List String := (told Action.topics? past).getLast?.getD []

/-- The queue is as its past has it. Of what waits nothing is said here. -/
structure Stands (past : List Action) (q : MessageQueue) : Prop where
  closed : q.closed = true ↔ .ask .close ∈ past
  subscribed : q.subscribed = inForce past
  committed : q.committed = told Action.committed? past
  takesCommits : q.refusesCommits = false

/-- What a poll answers when it goes through `gone` and leaves `rest`. -/
inductive Takes (topics : List String) : List QueueEntry → List QueueEntry → Polled → Prop
  | message {passed rest : List QueueEntry} {message : Message} : (∀ e ∈ passed, Passed topics e) →
      message.topic ∈ topics → Takes topics (passed ++ [.ok message]) rest (.ok (some message))
  | failure {passed rest : List QueueEntry} {failure : String} : (∀ e ∈ passed, Passed topics e) →
      Takes topics (passed ++ [.error failure]) rest (.error (.source failure))
  | nothing {passed : List QueueEntry} : (∀ e ∈ passed, Passed topics e) → Takes topics passed [] (.ok none)

/-- Right after the first part of the history, a poll went past this entry because of its topic. -/
def PassedOver (past before : List Action) (e : QueueEntry) : Prop :=
  (∃ timeout, before ++ [.ask (.poll timeout)] <+: past) ∧ Passed (inForce before) e

/-- What an action comes to after this past: the answer and the queue that it leaves. -/
inductive Answered (past : List Action) (q : MessageQueue) : Action → Option SourceCall → MessageQueue → Prop
  | pushed {e : QueueEntry} : Answered past q (.push e) none { q with entries := q.entries ++ [e] }
  | closed : Answered past q (.ask .close) (some (.close (.ok ()))) { q with closed := true }
  | subscribed {topics : List String} : .ask .close ∉ past →
      Answered past q (.ask (.subscribe topics)) (some (.subscribe topics (.ok ()))) { q with subscribed := topics }
  | committed {message : Message} : .ask .close ∉ past →
      Answered past q (.ask (.commit message)) (some (.commit message (.ok ())))
        { q with committed := q.committed ++ [message] }
  | polled {timeout : Duration} {gone rest : List QueueEntry} {answer : Polled} : .ask .close ∉ past →
      inForce past ≠ [] → q.entries = gone ++ rest → Takes (inForce past) gone rest answer →
      Answered past q (.ask (.poll timeout)) (some (.poll timeout answer)) { q with entries := rest }
  | unsubscribed {timeout : Duration} : .ask .close ∉ past → inForce past = [] →
      Answered past q (.ask (.poll timeout)) (some (.poll timeout (.error (.notReady .notSubscribed)))) q
  | refusedSubscribe {topics : List String} : .ask .close ∈ past →
      Answered past q (.ask (.subscribe topics)) (some (.subscribe topics (.error (.notReady .closed)))) q
  | refusedCommit {message : Message} : .ask .close ∈ past →
      Answered past q (.ask (.commit message)) (some (.commit message (.error (.notReady .closed)))) q
  | refusedPoll {timeout : Duration} : .ask .close ∈ past →
      Answered past q (.ask (.poll timeout)) (some (.poll timeout (.error (.notReady .closed)))) q

variable {q q' : MessageQueue} {past : List Action} {a : Action} {answer : Option SourceCall} {topics : List String}
  {gone rest : List QueueEntry}

/-! ### One action -/

/-- What a request does to the queue, with the answer. -/
def respond (q : MessageQueue) : SourceRequest → SourceCall × MessageQueue
  | .subscribe topics => (.subscribe topics (q.subscribe topics).1, (q.subscribe topics).2)
  | .poll timeout => (.poll timeout q.poll.1, q.poll.2)
  | .commit message => (.commit message (q.commit message).1, (q.commit message).2)
  | .close => (.close (.ok ()), q.close)

theorem act_ask (q : MessageQueue) (request : SourceRequest) :
    q.act (.ask request) = (some (q.respond request).1, (q.respond request).2) := by
  have hrun : ((Source.queue (m := StateM MessageQueue)).perform request).run q = q.respond request := by
    cases request with
    | poll timeout =>
      have hpoll : ((Source.queue (m := StateM MessageQueue)).poll timeout).run q = q.poll :=
        run_bind_of (show (getThe MessageQueue : StateM MessageQueue MessageQueue).run q = (q, q) from rfl) |>.trans
          (run_bind_of (reportAll_run _ q))
      exact run_bind_of hpoll
    | subscribe => rfl
    | commit => rfl
    | close => rfl
  rw [act, hrun]
  rfl

theorem not_passed_of_dropWhile {e : QueueEntry} {es : List QueueEntry}
    (h : es.dropWhile (foreign topics) = e :: rest) : ¬ Passed topics e := by
  intro he
  have hhead := List.head?_dropWhile_not (foreign topics) es
  rw [h, List.head?_cons] at hhead
  exact Bool.false_ne_true (hhead.symm.trans (foreign_iff.mpr he))

/-- A poll of a queue that is ready stops behind the first entry that is not of another topic. -/
theorem exists_takes (hready : Ready topics q) : ∃ gone rest, q.entries = gone ++ rest ∧
    Takes topics gone rest q.poll.1 ∧ q.poll.2 = { q with entries := rest } := by
  have hpassed : ∀ e ∈ q.entries.takeWhile (foreign topics), Passed topics e := fun e he =>
    foreign_iff.mp (List.mem_takeWhile_imp he)
  have hsplit := (List.takeWhile_append_dropWhile (p := foreign topics) (l := q.entries)).symm
  rw [poll, hready.fault?_eq, hready.subscribed]
  rcases hrest : q.entries.dropWhile (foreign topics) with _ | ⟨failure | message, rest⟩
  · rw [hrest] at hsplit
    exact ⟨_, [], hsplit, .nothing hpassed, rfl⟩
  · rw [hrest, List.append_cons] at hsplit
    exact ⟨_, rest, hsplit, .failure hpassed, rfl⟩
  · rw [hrest, List.append_cons] at hsplit
    have htopic : message.topic ∈ topics :=
      Decidable.byContradiction fun hm => not_passed_of_dropWhile hrest ⟨message, rfl, hm⟩
    exact ⟨_, rest, hsplit, .message hpassed htopic, rfl⟩

theorem Stands.ifOpen_eq {α : Type} (h : Stands past q) (act : Except ConsumerError α × MessageQueue) :
    (.ask .close ∈ past ∧ q.ifOpen act = (.error (.notReady .closed), q)) ∨
      (.ask .close ∉ past ∧ q.ifOpen act = act) := by
  by_cases hclose : .ask .close ∈ past
  · exact .inl ⟨hclose, if_pos (h.closed.mpr hclose)⟩
  · exact .inr ⟨hclose, if_neg (h.closed.not.mpr hclose)⟩

theorem answered_act (h : Stands past q) (a : Action) : Answered past q a (q.act a).1 (q.act a).2 := by
  rcases a with e | request
  · exact .pushed
  rw [act_ask]
  cases request with
  | subscribe topics =>
    rw [respond, subscribe]
    rcases h.ifOpen_eq (.ok (), { q with subscribed := topics }) with ⟨hclose, hq⟩ | ⟨hclose, hq⟩ <;> rw [hq]
    · exact .refusedSubscribe hclose
    · exact .subscribed hclose
  | commit message =>
    have hcommit : q.commit message = q.ifOpen (.ok (), { q with committed := q.committed ++ [message] }) := by
      rw [commit, if_neg (by rw [h.takesCommits]; exact Bool.false_ne_true)]
    rw [respond, hcommit]
    rcases h.ifOpen_eq (.ok (), { q with committed := q.committed ++ [message] }) with ⟨hclose, hq⟩ | ⟨hclose, hq⟩ <;>
      rw [hq]
    · exact .refusedCommit hclose
    · exact .committed hclose
  | close => exact .closed
  | poll timeout =>
    rw [respond]
    by_cases hclose : .ask .close ∈ past
    · have hpoll : q.poll = (.error (.notReady .closed), q) := by
        rw [poll, fault?, if_pos (h.closed.mpr hclose)]
      rw [hpoll]
      exact .refusedPoll hclose
    have hopen : q.closed = false := eq_false_of_ne_true (h.closed.not.mpr hclose)
    by_cases hnone : inForce past = []
    · have hpoll : q.poll = (.error (.notReady .notSubscribed), q) := by
        rw [poll, fault?, hopen, if_neg Bool.false_ne_true, h.subscribed, hnone]
        rfl
      rw [hpoll]
      exact .unsubscribed hclose hnone
    · obtain ⟨gone, rest, hsplit, htakes, hq⟩ := exists_takes ⟨hopen, h.subscribed, hnone⟩
      rw [hq]
      exact .polled hclose hnone hsplit htakes

/-! ### What an action leaves -/

theorem isClose_iff : a.isClose = true ↔ a = .ask .close := by
  rcases a with e | _ | _ | _ | _ <;> simp [Action.isClose]

theorem told_of_mem {α : Type} {find? : Action → Option α} (hclose : .ask .close ∈ past) :
    told find? (past ++ [a]) = told find? past := by
  rw [told, List.takeWhile_append, if_neg]
  · rfl
  · intro hlength
    rw [← (List.takeWhile_prefix _).eq_of_length hlength] at hclose
    exact absurd (List.mem_takeWhile_imp hclose) (by decide)

theorem told_of_not_mem {α : Type} {find? : Action → Option α} (hopen : .ask .close ∉ past)
    (hclose : find? (.ask .close) = none) : told find? (past ++ [a]) = told find? past ++ (find? a).toList := by
  have hall : ∀ b ∈ past, (! b.isClose) = true := fun b hb => by
    have hb' : b ≠ .ask .close := fun h => hopen (h ▸ hb)
    simpa using isClose_iff.not.mpr hb'
  rw [told, told, List.takeWhile_append_of_pos hall, List.takeWhile_eq_self_iff.mpr hall, List.filterMap_append]
  by_cases ha : a = .ask .close
  · rw [ha, hclose]
    rfl
  · rw [List.takeWhile_cons_of_pos (by simpa using isClose_iff.not.mpr ha), List.takeWhile_nil]
    cases h : find? a <;> simp [h]

theorem told_of_none {α : Type} {find? : Action → Option α} (hclose : find? (.ask .close) = none)
    (ha : find? a = none) : told find? (past ++ [a]) = told find? past := by
  by_cases hmem : .ask .close ∈ past
  · exact told_of_mem hmem
  · rw [told_of_not_mem hmem hclose, ha, Option.toList_none, List.append_nil]

theorem inForce_of_mem (hclose : .ask .close ∈ past) : inForce (past ++ [a]) = inForce past := by
  rw [inForce, told_of_mem hclose, inForce]

theorem inForce_of_none (ha : a.topics? = none) : inForce (past ++ [a]) = inForce past := by
  rw [inForce, told_of_none rfl ha, inForce]

theorem inForce_subscribe (hopen : .ask .close ∉ past) : inForce (past ++ [.ask (.subscribe topics)]) = topics := by
  rw [inForce, told_of_not_mem hopen rfl, Action.topics?, Option.toList_some, List.getLast?_concat, Option.getD_some]

theorem Answered.stands (hstep : Answered past q a answer q') (h : Stands past q) : Stands (past ++ [a]) q' := by
  have hclosed : a ≠ .ask .close → (q.closed = true ↔ .ask .close ∈ past ++ [a]) := fun ha => by
    rw [h.closed, List.mem_append, List.mem_singleton, or_iff_left ha.symm]
  have hsubscribed : a.topics? = none → q.subscribed = inForce (past ++ [a]) := fun ha => by
    rw [inForce_of_none ha, h.subscribed]
  have hcommitted : a.committed? = none → q.committed = told Action.committed? (past ++ [a]) := fun ha => by
    rw [told_of_none rfl ha, h.committed]
  -- The history tells more of a close, and before a close of a subscription and of a commit; of nothing else.
  cases hstep with
  | closed => exact ⟨by simp, hsubscribed rfl, hcommitted rfl, h.takesCommits⟩
  | subscribed hopen => exact ⟨hclosed nofun, (inForce_subscribe hopen).symm, hcommitted rfl, h.takesCommits⟩
  | committed hopen =>
    refine ⟨hclosed nofun, hsubscribed rfl, ?_, h.takesCommits⟩
    rw [told_of_not_mem hopen rfl, ← h.committed]
    rfl
  | refusedSubscribe hclose =>
    exact ⟨hclosed nofun, h.subscribed.trans (inForce_of_mem hclose).symm, hcommitted rfl, h.takesCommits⟩
  | refusedCommit hclose =>
    exact ⟨hclosed nofun, hsubscribed rfl, h.committed.trans (told_of_mem hclose).symm, h.takesCommits⟩
  | pushed | polled | unsubscribed | refusedPoll =>
    exact ⟨hclosed nofun, hsubscribed rfl, hcommitted rfl, h.takesCommits⟩

theorem dequeued_of_split {front : List QueueEntry} (h : q.entries = front ++ q'.entries) : dequeued q q' = front := by
  rw [dequeued, h, List.length_append, Nat.add_sub_cancel, List.take_left]

theorem Takes.interleaves {timeout : Duration} {polled : Polled} (h : Takes topics gone rest polled) :
    ∃ passed, Interleaves (handed? (.poll timeout polled)).toList passed gone ∧ ∀ e ∈ passed, Passed topics e := by
  have hlast (passed : List QueueEntry) (e : QueueEntry) : Interleaves [e] passed (passed ++ [e]) := by
    simpa using (Interleaves.only_right passed).append (.left .nil)
  cases h with
  | message hpassed => exact ⟨_, hlast _ _, hpassed⟩
  | failure hpassed => exact ⟨_, hlast _ _, hpassed⟩
  | nothing hpassed => exact ⟨_, .only_right _, hpassed⟩

/-- Entries go at the front and come at the back. What goes is handed on, or a poll passes it over. -/
theorem Answered.entries (h : Answered past q a answer q') :
    dequeued q q' ++ q'.entries = q.entries ++ a.pushed?.toList ∧
      ∃ passed, Interleaves (answer.bind handed?).toList passed (dequeued q q') ∧
        ∀ e ∈ passed, PassedOver (past ++ [a]) past e := by
  have hkept (t : MessageQueue) (ht : q.entries = t.entries) : dequeued q t ++ t.entries = q.entries ++ [] ∧
      ∃ passed, Interleaves [] passed (dequeued q t) ∧ ∀ e ∈ passed, PassedOver (past ++ [a]) past e := by
    rw [dequeued_of_split (ht.trans (List.nil_append _).symm), ht]
    exact ⟨(List.append_nil _).symm, [], .nil, nofun⟩
  cases h with
  | @pushed e =>
    have hnone : dequeued q { q with entries := q.entries ++ [e] } = [] := by
      rw [dequeued, List.length_append, Nat.sub_eq_zero_of_le (Nat.le_add_right _ _), List.take_zero]
    rw [hnone]
    exact ⟨rfl, [], .nil, nofun⟩
  | polled hopen hin hsplit htakes =>
    obtain ⟨passed, hinterleaves, hpassed⟩ := htakes.interleaves
    rw [dequeued_of_split hsplit]
    exact ⟨hsplit.symm.trans (List.append_nil _).symm, passed, hinterleaves,
      fun e he => ⟨⟨_, List.prefix_rfl⟩, hpassed e he⟩⟩
  | _ => exact hkept _ rfl

/-! ### Whole histories -/

theorem after_concat (past : List Action) (a : Action) : after (past ++ [a]) = ((after past).act a).2 :=
  List.foldl_concat ..

theorem collect_concat {α : Type} (note : MessageQueue → Action → List α) (past : List Action) (a : Action) :
    collect note {} (past ++ [a]) = collect note {} past ++ note (after past) a := by
  suffices h : ∀ q, collect note q (past ++ [a]) =
      collect note q past ++ note (past.foldl (fun q a => (q.act a).2) q) a from h {}
  induction past with
  | nil => exact fun q => List.append_nil _
  | cons b past ih =>
    intro q
    rw [List.cons_append, collect, ih, collect, List.append_assoc, List.foldl_cons]

theorem stands_after (past : List Action) : Stands past (after past) := by
  induction past using List.reverseRecOn with
  | nil => exact ⟨by simp [after], rfl, rfl, rfl⟩
  | append_singleton past a ih =>
    rw [after_concat]
    exact (answered_act ih a).stands ih

theorem consumed_append_entries (past : List Action) : consumed past ++ (after past).entries = pushed past := by
  induction past using List.reverseRecOn with
  | nil => rfl
  | append_singleton past a ih =>
    obtain ⟨hentries, -⟩ := (answered_act (stands_after past) a).entries
    rw [after_concat, consumed, collect_concat, List.append_assoc, hentries, ← List.append_assoc, ← consumed, ih,
      pushed, pushed, List.filterMap_append]
    rfl

theorem exists_dropped (past : List Action) : ∃ dropped : List (List Action × QueueEntry),
    Interleaves (delivered past) (dropped.map Prod.snd) (consumed past) ∧ ∀ d ∈ dropped, PassedOver past d.1 d.2 := by
  induction past using List.reverseRecOn with
  | nil => exact ⟨[], .nil, nofun⟩
  | append_singleton past a ih =>
    obtain ⟨dropped, hdropped, hover⟩ := ih
    obtain ⟨-, passed, hpassed, hnow⟩ := (answered_act (stands_after past) a).entries
    -- What this action passes over, it passes over after `past`.
    refine ⟨dropped ++ passed.map (past, ·), ?_, fun d hd => ?_⟩
    · rw [delivered, collect_concat, consumed, collect_concat, List.map_append, List.map_map]
      exact hdropped.append ((List.map_id passed).symm ▸ hpassed)
    · rcases List.mem_append.mp hd with hd | hd
      · obtain ⟨⟨timeout, hprefix⟩, hforeign⟩ := hover d hd
        exact ⟨⟨timeout, hprefix.trans (List.prefix_append _ _)⟩, hforeign⟩
      · obtain ⟨e, he, rfl⟩ := List.mem_map.mp hd
        exact hnow e he

/-- Along every history of a queue that was new, what polls took and what still waits is together what was pushed, in
its order. What they took they handed on, but for messages of topics that were not subscribed to when a poll came to
them. -/
theorem entries_delivered_once (past : List Action) :
    consumed past ++ (after past).entries = pushed past ∧
      (∃ dropped : List (List Action × QueueEntry),
        Interleaves (delivered past) (dropped.map Prod.snd) (consumed past) ∧
        ∀ d ∈ dropped, PassedOver past d.1 d.2) ∧
      Stands past (after past) ∧ ∀ a, Answered past (after past) a ((after past).act a).1 ((after past).act a).2 :=
  ⟨consumed_append_entries past, exists_dropped past, stands_after past, answered_act (stands_after past)⟩

/-- What counts is the subscription when a poll comes to a message, not the one when it was pushed. -/
example : delivered [.ask (.subscribe ["runs"]), .push (.ok ⟨"runs", 0, 1, []⟩), .push (.ok ⟨"mail", 0, 1, []⟩),
    .ask (.subscribe ["mail"]), .ask (.poll default)] = [.ok ⟨"mail", 0, 1, []⟩] := by
  rfl

end CatalogSync.MessageQueue
