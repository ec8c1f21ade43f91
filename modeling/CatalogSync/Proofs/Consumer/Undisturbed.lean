import CatalogSync.Proofs.Consumer.Commands

/-! Messages that carry no command, or none that can be run, disturb nothing.

Each message that is delivered is attended to and then committed, whatever came of it, and nothing else reaches the
store. So the commands that were delivered, one after the other, are all that the store hears of. -/

namespace CatalogSync.Consumer

variable {σ τ : Type} {store : Store (StateM σ)} {source : Source (StateM τ)} {policy : Policy} {s t u : σ}
  {w w' : World σ τ} {timeout : Duration} {limit : Nat} {message : Message} {trace more : List Happening}

/-! ### Stretches of a trace -/

/-- A message that is delivered is attended to and then committed before anything else happens, and the store is called
    at no other time. -/
inductive Attended (store : Store (StateM σ)) (policy : Policy) : σ → List Happening → σ → Prop
  | done (s : σ) : Attended store policy s [] s
  | aside {h : Happening} {trace : List Happening} {s t : σ} : h.message? = none → h.exchange? = none →
      h.isCommit = false → Attended store policy s trace t → Attended store policy s (h :: trace) t
  | message {message : Message} {timeout : Duration} {result : Option (Except ReconcileError Report)}
      {xs : List Exchange} {answer : Except ConsumerError Unit} {trace : List Happening} {s t u : σ} :
      Attempt store policy message s result xs t → Attended store policy t trace u →
      Attended store policy s (attention timeout message xs answer ++ trace) u

theorem Attended.append (h : Attended store policy s trace t) (hmore : Attended store policy t more u) :
    Attended store policy s (trace ++ more) u := by
  induction h with
  | done => exact hmore
  | aside hm hx hc _ ih => exact .aside hm hx hc (ih hmore)
  | message hattempt _ ih =>
    rw [List.append_assoc]
    exact .message hattempt (ih hmore)

/-- The commands that were delivered, in their order. -/
def commands (trace : List Happening) : List Command := (delivered trace).filterMap Message.command?

theorem commands_append : commands (trace ++ more) = commands trace ++ commands more := by
  rw [commands, delivered_append, List.filterMap_append]
  rfl

/-- What happened to the store on the way from `s` to `t` is what these commands do by themselves. -/
structure Undisturbed (store : Store (StateM σ)) (policy : Policy) (s : σ) (trace : List Happening)
    (results : List (Except ReconcileError Report)) (t : σ) : Prop where
  alone : ∀ log, (((commands trace).mapM (Command.runOn store.noted policy)).run log).run s =
    ((results, log ++ exchanges trace), t)
  attended : Attended store policy s trace t

variable {results rest : List (Except ReconcileError Report)} {stats stats' stats'' : Stats}

theorem Undisturbed.refl (s : σ) : Undisturbed store policy s [] [] s where
  alone log := by
    rw [exchanges, List.filterMap_nil, List.append_nil]
    rfl
  attended := .done s

theorem run_bind_noted {α β : Type} {x : StateT (List Exchange) (StateM σ) α}
    {f : α → StateT (List Exchange) (StateM σ) β} {a : α} {log log' : List Exchange}
    (h : (x.run log).run s = ((a, log'), t)) : ((x >>= f).run log).run s = ((f a).run log').run t := by
  rw [StateT.run_bind, StateT.run_bind, h]
  rfl

theorem Undisturbed.append (h : Undisturbed store policy s trace results t)
    (hmore : Undisturbed store policy t more rest u) :
    Undisturbed store policy s (trace ++ more) (results ++ rest) u where
  alone log := by
    rw [commands_append, exchanges_append, List.mapM_append, run_bind_noted (h.alone log),
      run_bind_noted (hmore.alone _), List.append_assoc]
    rfl
  attended := h.attended.append hmore.attended

theorem mapM_commands {m : Type → Type} [Monad m] [LawfulMonad m] [Reporting m] (store : Store m) (message : Message) :
    ([message].filterMap Message.command?).mapM (Command.runOn store policy) =
      Option.toList <$> message.attempt store policy := by
  rw [Message.attempt]
  cases hc : message.command? with
  | none => simp [hc]
  | some c => simp [hc]

theorem Undisturbed.attention {result : Option (Except ReconcileError Report)} {xs : List Exchange}
    {answer : Except ConsumerError Unit} (h : Attempt store policy message s result xs t) :
    Undisturbed store policy s (attention timeout message xs answer) result.toList t where
  alone log := by
    rw [commands, delivered_attention, mapM_commands, exchanges_attention, StateT.run_map, StateT.run_map, h.alone]
    rfl
  attended := by
    have hattended : Attended store policy s (CatalogSync.attention timeout message xs answer ++ []) t :=
      .message h (.done t)
    rw [List.append_nil] at hattended
    exact hattended

/-- The source is called, but no message comes or is committed. -/
theorem Undisturbed.aside {h : Happening} (hmessage : h.message? = none) (hexchange : h.exchange? = none)
    (hcommit : h.isCommit = false) : Undisturbed store policy s [h] [] s where
  alone log := by
    rw [commands, delivered, exchanges, List.filterMap_cons_none hmessage, List.filterMap_cons_none hexchange]
    exact (Undisturbed.refl s).alone log
  attended := .aside hmessage hexchange hcommit (.done s)

theorem Undisturbed.opened {topics : List String} {answer : Except ConsumerError Unit}
    (h : Undisturbed store policy s trace results t) :
    Undisturbed store policy s (.sourced (.subscribe topics answer) :: trace) results t := by
  have hopening : Undisturbed store policy s [.sourced (.subscribe topics answer)] [] s := .aside rfl rfl rfl
  exact hopening.append h

theorem Undisturbed.closed {answer : Except ConsumerError Unit} (h : Undisturbed store policy s trace results t) :
    Undisturbed store policy s (trace ++ [.sourced (.close answer)]) results t := by
  have hclosing : Undisturbed store policy t [.sourced (.close answer)] [] t := .aside rfl rfl rfl
  have hwhole := h.append hclosing
  rw [List.append_nil] at hwhole
  exact hwhole

/-! ### Stretches of the loop -/

/-- What the loop does on the way from `w` to `w'`, and what it counts. -/
structure Stretch (store : Store (StateM σ)) (policy : Policy) (stats : Stats) (w : World σ τ) (trace : List Happening)
    (results : List (Except ReconcileError Report)) (stats' : Stats) (w' : World σ τ) : Prop where
  traced : w'.trace = w.trace ++ trace
  undisturbed : Undisturbed store policy w.store trace results w'.store
  processed : stats'.processed = stats.processed + results.countP (·.isOk)
  handled : stats'.processed + stats'.failed = stats.processed + stats.failed + (delivered trace).length

theorem Stretch.refl (stats : Stats) (w : World σ τ) : Stretch store policy stats w [] [] stats w where
  traced := (List.append_nil _).symm
  undisturbed := .refl w.store
  processed := rfl
  handled := rfl

variable {w'' : World σ τ}

theorem Stretch.append (h : Stretch store policy stats w trace results stats' w')
    (hmore : Stretch store policy stats' w' more rest stats'' w'') :
    Stretch store policy stats w (trace ++ more) (results ++ rest) stats'' w'' where
  traced := by rw [hmore.traced, h.traced, List.append_assoc]
  undisturbed := h.undisturbed.append hmore.undisturbed
  processed := by rw [hmore.processed, h.processed, List.countP_append, Nat.add_assoc]
  handled := by rw [hmore.handled, h.handled, delivered_append, List.length_append, Nat.add_assoc]

/-- The last poll brought no message, and the source said that it is exhausted. -/
def Drained (timeout : Duration) (trace : List Happening) : Prop :=
  ∃ front reply, (∀ message, reply ≠ .ok (some message)) ∧
    trace = front ++ [.sourced (.poll timeout reply), .asked true]

theorem Stretch.attention {result : Option (Except ReconcileError Report)} {xs : List Exchange}
    {answer : Except ConsumerError Unit} {v : τ} (h : Attempt store policy message w.store result xs t) :
    Stretch store policy stats w (attention timeout message xs answer) result.toList
      ((stats.attempted (verdict result)).settled answer)
      ⟨t, v, w.trace ++ CatalogSync.attention timeout message xs answer⟩ where
  traced := rfl
  undisturbed := .attention h
  processed := by rcases result with _ | _ | _ <;> cases answer <;> rfl
  handled := by
    rw [delivered_attention, List.length_singleton]
    rcases result with _ | _ | _
    · cases answer <;> rfl
    · cases answer <;> rfl
    · cases answer <;> exact Nat.add_right_comm ..

theorem Stretch.idle {reply : Except ConsumerError (Option Message)} {ended : Bool} {v : τ}
    (hreply : ∀ message, reply ≠ .ok (some message)) (hprocessed : stats'.processed = stats.processed)
    (hfailed : stats'.failed = stats.failed) :
    Stretch store policy stats w [.sourced (.poll timeout reply), .asked ended] [] stats'
      ⟨w.store, v, w.trace ++ [.sourced (.poll timeout reply), .asked ended]⟩ := by
  have hmessage : Happening.message? (.sourced (.poll timeout reply)) = none := by
    rcases reply with _ | _ | message
    · rfl
    · rfl
    · exact absurd rfl (hreply message)
  have hasked : Undisturbed store policy w.store [.asked ended] [] w.store := .aside rfl rfl rfl
  refine ⟨rfl, (Undisturbed.aside hmessage rfl rfl).append hasked, hprocessed, ?_⟩
  rw [hprocessed, hfailed, delivered, List.filterMap_cons_none hmessage]
  rfl

/-- A round that brings no message, and ends the loop if `ended`. -/
theorem exists_stretch_idle {reply : Except ConsumerError (Option Message)} {ended : Bool} {v : τ}
    (hreply : ∀ message, reply ≠ .ok (some message)) (hprocessed : stats'.processed = stats.processed)
    (hfailed : stats'.failed = stats.failed) :
    ∃ trace results, Stretch store policy stats w trace results stats'
        ⟨w.store, v, w.trace ++ [.sourced (.poll timeout reply)] ++ [.asked ended]⟩ ∧
      trace.countP Happening.isPoll = 1 ∧ (ended = true → Drained timeout trace) := by
  rw [List.append_assoc]
  refine ⟨_, _, .idle hreply hprocessed hfailed, rfl, fun hended => ⟨[], reply, hreply, ?_⟩⟩
  rw [hended]
  rfl

theorem Round.stretch {ended : Bool}
    (h : Round source.traced (Handler.reconciling store.traced policy) timeout stats w stats' ended w') :
    ∃ trace results, Stretch store policy stats w trace results stats' w' ∧ trace.countP Happening.isPoll = 1 ∧
      (ended = true → Drained timeout trace) := by
  cases h with
  | @message message _ answer _ _ _ hpoll hresult hanswer =>
    obtain ⟨v, rfl⟩ := Source.traced_poll hpoll
    obtain ⟨result, xs, t, hattempt, hhandled⟩ := exists_attempt message ⟨w.store, v, _⟩
    obtain ⟨rfl, rfl⟩ := Prod.mk.inj (hhandled.symm.trans hresult)
    obtain ⟨v', rfl⟩ := Source.traced_commit hanswer
    have htrace : w.trace ++ [.sourced (.poll timeout (.ok (some message)))] ++ xs.map .stored ++
        [.sourced (.commit message answer)] = w.trace ++ attention timeout message xs answer := by
      rw [List.append_assoc, List.append_assoc]
      rfl
    rw [htrace]
    exact ⟨_, _, .attention hattempt, polls_attention, by simp⟩
  | nothing hpoll hended =>
    obtain ⟨v, rfl⟩ := Source.traced_poll hpoll
    obtain ⟨v', rfl⟩ := Source.traced_isExhausted hended
    exact exists_stretch_idle (by simp) rfl rfl
  | failure hpoll hended =>
    obtain ⟨v, rfl⟩ := Source.traced_poll hpoll
    obtain ⟨v', rfl⟩ := Source.traced_isExhausted hended
    exact exists_stretch_idle (by simp) rfl rfl

/-- However many rounds there are. -/
theorem Rounds.stretch {total : Option Stats}
    (h : Rounds source.traced (Handler.reconciling store.traced policy) (pure false) timeout limit stats w total w') :
    ∃ stats' trace results, Stretch store policy stats w trace results stats' w' ∧
      match total with
      | none => trace.countP Happening.isPoll = limit
      | some final => final = stats' ∧ Drained timeout trace := by
  induction h with
  | cancelled hcancelled => cases hcancelled
  | spent hcancelled =>
    obtain ⟨-, rfl⟩ := Prod.mk.inj hcancelled
    exact ⟨_, _, _, .refl _ _, rfl⟩
  | last hcancelled hround =>
    obtain ⟨-, rfl⟩ := Prod.mk.inj hcancelled
    obtain ⟨trace, results, hstretch, -, hdrained⟩ := hround.stretch
    exact ⟨_, trace, results, hstretch, rfl, hdrained rfl⟩
  | @next limit _ _ _ _ _ _ total hcancelled hround _ ih =>
    obtain ⟨-, rfl⟩ := Prod.mk.inj hcancelled
    obtain ⟨trace, results, hstretch, hpolls, -⟩ := hround.stretch
    obtain ⟨stats', more, rest, hmore, hend⟩ := ih
    refine ⟨stats', trace ++ more, results ++ rest, hstretch.append hmore, ?_⟩
    cases total with
    | none =>
      dsimp only at hend ⊢
      rw [List.countP_append, hpolls, hend, Nat.add_comm]
    | some final =>
      obtain ⟨hfinal, front, reply, hreply, hlast⟩ := hend
      exact ⟨hfinal, trace ++ front, reply, hreply, by rw [hlast, List.append_assoc]⟩

/-! ### Whole runs -/

/-- What a run comes to after these happenings. It fails over the settings, the subscription and the closing only, and
    it is over only when the source is exhausted. -/
inductive Ending (settings : ConsumerSettings) (limit : Nat) (results : List (Except ReconcileError Report)) :
    List Happening → Option (Except ConsumerError Stats) → Prop
  | misconfigured {fault : ConfigFault} : settings.fault? = some fault →
      Ending settings limit results [] (some (.error (.config fault)))
  | notSubscribed {err : ConsumerError} {answer : Except ConsumerError Unit} :
      Ending settings limit results [.sourced (.subscribe settings.topics (.error err)), .sourced (.close answer)]
        (some (.error err))
  | unfinished {rounds : List Happening} : rounds.countP Happening.isPoll = limit →
      Ending settings limit results (.sourced (.subscribe settings.topics (.ok ())) :: rounds) none
  | finished {rounds : List Happening} {stats : Stats} {answer : Except ConsumerError Unit} :
      Drained settings.pollTimeout rounds → stats.processed = results.countP (·.isOk) →
      stats.processed + stats.failed = (delivered rounds).length →
      Ending settings limit results
        (.sourced (.subscribe settings.topics (.ok ())) :: (rounds ++ [.sourced (.close answer)]))
        (some (answer.map fun _ => stats))

/-- Whatever the source delivers and the store answers. -/
theorem bad_messages_stop_nothing (settings : ConsumerSettings) (source : Source (StateM τ)) (store : Store (StateM σ))
    (policy : Policy) (limit : Nat) (s : σ) (v : τ) :
    let (outcome, w) :=
      (run settings source.traced (Handler.reconciling store.traced policy) (pure false) limit).run ⟨s, v, []⟩
    ∃ results, Undisturbed store policy s w.trace results w.store ∧ Ending settings limit results w.trace outcome := by
  obtain ⟨outcome, w, hrun, hcourse⟩ :=
    exists_course settings source.traced (Handler.reconciling store.traced policy) (pure false) limit ⟨s, v, []⟩
  rw [hrun]
  show ∃ results, Undisturbed store policy s w.trace results w.store ∧ Ending settings limit results w.trace outcome
  cases hcourse with
  | misconfigured hfault => exact ⟨[], .refl s, .misconfigured hfault⟩
  | notSubscribed _ hsubscribe hclose =>
    obtain ⟨v₁, rfl⟩ := Source.traced_subscribe hsubscribe
    obtain ⟨v₂, rfl⟩ := Source.traced_close hclose
    exact ⟨[], (Undisturbed.refl s).closed.opened, .notSubscribed⟩
  | unfinished _ hsubscribe hrounds =>
    obtain ⟨v₁, rfl⟩ := Source.traced_subscribe hsubscribe
    obtain ⟨stats, rounds, results, hstretch, hpolls⟩ := hrounds.stretch
    rw [hstretch.traced]
    exact ⟨results, hstretch.undisturbed.opened, .unfinished hpolls⟩
  | finished _ hsubscribe hrounds hcancelled hclose =>
    obtain ⟨v₁, rfl⟩ := Source.traced_subscribe hsubscribe
    obtain ⟨stats, rounds, results, hstretch, rfl, hdrained⟩ := hrounds.stretch
    obtain ⟨-, rfl⟩ := Prod.mk.inj hcancelled
    obtain ⟨v₂, rfl⟩ := Source.traced_close hclose
    rw [hstretch.traced]
    refine ⟨results, hstretch.undisturbed.closed.opened, .finished hdrained ?_ ?_⟩
    · exact hstretch.processed.trans (Nat.zero_add _)
    · exact hstretch.handled.trans (Nat.zero_add _)

end CatalogSync.Consumer
