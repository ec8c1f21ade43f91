import CatalogSync.Proofs.Order.Shapes
import CatalogSync.Proofs.Plan

/-! What is built up from nothing and taken down again, one by one.

Where nothing was stored, nothing has to be spared; where nothing is kept, nothing is related to it. So a run makes one
call for each entity, in their order, and the two runs together leave the store as it was. -/

namespace CatalogSync

/-! ### Diffs with one side -/

section Diffs
variable {α : Type} [Keyed α]

theorem changes_from_nothing (xs : List α) : (⟨[], xs⟩ : Diff α).changes = ⟨xs, [], []⟩ := by
  simp [Diff.changes, Keyed.keys]

theorem changes_to_nothing (xs : List α) : (⟨xs, []⟩ : Diff α).changes = ⟨[], [], xs⟩ := by
  simp [Diff.changes, Keyed.keys]

end Diffs

namespace LocalStore
variable {es : List Entity} {o : CallOptions}

theorem writeAll_empty (ho : o.validationOnly = false) (hm : o.merge = false) :
    (({} : LocalStore).writeAll o es).2 = ofEntities es := by
  have hempty : ({} : LocalStore).Willing := willing_ofEntities []
  rw [hempty.writeAll_eq ho, hm]
  simp only [merged_false]
  rfl

theorem deleteAll_ofEntities (hn : (Keyed.keys es).Nodup) (ho : o.validationOnly = false)
    (hd : o.deleteDependents = false) : (ofEntities es).deleteAll (Keyed.keys es) o = {} := by
  have hwilling : (ofEntities es).Willing := willing_ofEntities es
  have halike : Alike (ofEntities es) ((ofEntities es).deleteAll (Keyed.keys es) o) := alike_deleteAll
  refine eq_of_get? ⟨?_, ?_⟩ fun k => ?_
  · exact halike.failing.trans hwilling.failing
  · exact halike.available.trans hwilling.available
  · rw [get?_deleteAll ho hd, hwilling.yielding_eq]
    split
    · rfl
    · rename_i hk
      rcases hget : (ofEntities es).get? k with _ | e
      · rfl
      · obtain ⟨f, hf, rfl, -⟩ := (holds_ofEntities hn).known k e hget
        exact absurd (List.mem_map_of_mem hf) hk

end LocalStore

namespace Reconcile
open LocalStore

/-! ### Runs one by one -/

/-- A run over a store in memory: its result, what it leaves stored and the calls that it makes. -/
def recordedRun (s : LocalStore) (policy : Policy) (d : Diff Entity) (p : Provenance) :
    (Except ReconcileError Report × LocalStore) × CallLog :=
  ((apply (Store.ofLocal.recorded : Store (Plan.Rehearsal Id)) policy d p).run s).run {}

variable {policy : Policy} {d : Diff Entity} {p : Provenance} {s : LocalStore} {es : List Entity}

theorem recordedRun_eq : recordedRun s policy d p = (applyIn s policy d p, ⟨(recordedIn s policy d p).2⟩) := by
  refine Prod.ext ?_ rfl
  obtain ⟨xs, result, t, hrun, hrecorded, -⟩ := Dialogue.exists_goes_recorded (apply Dialogue.store policy d p) s {}
  rw [hold_apply] at hrun hrecorded
  rw [recordedRun, hrecorded]
  exact hrun.symm

theorem writeCalls_sequential :
    writeCalls .sequential p es = (order .creation es).map (.upsertOne · Policy.sequential.callOptions p) := by
  cases es with
  | nil => rw [Order.perm_order.eq_nil]; rfl
  | cons e es => exact writeCalls_one_by_one (List.cons_ne_nil e es) rfl

theorem deleteCalls_sequential :
    deleteCalls .sequential p es =
      (Keyed.keys (order .deletion es)).map (.deleteOne · Policy.sequential.callOptions p) := by
  cases es with
  | nil => rw [Order.perm_order.eq_nil]; rfl
  | cons e es => exact deleteCalls_one_by_one (List.cons_ne_nil e es) rfl

theorem reported_sequential (hs : s.Willing) :
    reported .sequential s es = { deleted := Keyed.keys (order .deletion es) } := by
  have heach : reported .sequential s es = { deleted := s.yielding _, failed := List.filter s.refuses _ } := rfl
  have hfailed : (Keyed.keys (order .deletion es)).filter s.refuses = [] :=
    List.filter_eq_nil_iff.mpr fun k _ => by simp [hs.not_refuses]
  rw [heach, hs.yielding_eq, hfailed]

/-- Where nothing is kept, nothing is held back. -/
theorem guarded_of_nothing_kept : (guardOver .sequential s []).deletable es = es ∧
    (guardOver .sequential s []).preserved es = [] := by
  have hdelete : ∀ k, (guardOver .sequential s []).verdict k = .delete := fun k =>
    verdict_eq_delete_iff.mpr ⟨List.not_mem_nil, fun h => Bool.false_ne_true h.1⟩
  exact ⟨List.filter_eq_self.mpr fun e _ => by simp [hdelete], List.filter_eq_nil_iff.mpr fun e _ => by simp [hdelete]⟩

theorem removal_of_nothing_kept (hs : s.Willing) : removal .sequential s [] es =
    (.ok ({ deleted := Keyed.keys (order .deletion es) }, []),
      s.deleteAll (Keyed.keys es) Policy.sequential.callOptions) := by
  obtain ⟨hdeletable, hpreserved⟩ : (guardOver .sequential s []).deletable es = es ∧ _ := guarded_of_nothing_kept
  by_cases hes : es = []
  · subst hes
    have hnone : order .deletion ([] : List Entity) = [] := Order.perm_order.eq_nil
    have hsame : s.deleteAll (Keyed.keys ([] : List Entity)) Policy.sequential.callOptions = s := deleteAll_nil
    rw [hnone, hsame]
    rfl
  · rw [removal_of_available hs.available hes, hdeletable, hpreserved, reported_sequential hs]
    rfl

/-- The question is asked all the same, unless there is nothing to delete. -/
theorem removalCalls_of_nothing_kept : removalCalls .sequential p s [] es =
    (if es.isEmpty then [] else [.related []]) ++
      (Keyed.keys (order .deletion es)).map (.deleteOne · Policy.sequential.callOptions p) := by
  rw [removalCalls, guarded_of_nothing_kept.1, deleteCalls_sequential]
  cases es with
  | nil => rw [Order.perm_order.eq_nil]; rfl
  | cons e es => rfl

theorem run_from_nothing (p : Provenance) (hfault : CatalogSync.fault? es = none) :
    recordedRun {} .sequential ⟨[], es⟩ p =
      ((.ok { provenance := p, created := es.length, upserted := Keyed.keys (order .creation es) }, .ofEntities es),
        ⟨(order .creation es).map (.upsertOne · Policy.sequential.callOptions p)⟩) := by
  have hdiff : fault? (⟨[], es⟩ : Diff Entity) = none := hfault
  have hwritten : writtenIn .sequential ⟨[], es⟩ {} = Keyed.keys (order .creation es) := by
    rw [writtenIn_of_failing rfl, changes_from_nothing, Changes.kept, List.append_nil]
    rfl
  have hfailed : ∀ ks : List EntityRef, ks.filter ({} : LocalStore).refuses = [] := fun ks =>
    List.filter_eq_nil_iff.mpr fun k _ => Bool.false_ne_true
  have hstored : afterWrites .sequential ⟨[], es⟩ {} = .ofEntities es := by
    rw [afterWrites, changes_from_nothing, Changes.kept, List.append_nil, writeAll_empty rfl rfl]
  have hrun : applyIn {} .sequential ⟨[], es⟩ p =
      (.ok { provenance := p, created := es.length, upserted := Keyed.keys (order .creation es) }, .ofEntities es) := by
    rw [applyIn_eq hdiff, removalIn, reportedWrites, hstored, hwritten, hfailed, changes_from_nothing, removal_nil]
    rfl
  have hcalls : (recordedIn {} .sequential ⟨[], es⟩ p).2 =
      (order .creation es).map (.upsertOne · Policy.sequential.callOptions p) := by
    obtain ⟨report, hrecorded, -⟩ : ∃ report, recordedIn {} .sequential ⟨[], es⟩ p = _ ∧ _ :=
      recordedIn_of_available hdiff rfl
    rw [hrecorded, changes_from_nothing, Changes.kept, List.append_nil, writeCalls_sequential]
    exact List.append_nil _
  rw [recordedRun_eq, hrun, hcalls]

theorem run_to_nothing (p : Provenance) (hfault : CatalogSync.fault? es = none) :
    recordedRun (.ofEntities es) .sequential ⟨es, []⟩ p =
      ((.ok { provenance := p, candidates := es.length, deleted := Keyed.keys (order .deletion es) }, {}),
        ⟨(if es.isEmpty then [] else [.related []]) ++
          (Keyed.keys (order .deletion es)).map (.deleteOne · Policy.sequential.callOptions p)⟩) := by
  have hdiff : fault? (⟨es, []⟩ : Diff Entity) = none := Option.or_eq_none_iff.mpr ⟨hfault, rfl⟩
  have hwilling : (ofEntities es).Willing := willing_ofEntities es
  -- Nothing is written, so the guard goes by what is stored already and by an empty list of kept keys.
  have hkept : inTurn .sequential (⟨es, []⟩ : Diff Entity).changes.kept = [] := by
    rw [changes_to_nothing]
    exact perm_inTurn.eq_nil
  have hwritten : writtenIn .sequential ⟨es, []⟩ (ofEntities es) = [] := by
    rw [writtenIn_of_failing hwilling.failing, hkept]
    rfl
  have hstored : afterWrites .sequential ⟨es, []⟩ (ofEntities es) = ofEntities es := by
    rw [afterWrites, changes_to_nothing]
    rfl
  have hremoval : removal .sequential (ofEntities es) [] es = _ := removal_of_nothing_kept hwilling
  rw [deleteAll_ofEntities (fault?_eq_none_iff.mp hfault).2 rfl rfl] at hremoval
  have hrun : applyIn (ofEntities es) .sequential ⟨es, []⟩ p =
      (.ok { provenance := p, candidates := es.length, deleted := Keyed.keys (order .deletion es) }, {}) := by
    rw [applyIn_eq hdiff, removalIn, reportedWrites, hstored, hwritten, hkept, changes_to_nothing, hremoval]
    rfl
  obtain ⟨report, hcalls, -⟩ : ∃ report, recordedIn (ofEntities es) .sequential ⟨es, []⟩ p = _ ∧ _ :=
    recordedIn_of_available hdiff hwilling.available
  rw [hstored, hwritten, changes_to_nothing, removalCalls_of_nothing_kept] at hcalls
  rw [recordedRun_eq, hrun, hcalls]
  rfl

/-! ### Chains and stars -/

section Shapes
open Sample
variable {name : String} {n : Nat}

theorem fault?_chain (hname : name ≠ "") : CatalogSync.fault? (chain name n) = none := by
  refine fault?_eq_none_iff.mpr ⟨fun e he => ?_, ?_⟩
  · obtain ⟨i, -, rfl⟩ := List.mem_map.mp he
    have hkey : Keyed.key (link name i) = _ := key_link
    rw [Keyed.identifier, Keyed.blueprint, hkey]
    exact ⟨numbered_ne_empty, hname⟩
  · rw [chain, Keyed.keys, List.map_map]
    refine List.Nodup.map (fun i j hij => ?_) List.nodup_range
    have hkeys : (link name i).key = (link name j).key := hij
    rw [key_link, key_link] at hkeys
    exact numbered_inj.mp (congrArg (·.identifier) hkeys)

/-- Each entity of a chain comes right after the one that it depends on, each service of a star after the hub, and on
deletion it is the other way round; whatever the names are and however many there are. Where nothing is stored, a chain
is built up link by link and taken down from its end, and nothing is left. -/
theorem chains_and_stars_in_order (name : String) (n : Nat) :
    Order.indices .creation (chain name n) = List.range n ∧
      Order.indices .deletion (chain name n) = (List.range n).reverse ∧
      Order.indices .creation (star name n) = n :: List.range n ∧
      Order.indices .deletion (star name n) = List.range (n + 1) ∧
      (name ≠ "" → ∀ p q, ∃ built torn : Report, built.isClean = true ∧ torn.isClean = true ∧
        recordedRun {} .sequential ⟨[], chain name n⟩ p = ((.ok built, .ofEntities (chain name n)),
          ⟨(chain name n).map (.upsertOne · Policy.sequential.callOptions p)⟩) ∧
        recordedRun (.ofEntities (chain name n)) .sequential ⟨chain name n, []⟩ q = ((.ok torn, {}),
          ⟨(if n = 0 then [] else [.related []]) ++
            (Keyed.keys (chain name n)).reverse.map (.deleteOne · Policy.sequential.callOptions q)⟩)) := by
  refine ⟨Order.indices_chain_creation, Order.indices_chain_deletion, Order.indices_star_creation,
    Order.indices_star_deletion, fun hname p q => ?_⟩
  have hbuilt := run_from_nothing p (fault?_chain (n := n) hname)
  have htorn := run_to_nothing q (fault?_chain (n := n) hname)
  have hreversed : Keyed.keys (chain name n).reverse = (Keyed.keys (chain name n)).reverse := List.map_reverse
  have hempty : (chain name n).isEmpty = true ↔ n = 0 := by
    rw [List.isEmpty_iff_length_eq_zero, Order.length_chain]
  rw [Order.order_chain_creation] at hbuilt
  rw [Order.order_chain_deletion, hreversed, if_congr hempty rfl rfl] at htorn
  exact ⟨_, _, rfl, rfl, hbuilt, htorn⟩

/-- A chain under a name that is itself a number behind a stem. -/
theorem numberedChain_in_order : ∃ torn : Report, torn.isClean = true ∧
    recordedRun (.ofEntities (chain "service-1" 3)) .sequential ⟨chain "service-1" 3, []⟩ .automated =
      ((.ok torn, {}), ⟨.related [] :: ["service-1-2", "service-1-1", "service-1-0"].map fun identifier =>
        .deleteOne ⟨identifier, "service-1"⟩ Policy.sequential.callOptions .automated⟩) := by
  obtain ⟨-, -, -, -, hruns⟩ := chains_and_stars_in_order "service-1" 3
  obtain ⟨-, torn, -, hclean, -, htorn⟩ := hruns (by decide) .automated .automated
  exact ⟨torn, hclean, htorn⟩

end Shapes
end Reconcile
end CatalogSync
