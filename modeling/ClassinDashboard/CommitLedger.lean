import ClassinDashboard.App
import ClassinDashboard.MissingCounts

/-!
The logs and the lesson records while requests interleave. The three logs only grow, an event is logged
only after its payload, and every patch of a logged event is applied once, whatever is committed between
the event and the patch.
-/

namespace ClassinDashboard

open Py Sql InFlight

/-! ### Queues -/

def Commit.asPatch : Commit → Option RecordPatch
  | .statement (.write w) => w.asPatch
  | _ => none

/-- Neither a line of the raw log nor an event. -/
def Commit.Plain : Commit → Prop
  | .raw _ | .event _ => False
  | .statement _ | .account _ | .notification _ => True

/-- A commit that touches neither a log of the webhook nor a record. -/
def Commit.Quiet (k : Commit) : Prop := k.Plain ∧ k.asPatch = none

/-- The record patches of a payload. -/
def patchesOf (p : Platform) (payload : PyValue) : List RecordPatch :=
  match readEvent p payload with
  | .ok (event, _) => (handle p event).writes.filterMap Write.asPatch
  | .error _ => []

/-- What the queues of requests look like. -/
inductive Shaped (p : Platform) : List Commit → Prop
  | plain {queue : List Commit} (h : ∀ k ∈ queue, k.Plain) : Shaped p queue
  | event {row : EventRow} {queue : List Commit} (h : ∀ k ∈ queue, k.Plain)
      (hpatches : queue.filterMap Commit.asPatch = patchesOf p row.payload) :
      Shaped p (.event row :: queue)
  | refused (payload : PyValue) : Shaped p [.raw payload]
  | received {row : EventRow} {queue : List Commit} (h : Shaped p (.event row :: queue)) :
      Shaped p (.raw row.payload :: .event row :: queue)

theorem Shaped.tail {p : Platform} {k : Commit} {rest : List Commit} (h : Shaped p (k :: rest)) :
    Shaped p rest := by
  cases h with
  | plain h => exact .plain fun other hother => h other (List.mem_cons_of_mem _ hother)
  | event h hpatches => exact .plain h
  | refused payload => exact .plain fun _ hk => absurd hk List.not_mem_nil
  | received h => exact h

/-- The payloads of events that are logged before any other line is received. -/
def owedPayloads : List Commit → List PyValue
  | .event row :: _ => [row.payload]
  | _ => []

/-- The patches of an event that is logged. -/
def owedPatches : List Commit → List RecordPatch
  | .raw _ :: _ | .event _ :: _ => []
  | queue => queue.filterMap Commit.asPatch

theorem owedPayloads_of_plain {queue : List Commit} (h : ∀ k ∈ queue, k.Plain) :
    owedPayloads queue = [] := by
  cases queue with
  | nil => rfl
  | cons k rest =>
      have hk := h k List.mem_cons_self
      cases k with
      | event row => exact hk.elim
      | _ => rfl

theorem owedPatches_of_plain {queue : List Commit} (h : ∀ k ∈ queue, k.Plain) :
    owedPatches queue = queue.filterMap Commit.asPatch := by
  cases queue with
  | nil => rfl
  | cons k rest =>
      have hk := h k List.mem_cons_self
      cases k with
      | raw payload => exact hk.elim
      | event row => exact hk.elim
      | _ => rfl

/-! ### What requests put in their queues -/

section Requests

variable (d : Deployment) (store : Store)

theorem create_quiet (answers : Answers) (session : Option Session) (form : CreateForm) :
    ∀ k ∈ (createExecute d.platform answers store session form).writes.filterMap CreateEffect.commit?,
      k.Quiet := by
  intro k hk
  rcases create_commit hk with ⟨_, _, _, rfl⟩ | ⟨_, _, rfl⟩ <;> exact ⟨trivial, rfl⟩

theorem commits_quiet (session : Option Session) (request : WebRequest)
    (h : ∀ body, request ≠ .webhook body) : ∀ k ∈ request.commits d store session, k.Quiet := by
  cases request with
  | webhook body => exact absurd rfl (h body)
  | branches cookie request =>
      intro k hk
      obtain ⟨statement, hstatement, rfl⟩ := List.mem_map.mp hk
      have hquiet := statements_quiet d.platform d.pbkdf2 store session request statement hstatement
      cases statement with
      | write w => exact ⟨trivial, hquiet⟩
      | _ => exact ⟨trivial, rfl⟩
  | account cookie request =>
      intro k hk
      obtain ⟨w, _, rfl⟩ := List.mem_map.mp hk
      cases w <;> exact ⟨trivial, rfl⟩
  | create cookie form answers => exact create_quiet d store answers session form
  | notifySend cookie form =>
      intro k hk
      obtain ⟨effect, _, hcommit⟩ := List.mem_filterMap.mp hk
      obtain ⟨row, _, rfl⟩ := Option.map_eq_some_iff.mp hcommit
      exact ⟨trivial, rfl⟩
  | _ => exact fun _ hk => absurd hk List.not_mem_nil

/-- A request owes nothing yet when it comes in. -/
theorem commits_shaped (session : Option Session) (request : WebRequest) :
    Shaped d.platform (request.commits d store session) ∧
      owedPayloads (request.commits d store session) = [] ∧
      owedPatches (request.commits d store session) = [] := by
  by_cases hwebhook : ∃ body, request = .webhook body
  · obtain ⟨body, rfl⟩ := hwebhook
    have hplain {payload : PyValue} {event : Event} {row : EventRow}
        (hread : readEvent d.platform payload = .ok (event, row)) (hrow : row.payload = payload) :
        Shaped d.platform (.event row ::
          (handle d.platform event).writes.map fun w => .statement (.write w)) := by
      refine .event (fun k hk => ?_) ?_
      · obtain ⟨w, _, rfl⟩ := List.mem_map.mp hk
        trivial
      · rw [patchesOf, hrow, hread, List.filterMap_map]
        rfl
    show Shaped d.platform (webhookCommits d body) ∧ owedPayloads (webhookCommits d body) = [] ∧
      owedPatches (webhookCommits d body) = []
    rcases webhookCommits_cases d body with hnone | ⟨payload, hraw⟩ | ⟨payload, event, row, hread, hrow, hall⟩
    · rw [hnone]
      exact ⟨.plain fun _ hk => absurd hk List.not_mem_nil, rfl, rfl⟩
    · rw [hraw]
      exact ⟨.refused payload, rfl, rfl⟩
    · rw [hall]
      refine ⟨?_, rfl, rfl⟩
      have hreceived := Shaped.received (hplain hread hrow)
      rwa [hrow] at hreceived
  · have hquiet := commits_quiet d store session request fun body hbody => hwebhook ⟨body, hbody⟩
    have hplain : ∀ k ∈ request.commits d store session, k.Plain := fun k hk => (hquiet k hk).1
    refine ⟨.plain hplain, owedPayloads_of_plain hplain, ?_⟩
    rw [owedPatches_of_plain hplain, List.filterMap_eq_nil_iff]
    exact fun k hk => (hquiet k hk).2

end Requests

/-! ### What commits do to the logs and the records -/

section Commits

variable (app : App)

theorem Statement.quiet_of_ne_write {statement : Statement} (h : ∀ w, statement ≠ .write w) :
    statement.Quiet := by
  cases statement with
  | write w => exact absurd rfl (h w)
  | _ => trivial

theorem run_rawLog (statement : Statement) (store : Store) :
    (statement.run store).rawLog = store.rawLog := by
  cases statement with
  | write w => exact write_rawLog store w
  | upsertBranch name sid secret =>
      show (ClassinDashboard.upsertBranch store name sid secret).rawLog = _
      unfold ClassinDashboard.upsertBranch
      split <;> rfl
  | deleteBranch branchId =>
      show (ClassinDashboard.deleteBranch store branchId).2.rawLog = _
      unfold ClassinDashboard.deleteBranch
      split <;> rfl
  | createUser row =>
      rw [Statement.run]
      split <;> rfl

theorem run_events (statement : Statement) (store : Store) :
    (statement.run store).events = store.events := by
  cases statement with
  | write w => exact write_events store w
  | _ => exact (Statement.Quiet.frame (Statement.quiet_of_ne_write fun _ h => by cases h) store).2

/-- The rows that a commit adds to the event log. -/
def Commit.logs (app : App) : Commit → List EventRow
  | .event row => if app.site.store.events.isDuplicate row.msgId then [] else [row]
  | _ => []

theorem events_apply (k : Commit) :
    (app.apply k).1.site.store.events.rows = app.site.store.events.rows ++ k.logs app := by
  cases k with
  | event row =>
      show (app.site.store.events.insertOrIgnore row).2.rows =
        _ ++ if app.site.store.events.isDuplicate row.msgId then [] else [row]
      cases hdup : app.site.store.events.isDuplicate row.msgId with
      | true =>
          rw [EventLog.insertOrIgnore_duplicate _ _ hdup, if_pos rfl, List.append_nil]
          rfl
      | false => rw [EventLog.rows_insertOrIgnore _ _ hdup, if_neg Bool.false_ne_true]
  | statement s =>
      show (s.run app.site.store).events.rows = _ ++ []
      rw [run_events, List.append_nil]
  | account w => cases w <;> exact (List.append_nil _).symm
  | _ => exact (List.append_nil _).symm

/-- The line that a commit adds to the raw log. -/
def Commit.receives : Commit → List PyValue
  | .raw payload => [payload]
  | _ => []

theorem rawLog_apply (k : Commit) :
    (app.apply k).1.site.store.rawLog = app.site.store.rawLog ++ k.receives := by
  cases k with
  | raw payload => rfl
  | event row => exact (List.append_nil _).symm
  | statement s =>
      show (s.run app.site.store).rawLog = _ ++ []
      rw [run_rawLog, List.append_nil]
  | account w => cases w <;> exact (List.append_nil _).symm
  | notification row => exact (List.append_nil _).symm

theorem records_commit (k : Commit) :
    (app.apply k).1.site.store.records =
      (k.asPatch.map (applyPatch app.site.store.records)).getD app.site.store.records := by
  cases k with
  | statement s =>
      cases s with
      | write w => exact records_write _ w
      | _ => exact (Statement.Quiet.frame (Statement.quiet_of_ne_write fun _ h => by cases h) _).1
  | account w => cases w <;> rfl
  | _ => rfl

end Commits

/-! ### Runs -/

section Runs

variable (d : Deployment)

theorem shaped_invariant :
    Invariant (dashboard d) (fun _ _ => True) (fun _ => True) fun _ => Shaped d.platform :=
  Invariant.ofShape (.plain fun _ hk => absurd hk List.not_mem_nil) Shaped.tail
    fun _ visit => (commits_shaped d _ _ visit.request).1

theorem left_plain {app : App} {k : Commit} {rest : List Commit} (h : k.Plain) :
    (dashboard d).left app k rest = rest := by
  cases k with
  | raw payload => exact h.elim
  | event row => exact h.elim
  | _ => rfl

/-- A plain commit leaves the logs of the webhook alone. -/
theorem Commit.Plain.logs {k : Commit} (h : k.Plain) (app : App) :
    k.logs app = [] ∧ k.receives = [] := by
  cases k with
  | raw payload => exact h.elim
  | event row => exact h.elim
  | _ => exact ⟨rfl, rfl⟩

/-- The payloads that were logged as events. -/
def logged (app : App) : List PyValue := app.site.store.events.rows.map (·.payload)

theorem logged_apply (app : App) (k : Commit) :
    logged (app.apply k).1 = logged app ++ (k.logs app).map (·.payload) := by
  rw [logged, events_apply, List.map_append]
  rfl

theorem logged_accept (app : App) (visit : Visit) : logged (app.accept d visit).1 = logged app := by
  unfold logged
  rw [store_accept]

/-- A commit logs an event that its request owes, or receives the line that it comes to owe. -/
theorem logged_step {app : App} {k : Commit} {rest : List Commit} (h : Shaped d.platform (k :: rest)) :
    ((k.logs app).map (·.payload) : Multiset PyValue) + owedPayloads ((dashboard d).left app k rest) ≤
      (owedPayloads (k :: rest) : Multiset PyValue) + k.receives := by
  cases h with
  | plain h =>
      have hk := h k List.mem_cons_self
      have hrest : owedPayloads rest = [] :=
        owedPayloads_of_plain fun other hother => h other (List.mem_cons_of_mem _ hother)
      rw [left_plain d hk, (hk.logs app).1, hrest]
      exact Multiset.zero_le _
  | @event row _ h hpatches =>
      have hleft : owedPayloads ((dashboard d).left app (.event row) rest) = [] := by
        unfold System.left
        split
        · exact owedPayloads_of_plain h
        · rfl
      rw [hleft]
      show (((if _ then [] else [row] : List EventRow).map (·.payload) : List PyValue) :
        Multiset PyValue) + 0 ≤ ([row.payload] : Multiset PyValue) + 0
      split
      · exact Multiset.zero_le _
      · exact le_refl _
  | refused payload => exact Multiset.zero_le _
  | received h => exact le_refl _

/-- Every event takes a line of the raw log that no other event takes. -/
theorem logged_ledger (start : App) (actions : List (Action Visit)) :
    Ledger (· ≤ ·) (fun app => (logged app : Multiset PyValue) + (start.site.store.rawLog : Multiset PyValue))
      (fun app => (app.site.store.rawLog : Multiset PyValue) + (logged start : Multiset PyValue))
      (fun queue => owedPayloads queue) ((dashboard d).run start.idle actions) := by
  refine Ledger.run (fun c h => add_le_add_left h c) (shaped_invariant d) ?_ ?_ ⟨trivial, ?_⟩ ?_ actions
  · intro app visit _
    refine ⟨0, ?_, ?_⟩
    · show ((app.accept d visit).1.site.store.rawLog : Multiset PyValue) + _ = _
      rw [store_accept, add_zero]
    · show (logged (app.accept d visit).1 : Multiset PyValue) + _ +
        (owedPayloads (visit.request.commits d _ _) : Multiset PyValue) ≤ _
      rw [logged_accept, (commits_shaped d _ _ _).2.1]
      rfl
  · intro app k rest _ hshaped
    refine ⟨k.receives, ?_, ?_⟩
    · show ((app.apply k).1.site.store.rawLog : Multiset PyValue) + _ = _
      rw [rawLog_apply, ← Multiset.coe_add, add_right_comm]
    · show (logged (app.apply k).1 : Multiset PyValue) + _ + _ ≤ _
      rw [logged_apply, ← Multiset.coe_add]
      calc (logged app : Multiset PyValue) + ((k.logs app).map (·.payload) : List PyValue)
            + start.site.store.rawLog + owedPayloads ((dashboard d).left app k rest)
          = (logged app : Multiset PyValue) + start.site.store.rawLog
            + (((k.logs app).map (·.payload) : List PyValue)
              + owedPayloads ((dashboard d).left app k rest)) := by
            rw [add_right_comm (logged app : Multiset PyValue), add_assoc]
        _ ≤ (logged app : Multiset PyValue) + start.site.store.rawLog
            + ((owedPayloads (k :: rest) : Multiset PyValue) + k.receives) := by
            exact add_le_add_right (logged_step d hshaped) _
        _ = _ := (add_assoc _ _ _).symm
  · intro queue hqueue
    cases hqueue
  · show (logged start : Multiset PyValue) + _ + 0 ≤ _
    rw [add_zero, add_comm]
    rfl

/-- The three logs only grow. -/
def App.Extends (before after : App) : Prop :=
  before.site.store.rawLog <+: after.site.store.rawLog ∧
    before.site.store.events.rows <+: after.site.store.events.rows ∧
    before.history.rows <+: after.history.rows

theorem extends_run (state : State App Commit) (actions : List (Action Visit)) :
    state.shared.Extends ((dashboard d).run state actions).shared := by
  refine (dashboard d).run_rel (R := App.Extends) (fun app => ?_) (fun h h' => ?_) (fun app visit => ?_)
    (fun app k => ?_) state actions
  · exact ⟨List.prefix_refl _, List.prefix_refl _, List.prefix_refl _⟩
  · exact ⟨h.1.trans h'.1, h.2.1.trans h'.2.1, h.2.2.trans h'.2.2⟩
  · refine ⟨?_, ?_, List.prefix_refl _⟩
    · show _ <+: (app.accept d visit).1.site.store.rawLog
      rw [store_accept]
    · show _ <+: (app.accept d visit).1.site.store.events.rows
      rw [store_accept]
  · refine ⟨?_, ?_, ?_⟩
    · show _ <+: (app.apply k).1.site.store.rawLog
      rw [rawLog_apply]
      exact List.prefix_append _ _
    · show _ <+: (app.apply k).1.site.store.events.rows
      rw [events_apply]
      exact List.prefix_append _ _
    · cases k with
      | notification row => exact List.prefix_append _ _
      | _ => exact List.prefix_refl _

/-- Whatever requests are in flight and however their commits interleave: the raw log, the event log and
the history of notifications only get rows added at the end, and the payloads of the new events are lines
that the raw log has got since, each line for one event at most. -/
theorem logs_only_grow (app : App) (actions : List (Action Visit)) :
    ∃ received events notifications,
      ((dashboard d).run app.idle actions).shared.site.store.rawLog = app.site.store.rawLog ++ received ∧
        ((dashboard d).run app.idle actions).shared.site.store.events.rows =
          app.site.store.events.rows ++ events ∧
        ((dashboard d).run app.idle actions).shared.history.rows = app.history.rows ++ notifications ∧
        (events.map (·.payload)).Subperm received := by
  obtain ⟨⟨received, hraw⟩, ⟨events, hevents⟩, ⟨notifications, hhistory⟩⟩ := extends_run d app.idle actions
  refine ⟨received, events, notifications, hraw.symm, hevents.symm, hhistory.symm, ?_⟩
  have hbalance : (logged ((dashboard d).run app.idle actions).shared : Multiset PyValue) +
      app.site.store.rawLog ≤
        (((dashboard d).run app.idle actions).shared.site.store.rawLog : Multiset PyValue) + logged app :=
    (Multiset.le_add_right _ _).trans (logged_ledger d app actions)
  rw [← hraw, logged, ← hevents, List.map_append, ← Multiset.coe_add, ← Multiset.coe_add,
    add_right_comm, add_assoc, add_comm _ (logged app : Multiset PyValue)] at hbalance
  exact Multiset.coe_le.mp
    (Multiset.add_le_add_iff_left.mp (Multiset.add_le_add_iff_left.mp hbalance))

/-! ### Patches -/

/-- The patches of the logged events. -/
def eventPatches (p : Platform) (app : App) : List RecordPatch :=
  app.site.store.events.rows.flatMap fun row => patchesOf p row.payload

theorem eventPatches_apply (p : Platform) (app : App) (k : Commit) :
    eventPatches p (app.apply k).1 =
      eventPatches p app ++ (k.logs app).flatMap fun row => patchesOf p row.payload := by
  rw [eventPatches, events_apply, List.flatMap_append]
  rfl

/-- A commit applies a patch that its request owes, or logs the event whose patches it comes to owe. -/
theorem patched_step {app : App} {k : Commit} {rest : List Commit} (h : Shaped d.platform (k :: rest)) :
    (k.asPatch.toList : Multiset RecordPatch) + owedPatches ((dashboard d).left app k rest) =
      (owedPatches (k :: rest) : Multiset RecordPatch) +
        (k.logs app).flatMap fun row => patchesOf d.platform row.payload := by
  cases h with
  | plain h =>
      have hk := h k List.mem_cons_self
      have hrest := owedPatches_of_plain fun other hother => h other (List.mem_cons_of_mem _ hother)
      rw [left_plain d hk, (hk.logs app).1, owedPatches_of_plain h, hrest, List.filterMap_cons]
      cases k.asPatch <;> exact (add_zero _).symm
  | @event row _ h hpatches =>
      show (0 : Multiset RecordPatch) + owedPatches (if (insertEvent app.site.store row).1 then rest else []) =
        0 + ((if app.site.store.events.isDuplicate row.msgId then [] else [row] : List EventRow).flatMap
          fun row => patchesOf d.platform row.payload : List RecordPatch)
      cases hdup : app.site.store.events.isDuplicate row.msgId with
      | true =>
          have hinsert : (insertEvent app.site.store row).1 = false :=
            congrArg Prod.fst (EventLog.insertOrIgnore_duplicate _ _ hdup)
          rw [hinsert]
          rfl
      | false =>
          have hinsert : (insertEvent app.site.store row).1 = true :=
            (EventLog.insertOrIgnore_fresh _ _ hdup).1
          rw [if_pos hinsert, if_neg Bool.false_ne_true, List.flatMap_singleton, ← hpatches,
            owedPatches_of_plain h]
  | refused payload => rfl
  | received h => rfl

theorem patched_ledger (start : App) (actions : List (Action Visit)) :
    Ledger (· = ·)
      (fun traced : App × List Commit => (traced.2.filterMap Commit.asPatch : Multiset RecordPatch) +
        (eventPatches d.platform start : Multiset RecordPatch))
      (fun traced => (eventPatches d.platform traced.1 : Multiset RecordPatch))
      (fun queue => owedPatches queue) ((dashboard d).traced.run start.idle.untraced actions) := by
  have hshaped : Invariant (dashboard d).traced (fun _ _ => True) (fun _ => True)
      fun _ => Shaped d.platform :=
    Invariant.ofShape (.plain fun _ hk => absurd hk List.not_mem_nil) Shaped.tail
      fun _ visit => (commits_shaped d _ _ visit.request).1
  refine Ledger.run (fun c h => congrArg (· + c) h) hshaped ?_ ?_ ⟨trivial, ?_⟩ ?_ actions
  · intro traced visit _
    refine ⟨0, ?_, ?_⟩
    · show (eventPatches d.platform (traced.1.accept d visit).1 : Multiset RecordPatch) = _
      rw [eventPatches, store_accept, add_zero]
      rfl
    · show (traced.2.filterMap Commit.asPatch : Multiset RecordPatch) + _ +
        (owedPatches (visit.request.commits d _ _) : Multiset RecordPatch) = _
      rw [(commits_shaped d _ _ _).2.2]
      rfl
  · intro traced k rest _ hshaped
    refine ⟨(k.logs traced.1).flatMap fun row => patchesOf d.platform row.payload, ?_, ?_⟩
    · show (eventPatches d.platform (traced.1.apply k).1 : Multiset RecordPatch) = _
      rw [eventPatches_apply, ← Multiset.coe_add]
    · have htrace : (traced.2 ++ [k]).filterMap Commit.asPatch =
          traced.2.filterMap Commit.asPatch ++ k.asPatch.toList := by
        rw [List.filterMap_append, List.filterMap_cons]
        cases k.asPatch <;> rfl
      calc ((traced.2 ++ [k]).filterMap Commit.asPatch : Multiset RecordPatch)
            + (eventPatches d.platform start : Multiset RecordPatch)
            + (owedPatches ((dashboard d).left traced.1 k rest) : Multiset RecordPatch)
          = (traced.2.filterMap Commit.asPatch : Multiset RecordPatch)
            + (eventPatches d.platform start : Multiset RecordPatch)
            + ((k.asPatch.toList : Multiset RecordPatch)
              + (owedPatches ((dashboard d).left traced.1 k rest) : Multiset RecordPatch)) := by
            rw [htrace, ← Multiset.coe_add, add_right_comm (Multiset.ofList (List.filterMap _ _)),
              add_assoc]
        _ = _ := by rw [patched_step d hshaped, ← add_assoc]
  · intro queue hqueue
    cases hqueue
  · show (0 : Multiset RecordPatch) + _ + 0 = _
    rw [add_zero, zero_add]
    rfl

theorem foldl_records (commits : List Commit) (records : Records) :
    commits.foldl (fun records k => (k.asPatch.map (applyPatch records)).getD records) records =
      (commits.filterMap Commit.asPatch).foldl applyPatch records := by
  induction commits generalizing records with
  | nil => rfl
  | cons k commits ih =>
      rw [List.foldl_cons, ih, List.filterMap_cons]
      cases k.asPatch <;> rfl

/-- Whatever requests are in flight and however their commits interleave: the records are made by
patches of the events logged since, each applied once or still waiting in the queue of its message, and
by nothing else. -/
theorem every_patch_once (app : App) (actions : List (Action Visit)) :
    ∃ applied : List RecordPatch,
      ((dashboard d).run app.idle actions).shared.site.store.records =
          applied.foldl applyPatch app.site.store.records ∧
        (applied ++ ((dashboard d).run app.idle actions).running.flatMap owedPatches).Perm
          ((((dashboard d).run app.idle actions).shared.site.store.events.rows.drop
            app.site.store.events.rows.length).flatMap fun row => patchesOf d.platform row.payload) := by
  obtain ⟨hshared, hrunning⟩ := (dashboard d).traced_run app.idle actions
  have hrecords := (dashboard d).traced_foldl (fun app => app.site.store.records)
    (fun records k => (k.asPatch.map (applyPatch records)).getD records)
    (fun app visit => congrArg Store.records (store_accept d app visit)) records_commit app.idle actions
  obtain ⟨events, hevents⟩ := (extends_run d app.idle actions).2.1
  have hledger := patched_ledger d app actions
  unfold Ledger at hledger
  rw [hrunning] at hledger
  refine ⟨((dashboard d).traced.run app.idle.untraced actions).shared.2.filterMap Commit.asPatch, ?_, ?_⟩
  · rw [← hshared, hrecords, foldl_records]
    rfl
  · have hpatches : eventPatches d.platform ((dashboard d).run app.idle actions).shared =
        eventPatches d.platform app ++ events.flatMap fun row => patchesOf d.platform row.payload := by
      rw [eventPatches, ← hevents, List.flatMap_append]
      rfl
    have hwaiting (queues : List (List Commit)) :
        (queues.map fun queue => Multiset.ofList (owedPatches queue)).sum = queues.flatMap owedPatches := by
      induction queues with
      | nil => rfl
      | cons queue queues ih => rw [List.map_cons, List.sum_cons, ih, List.flatMap_cons, Multiset.coe_add]
    have hnew : ((dashboard d).run app.idle actions).shared.site.store.events.rows.drop
        app.site.store.events.rows.length = events := by
      rw [← hevents]
      exact List.drop_left
    change Multiset.ofList _ + Multiset.ofList _ + _ = Multiset.ofList (eventPatches d.platform _) at hledger
    rw [hwaiting, hshared, hpatches, ← Multiset.coe_add, add_right_comm,
      add_comm (Multiset.ofList (eventPatches d.platform app)), Multiset.coe_add] at hledger
    rw [hnew]
    exact Multiset.coe_eq_coe.mp (add_right_cancel hledger)

end Runs

end ClassinDashboard
