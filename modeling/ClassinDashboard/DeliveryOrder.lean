import ClassinDashboard.CommitLedger
import ClassinDashboard.Flushing
import ClassinDashboard.IngestConvergence

/-!
Messages that are delivered any number of times, in any order and all at once. The handlers of different
messages work on the records between each other's statements; when all have ended, the records are those
of the messages one after the other, each delivered once.
-/

namespace ClassinDashboard

open Py Sql InFlight

/-! ### Deliveries -/

/-- The payload of a request that gets to the message: JSON that can be logged, under the SafeKey. -/
def WebRequest.delivers (d : Deployment) : WebRequest → Option PyValue
  | .webhook (.value raw) =>
      if raw.encodable then
        match if d.webhookSafekey = "" then Except.ok true
          else verifyWebhookSafekey d.platform raw d.webhookSafekey with
        | .ok true => some raw
        | .ok false | .error _ => none
      else none
  | _ => none

/-- The payloads that are delivered in a run, in order of arrival. -/
def deliveries (d : Deployment) : List (Action Visit) → List PyValue
  | [] => []
  | .arrive visit :: actions => (visit.request.delivers d).toList ++ deliveries d actions
  | .commit _ :: actions => deliveries d actions

section Deliveries

variable (d : Deployment)

theorem mem_deliveries {actions : List (Action Visit)} {raw : PyValue} :
    raw ∈ deliveries d actions ↔ ∃ visit, .arrive visit ∈ actions ∧ visit.request.delivers d = some raw := by
  induction actions with
  | nil => exact ⟨fun h => absurd h List.not_mem_nil, fun ⟨_, h, _⟩ => absurd h List.not_mem_nil⟩
  | cons action actions ih =>
      cases action with
      | arrive visit =>
          rw [deliveries, List.mem_append, Option.mem_toList, ih]
          constructor
          · rintro (h | ⟨other, hother, h⟩)
            · exact ⟨visit, List.mem_cons_self, h⟩
            · exact ⟨other, List.mem_cons_of_mem _ hother, h⟩
          · rintro ⟨other, hother, h⟩
            rcases List.mem_cons.mp hother with hsame | hother
            · cases hsame
              exact .inl h
            · exact .inr ⟨other, hother, h⟩
      | commit index =>
          rw [deliveries, ih]
          constructor
          · rintro ⟨other, hother, h⟩
            exact ⟨other, List.mem_cons_of_mem _ hother, h⟩
          · rintro ⟨other, hother, h⟩
            rcases List.mem_cons.mp hother with hsame | hother
            · cases hsame
            · exact ⟨other, hother, h⟩

variable (store : Store) (session : Option Session)

/-- A delivery commits its line of the raw log and its message. -/
theorem commits_of_delivers {request : WebRequest} {raw : PyValue} (h : request.delivers d = some raw) :
    request.commits d store session = .raw raw :: messageCommits d raw := by
  cases request with
  | webhook body =>
      cases body with
      | value payload =>
          simp only [WebRequest.delivers] at h
          simp only [WebRequest.commits, webhookCommits]
          by_cases hencodable : payload.encodable
          · rw [if_pos hencodable] at h ⊢
            generalize (if d.webhookSafekey = "" then Except.ok true
              else verifyWebhookSafekey d.platform payload d.webhookSafekey) = verified at h ⊢
            cases verified with
            | error e => cases h
            | ok accepted =>
                cases accepted with
                | false => cases h
                | true => cases h; rfl
          · rw [if_neg hencodable] at h
            cases h
      | _ => cases h
  | _ => cases h

/-- A message only queues the event it is read as. -/
theorem readEvent_of_event {raw : PyValue} {row : EventRow} (h : Commit.event row ∈ messageCommits d raw) :
    ∃ event, readEvent d.platform raw = .ok (event, row) := by
  unfold messageCommits at h
  cases hread : readEvent d.platform raw with
  | error e =>
      rw [hread] at h
      cases h
  | ok read =>
      obtain ⟨event, row'⟩ := read
      rw [hread] at h
      obtain h | h := List.mem_cons.mp h
      · cases h
        exact ⟨event, rfl⟩
      · obtain ⟨w, _, hw⟩ := List.mem_map.mp h
        cases hw

/-- An event is only ever queued for a payload that is delivered. -/
theorem delivers_of_event {request : WebRequest} {row : EventRow}
    (h : Commit.event row ∈ request.commits d store session) :
    ∃ raw event, request.delivers d = some raw ∧ readEvent d.platform raw = .ok (event, row) := by
  by_cases hwebhook : ∃ body, request = .webhook body
  · obtain ⟨body, rfl⟩ := hwebhook
    cases body with
    | value raw =>
        simp only [WebRequest.commits, webhookCommits] at h
        simp only [WebRequest.delivers]
        by_cases hencodable : raw.encodable
        · rw [if_pos hencodable] at h ⊢
          generalize (if d.webhookSafekey = "" then Except.ok true
            else verifyWebhookSafekey d.platform raw d.webhookSafekey) = verified at h ⊢
          cases verified with
          | error e => cases List.mem_singleton.mp h
          | ok accepted =>
              cases accepted with
              | false => cases List.mem_singleton.mp h
              | true =>
                  obtain h | h := List.mem_cons.mp h
                  · cases h
                  · obtain ⟨event, hread⟩ := readEvent_of_event d h
                    exact ⟨raw, event, rfl, hread⟩
        · rw [if_neg hencodable] at h
          cases h
    | _ => cases h
  · have hquiet := commits_quiet d store session request (fun body hbody => hwebhook ⟨body, hbody⟩) _ h
    exact hquiet.1.elim

end Deliveries

/-! ### The events of a run -/

section Runs

variable (d : Deployment)

/-- The rows that are added to the event log are those of payloads that were delivered. -/
theorem events_of_deliveries (app : App) (actions : List (Action Visit)) :
    ∃ events, ((dashboard d).run app.idle actions).shared.site.store.events.rows =
        app.site.store.events.rows ++ events ∧
      ∀ row ∈ events, ∃ raw ∈ deliveries d actions, ∃ event, readEvent d.platform raw = .ok (event, row) := by
  have hinvariant : Invariant (dashboard d)
      (fun _ visit => ∀ raw, visit.request.delivers d = some raw → raw ∈ deliveries d actions)
      (fun now => ∃ events, now.site.store.events.rows = app.site.store.events.rows ++ events ∧
        ∀ row ∈ events, ∃ raw ∈ deliveries d actions, ∃ event, readEvent d.platform raw = .ok (event, row))
      (Each fun _ k => ∀ row, k = .event row →
        ∃ raw ∈ deliveries d actions, ∃ event, readEvent d.platform raw = .ok (event, row)) := by
    apply Invariant.ofEach
    · intro now visit hP hok
      refine ⟨?_, ?_⟩
      · show ∃ events, (now.accept d visit).1.site.store.events.rows = _ ∧ _
        rwa [store_accept]
      · rintro k hk row rfl
        obtain ⟨raw, event, hdelivers, hread⟩ := delivers_of_event d _ _ hk
        exact ⟨raw, hok raw hdelivers, event, hread⟩
    · exact fun _ _ hk => hk
    · intro now k ⟨events, hrows, hevents⟩ hk
      refine ⟨events ++ k.logs now, ?_, ?_⟩
      · show (now.apply k).1.site.store.events.rows = _
        rw [events_apply, hrows, List.append_assoc]
      · intro row hrow
        rcases List.mem_append.mp hrow with hold | hnew
        · exact hevents row hold
        · cases k with
          | event row' =>
              rw [Commit.logs] at hnew
              split at hnew
              · cases hnew
              · exact hk row (congrArg Commit.event (List.mem_singleton.mp hnew).symm)
          | _ => cases hnew
    · exact fun _ _ hother => hother
  refine (hinvariant.run_of_mem ⟨⟨[], (List.append_nil _).symm, ?_⟩, ?_⟩ ?_).shared
  · exact fun _ hrow => absurd hrow List.not_mem_nil
  · exact fun _ hqueue => absurd hqueue List.not_mem_nil
  · exact fun visit hvisit raw hraw => (mem_deliveries d).mpr ⟨visit, hvisit, hraw⟩

theorem seen_insertEvent {store : Store} {row : EventRow} {m : String} (h : row.msgId = some m) :
    m ∈ (insertEvent store row).2.events.seen := by
  show m ∈ (store.events.insertOrIgnore row).2.seen
  rw [EventLog.seen_insertOrIgnore, h]
  cases hdup : store.events.isDuplicate (some m) with
  | true =>
      obtain ⟨m', hm', hsame⟩ := (EventLog.isDuplicate_iff _ _).mp hdup
      rw [if_pos rfl, Option.some.inj hsame]
      exact hm'
  | false =>
      rw [if_neg Bool.false_ne_true]
      exact List.mem_append_right _ List.mem_cons_self

theorem seen_apply {app : App} {m : String} (h : m ∈ app.site.store.events.seen) (k : Commit) :
    m ∈ (app.apply k).1.site.store.events.seen := by
  cases k with
  | event row =>
      show m ∈ (app.site.store.events.insertOrIgnore row).2.seen
      rw [EventLog.seen_insertOrIgnore]
      split
      · exact h
      · exact List.mem_append_left _ h
  | statement s =>
      show m ∈ (s.run app.site.store).events.seen
      rwa [run_events]
  | account w => cases w <;> exact h
  | _ => exact h

/-- What a commit of a delivery brings about, and nothing undoes, is so when all requests have ended. -/
theorem reached_by_delivery (Q : App → Prop) {k : Commit} {front rest : List Commit}
    (haccept : ∀ {app} visit, Q app → Q (app.accept d visit).1)
    (happly : ∀ {app} k, Q app → Q (app.apply k).1) (hreach : ∀ app : App, Q (app.apply k).1)
    {app : App} {actions : List (Action Visit)} {raw : PyValue} (hraw : raw ∈ deliveries d actions)
    (hcommits : .raw raw :: messageCommits d raw = front ++ k :: rest)
    (hgoes : ∀ k ∈ front, ∀ app : App, (app.apply k).2 = true)
    (hended : ∀ queue ∈ ((dashboard d).run app.idle actions).running, queue = []) :
    Q ((dashboard d).run app.idle actions).shared := by
  obtain ⟨visit, hvisit, hdelivers⟩ := (mem_deliveries d).mp hraw
  obtain ⟨before, after, rfl⟩ := List.append_of_mem hvisit
  rw [(dashboard d).run_append] at hended ⊢
  generalize (dashboard d).run app.idle before = state at hended ⊢
  have hwaits : (dashboard d).Waits k rest state.running.length ((dashboard d).step state (.arrive visit)) := by
    refine ⟨front, hgoes, ?_⟩
    show (state.running ++ [((dashboard d).accept state.shared visit).2])[state.running.length]? = _
    rw [List.getElem?_concat_length, ← hcommits]
    exact congrArg some (commits_of_delivers d (state.shared.site.after visit.wait).store
      (lookUp d (state.shared.site.after visit.wait) visit.request).1 hdelivers)
  rcases (dashboard d).reached haccept happly hreach (.inl hwaits) after with ⟨front', _, hstill⟩ | hdone
  · have hnone := hended _ (List.mem_of_getElem? hstill)
    exact absurd hnone (List.append_ne_nil_of_right_ne_nil _ (List.cons_ne_nil _ _))
  · exact hdone

/-- A message that is delivered with an id is in the event log when its request has ended. -/
theorem delivered_seen {app : App} {actions : List (Action Visit)} {raw : PyValue} {event : Event}
    {row : EventRow} {m : String} (hraw : raw ∈ deliveries d actions)
    (hread : readEvent d.platform raw = .ok (event, row)) (hm : row.msgId = some m)
    (hended : ∀ queue ∈ ((dashboard d).run app.idle actions).running, queue = []) :
    m ∈ ((dashboard d).run app.idle actions).shared.site.store.events.seen := by
  have hcommits : .raw raw :: messageCommits d raw = [.raw raw] ++ .event row ::
      (handle d.platform event).writes.map fun w => .statement (.write w) := by
    rw [messageCommits, hread]
    rfl
  refine reached_by_delivery d (fun app => m ∈ app.site.store.events.seen) ?_
    (fun k h => seen_apply h k) ?_ hraw hcommits ?_ hended
  · intro app visit h
    rwa [store_accept]
  · intro app
    exact seen_insertEvent hm
  · intro k hk app
    cases List.mem_singleton.mp hk
    rfl

/-! ### The records of a run -/

/-- Record patches are put off until after the event they are for. -/
def recordDeferral (p : Platform) : Deferral App Commit Records RecordPatch EventRow where
  part app := app.site.store.records
  change := applyPatch
  booked app := app.site.store.events.rows
  effects row := patchesOf p row.payload
  owed := owedPatches

theorem record_move {app : App} {k : Commit} {rest : List Commit} (h : Shaped d.platform (k :: rest)) :
    (recordDeferral d.platform).Move app ((dashboard d).apply app k).1 (k :: rest)
      ((dashboard d).left app k rest) := by
  have hrecords := records_commit app k
  have hevents := events_apply app k
  cases h with
  | plain h =>
      have hk := h k List.mem_cons_self
      have hrest := owedPatches_of_plain fun other hother => h other (List.mem_cons_of_mem _ hother)
      have howed := owedPatches_of_plain h
      rw [(hk.logs app).1, List.append_nil] at hevents
      rw [List.filterMap_cons, ← hrest] at howed
      rw [left_plain d hk]
      cases hpatch : k.asPatch with
      | none =>
          rw [hpatch] at hrecords howed
          exact .idle hevents hrecords howed.symm
      | some patch =>
          rw [hpatch] at hrecords howed
          exact .carry patch hevents hrecords howed
  | @event row _ h hpatches =>
      have hrest := owedPatches_of_plain h
      rw [hpatches] at hrest
      cases hdup : app.site.store.events.isDuplicate row.msgId with
      | true =>
          rw [Commit.logs, hdup, if_pos rfl, List.append_nil] at hevents
          refine .idle hevents hrecords ?_
          have hinsert := EventLog.insertOrIgnore_duplicate _ _ hdup
          show owedPatches (if (app.site.store.events.insertOrIgnore row).1 = true then rest else []) = []
          rw [hinsert]
          rfl
      | false =>
          rw [Commit.logs, hdup, if_neg Bool.false_ne_true] at hevents
          refine .book row hevents hrecords rfl ?_
          have hinsert := (EventLog.insertOrIgnore_fresh _ row hdup).1
          show owedPatches (if (app.site.store.events.insertOrIgnore row).1 = true then rest else []) = _
          rw [if_pos hinsert]
          exact hrest
  | refused payload => exact .idle (hevents.trans (List.append_nil _)) hrecords rfl
  | received h => exact .idle (hevents.trans (List.append_nil _)) hrecords rfl

/-- When all requests have ended, the records are those of the new events one after the other. -/
theorem records_of_events {app : App} {actions : List (Action Visit)} {events : List EventRow}
    (hevents : ((dashboard d).run app.idle actions).shared.site.store.events.rows =
      app.site.store.events.rows ++ events)
    (hcommute : events.Pairwise (recordDeferral d.platform).Commute)
    (hended : ∀ queue ∈ ((dashboard d).run app.idle actions).running, queue = []) :
    ((dashboard d).run app.idle actions).shared.site.store.records =
      (events.flatMap fun row => patchesOf d.platform row.payload).foldl applyPatch
        app.site.store.records := by
  have hsettles : (recordDeferral d.platform).Settles app.site.store.events.rows app.site.store.records
      ((dashboard d).run app.idle actions) := by
    refine Deferral.flushed_run (shaped_invariant d) ?_ (fun _ h => record_move d h) ⟨trivial, ?_⟩ ?_ actions
    · intro s visit
      have hstore := store_accept d s visit
      exact ⟨congrArg (fun store => store.events.rows) hstore, congrArg Store.records hstore,
        (commits_shaped d _ _ visit.request).2.2⟩
    · exact fun _ hqueue => absurd hqueue List.not_mem_nil
    · exact ⟨[], (List.append_nil _).symm, .nil, fun _ => rfl⟩
  obtain ⟨items, hbooked, _, hflushed⟩ := hsettles
  obtain rfl : items = events := List.append_cancel_left (hbooked.symm.trans hevents)
  have hnone : ((dashboard d).run app.idle actions).running.flatMap owedPatches = [] := by
    rw [List.flatMap_eq_nil_iff]
    intro queue hqueue
    rw [hended queue hqueue]
    rfl
  have hflushed := hflushed hcommute
  unfold Deferral.flushed at hflushed
  change (((dashboard d).run app.idle actions).running.flatMap owedPatches).foldl _ _ = _ at hflushed
  rw [hnone] at hflushed
  exact hflushed

end Runs

/-! ### Messages one after the other -/

section Messages

variable (p : Platform)

theorem patchesOf_eq {raw : PyValue} {event : Event} {row : EventRow}
    (h : readEvent p raw = .ok (event, row)) : patchesOf p raw = event.patches p := by
  rw [patchesOf, h]
  exact (handle_spec p (Event.admitted h)).writes_eq

theorem effect_eq (records : Records) (raw : PyValue) :
    effect p records raw = (patchesOf p raw).foldl applyPatch records := by
  unfold effect
  cases hread : readEvent p raw with
  | error e =>
      rw [patchesOf, hread]
      rfl
  | ok read => rw [patchesOf_eq p hread]

theorem foldl_effect (raws : List PyValue) (records : Records) :
    raws.foldl (effect p) records = (raws.flatMap (patchesOf p)).foldl applyPatch records := by
  induction raws generalizing records with
  | nil => rfl
  | cons raw raws ih => rw [List.foldl_cons, ih, List.flatMap_cons, List.foldl_append, effect_eq]

variable {p}

/-- The patches of compatible payloads commute, one by one. -/
theorem Compatible.commute {row other : EventRow} (h : Compatible p row.payload other.payload) :
    (recordDeferral p).Commute row other := by
  intro a ha b hb records
  have hpatch {raw : PyValue} {patch : RecordPatch} (hmem : patch ∈ patchesOf p raw) :
      ∃ event ∈ eventOf p raw, ∃ w ∈ event.recordFields p, patch = ((event.lessonKey, w.1), bound p w.2) := by
    cases hread : readEvent p raw with
    | error e =>
        rw [patchesOf, hread] at hmem
        cases hmem
    | ok read =>
        rw [patchesOf_eq p hread] at hmem
        obtain ⟨w, hw, rfl⟩ := List.mem_map.mp hmem
        exact ⟨read.1, eventOf_of_readEvent hread, w, hw, rfl⟩
  obtain ⟨event, hevent, w, hw, rfl⟩ := hpatch ha
  obtain ⟨event', hevent', w', hw', rfl⟩ := hpatch hb
  obtain ⟨hkeys, hcourse⟩ := h event hevent event' hevent'
  apply applyPatch_comm
  intro hsame cells
  replace hsame : (event.lessonKey, w.1) = (event'.lessonKey, w'.1) := hsame
  have hmem : (event.lessonKey, w.1) ∈ event.keys p := List.mem_map_of_mem hw
  have hmem' : (event.lessonKey, w.1) ∈ event'.keys p := hsame ▸ List.mem_map_of_mem hw'
  refine patch_comm_of_kind p (setBy_of_mem p hw) (setBy_of_mem p hw')
    (fun hkind => hkeys hkind _ hmem hmem') ?_ cells
  exact hcourse (Prod.mk.inj hsame).1 (List.ne_nil_of_mem hmem) (List.ne_nil_of_mem hmem')

/-- Two of the payloads with one message id are the same. -/
theorem Fresh.eq_of_id {store : Store} {raws : List PyValue} (h : Fresh p store raws) {raw other : PyValue}
    (hraw : raw ∈ raws) (hother : other ∈ raws) {id : PyStr} (hid : messageId p raw = some id)
    (hsame : messageId p other = some id) : raw = other := by
  have hsymm : Std.Symm fun a b => ∀ x, messageId p a = some x → ∀ y, messageId p b = some y → x ≠ y :=
    ⟨fun _ _ hab y hy x hx hxy => hab x hx y hy hxy.symm⟩
  by_contra hne
  exact (List.pairwise_filterMap.mp h.distinct).forall hraw hother hne id hid id hsame rfl

/-- A payload that is refused has no patches. -/
theorem flatMap_readable (raws : List PyValue) :
    (raws.filter fun raw => (readEvent p raw).toOption.isSome).flatMap (patchesOf p) =
      raws.flatMap (patchesOf p) := by
  induction raws with
  | nil => rfl
  | cons raw raws ih =>
      rw [List.filter_cons, List.flatMap_cons]
      split
      · rw [List.flatMap_cons, ih]
      · rename_i hrefused
        have hnone : patchesOf p raw = [] := by
          rw [patchesOf]
          cases hread : readEvent p raw with
          | error e => rfl
          | ok read =>
              rw [hread] at hrefused
              exact absurd rfl hrefused
        rw [hnone, ih]
        rfl

end Messages

/-! ### Convergence -/

section Convergence

variable (d : Deployment)

/-- What is delivered with distinct ids that were not seen is logged once, however often it comes. -/
theorem payloads_perm {app : App} {actions : List (Action Visit)} {raws : List PyValue}
    {events : List EventRow} (hdelivered : ∀ raw, raw ∈ deliveries d actions ↔ raw ∈ raws)
    (hids : ∀ raw ∈ raws, (messageId d.platform raw).isSome) (hfresh : Fresh d.platform app.site.store raws)
    (hended : ∀ queue ∈ ((dashboard d).run app.idle actions).running, queue = [])
    (hrows : ((dashboard d).run app.idle actions).shared.site.store.events.rows =
      app.site.store.events.rows ++ events)
    (hevents : ∀ row ∈ events, ∃ raw ∈ deliveries d actions, ∃ event,
      readEvent d.platform raw = .ok (event, row)) :
    (events.map (·.payload)).Perm (raws.filter fun raw => (readEvent d.platform raw).toOption.isSome) := by
  have hrow : ∀ row ∈ events, ∃ event, row.payload ∈ raws ∧
      readEvent d.platform row.payload = .ok (event, row) ∧ row.msgId.isSome := by
    intro row hmem
    obtain ⟨raw, hraw, event, hread⟩ := hevents row hmem
    have hid := hids raw ((hdelivered raw).mp hraw)
    rw [msgId_of_readEvent hread, Option.isSome_map] at hid
    rw [payload_of_readEvent hread]
    exact ⟨event, (hdelivered raw).mp hraw, hread, hid⟩
  have hseen : ((dashboard d).run app.idle actions).shared.site.store.events.seen =
      app.site.store.events.seen ++ events.filterMap (·.msgId) := by
    have hlog (log : EventLog) : log.seen = log.rows.filterMap (·.msgId) := by
      rw [EventLog.seen, msgIds, EventLog.rows, List.filterMap_map]
      rfl
    rw [hlog, hlog, hrows, List.filterMap_append]
  have hnodup : (events.filterMap (·.msgId)).Nodup := by
    have hall : ((dashboard d).run app.idle actions).shared.site.store.events.seen.Nodup :=
      ((dashboard d).run app.idle actions).shared.site.store.events.msgIds_nodup
    rw [hseen] at hall
    exact (List.nodup_append.mp hall).2.1
  rw [List.perm_ext_iff_of_nodup]
  · intro raw
    rw [List.mem_map, List.mem_filter]
    constructor
    · rintro ⟨row, hmem, rfl⟩
      obtain ⟨event, hraw, hread, _⟩ := hrow row hmem
      rw [hread]
      exact ⟨hraw, rfl⟩
    · rintro ⟨hraw, hreadable⟩
      obtain ⟨⟨event, row⟩, hread⟩ := exists_ok hreadable
      have hid := hids raw hraw
      rw [msgId_of_readEvent hread, Option.isSome_map] at hid
      obtain ⟨m, hm⟩ := Option.isSome_iff_exists.mp hid
      have hmessage : messageId d.platform raw = some (.text m) := by rw [msgId_of_readEvent hread, hm]; rfl
      have hnow := delivered_seen d ((hdelivered raw).mpr hraw) hread hm hended
      rw [hseen] at hnow
      rcases List.mem_append.mp hnow with hold | hnew
      · exact absurd hold (hfresh.unseen m (List.mem_filterMap.mpr ⟨raw, hraw, hmessage⟩))
      · obtain ⟨row', hmem, hm'⟩ := List.mem_filterMap.mp hnew
        obtain ⟨event', hraw', hread', _⟩ := hrow row' hmem
        have hsame := msgId_of_readEvent hread'
        rw [hm'] at hsame
        exact ⟨row', hmem, hfresh.eq_of_id hraw' hraw hsame hmessage⟩
  · -- rows of one payload have one id
    rw [List.Nodup, List.pairwise_map]
    refine (List.pairwise_filterMap.mp hnodup).imp_of_mem fun {row other} hmem hmem' hne hsame => ?_
    obtain ⟨event, _, hread, hid⟩ := hrow row hmem
    obtain ⟨event', _, hread', _⟩ := hrow other hmem'
    obtain ⟨m, hm⟩ := Option.isSome_iff_exists.mp hid
    rw [← hsame, hread] at hread'
    obtain ⟨_, rfl⟩ := Prod.mk.inj (Except.ok.inj hread')
    exact hne m hm m hm rfl
  · have hraws : raws.Nodup := by
      refine (List.pairwise_filterMap.mp hfresh.distinct).imp_of_mem fun {raw other} hraw _ hne hsame => ?_
      obtain ⟨id, hid⟩ := Option.isSome_iff_exists.mp (hids raw hraw)
      exact hne id hid id (hsame ▸ hid) rfl
    exact hraws.filter _

theorem records_converge {app : App} {actions : List (Action Visit)} {raws : List PyValue}
    (hdelivered : ∀ raw, raw ∈ deliveries d actions ↔ raw ∈ raws)
    (hids : ∀ raw ∈ raws, (messageId d.platform raw).isSome) (hfresh : Fresh d.platform app.site.store raws)
    (hcompatible : raws.Pairwise (Compatible d.platform))
    (hended : ∀ queue ∈ ((dashboard d).run app.idle actions).running, queue = []) :
    ((dashboard d).run app.idle actions).shared.site.store.records =
      (app.site.store.deliverAll d.platform raws).records := by
  obtain ⟨events, hrows, hevents⟩ := events_of_deliveries d app actions
  have hperm := payloads_perm d hdelivered hids hfresh hended hrows hevents
  have hpayloads : (events.map (·.payload)).Pairwise (Compatible d.platform) :=
    (hperm.pairwise_iff fun {_ _} h => Std.Symm.symm _ _ h).mpr (hcompatible.filter _)
  calc ((dashboard d).run app.idle actions).shared.site.store.records
      = (events.flatMap fun row => patchesOf d.platform row.payload).foldl applyPatch
          app.site.store.records :=
        records_of_events d hrows ((List.pairwise_map.mp hpayloads).imp Compatible.commute) hended
    _ = (events.map (·.payload)).foldl (effect d.platform) app.site.store.records := by
        rw [foldl_effect, List.flatMap_map]
    _ = (raws.filter fun raw => (readEvent d.platform raw).toOption.isSome).foldl (effect d.platform)
          app.site.store.records := by
        refine hperm.foldl_eq' (fun raw hraw other hother records => ?_) _
        by_cases hne : raw = other
        · rw [hne]
        · exact effect_comm d.platform (hpayloads.forall hraw hother hne) records
    _ = raws.foldl (effect d.platform) app.site.store.records := by
        rw [foldl_effect, foldl_effect, flatMap_readable]
    _ = (app.site.store.deliverAll d.platform raws).records :=
        (records_deliverAll d.platform hfresh).symm

/-- However often each message is delivered, in whatever order, however the statements of its handler
interleave with those of all other requests: when every request has ended, the lesson records are those of
the messages one after the other, each delivered once, in any order. -/
theorem deliveries_converge (app : App) (actions : List (Action Visit)) (raws : List PyValue)
    (hdelivered : ∀ raw, raw ∈ deliveries d actions ↔ raw ∈ raws)
    (hids : ∀ raw ∈ raws, (messageId d.platform raw).isSome) (hfresh : Fresh d.platform app.site.store raws)
    (hcompatible : raws.Pairwise (Compatible d.platform))
    (hended : ∀ queue ∈ ((dashboard d).run app.idle actions).running, queue = []) :
    ((dashboard d).run app.idle actions).shared.site.store.lessonRecords.rows.Perm
      (app.site.store.deliverAll d.platform raws).lessonRecords.rows :=
  Table.rows_perm_of_find (records_converge d hdelivered hids hfresh hcompatible hended)

/-! ### The raw log -/

theorem request_of_delivers {request : WebRequest} {raw : PyValue} (h : request.delivers d = some raw) :
    request = .webhook (.value raw) := by
  cases request with
  | webhook body =>
      cases body with
      | value payload =>
          rw [WebRequest.delivers] at h
          split at h
          · split at h
            · cases h
              rfl
            · cases h
            · cases h
          · cases h
      | _ => cases h
  | _ => cases h

/-- A line is only ever queued for the payload of a request. -/
theorem raw_mem_commits {store : Store} {session : Option Session} {request : WebRequest} {raw : PyValue}
    (h : Commit.raw raw ∈ request.commits d store session) : request = .webhook (.value raw) := by
  by_cases hwebhook : ∃ body, request = .webhook body
  · obtain ⟨body, rfl⟩ := hwebhook
    cases body with
    | value payload =>
        simp only [WebRequest.commits, webhookCommits] at h
        split at h
        · rcases List.mem_cons.mp h with hraw | hmessage
          · rw [Commit.raw.inj hraw]
          · split at hmessage
            · unfold messageCommits at hmessage
              split at hmessage
              · rcases List.mem_cons.mp hmessage with hevent | hwrite
                · cases hevent
                · obtain ⟨w, _, hw⟩ := List.mem_map.mp hwrite
                  cases hw
              · cases hmessage
            · cases hmessage
            · cases hmessage
        · cases h
    | _ => cases h
  · exact (commits_quiet d store session request (fun body hbody => hwebhook ⟨body, hbody⟩) _ h).1.elim

/-- From an empty raw log, the lines that are delivered are in it when their requests have ended, and
every line of it came with a request. -/
theorem mem_rawLog {app : App} {actions : List (Action Visit)} (hempty : app.site.store.rawLog = [])
    (hended : ∀ queue ∈ ((dashboard d).run app.idle actions).running, queue = []) (raw : PyValue) :
    (raw ∈ deliveries d actions → raw ∈ ((dashboard d).run app.idle actions).shared.site.store.rawLog) ∧
      (raw ∈ ((dashboard d).run app.idle actions).shared.site.store.rawLog →
        ∃ visit, .arrive visit ∈ actions ∧ visit.request = .webhook (.value raw)) := by
  constructor
  · intro hraw
    refine reached_by_delivery d (fun app => raw ∈ app.site.store.rawLog) ?_ ?_
      (fun app => List.mem_append_right _ List.mem_cons_self) hraw (List.nil_append _).symm
      (fun _ hk => absurd hk List.not_mem_nil) hended
    · intro app visit h
      rwa [store_accept]
    · intro app k h
      rw [rawLog_apply]
      exact List.mem_append_left _ h
  · have hinvariant : Invariant (dashboard d)
        (fun _ visit => .arrive visit ∈ actions)
        (fun now => ∀ raw ∈ now.site.store.rawLog,
          ∃ visit, .arrive visit ∈ actions ∧ visit.request = .webhook (.value raw))
        (Each fun _ k => ∀ raw, k = .raw raw →
          ∃ visit, .arrive visit ∈ actions ∧ visit.request = .webhook (.value raw)) := by
      apply Invariant.ofEach
      · intro now visit hP hvisit
        refine ⟨?_, ?_⟩
        · show ∀ raw ∈ (now.accept d visit).1.site.store.rawLog, _
          rwa [store_accept]
        · rintro k hk raw rfl
          exact ⟨visit, hvisit, raw_mem_commits d hk⟩
      · exact fun _ _ hk => hk
      · intro now k hP hk raw hraw
        change raw ∈ (now.apply k).1.site.store.rawLog at hraw
        rw [rawLog_apply] at hraw
        rcases List.mem_append.mp hraw with hold | hnew
        · exact hP raw hold
        · cases k with
          | raw payload => exact hk raw (congrArg Commit.raw (List.mem_singleton.mp hnew).symm)
          | _ => cases hnew
      · exact fun _ _ hother => hother
    refine (hinvariant.run_of_mem ⟨?_, fun _ hqueue => absurd hqueue List.not_mem_nil⟩ ?_).shared raw
    · intro raw hraw
      change raw ∈ app.site.store.rawLog at hraw
      rw [hempty] at hraw
      cases hraw
    · exact fun visit hvisit => hvisit

/-- The raw log is enough to get the lesson records back: a process that starts from the same database
and gets every line of the log posted again, in any order, any number of times and all at once if need be,
has the records that the first process had. -/
theorem raw_log_rebuilds_records (app : App) (actions : List (Action Visit)) (raws : List PyValue)
    (hempty : app.site.store.rawLog = []) (hdelivered : ∀ raw, raw ∈ deliveries d actions ↔ raw ∈ raws)
    (hids : ∀ raw ∈ raws, (messageId d.platform raw).isSome) (hfresh : Fresh d.platform app.site.store raws)
    (hcompatible : raws.Pairwise (Compatible d.platform))
    (hended : ∀ queue ∈ ((dashboard d).run app.idle actions).running, queue = [])
    (replay : List (Action Visit))
    (hreplay : ∀ raw, (∃ visit, .arrive visit ∈ replay ∧ visit.request = .webhook (.value raw)) ↔
      raw ∈ ((dashboard d).run app.idle actions).shared.site.store.rawLog)
    (hreplayed : ∀ queue ∈ ((dashboard d).run app.idle replay).running, queue = []) :
    ((dashboard d).run app.idle replay).shared.site.store.lessonRecords.rows.Perm
      ((dashboard d).run app.idle actions).shared.site.store.lessonRecords.rows := by
  have hsame : ∀ raw, raw ∈ deliveries d replay ↔ raw ∈ raws := by
    intro raw
    rw [← hdelivered, mem_deliveries]
    constructor
    · rintro ⟨visit, hvisit, hdelivers⟩
      have hrequest := request_of_delivers d hdelivers
      obtain ⟨visit', hvisit', hrequest'⟩ :=
        (mem_rawLog d hempty hended raw).2 ((hreplay raw).mp ⟨visit, hvisit, hrequest⟩)
      exact (mem_deliveries d).mpr ⟨visit', hvisit', by rw [hrequest', ← hrequest, hdelivers]⟩
    · intro hraw
      obtain ⟨visit, hvisit, hrequest⟩ := (hreplay raw).mpr ((mem_rawLog d hempty hended raw).1 hraw)
      obtain ⟨visit', _, hdelivers⟩ := (mem_deliveries d).mp hraw
      exact ⟨visit, hvisit, by rw [hrequest, ← request_of_delivers d hdelivers, hdelivers]⟩
  apply Table.rows_perm_of_find
  exact (records_converge d hsame hids hfresh hcompatible hreplayed).trans
    (records_converge d hdelivered hids hfresh hcompatible hended).symm

end Convergence

/-- Messages that are posted at once, and the commits of their handlers in some order. -/
def posted (raws : List PyValue) (commits : List Nat) : List (Action Visit) :=
  raws.map (fun raw => .arrive ⟨1, .webhook (.value raw)⟩) ++ commits.map .commit

theorem mem_posted {raws : List PyValue} {commits : List Nat} {raw : PyValue} :
    (∃ visit, .arrive visit ∈ posted raws commits ∧ visit.request = .webhook (.value raw)) ↔ raw ∈ raws := by
  constructor
  · rintro ⟨visit, hvisit, hrequest⟩
    rcases List.mem_append.mp hvisit with harrive | hcommit
    · obtain ⟨raw', hraw', harrive⟩ := List.mem_map.mp harrive
      cases harrive
      cases hrequest
      exact hraw'
    · obtain ⟨_, _, hcommit⟩ := List.mem_map.mp hcommit
      cases hcommit
  · intro hraw
    exact ⟨⟨1, .webhook (.value raw)⟩, List.mem_append_left _ (List.mem_map_of_mem hraw), rfl⟩

/-- The messages of one lesson, each posted twice, with all their handlers at work at once. -/
def oneLessonAtOnce : List (Action Visit) :=
  posted (oneLesson ++ oneLesson.reverse) (List.replicate 12 (List.range 8)).flatten

/-- The messages posted again, one handler after the other. -/
def oneLessonReplayed : List (Action Visit) := posted oneLesson ((List.range 4).flatMap (List.replicate 12))

theorem mem_oneLessonAtOnce (raw : PyValue) :
    raw ∈ deliveries kimsDeployment oneLessonAtOnce ↔ raw ∈ oneLesson := by
  have hall : deliveries kimsDeployment oneLessonAtOnce = oneLesson ++ oneLesson.reverse := by rfl
  rw [hall, List.mem_append, List.mem_reverse, or_self]

theorem oneLesson_fresh : Fresh .plain kimsSchool oneLesson :=
  ⟨by decide +kernel, fun _ _ => List.not_mem_nil⟩

theorem ended_of_all {state : State App Commit} (h : state.running.all List.isEmpty = true) :
    ∀ queue ∈ state.running, queue = [] :=
  fun queue hqueue => List.isEmpty_iff.mp (List.all_eq_true.mp h queue hqueue)

theorem oneLessonAtOnce_converges :
    ((dashboard kimsDeployment).run (App.start kimsSchool .empty 0).idle
        oneLessonAtOnce).shared.site.store.lessonRecords.rows.Perm
      (kimsSchool.deliverAll .plain oneLesson).lessonRecords.rows :=
  deliveries_converge kimsDeployment (App.start kimsSchool .empty 0) oneLessonAtOnce oneLesson
    mem_oneLessonAtOnce (by decide +kernel) oneLesson_fresh (by decide +kernel)
    (ended_of_all (by decide +kernel))

theorem oneLesson_rebuilt :
    ((dashboard kimsDeployment).run (App.start kimsSchool .empty 0).idle
        oneLessonReplayed).shared.site.store.lessonRecords.rows.Perm
      ((dashboard kimsDeployment).run (App.start kimsSchool .empty 0).idle
        oneLessonAtOnce).shared.site.store.lessonRecords.rows := by
  have hended : ∀ queue ∈ ((dashboard kimsDeployment).run (App.start kimsSchool .empty 0).idle
      oneLessonAtOnce).running, queue = [] := ended_of_all (by decide +kernel)
  refine raw_log_rebuilds_records kimsDeployment (App.start kimsSchool .empty 0) oneLessonAtOnce oneLesson
    rfl mem_oneLessonAtOnce (by decide +kernel) oneLesson_fresh (by decide +kernel) hended oneLessonReplayed ?_
    (ended_of_all (by decide +kernel))
  intro raw
  have hlog := mem_rawLog kimsDeployment (by rfl) hended raw
  rw [oneLessonReplayed, mem_posted]
  constructor
  · exact fun hraw => hlog.1 ((mem_oneLessonAtOnce raw).mpr hraw)
  · intro hraw
    obtain ⟨visit, hvisit, hrequest⟩ := hlog.2 hraw
    have hposted := mem_posted.mp ⟨visit, hvisit, hrequest⟩
    rwa [List.mem_append, List.mem_reverse, or_self] at hposted

end ClassinDashboard
