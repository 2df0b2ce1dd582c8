import ClassinDashboard.CreateReport
import ClassinDashboard.MissingHomework
import ClassinDashboard.NotifyScope

/-!
From the students with missing homework to the messages that are recorded. A student gets one message
when the preview has a text for each of them; a template always has one, and the model's reply may
leave anybody out without being taken for a failure.
-/

namespace ClassinDashboard

open Py Sql

/-! ### Templates -/

theorem mem_formatTemplate {template : List TemplatePart} {first : MissingRow} {count : Nat}
    {academyName text : String} {c : Char} (htext : .text text ∈ template) (hc : c ∈ text.toList) :
    c ∈ (formatTemplate template first count academyName).toList := by
  unfold formatTemplate
  rw [String.toList_join, List.mem_flatMap]
  exact ⟨text, List.mem_map.mpr ⟨_, htext, rfl⟩, hc⟩

/-- A part with a bracket in it. -/
def TemplatePart.bracket : TemplatePart → Bool
  | text s => '[' ∈ s.toList
  | _ => false

/-- Every template has a bracket before the name. -/
theorem template_bracket (tone : String) :
    ((toneTemplates.lookup tone).getD softTemplate).any TemplatePart.bracket = true := by
  have hall : ∀ entry ∈ toneTemplates, entry.2.any TemplatePart.bracket = true := by decide
  cases hlookup : toneTemplates.lookup tone with
  | none => decide
  | some template => exact hall _ (Table.mem_of_lookup hlookup)

theorem formatTemplate_filled (tone : String) (first : MissingRow) (count : Nat)
    (academyName : String) : stripText (formatTemplate
      ((toneTemplates.lookup tone).getD softTemplate) first count academyName) ≠ "" := by
  obtain ⟨part, hpart, hbracket⟩ := List.any_eq_true.mp (template_bracket tone)
  cases part with
  | text text =>
      rw [Ne, stripText_eq_empty]
      intro hblank
      have hspace := hblank '[' (mem_formatTemplate hpart (of_decide_eq_true hbracket))
      cases hspace
  | _ => cases hbracket

/-- A student has a text that is not blank and can be shown. -/
def HasText (messages : Messages) (uid : Int) : Prop :=
  ∃ text, messages uid = some (.text text) ∧ stripText text ≠ ""

/-- The templates leave nobody out. -/
theorem templateMessages_hasText (academyName tone : String) {byStudent : RowsByStudent}
    (hrows : ∀ entry ∈ byStudent, entry.2 ≠ []) {uid : Int} (huid : uid ∈ byStudent.map Prod.fst) :
    HasText (composeTemplateMessages byStudent academyName tone) uid := by
  unfold composeTemplateMessages
  induction byStudent using List.reverseRecOn with
  | nil => cases huid
  | append_singleton byStudent entry ih =>
      obtain ⟨k, rows⟩ := entry
      rw [List.foldl_append, List.foldl_cons, List.foldl_nil]
      have hlast := hrows (k, rows) (List.mem_append_right _ List.mem_cons_self)
      obtain ⟨first, rest, rfl⟩ := List.exists_cons_of_ne_nil hlast
      by_cases hk : uid = k
      · subst hk
        exact ⟨_, Function.update_self .., formatTemplate_filled tone first _ academyName⟩
      · have hbefore : uid ∈ byStudent.map Prod.fst := by
          simpa [hk] using huid
        obtain ⟨text, htext, hfilled⟩ := ih (fun e he => hrows e (List.mem_append_left _ he)) hbefore
        exact ⟨text, (Function.update_of_ne hk ..).trans htext, hfilled⟩

/-! ### Replies -/

/-- The uid that an entry of the reply names. -/
def namedStudent (entry : PyValue) : Option Int :=
  ((item entry "student_uid").bind intOf).toOption

/-- An entry that the program does not get over: it is no object, or its uid is infinite. -/
def Stops (entry : PyValue) : Prop :=
  entry.isDict = false ∨ ∃ negative, item entry "student_uid" = .ok (.float (.inf negative))

variable (p : Platform)

/-- The text of an entry; without one it is empty. -/
def entryText : PyValue → PyStr
  | .dict items => p.strOf ((items.lookup (.text "message")).getD (.string ""))
  | _ => .text ""

variable {p}

theorem intOf_overflow {value : PyValue} :
    intOf value = .error .overflowError ↔ ∃ negative, value = .float (.inf negative) := by
  cases value with
  | float x => cases x <;> simp [intOf, PyFloat.toInt]
  | str s =>
      cases s with
      | text s => cases htext : intText s.toList <;> simp [intOf, htext]
      | lone => simp [intOf]
  | _ => simp [intOf]

/-- What an entry gives. -/
theorem replyEntry_dict (items : Fields) : replyEntry p (.dict items) =
    match (item (.dict items) "student_uid").bind intOf with
    | .ok uid => .ok (some (uid, entryText p (.dict items)))
    | .error .overflowError => .error (.text "cannot convert float infinity to integer")
    | .error _ => .ok none := rfl

theorem replyEntry_eq_ok {entry : PyValue} {r : Option (Int × PyStr)} :
    replyEntry p entry = .ok r ↔
      ¬Stops entry ∧ r = (namedStudent entry).map fun uid => (uid, entryText p entry) := by
  cases entry with
  | dict items =>
      rw [replyEntry_dict, Stops, namedStudent]
      have hinfinite : (∃ negative, item (.dict items) "student_uid" =
          .ok (.float (.inf negative))) ↔
          (item (.dict items) "student_uid").bind intOf = .error .overflowError := by
        cases hitem : item (.dict items) "student_uid" with
        | ok value => simp [Except.bind, intOf_overflow]
        | error e =>
            have hkey : e = .keyError := by
              unfold item at hitem
              cases hlookup : items.lookup (.text "student_uid") with
              | none =>
                  simp only [hlookup] at hitem
                  cases hitem
                  rfl
              | some value =>
                  simp only [hlookup] at hitem
                  cases hitem
            simp [Except.bind, hkey]
      rw [hinfinite]
      cases (item (.dict items) "student_uid").bind intOf with
      | ok uid => simp [PyValue.isDict, Except.toOption, eq_comm]
      | error e => cases e <;> simp [PyValue.isDict, Except.toOption, eq_comm]
  | _ => simp [replyEntry, Stops, PyValue.isDict]

theorem replyEntry_error {entry : PyValue} {error : PyStr} (h : replyEntry p entry = .error error) :
    ∃ text, error = .text text := by
  unfold replyEntry at h
  split at h
  · split at h
    · cases h
    · cases h
      exact ⟨_, rfl⟩
    · cases h
  · cases h
    exact ⟨_, rfl⟩

theorem replyMessages_isOk {entries : List PyValue} :
    (∃ messages, replyMessages p (.list entries) = .ok messages) ↔
      ∀ entry ∈ entries, ¬Stops entry := by
  refine foldlM_isOk fun out entry => ?_
  constructor
  · rintro ⟨out', h⟩
    obtain ⟨r, hr, _⟩ := map_eq_ok.mp h
    exact (replyEntry_eq_ok.mp hr).1
  · intro h
    exact ⟨_, map_eq_ok.mpr ⟨_, replyEntry_eq_ok.mpr ⟨h, rfl⟩, rfl⟩⟩

/-- A student has the text of the last entry that names the student. -/
theorem replyMessages_last {entries : List PyValue} {messages : Messages}
    (h : replyMessages p (.list entries) = .ok messages) (uid : Int) :
    messages uid =
      (entries.reverse.find? fun entry => namedStudent entry = some uid).map (entryText p) := by
  simp only [replyMessages] at h
  induction entries using List.reverseRecOn generalizing messages with
  | nil =>
      cases pure_eq_ok.mp h
      rfl
  | append_singleton entries entry ih =>
      rw [List.foldlM_append] at h
      obtain ⟨before, hbefore, h⟩ := bind_eq_ok.mp h
      rw [List.foldlM_cons] at h
      obtain ⟨after, hafter, h⟩ := bind_eq_ok.mp h
      cases pure_eq_ok.mp h
      obtain ⟨r, hr, rfl⟩ := map_eq_ok.mp hafter
      obtain ⟨_, rfl⟩ := replyEntry_eq_ok.mp hr
      rw [List.reverse_append, List.reverse_singleton, List.singleton_append, List.find?_cons]
      cases hnamed : namedStudent entry with
      | none => simpa using ih hbefore
      | some named =>
          by_cases huid : uid = named
          · subst huid
            simp
          · simp only [Option.map_some, Function.update_of_ne huid, Option.some.injEq,
              Ne.symm huid, decide_false, ih hbefore]

theorem replyMessages_error {reply : PyValue} {error : PyStr}
    (h : replyMessages p reply = .error error) : ∃ text, error = .text text := by
  unfold replyMessages at h
  split at h
  · refine foldlM_error (P := fun error => ∃ text, error = .text text) ?_ h
    intro out entry e he
    cases hentry : replyEntry p entry with
    | ok r =>
        rw [hentry] at he
        cases he
    | error e' =>
        rw [hentry] at he
        cases he
        exact replyEntry_error hentry
  · cases h
    exact ⟨_, rfl⟩

/-! ### The preview -/

/-- The reply is taken for a failure, of which the page can tell: an exception, no list, or an entry
that the program does not get over. -/
def FailsWhole : Except PyStr PyValue → Prop
  | .error text => ∃ s, text = .text s
  | .ok (.list entries) => ∃ entry ∈ entries, Stops entry
  | .ok _ => True

/-- The last entry for a student has a text that is not blank and can be shown. -/
def Covers (p : Platform) (reply : Except PyStr PyValue) (uid : Int) : Prop :=
  ∃ entries entry text, reply = .ok (.list entries) ∧
    (entries.reverse.find? fun entry => namedStudent entry = some uid) = some entry ∧
    entryText p entry = .text text ∧ stripText text ≠ ""

/-- What the model makes of the students with missing homework. -/
def replyFor (model : Model) (byStudent : RowsByStudent) (academyName : String) :
    Except PyStr PyValue :=
  model academyName (byStudent.filterMap fun (uid, rows) => studentPayload uid rows)

/-- Everybody has a text, and what went wrong can be shown. -/
def Shown (byStudent : RowsByStudent) (composed : Messages × Option PyStr) : Prop :=
  (∀ uid ∈ byStudent.map Prod.fst, HasText composed.1 uid) ∧
    ∀ text, composed.2 = some text → ∃ s, text = .text s

theorem hasText_replyMessages {entries : List PyValue} {messages : Messages}
    (h : replyMessages p (.list entries) = .ok messages) (uid : Int) :
    HasText messages uid ↔ Covers p (.ok (.list entries)) uid := by
  unfold HasText Covers
  rw [replyMessages_last h]
  constructor
  · rintro ⟨text, htext, hfilled⟩
    obtain ⟨entry, hentry, htext⟩ := Option.map_eq_some_iff.mp htext
    exact ⟨entries, entry, text, rfl, hentry, htext, hfilled⟩
  · rintro ⟨_, entry, text, heq, hentry, htext, hfilled⟩
    cases heq
    exact ⟨text, Option.map_eq_some_iff.mpr ⟨entry, hentry, htext⟩, hfilled⟩

/-- A reply is read unless it fails as a whole. -/
theorem replyMessages_goes {value : PyValue} :
    (∃ messages, replyMessages p value = .ok messages) ↔ ¬FailsWhole (.ok value) := by
  cases value with
  | list entries =>
      rw [replyMessages_isOk]
      constructor
      · intro hgoes hfails
        obtain ⟨entry, hentry, hstops⟩ := hfails
        exact hgoes entry hentry hstops
      · exact fun hgoes entry hentry hstops => hgoes ⟨entry, hentry, hstops⟩
  | _ => exact ⟨fun h => (nomatch h), fun h => absurd trivial h⟩

theorem shown_iff (model : Model) {byStudent : RowsByStudent} (hne : byStudent ≠ [])
    (hrows : ∀ entry ∈ byStudent, entry.2 ≠ []) (tone academyName : String) :
    Shown byStudent (composeMessages p (some model) byStudent "ai" tone academyName) ↔
      FailsWhole (replyFor model byStudent academyName) ∨
        ∀ uid ∈ byStudent.map Prod.fst, Covers p (replyFor model byStudent academyName) uid := by
  have htemplates (error : PyStr) : Shown byStudent
      (composeTemplateMessages byStudent academyName tone, some error) ↔ ∃ text, error = .text text :=
    ⟨fun h => h.2 error rfl, fun h => ⟨fun uid huid => templateMessages_hasText academyName tone hrows huid,
      fun _ heq => Option.some.inj heq ▸ h⟩⟩
  obtain ⟨student, hstudent⟩ : ∃ uid, uid ∈ byStudent.map Prod.fst := by
    obtain ⟨entry, rest, rfl⟩ := List.exists_cons_of_ne_nil hne
    exact ⟨entry.1, List.mem_cons_self⟩
  have hcompose : composeAiMessages p model byStudent academyName =
      replyFor model byStudent academyName >>= replyMessages p := rfl
  rw [composeMessages, if_pos rfl, hcompose]
  generalize replyFor model byStudent academyName = reply
  cases reply with
  | error text =>
      have hnone : ¬∀ uid ∈ byStudent.map Prod.fst, Covers p (.error text) uid := by
        intro h
        obtain ⟨_, _, _, heq, _⟩ := h student hstudent
        cases heq
      rw [or_iff_left hnone]
      exact htemplates text
  | ok value =>
      have hbind : (Except.ok value : Except PyStr PyValue) >>= replyMessages p =
          replyMessages p value := rfl
      rw [hbind]
      cases hreply : replyMessages p value with
      | error error =>
          refine iff_of_true ((htemplates error).mpr (replyMessages_error hreply)) (.inl ?_)
          by_contra hgoes
          obtain ⟨messages, h⟩ := replyMessages_goes.mpr hgoes
          rw [hreply] at h
          cases h
      | ok messages =>
          rw [or_iff_right (replyMessages_goes.mp ⟨messages, hreply⟩)]
          cases value with
          | list entries =>
              simp only [Shown, hasText_replyMessages hreply]
              exact and_iff_left fun _ h => by cases h
          | _ => cases hreply

/-! ### The form that comes back -/

/-- What a browser posts of the texts that a page puts into its fields. -/
structure Browser where
  hidden : String → String
  textArea : String → String
  /-- Line ends change, but a blank text stays blank and no other text becomes blank. -/
  blank_textArea : ∀ text, stripText (textArea text) = "" ↔ stripText text = ""

/-- The form of the preview, posted as it is. -/
def previewForm (browser : Browser) (preview : List PreviewItem) : List (String × String) :=
  preview.flatMap fun item => [("name_" ++ toString item.uid, browser.hidden item.name),
    ("message_" ++ toString item.uid, browser.textArea item.message)]

theorem suffixOf_append (start suffix : String) : suffixOf start (start ++ suffix) = some suffix := by
  have hprefix : start.toList.isPrefixOf (start.toList ++ suffix.toList) = true :=
    List.isPrefixOf_iff_prefix.mpr (List.prefix_append _ _)
  rw [suffixOf, String.toList_append, if_pos hprefix, List.drop_left, String.ofList_toList]

theorem suffixOf_name (suffix : String) : suffixOf "message_" ("name_" ++ suffix) = none := by
  have hnot : "message_".toList.isPrefixOf ("name_".toList ++ suffix.toList) = false := rfl
  rw [suffixOf, String.toList_append, hnot]
  rfl

theorem intText_uid {uid : Int} (h : SqlValue.inRange uid = true) :
    intText (toString uid).toList = some uid := by
  apply intText_toString
  have hsmall : uid.natAbs ≤ 2 ^ 63 := by
    simp only [SqlValue.inRange, Bool.and_eq_true, decide_eq_true_eq] at h
    omega
  calc uid.natAbs ≤ 2 ^ 63 := hsmall
    _ < 10 ^ 19 := by decide
    _ ≤ 10 ^ maxIntDigits := Nat.pow_le_pow_right (by decide) (by decide)

section Sent

variable {browser : Browser} {preview : List PreviewItem}

theorem preview_wellFormed (hrange : ∀ item ∈ preview, SqlValue.inRange item.uid = true) :
    ∀ field ∈ previewForm browser preview, ¬Malformed field := by
  intro field hfield
  obtain ⟨item, hitem, hfield⟩ := List.mem_flatMap.mp hfield
  rintro ⟨suffix, hsuffix, hnone⟩
  rw [List.mem_cons, List.mem_singleton] at hfield
  rcases hfield with rfl | rfl
  · rw [suffixOf_name] at hsuffix
    cases hsuffix
  · rw [suffixOf_append] at hsuffix
    cases hsuffix
    rw [intText_uid (hrange item hitem)] at hnone
    cases hnone

/-- The form has a message for each item with a text. -/
theorem addressees_preview (hrange : ∀ item ∈ preview, SqlValue.inRange item.uid = true) :
    (previewForm browser preview).filterMap addressee =
      (preview.filter fun item => stripText item.message ≠ "").map PreviewItem.uid := by
  induction preview with
  | nil => rfl
  | cons item preview ih =>
      obtain ⟨hitem, hrest⟩ := List.forall_mem_cons.mp hrange
      have hname : addressee ("name_" ++ toString item.uid, browser.hidden item.name) = none := by
        rw [addressee, suffixOf_name]
        rfl
      have hmessage : addressee ("message_" ++ toString item.uid, browser.textArea item.message) =
          if stripText item.message = "" then none else some item.uid := by
        rw [addressee, suffixOf_append, Option.bind_some, intText_uid hitem]
        simp only [browser.blank_textArea]
      have hform : previewForm browser (item :: preview) =
          ("name_" ++ toString item.uid, browser.hidden item.name) ::
            ("message_" ++ toString item.uid, browser.textArea item.message) ::
              previewForm browser preview := rfl
      rw [hform, List.filterMap_cons_none hname, List.filterMap_cons, hmessage, ih hrest,
        List.filter_cons]
      by_cases hblank : stripText item.message = "" <;> simp [hblank]

/-- Whoever has a text in the preview is notified. -/
theorem notifySend_preview (session : Session)
    (hrange : ∀ item ∈ preview, SqlValue.inRange item.uid = true) :
    (notifySend (some session) (previewForm browser preview)).writes.map NotifyEffect.studentUid =
      (preview.filter fun item => stripText item.message ≠ "").map fun item => some item.uid := by
  have hall : ∀ uid ∈ (preview.filter fun item => stripText item.message ≠ "").map PreviewItem.uid,
      SqlValue.inRange uid = true := by
    rw [List.forall_mem_map]
    exact fun item hitem => hrange item (List.mem_filter.mp hitem).1
  rw [notifySend_uids session (preview_wellFormed hrange), addressees_preview hrange,
    List.takeWhile_eq_self_iff.mpr hall, List.map_map]
  rfl

end Sent

theorem outgoingMessage_filled {form : List (String × String)} {field : String × String}
    {message : OutgoingMessage} (h : outgoingMessage form field = .ok (some message)) :
    message.message ≠ "" := by
  unfold outgoingMessage at h
  split at h
  · cases h
  · obtain ⟨uid, _, h⟩ := bind_eq_ok.mp h
    have hmessage := pure_eq_ok.mp h
    split at hmessage
    · cases hmessage
    · rename_i hne
      cases hmessage
      exact hne

/-- No blank message is recorded. -/
theorem notifySend_filled (session : Session) (form : List (String × String)) :
    ∀ effect ∈ (notifySend (some session) form).writes, effect.message ≠ "" := by
  by_cases hmalformed : ∃ field ∈ form, Malformed field
  · rw [notifySend_malformed session hmalformed]
    exact fun _ h => absurd h List.not_mem_nil
  · obtain ⟨messages, hmessages, hwrites⟩ :=
      notifySend_writes session fun field hfield h => hmalformed ⟨field, hfield, h⟩
    rw [hwrites, List.forall_mem_map]
    intro message hmessage
    have hmem := List.reduceOption_mem_iff.mp ((List.takeWhile_sublist _).mem hmessage)
    obtain ⟨field, _, hfield⟩ := exists_of_mem_mapM hmessages hmem
    exact outgoingMessage_filled hfield

/-! ### From the list to the messages -/

/-- The rows of the missing list, by student. -/
def missingByStudent (store : Store) (session : Session) (since : String) : RowsByStudent :=
  groupOn (fun row => row.record.studentUid) (missingHomeworkRows store (scopeFor session store) since)

theorem previewItem_eq_ok {messages : Messages} {uid : Int} {rows : List MissingRow}
    {item : PreviewItem} (h : previewItem messages uid rows = .ok item) :
    item.uid = uid ∧ (messages uid).getD (.text "") = .text item.message := by
  obtain ⟨text, htext, rfl⟩ := map_eq_ok.mp h
  refine ⟨rfl, ?_⟩
  generalize (messages uid).getD (.text "") = shown at htext
  cases shown with
  | text s =>
      cases htext
      rfl
  | lone points surrogate => cases htext

theorem hasText_iff {messages : Messages} {uid : Int} {message : String}
    (h : (messages uid).getD (.text "") = .text message) :
    HasText messages uid ↔ stripText message ≠ "" := by
  unfold HasText
  cases hmessage : messages uid with
  | none =>
      rw [hmessage] at h
      cases h
      have hblank : stripText "" = "" := by decide
      simp [hblank]
  | some text =>
      rw [hmessage] at h
      cases h
      simp

section Preview

variable {messages : Messages} {byStudent : RowsByStudent} {preview : List PreviewItem}

theorem preview_keys (h : (byStudent.mapM fun (uid, rows) => previewItem messages uid rows) =
    .ok preview) : preview.map PreviewItem.uid = byStudent.map Prod.fst := by
  have hitems := mapM_eq_ok.mp h
  clear h
  induction hitems with
  | nil => rfl
  | cons hitem _ ih => rw [List.map_cons, List.map_cons, ih, (previewItem_eq_ok hitem).1]

theorem preview_hasText (h : (byStudent.mapM fun (uid, rows) => previewItem messages uid rows) =
    .ok preview) {item : PreviewItem} (hitem : item ∈ preview) :
    HasText messages item.uid ↔ stripText item.message ≠ "" := by
  obtain ⟨⟨uid, rows⟩, _, hpreview⟩ := exists_of_mem_mapM h hitem
  obtain ⟨rfl, hmessage⟩ := previewItem_eq_ok hpreview
  exact hasText_iff hmessage

/-- A page can be made when every text can be shown. -/
theorem preview_of_hasText (h : ∀ uid ∈ byStudent.map Prod.fst, HasText messages uid) :
    ∃ preview, (byStudent.mapM fun (uid, rows) => previewItem messages uid rows) = .ok preview := by
  refine mapM_isOk.mpr fun entry hentry => ?_
  obtain ⟨text, htext, _⟩ := h entry.1 (List.mem_map_of_mem hentry)
  refine ⟨_, map_eq_ok.mpr ⟨text, ?_, rfl⟩⟩
  rw [htext]
  rfl

end Preview

/-- When the students of the list get a page. -/
theorem notifyCompose_eq_page {model : Model} {store : Store} {session : Session}
    {since tone academyName : String} {preview : List PreviewItem}
    (hrows : missingHomeworkRows store (scopeFor session store) since ≠ []) :
    (∃ error, notifyCompose p (some model) store (some session) since "ai" tone academyName =
      .ok (.page preview error)) ↔
    ((missingByStudent store session since).mapM fun (uid, rows) => previewItem
        (composeMessages p (some model) (missingByStudent store session since) "ai" tone
          academyName).1 uid rows) = .ok preview ∧
      ∀ text, (composeMessages p (some model) (missingByStudent store session since) "ai" tone
        academyName).2 = some text → ∃ s, text = .text s := by
  have hfull : (missingHomeworkRows store (scopeFor session store) since).isEmpty = false := by
    rwa [List.isEmpty_eq_false_iff]
  unfold notifyCompose missingByStudent
  simp only [hfull, Bool.false_eq_true, if_false]
  generalize groupOn (fun row => row.record.studentUid)
    (missingHomeworkRows store (scopeFor session store) since) = byStudent
  obtain ⟨messages, error⟩ := composeMessages p (some model) byStudent "ai" tone academyName
  simp only [bind_eq_ok, pure_eq_ok]
  constructor
  · rintro ⟨_, preview', hpreview, error', herror, heq⟩
    cases heq
    refine ⟨hpreview, ?_⟩
    rintro text rfl
    cases text with
    | text s => exact ⟨s, rfl⟩
    | lone points surrogate => cases herror
  · rintro ⟨hpreview, hshown⟩
    cases error with
    | none => exact ⟨_, preview, hpreview, none, rfl, rfl⟩
    | some text =>
        obtain ⟨s, rfl⟩ := hshown text rfl
        exact ⟨_, preview, hpreview, some s, rfl, rfl⟩

/-- Composing in AI mode and posting the preview as it is notifies each student of the list once, with
a text, and nobody else. -/
def NotifiesAll (p : Platform) (browser : Browser) (model : Model) (store : Store) (session : Session)
    (since tone academyName : String) : Prop :=
  ∃ preview error, notifyCompose p (some model) store (some session) since "ai" tone academyName =
      .ok (.page preview error) ∧
    let effects := (notifySend (some session) (previewForm browser preview)).writes
    (∀ effect ∈ effects, effect.message ≠ "") ∧ (effects.map NotifyEffect.studentUid).Nodup ∧
      ∀ student, student ∈ effects.map NotifyEffect.studentUid ↔
        ∃ row ∈ missingHomeworkRows store (scopeFor session store) since,
          student = some row.record.studentUid

theorem mem_missingByStudent {store : Store} {session : Session} {since : String} {uid : Int} :
    uid ∈ (missingByStudent store session since).map Prod.fst ↔
      ∃ row ∈ missingHomeworkRows store (scopeFor session store) since,
        row.record.studentUid = uid := mem_keys_groupOn

/-- Whoever a sent form is recorded for has a uid that fits into a cell. -/
theorem inRange_of_notified {session : Session} {form : List (String × String)} {uid : Int}
    (h : some uid ∈ (notifySend (some session) form).writes.map NotifyEffect.studentUid) :
    SqlValue.inRange uid = true := by
  by_cases hmalformed : ∃ field ∈ form, Malformed field
  · rw [notifySend_malformed session hmalformed] at h
    cases h
  · rw [notifySend_uids session fun field hfield hbad => hmalformed ⟨field, hfield, hbad⟩] at h
    obtain ⟨_, hwritten, ⟨⟩⟩ := List.mem_map.mp h
    exact List.mem_takeWhile_imp hwritten

/-- If nobody is dropped, the preview has a text for everybody. -/
theorem shown_of_notifiesAll {browser : Browser} {model : Model} {store : Store} {session : Session}
    {since tone academyName : String}
    (hrows : missingHomeworkRows store (scopeFor session store) since ≠ [])
    (h : NotifiesAll p browser model store session since tone academyName) :
    (∀ row ∈ missingHomeworkRows store (scopeFor session store) since,
      SqlValue.inRange row.record.studentUid = true) ∧
    Shown (missingByStudent store session since) (composeMessages p (some model)
      (missingByStudent store session since) "ai" tone academyName) := by
  obtain ⟨preview, error, hpage, _, _, hstudents⟩ := h
  obtain ⟨hpreview, herror⟩ := (notifyCompose_eq_page hrows).mp ⟨error, hpage⟩
  have hnotified {uid : Int} (huid : uid ∈ (missingByStudent store session since).map Prod.fst) :
      some uid ∈ (notifySend (some session) (previewForm browser preview)).writes.map
        NotifyEffect.studentUid := by
    obtain ⟨row, hrow, rfl⟩ := mem_missingByStudent.mp huid
    exact (hstudents _).mpr ⟨row, hrow, rfl⟩
  have hitems : ∀ item ∈ preview, SqlValue.inRange item.uid = true := by
    intro item hitem
    exact inRange_of_notified (hnotified (preview_keys hpreview ▸ List.mem_map_of_mem hitem))
  refine ⟨fun row hrow =>
    inRange_of_notified (hnotified (mem_missingByStudent.mpr ⟨row, hrow, rfl⟩)), ?_, herror⟩
  intro uid huid
  have hmem := hnotified huid
  rw [notifySend_preview session hitems] at hmem
  obtain ⟨item, hitem, ⟨⟩⟩ := List.mem_map.mp hmem
  obtain ⟨hitem, hfilled⟩ := List.mem_filter.mp hitem
  exact (preview_hasText hpreview hitem).mpr (of_decide_eq_true hfilled)

/-- A preview with a text for everybody is recorded for everybody. -/
theorem notifiesAll_of_shown {browser : Browser} {model : Model} {store : Store} {session : Session}
    {since tone academyName : String}
    (hrows : missingHomeworkRows store (scopeFor session store) since ≠ [])
    (hrange : ∀ row ∈ missingHomeworkRows store (scopeFor session store) since,
      SqlValue.inRange row.record.studentUid = true)
    (hshown : Shown (missingByStudent store session since) (composeMessages p (some model)
      (missingByStudent store session since) "ai" tone academyName)) :
    NotifiesAll p browser model store session since tone academyName := by
  obtain ⟨htexts, herror⟩ := hshown
  obtain ⟨preview, hpreview⟩ := preview_of_hasText htexts
  obtain ⟨error, hpage⟩ := (notifyCompose_eq_page hrows).mpr ⟨hpreview, herror⟩
  have hkeys := preview_keys hpreview
  have hitems : ∀ item ∈ preview, SqlValue.inRange item.uid = true := by
    intro item hitem
    obtain ⟨row, hrow, huid⟩ := mem_missingByStudent.mp (hkeys ▸ List.mem_map_of_mem hitem)
    exact huid ▸ hrange row hrow
  have hall : (preview.filter fun item => stripText item.message ≠ "") = preview := by
    rw [List.filter_eq_self]
    intro item hitem
    exact decide_eq_true ((preview_hasText hpreview hitem).mp
      (htexts _ (hkeys ▸ List.mem_map_of_mem hitem)))
  have hnotified : (notifySend (some session) (previewForm browser preview)).writes.map
      NotifyEffect.studentUid = ((missingByStudent store session since).map Prod.fst).map some := by
    rw [notifySend_preview session hitems, hall, ← hkeys, List.map_map]
    rfl
  refine ⟨preview, error, hpage, notifySend_filled session _, ?_, ?_⟩
  · rw [hnotified]
    exact (nodup_keys_groupOn _ _).map (Option.some_injective _)
  · intro student
    rw [hnotified, List.mem_map]
    constructor
    · rintro ⟨uid, huid, rfl⟩
      obtain ⟨row, hrow, huid⟩ := mem_missingByStudent.mp huid
      exact ⟨row, hrow, huid ▸ rfl⟩
    · rintro ⟨row, hrow, rfl⟩
      exact ⟨_, mem_missingByStudent.mpr ⟨row, hrow, rfl⟩, rfl⟩

theorem notifiesAll_iff_shown {browser : Browser} {model : Model} {store : Store} {session : Session}
    {since tone academyName : String}
    (hrows : missingHomeworkRows store (scopeFor session store) since ≠ []) :
    NotifiesAll p browser model store session since tone academyName ↔
      (∀ row ∈ missingHomeworkRows store (scopeFor session store) since,
        SqlValue.inRange row.record.studentUid = true) ∧
      Shown (missingByStudent store session since) (composeMessages p (some model)
        (missingByStudent store session since) "ai" tone academyName) :=
  ⟨shown_of_notifiesAll hrows, fun h => notifiesAll_of_shown hrows h.1 h.2⟩

/-- Nobody is dropped exactly when the uids fit, and the model fails as a whole or has a text for every
student of the list. -/
theorem notifiesAll_iff (p : Platform) (browser : Browser) (model : Model) (store : Store)
    (session : Session) (since tone academyName : String)
    (hrows : missingHomeworkRows store (scopeFor session store) since ≠ []) :
    NotifiesAll p browser model store session since tone academyName ↔
      (∀ row ∈ missingHomeworkRows store (scopeFor session store) since,
        SqlValue.inRange row.record.studentUid = true) ∧
      (FailsWhole (replyFor model (missingByStudent store session since) academyName) ∨
        ∀ row ∈ missingHomeworkRows store (scopeFor session store) since,
          Covers p (replyFor model (missingByStudent store session since) academyName)
            row.record.studentUid) := by
  have hgroups : ∀ entry ∈ missingByStudent store session since, entry.2 ≠ [] :=
    fun _ h => ne_nil_of_mem_groupOn h
  have hne : missingByStudent store session since ≠ [] := by
    obtain ⟨row, hrow⟩ := List.exists_mem_of_ne_nil _ hrows
    intro hnil
    have hmem := mem_missingByStudent.mpr ⟨row, hrow, rfl⟩
    rw [hnil] at hmem
    cases hmem
  rw [notifiesAll_iff_shown hrows, shown_iff model hne hgroups]
  simp only [mem_missingByStudent, forall_exists_index, and_imp, forall_apply_eq_imp_iff₂]

/-! ### Two students -/

/-- Students 9 and 10 attended a lesson with homework, and neither has submitted it. -/
def twoMissing : Store := homeworkRun .plain
  [.deliver (.object [("Cmd", .string "Attendance"), ("_id", .string "a"), ("ClassID", .int 555),
      ("ClassStartTime", .int 1756803600),
      ("Data", .list [.object [("Uid", .int 9), ("AttendanceTime", .int 3600)],
        .object [("Uid", .int 10), ("AttendanceTime", .int 3600)]])]),
    .createActivity "555" 777]

theorem twoMissing_listed {uid : Int} (h : uid = 9 ∨ uid = 10) :
    ∃ row ∈ missingHomeworkRows twoMissing (scopeFor principal twoMissing) "2025-09-01",
      row.record.studentUid = uid := by
  have hhomework : twoMissing.homeworkOf "555" = some 777 := by decide
  have hlisted : Listed twoMissing "2025-09-01" "555" uid := by
    have hflag : ∀ uid ∈ [(9 : Int), 10],
        cellAt twoMissing.records ("555", uid) .homeworkSubmitted ≠ .int 1 := by decide
    have hwindow : ∀ uid ∈ [(9 : Int), 10], inWindow twoMissing "2025-09-01" "555" uid = true := by
      decide
    have huid : uid ∈ [(9 : Int), 10] := by simpa using h
    exact (listed_iff hhomework (hwindow uid huid)).mpr (hflag uid huid)
  obtain ⟨row, hrow, _, huid⟩ := hlisted
  exact ⟨row, hrow, huid⟩

theorem twoMissing_rows : missingHomeworkRows twoMissing (scopeFor principal twoMissing) "2025-09-01" ≠
    [] := by
  obtain ⟨row, hrow, _⟩ := twoMissing_listed (.inl rfl)
  exact List.ne_nil_of_mem hrow

theorem twoMissing_uids {row : MissingRow}
    (hrow : row ∈ missingHomeworkRows twoMissing (scopeFor principal twoMissing) "2025-09-01") :
    row.record.studentUid ∈ [9, 10] := by
  have hstored : ∀ record ∈ twoMissing.allRecords, record.studentUid ∈ [9, 10] := by decide
  obtain ⟨record, hmem, rfl⟩ := List.mem_map.mp hrow
  exact hstored record (mem_allRecords.mpr (mem_lessonRecords.mp (List.mem_filter.mp hmem).1).1)

/-- A browser that posts the texts as they are. -/
def plainBrowser : Browser := ⟨id, id, fun _ => Iff.rfl⟩

def replyAbout (uids : List Int) : PyValue :=
  .list (uids.map fun uid => .object [("student_uid", .int uid), ("message", .string "숙제 부탁드려요.")])

theorem notifiesAll_both : NotifiesAll .plain plainBrowser (fun _ _ => .ok (replyAbout [10, 9]))
    twoMissing principal "2025-09-01" "soft" "우리 학원" := by
  refine (notifiesAll_iff .plain plainBrowser _ twoMissing principal "2025-09-01" "soft" "우리 학원"
    twoMissing_rows).mpr ⟨fun row hrow => ?_, .inr fun row hrow => ?_⟩
  · have hall : ∀ uid ∈ [(9 : Int), 10], SqlValue.inRange uid = true := by decide
    exact hall _ (twoMissing_uids hrow)
  · have huid := twoMissing_uids hrow
    generalize row.record.studentUid = uid at huid
    rw [List.mem_cons, List.mem_singleton] at huid
    rcases huid with rfl | rfl
    · exact ⟨_, _, "숙제 부탁드려요.", rfl, rfl, rfl, by decide⟩
    · exact ⟨_, _, "숙제 부탁드려요.", rfl, rfl, rfl, by decide⟩

/-- The model forgets the second student, who gets no message. -/
theorem forgotten_not_notified :
    ¬∀ (p : Platform) (browser : Browser) (model : Model) (store : Store) (session : Session)
      (since tone academyName : String),
      missingHomeworkRows store (scopeFor session store) since ≠ [] →
        NotifiesAll p browser model store session since tone academyName := by
  intro h
  have hall := h .plain plainBrowser (fun _ _ => .ok (replyAbout [9])) twoMissing principal "2025-09-01"
    "soft" "우리 학원" twoMissing_rows
  obtain ⟨_, htexts, _⟩ := (notifiesAll_iff_shown twoMissing_rows).mp hall
  obtain ⟨row, hrow, huid⟩ := twoMissing_listed (.inr rfl)
  obtain ⟨text, htext, _⟩ := htexts 10 (mem_missingByStudent.mpr ⟨row, hrow, huid⟩)
  cases htext

end ClassinDashboard
