import ClassinDashboard.IngestRun

/-!
The webhook endpoint. It answers with the same envelope whatever happens in the ingest; what can
still escape are the steps around it: the decoding of the body, the raw log, and every `.get` on a
body that is not an object.
-/

namespace ClassinDashboard

open Py Sql

variable (p : Platform)

/-- What `json.loads` makes of a body. -/
inductive Loads
  | value (raw : PyValue)
  | jsonDecodeError
  | unicodeDecodeError

structure Ack where
  errno : Int
  error : String
  deriving DecidableEq

/-- The success envelope. -/
def ack : Ack := ⟨1, "程序正常执行"⟩

/-- `SafeKey == MD5(SECRET + TimeStamp)`. -/
def verifyWebhookSafekey (body : PyValue) (secret : String) : Except PyError Bool := do
  let sent := (← body.getAttr "SafeKey").orElse (← body.getAttr "safeKey")
  let ts := (← body.getAttr "TimeStamp").orElse (← body.getAttr "timeStamp")
  if !sent.truthy || !ts.truthy then pure false
  else do
    let stamp ← (p.strOf ts).encode
    match p.strOf sent with
    | .text s => pure (p.lower s = p.md5Hex (secret ++ stamp))
    | .lone _ _ => pure false

/-- The endpoint after the raw log: SafeKey, then ingest. Both messages about a failure read the body
once more. -/
def receive (safekey : String) (store : Store) (raw : PyValue) : Except PyError Ack × Store :=
  let verified := if safekey = "" then .ok true else verifyWebhookSafekey p raw safekey
  match verified with
  | .error e => (.error e, store)
  | .ok false => ((raw.getAttr "Cmd").map fun _ => ack, store)
  | .ok true =>
      match ingest p store raw with
      | (.ok _, store) => (.ok ack, store)
      | (.error _, store) => ((raw.getAttr "Cmd").map fun _ => ack, store)

def classinWebhook (safekey : String) (store : Store) (body : Loads) : Except PyError Ack × Store :=
  match body with
  | .jsonDecodeError => (.ok ack, store)
  | .unicodeDecodeError => (.error .unicodeDecodeError, store)
  | .value raw =>
      match appendRaw store raw with
      | .error e => (.error e, store)
      | .ok store => receive p safekey store raw

/-! ### What escapes -/

/-- The body is text, and when it is JSON it is an object whose strings can be encoded. -/
def Acceptable : Loads → Prop
  | .jsonDecodeError => True
  | .unicodeDecodeError => False
  | .value raw => raw.isDict = true ∧ raw.encodable = true

instance : DecidablePred Acceptable := fun body => by
  cases body <;> unfold Acceptable <;> infer_instance

theorem encodable_lookup {items : Fields} (h : PyValue.encodableItems items = true) {key : PyStr}
    {value : PyValue} (hlookup : items.lookup key = some value) : value.encodable = true := by
  induction items with
  | nil => cases hlookup
  | cons item items ih =>
      obtain ⟨name, v⟩ := item
      cases name with
      | lone points hp => cases h
      | text s =>
          rw [PyValue.encodableItems, Bool.and_eq_true] at h
          rw [List.lookup_cons] at hlookup
          split at hlookup
          · cases hlookup
            exact h.1
          · exact ih h.2 hlookup

/-- A field of an encodable object is encodable. -/
theorem encodable_get {items : Fields} (h : PyValue.encodableItems items = true) (key : String) :
    (PyValue.get items key).encodable = true := by
  unfold PyValue.get
  cases hlookup : items.lookup (.text key) with
  | none => rfl
  | some value => exact encodable_lookup h hlookup

theorem encodable_orElse {a b : PyValue} (ha : a.encodable = true) (hb : b.encodable = true) :
    (a.orElse b).encodable = true := by
  unfold PyValue.orElse
  split
  · exact ha
  · exact hb

/-- The text of an encodable value is encodable. -/
theorem encode_strOf {value : PyValue} (h : value.encodable = true) :
    ∃ s, (p.strOf value).encode = .ok s := by
  cases value with
  | str s =>
      cases s with
      | text s => exact ⟨s, rfl⟩
      | lone points hp => cases h
  | _ => exact ⟨_, rfl⟩

theorem verifyWebhookSafekey_isOk {items : Fields} (h : PyValue.encodableItems items = true)
    (secret : String) : ∃ b, verifyWebhookSafekey p (.dict items) secret = .ok b := by
  unfold verifyWebhookSafekey
  simp only [PyValue.getAttr, bind, Except.bind, pure, Except.pure]
  split
  · exact ⟨false, rfl⟩
  · have hts := encodable_orElse (encodable_get h "TimeStamp") (encodable_get h "timeStamp")
    obtain ⟨stamp, hstamp⟩ := encode_strOf p hts
    rw [hstamp]
    dsimp only
    split <;> exact ⟨_, rfl⟩

/-- On an encodable object, every path ends in the envelope. -/
theorem receive_acks (safekey : String) (store : Store) {items : Fields}
    (h : PyValue.encodableItems items = true) :
    (receive p safekey store (.dict items)).1 = .ok ack := by
  unfold receive
  have hverified : ∃ b, (if safekey = "" then Except.ok true
      else verifyWebhookSafekey p (.dict items) safekey) = .ok b := by
    split
    · exact ⟨true, rfl⟩
    · exact verifyWebhookSafekey_isOk p h safekey
  obtain ⟨b, hb⟩ := hverified
  dsimp only
  rw [hb]
  cases b with
  | false => rfl
  | true =>
      dsimp only
      cases ingest p store (.dict items) with
      | mk result store => cases result <;> rfl

theorem getAttr_of_not_dict {raw : PyValue} (h : raw.isDict = false) (key : String) :
    raw.getAttr key = .error .attributeError := by
  cases raw <;> first | rfl | cases h

theorem parseEvent_of_not_dict {raw : PyValue} (h : raw.isDict = false) :
    parseEvent p raw = .error .attributeError := by
  cases raw <;> first | rfl | cases h

/-- On anything but an object, every path ends in an `AttributeError`. -/
theorem receive_raises (safekey : String) (store : Store) {raw : PyValue}
    (h : raw.isDict = false) : (receive p safekey store raw).1 = .error .attributeError := by
  unfold receive
  dsimp only
  split_ifs with hkey
  · have hread : readEvent p raw = .error .attributeError := by
      rw [readEvent, parseEvent_of_not_dict p h]
      rfl
    rw [ingest_refused p hread]
    dsimp only
    rw [getAttr_of_not_dict h]
    rfl
  · have hverify : verifyWebhookSafekey p raw safekey = .error .attributeError := by
      rw [verifyWebhookSafekey, getAttr_of_not_dict h]
      rfl
    rw [hverify]

theorem appendRaw_of_encodable (store : Store) {raw : PyValue} (h : raw.encodable = true) :
    appendRaw store raw = .ok { store with rawLog := store.rawLog ++ [raw] } :=
  if_pos h

/-- The endpoint acknowledges exactly the bodies that are not JSON text, and the JSON objects whose
strings can be encoded. -/
theorem classinWebhook_acks_iff (safekey : String) (store : Store) (body : Loads) :
    (classinWebhook p safekey store body).1 = .ok ack ↔ Acceptable body := by
  cases body with
  | jsonDecodeError => exact ⟨fun _ => trivial, fun _ => rfl⟩
  | unicodeDecodeError =>
      constructor
      · intro h
        cases h
      · exact False.elim
  | value raw =>
      simp only [classinWebhook, Acceptable]
      by_cases hencodable : raw.encodable = true
      · rw [appendRaw_of_encodable store hencodable]
        cases hdict : raw.isDict with
        | false =>
            rw [receive_raises p safekey _ hdict]
            constructor
            · intro h
              cases h
            · rintro ⟨h, _⟩
              cases h
        | true =>
            cases raw with
            | dict items =>
                exact ⟨fun _ => ⟨rfl, hencodable⟩, fun _ => receive_acks p safekey _ hencodable⟩
            | _ => cases hdict
      · have hraises : appendRaw store raw = .error .unicodeEncodeError := if_neg hencodable
        rw [hraises]
        constructor
        · intro h
          cases h
        · exact fun h => absurd h.2 hencodable

/-- A body that is acknowledged as JSON is in the raw log, whatever the rest of the endpoint did. -/
theorem classinWebhook_rawLog (safekey : String) (store : Store) {raw : PyValue}
    (h : raw.encodable = true) :
    (classinWebhook p safekey store (.value raw)).2.rawLog = store.rawLog ++ [raw] := by
  have hingest (s : Store) : (ingest p s raw).2.rawLog = s.rawLog := by
    refine ingest_keeps p (P := fun after => after.rawLog = s.rawLog) rfl rfl
      fun event row hread hfresh => ?_
    rw [ingest_fresh p hread hfresh]
    exact Script.exec_frame Store.rawLog fun current w _ => write_rawLog current w
  have hreceive (s : Store) : (receive p safekey s raw).2.rawLog = s.rawLog := by
    unfold receive
    dsimp only
    split
    · rfl
    · rfl
    · have hs := hingest s
      cases hresult : ingest p s raw with
      | mk result after =>
          rw [hresult] at hs
          cases result <;> exact hs
  simp only [classinWebhook, appendRaw_of_encodable store h]
  exact hreceive _

/-- A body that is a JSON array. -/
theorem classinWebhook_escapes :
    ¬∀ (safekey : String) (store : Store) (body : Loads),
      (classinWebhook .plain safekey store body).1 = .ok ack := by
  intro h
  have hescape : (classinWebhook .plain "" Store.empty (.value (.list []))).1 =
      .error .attributeError := rfl
  rw [h] at hescape
  cases hescape

end ClassinDashboard
