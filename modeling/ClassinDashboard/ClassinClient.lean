import ClassinDashboard.Reads

/-!
The ClassIn client: both generations of calls, the signing of their requests, the probe of the
credentials and the reads that degrade. HTTP is a parameter that answers a request or raises. Callers
catch `ClassInError` alone; what else can leave a call is a transport error, a body that is no text,
and two shapes of JSON that the code takes for granted.
-/

namespace Py

/-- `a + b` of two `str`. -/
def PyStr.append : PyStr → PyStr → PyStr
  | .text a, .text b => .text (a ++ b)
  | .text a, .lone points h => .lone (a.toList.map Char.toNat ++ points) (by simp [h])
  | .lone points h, .text b => .lone (points ++ b.toList.map Char.toNat) (by simp [h])
  | .lone points h, .lone others _ => .lone (points ++ others) (by simp [h])

def PyStr.points : PyStr → List Nat
  | .text s => s.toList.map Char.toNat
  | .lone points _ => points

/-- `marker in s`. -/
def PyStr.contains (s : PyStr) (marker : String) : Bool :=
  s.points.tails.any fun rest => (marker.toList.map Char.toNat).isPrefixOf rest

end Py

namespace ClassinDashboard

open Py Sql

structure ClassInError where
  action : String
  errno : Int
  message : PyStr
  payload : Option Fields

/-- Any exception but a `ClassInError`. -/
inductive Raised
  | python (error : PyError)
  /-- Of httpx, or of the interpreter, by its name. -/
  | named (name : String)
  deriving DecidableEq

inductive ClientError
  | classIn (error : ClassInError)
  | raised (error : Raised)

/-- A response; `json` is how `resp.json()` ends. -/
structure HttpResponse where
  status : Int
  text : String
  json : Except Raised PyValue

/-- The headers of a signed request. -/
structure SignedHeaders where
  uid : String
  ts : String
  sign : String

inductive HttpRequest
  | form (action : String) (fields : List (PyStr × PyStr))
  | json (path : String) (headers : SignedHeaders) (body : Fields)

/-- How the exchange of a request ends. -/
abbrev Http := HttpRequest → Except Raised HttpResponse

/-- A client, with the library it stands on: `json.dumps` of a list or a dict, `str.lower` and the
clock in seconds. -/
structure ClassInClient where
  sid : String
  secret : String
  http : Http
  dumps : PyValue → PyStr
  lower : PyStr → PyStr
  now : Int

/-! ### Requests -/

/-- `items[key] = value` -/
def setField {α : Type} (items : List (PyStr × α)) (key : PyStr) (value : α) : List (PyStr × α) :=
  if key ∈ items.map Prod.fst then items.map fun item => if item.1 = key then (key, value) else item
  else items ++ [(key, value)]

variable (p : Platform) (client : ClassInClient)

/-- `ts or int(time.time())` -/
def timestampOf (ts : Option Int) : Int := (ts.filter (· ≠ 0)).getD client.now

def signV1Safekey (ts : Option Int) : String × Int :=
  (p.md5Hex (client.secret ++ toString (timestampOf client ts)), timestampOf client ts)

/-- The text of one form field; `None` is left out. -/
def formValue : PyValue → Option PyStr
  | .none => none
  | .list items => some (client.dumps (.list items))
  | .dict items => some (client.dumps (.dict items))
  | .bool b => some (.text (if b then "1" else "0"))
  | value => some (p.strOf value)

def encodeV1Form (body : Fields) : List (PyStr × PyStr) :=
  body.filterMap fun item => (formValue p client item.2).map fun value => (item.1, value)

def maxValBytes : Nat := 1024

/-- Whether a value is signed; the length of a text is that of its UTF-8. -/
def shouldInclude : PyValue → Except PyError Bool
  | .list _ | .dict _ => .ok false
  | .str s => s.encode.map fun text => text.utf8ByteSize ≤ maxValBytes
  | _ => .ok true

def stringify : PyValue → PyStr
  | .bool b => .text (if b then "true" else "false")
  | .none => .text ""
  | value => p.strOf value

/-- The pairs that are signed. -/
def signedPairs (body : Fields) (timestamp : Int) : Except PyError (List (PyStr × PyStr)) := do
  let signed ← body.mapM fun item => (shouldInclude item.2).map fun signed => (signed, item)
  let pairs := (signed.filter Prod.fst).map fun item => (item.2.1, stringify p item.2.2)
  pure (setField (setField pairs (.text "sid") (.text client.sid)) (.text "timeStamp")
    (.text (toString timestamp)))

/-- The signing string as UTF-8: the pairs by key, and the secret. -/
def signingText (body : Fields) (timestamp : Int) : Except PyError String := do
  let pairs ← signedPairs p client body timestamp
  let texts ← pairs.mapM fun pair => do
    let key ← pair.1.encode
    let value ← pair.2.encode
    pure (key, value)
  let sorted := texts.mergeSort fun a b => a.1 ≤ b.1
  pure ("&".intercalate (sorted.map fun pair => pair.1 ++ "=" ++ pair.2) ++ "&key=" ++ client.secret)

def signV2 (body : Fields) (ts : Option Int) : Except PyError SignedHeaders := do
  let text ← signingText p client body (timestampOf client ts)
  pure ⟨client.sid, toString (timestampOf client ts), p.md5Hex text⟩

/-! ### Responses -/

/-- `int(value)`, or -1 for what is no number. -/
def intValue (value : PyValue) : Except PyError Int :=
  match intOf value with
  | .error .typeError | .error .valueError => .ok (-1)
  | result => result

/-- The first 400 characters. -/
def excerpt (text : String) : String := String.ofList (text.toList.take 400)

/-- The JSON object of a response. -/
def envelopeOf (response : HttpResponse) (action : String) : Except ClientError Fields :=
  if 400 ≤ response.status then
    .error (.classIn ⟨action, -1,
      .text ("HTTP " ++ toString response.status ++ ": " ++ excerpt response.text), none⟩)
  else
    match response.json with
    | .error (.python .jsonDecodeError) =>
        .error (.classIn ⟨action, -1, .text ("non-JSON response: " ++ excerpt response.text), none⟩)
    | .error e => .error (.raised e)
    | .ok (.dict items) => .ok items
    | .ok value =>
        .error (.classIn ⟨action, -1, .text ("unexpected response shape: " ++ p.repr value), none⟩)

/-- `items.get(key, default)` -/
def getDefault (items : Fields) (key : String) (default : PyValue) : PyValue :=
  (items.lookup (.text key)).getD default

/-- The value of a step of the interpreter. -/
def ofPython {α : Type} (result : Except PyError α) : Except ClientError α :=
  result.mapError fun e => .raised (.python e)

/-- `err.get(key, default)`; only dicts have the method. -/
def getDefaultAttr (value : PyValue) (key : String) (default : PyValue) : Except PyError PyValue :=
  match value with
  | .dict items => .ok (getDefault items key default)
  | _ => .error .attributeError

/-- The end of a v1 call that has an envelope. -/
def readV1 (action : String) (successCodes : List Int) (envelope : Fields) : Except ClientError PyValue := do
  let err := (PyValue.get envelope "error_info").orElse (.dict [])
  let errno ← ofPython (getDefaultAttr err "errno" (.int (-1)))
  let errno ← ofPython (intValue errno)
  if errno ∈ successCodes then pure (PyValue.get envelope "data")
  else do
    let message ← ofPython (getDefaultAttr err "error" (.string "unknown"))
    throw (.classIn ⟨action, errno, p.strOf message, some envelope⟩)

/-- The body of a v1 request over what every one carries. -/
def v1Fields (body : Option Fields) (ts : Option Int) : Fields :=
  let (safeKey, timestamp) := signV1Safekey p client ts
  (body.getD []).foldl (fun fields item => setField fields item.1 item.2)
    [(.text "SID", .string client.sid), (.text "safeKey", .string safeKey),
      (.text "timeStamp", .int timestamp)]

/-- The exchange of a v1 request. -/
def exchangeV1 (action : String) (body : Option Fields) (ts : Option Int) : Except Raised HttpResponse :=
  client.http (.form action (encodeV1Form p client (v1Fields p client body ts)))

def callV1 (action : String) (body : Option Fields) (successCodes : List Int) (ts : Option Int) :
    Except ClientError PyValue := do
  let response ← (exchangeV1 p client action body ts).mapError .raised
  let envelope ← envelopeOf p response action
  readV1 p action successCodes envelope

/-- A path with its leading slash. -/
def normalized (path : String) : String := if path.startsWith "/" then path else "/" ++ path

/-- The end of a v2 call that has an envelope. -/
def readV2 (path : String) (successCodes : List Int) (envelope : Fields) : Except ClientError PyValue := do
  let code ← ofPython (intValue (getDefault envelope "code" (.int (-1))))
  if code ∈ successCodes then pure (PyValue.get envelope "data")
  else
    let message := ((PyValue.get envelope "msg").orElse (PyValue.get envelope "message")).orElse
      (.string "unknown")
    throw (.classIn ⟨path, code, p.strOf message, some envelope⟩)

/-- The exchange of a v2 request, which is signed first. -/
def exchangeV2 (path : String) (body : Option Fields) (ts : Option Int) : Except Raised HttpResponse := do
  let headers ← (signV2 p client (body.getD []) ts).mapError .python
  client.http (.json (normalized path) headers (body.getD []))

def callV2 (path : String) (body : Option Fields) (successCodes : List Int) (ts : Option Int) :
    Except ClientError PyValue := do
  let response ← (exchangeV2 p client path body ts).mapError .raised
  let envelope ← envelopeOf p response (normalized path)
  readV2 p (normalized path) successCodes envelope

/-! ### Callers -/

/-- The request of the probe: nothing that could be created. -/
def probeBody : Fields :=
  [(.text "courseId", .int 0), (.text "classId", .int 0), (.text "uid", .string "0"),
    (.text "telephone", .string "0"), (.text "deviceType", .int 1), (.text "lifeTime", .int 60)]

def signMarkers : List String := ["sign", "signature", "签名", "서명"]

/-- What a refusal says of the credentials. -/
def probeVerdict (exc : ClassInError) : Bool × PyStr :=
  let text := client.lower ((PyStr.text (toString exc.errno ++ " ")).append exc.message)
  if exc.errno = 101002005 || signMarkers.any text.contains then
    (false, (PyStr.text "서명 오류 (SID/secret 확인, 서버 시계 ±5분): ").append exc.message)
  else if exc.errno = -1 then (false, (PyStr.text "ClassIn API 연결 실패: ").append exc.message)
  else (true, .text "ok")

def verifyCredentials : Except Raised (Bool × PyStr) :=
  match callV1 p client "getLoginLinked" (some probeBody) [1] none with
  | .ok _ => .ok (true, .text "ok")
  | .error (.classIn exc) => .ok (probeVerdict client exc)
  | .error (.raised e) => .error e

/-- `ClassInReads._try`: the data, or `None` and one more line of `last_errors`. -/
def tryAction (lastErrors : List PyStr) (action : String) (body : Fields) :
    Except Raised PyValue × List PyStr :=
  match callV1 p client action (some body) [1] none with
  | .ok data => (.ok data, lastErrors)
  | .error (.classIn exc) => (.ok .none, lastErrors ++
      [(PyStr.text (action ++ ": errno=" ++ toString exc.errno ++ " ")).append exc.message])
  | .error (.raised e) => (.error e, lastErrors)

/-! ### How a call ends -/

/-- The code of a v1 envelope. -/
def codeV1 (envelope : Fields) : Except PyError Int := do
  let errno ← getDefaultAttr ((PyValue.get envelope "error_info").orElse (.dict [])) "errno" (.int (-1))
  intValue errno

/-- The code of a v2 envelope. -/
def codeV2 (envelope : Fields) : Except PyError Int := intValue (getDefault envelope "code" (.int (-1)))

/-- The end that the callers of a call provide for: the data of an object whose code is accepted, or a
`ClassInError`. -/
def EndsClean (codeOf : Fields → Except PyError Int) (successCodes : List Int)
    (exchange : Except Raised HttpResponse) (result : Except ClientError PyValue) : Prop :=
  (∃ response envelope code, exchange = .ok response ∧ response.json = .ok (.dict envelope) ∧
      codeOf envelope = .ok code ∧ code ∈ successCodes ∧ result = .ok (PyValue.get envelope "data")) ∨
    ∃ exc, result = .error (.classIn exc)

/-- No infinity, which `int` does not take. -/
def Bounded (value : PyValue) : Prop := ∀ negative, value ≠ .float (.inf negative)

/-- `error_info` is missing, empty or an object, and its code is bounded. -/
def ReadableV1 (envelope : Fields) : Prop :=
  (PyValue.get envelope "error_info").truthy = false ∨
    ∃ err, PyValue.get envelope "error_info" = .dict err ∧ Bounded (getDefault err "errno" (.int (-1)))

def ReadableV2 (envelope : Fields) : Prop := Bounded (getDefault envelope "code" (.int (-1)))

/-- A response is an HTTP error, a text that is no JSON, or JSON that is no object or a readable one. -/
def HttpResponse.Readable (readable : Fields → Prop) (response : HttpResponse) : Prop :=
  400 ≤ response.status ∨ response.json = .error (.python .jsonDecodeError) ∨
    ∃ value, response.json = .ok value ∧ ∀ envelope, value = .dict envelope → readable envelope

/-- There is a response, and it can be read. -/
def Answered (readable : Fields → Prop) (exchange : Except Raised HttpResponse) : Prop :=
  ∃ response, exchange = .ok response ∧ response.Readable readable

/-- The texts that are signed can be encoded. -/
def Signable (body : Fields) : Prop :=
  ∀ item ∈ body, ∃ signed, shouldInclude item.2 = .ok signed ∧ (signed = true → ∃ key, item.1 = .text key)

section Ends

variable {p : Platform} {client : ClassInClient}

theorem intValue_isOk {value : PyValue} : (∃ n, intValue value = .ok n) ↔ Bounded value := by
  have hok {n : Int} (h : intValue value = .ok n) (hbounded : Bounded value) :
      (∃ n, intValue value = .ok n) ↔ Bounded value := iff_of_true ⟨n, h⟩ hbounded
  cases value with
  | none => exact hok rfl nofun
  | bool b => exact hok rfl nofun
  | int n => exact hok rfl nofun
  | list items => exact hok rfl nofun
  | dict items => exact hok rfl nofun
  | float x =>
      cases x with
      | nan => exact hok rfl nofun
      | fin q => exact hok rfl nofun
      | inf negative => exact iff_of_false (fun ⟨_, h⟩ => nomatch h) fun h => h negative rfl
  | str s =>
      cases s with
      | lone points h => exact hok rfl nofun
      | text s =>
          rw [intValue, intOf]
          cases intText s.toList with
          | none => exact iff_of_true ⟨_, rfl⟩ nofun
          | some n => exact iff_of_true ⟨_, rfl⟩ nofun

theorem codeV1_isOk {envelope : Fields} : (∃ code, codeV1 envelope = .ok code) ↔ ReadableV1 envelope := by
  rw [codeV1, bind_isOk, ReadableV1, PyValue.orElse]
  cases htruthy : (PyValue.get envelope "error_info").truthy with
  | false => exact iff_of_true ⟨_, rfl, _, rfl⟩ (.inl rfl)
  | true =>
      rw [if_pos rfl]
      cases PyValue.get envelope "error_info" with
      | dict err =>
          simp only [getDefaultAttr, Except.ok.injEq, exists_eq_left', intValue_isOk, Bool.true_eq_false,
            false_or, PyValue.dict.injEq]
      | _ =>
          refine iff_of_false (fun ⟨_, h, _⟩ => nomatch h) fun h => ?_
          rcases h with h | ⟨_, h, _⟩ <;> cases h

/-- The end of a call that has an envelope: an exception exactly where there is no code. -/
structure ReadsEnvelope (codeOf : Fields → Except PyError Int) (successCodes : List Int)
    (read : Fields → Except ClientError PyValue) : Prop where
  accepted : ∀ envelope code, codeOf envelope = .ok code → code ∈ successCodes →
    read envelope = .ok (PyValue.get envelope "data")
  refused : ∀ envelope code, codeOf envelope = .ok code → code ∉ successCodes →
    ∃ exc, read envelope = .error (.classIn exc)
  raised : ∀ envelope e, codeOf envelope = .error e → read envelope = .error (.raised (.python e))

theorem readsEnvelope_readV1 (action : String) (successCodes : List Int) :
    ReadsEnvelope codeV1 successCodes (readV1 p action successCodes) := by
  have hcode {envelope : Fields} {code : Int} (h : codeV1 envelope = .ok code) :
      ∃ err, (PyValue.get envelope "error_info").orElse (.dict []) = .dict err ∧
        intValue (getDefault err "errno" (.int (-1))) = .ok code := by
    obtain ⟨errno, herr, hint⟩ := bind_eq_ok.mp h
    cases hinfo : (PyValue.get envelope "error_info").orElse (.dict []) with
    | dict err =>
        rw [hinfo] at herr
        cases herr
        exact ⟨err, rfl, hint⟩
    | _ =>
        rw [hinfo] at herr
        cases herr
  have hread (envelope : Fields) : readV1 p action successCodes envelope =
      (do
        let errno ← ofPython (codeV1 envelope)
        if errno ∈ successCodes then pure (PyValue.get envelope "data")
        else do
          let message ← ofPython (getDefaultAttr ((PyValue.get envelope "error_info").orElse (.dict []))
            "error" (.string "unknown"))
          throw (.classIn ⟨action, errno, p.strOf message, some envelope⟩)) := by
    rw [readV1, codeV1]
    cases getDefaultAttr ((PyValue.get envelope "error_info").orElse (.dict [])) "errno" (.int (-1)) <;> rfl
  refine ⟨fun envelope code h hmem => ?_, fun envelope code h hmem => ?_, fun envelope e h => ?_⟩
  · rw [hread, h]
    exact if_pos hmem
  · obtain ⟨err, herr, -⟩ := hcode h
    rw [hread, h, herr]
    exact ⟨_, if_neg hmem⟩
  · rw [hread, h]
    rfl

theorem readsEnvelope_readV2 (path : String) (successCodes : List Int) :
    ReadsEnvelope codeV2 successCodes (readV2 p path successCodes) := by
  refine ⟨fun envelope code h hmem => ?_, fun envelope code h hmem => ?_, fun envelope e h => ?_⟩
  · rw [codeV2] at h
    rw [readV2, h]
    exact if_pos hmem
  · rw [codeV2] at h
    rw [readV2, h]
    exact ⟨_, if_neg hmem⟩
  · rw [codeV2] at h
    rw [readV2, h]
    rfl

/-- The three ends of reading the envelope of a response. -/
theorem envelopeOf_cases (response : HttpResponse) (action : String) :
    (∃ exc, envelopeOf p response action = .error (.classIn exc) ∧
      (400 ≤ response.status ∨ response.json = .error (.python .jsonDecodeError) ∨
        ∃ value, response.json = .ok value ∧ ∀ envelope, value ≠ .dict envelope)) ∨
    (∃ e, envelopeOf p response action = .error (.raised e) ∧ ¬400 ≤ response.status ∧
      response.json = .error e ∧ e ≠ .python .jsonDecodeError) ∨
    ∃ envelope, envelopeOf p response action = .ok envelope ∧ ¬400 ≤ response.status ∧
      response.json = .ok (.dict envelope) := by
  rw [envelopeOf]
  by_cases hstatus : 400 ≤ response.status
  · rw [if_pos hstatus]
    exact .inl ⟨_, rfl, .inl hstatus⟩
  · rw [if_neg hstatus]
    cases hjson : response.json with
    | error e =>
        by_cases he : e = .python .jsonDecodeError
        · subst he
          exact .inl ⟨_, rfl, .inr (.inl rfl)⟩
        · refine .inr (.inl ⟨e, ?_, hstatus, rfl, he⟩)
          split
          · rename_i heq
            exact absurd (Except.error.inj heq) he
          · rename_i heq
            rw [Except.error.inj heq]
          · rename_i heq
            cases heq
          · rename_i heq
            cases heq
    | ok value =>
        cases value with
        | dict envelope => exact .inr (.inr ⟨envelope, rfl, hstatus, rfl⟩)
        | _ => exact .inl ⟨_, rfl, .inr (.inr ⟨_, rfl, nofun⟩)⟩

/-- A call ends cleanly exactly if nothing but a `ClassInError` leaves it. -/
theorem endsClean_iff {codeOf : Fields → Except PyError Int} {successCodes : List Int}
    {read : Fields → Except ClientError PyValue} (hread : ReadsEnvelope codeOf successCodes read)
    (exchange : Except Raised HttpResponse) (action : String) {result : Except ClientError PyValue}
    (hresult : result = do
        let response ← exchange.mapError .raised
        let envelope ← envelopeOf p response action
        read envelope) :
    EndsClean codeOf successCodes exchange result ↔ ∀ e, result ≠ .error (.raised e) := by
  constructor
  · rintro (⟨_, _, _, -, -, -, -, h⟩ | ⟨exc, h⟩) e <;> rw [h] <;> exact nofun
  · intro h
    cases hend : result with
    | error error =>
        cases error with
        | classIn exc => exact .inr ⟨exc, rfl⟩
        | raised e => exact absurd hend (h e)
    | ok value =>
        rw [hresult] at hend
        obtain ⟨response, hresponse, hend⟩ := bind_eq_ok.mp hend
        obtain ⟨envelope, henvelope, hend⟩ := bind_eq_ok.mp hend
        have hexchange : exchange = .ok response := by
          cases exchange with
          | ok _ => exact congrArg Except.ok (Except.ok.inj hresponse)
          | error e => cases hresponse
        have hjson : response.json = .ok (.dict envelope) := by
          rcases envelopeOf_cases (p := p) response action with ⟨_, h, -⟩ | ⟨_, h, -⟩ | ⟨other, h, -, hjson⟩
          · rw [henvelope] at h
            cases h
          · rw [henvelope] at h
            cases h
          · rw [henvelope] at h
            cases h
            exact hjson
        cases hcode : codeOf envelope with
        | error e =>
            rw [hread.raised _ _ hcode] at hend
            cases hend
        | ok code =>
            by_cases hmem : code ∈ successCodes
            · rw [hread.accepted _ _ hcode hmem] at hend
              exact .inl ⟨response, envelope, code, hexchange, hjson, hcode, hmem, hend.symm⟩
            · obtain ⟨exc, hexc⟩ := hread.refused _ _ hcode hmem
              rw [hexc] at hend
              cases hend

/-- A response ends a call cleanly exactly if it can be read. -/
theorem endsClean_response {codeOf : Fields → Except PyError Int} {readable : Fields → Prop}
    (hreadable : ∀ envelope, (∃ code, codeOf envelope = .ok code) ↔ readable envelope)
    {successCodes : List Int} {read : Fields → Except ClientError PyValue}
    (hread : ReadsEnvelope codeOf successCodes read) (response : HttpResponse) (action : String) :
    EndsClean codeOf successCodes (.ok response) (envelopeOf p response action >>= read) ↔
      response.Readable readable := by
  refine (endsClean_iff hread (.ok response) action rfl).trans ?_
  change (∀ e, (envelopeOf p response action >>= read) ≠ .error (.raised e)) ↔ _
  rcases envelopeOf_cases (p := p) response action with
    ⟨exc, henvelope, hshape⟩ | ⟨e, henvelope, hstatus, hjson, he⟩ | ⟨envelope, henvelope, hstatus, hjson⟩
  · refine iff_of_true (fun e h => ?_) (hshape.imp_right (Or.imp_right ?_))
    · rw [henvelope] at h
      cases h
    · rintro ⟨value, hvalue, hother⟩
      exact ⟨value, hvalue, fun envelope h => absurd h (hother envelope)⟩
  · refine iff_of_false (fun h => h e ?_) ?_
    · rw [henvelope]
      rfl
    · rintro (h | h | ⟨value, h, _⟩)
      · exact hstatus h
      · exact he (Except.error.inj (hjson.symm.trans h))
      · rw [hjson] at h
        cases h
  · have hcoded : response.Readable readable ↔ ∃ code, codeOf envelope = .ok code := by
      rw [hreadable]
      constructor
      · rintro (h | h | ⟨value, h, hshape⟩)
        · exact absurd h hstatus
        · rw [hjson] at h
          cases h
        · exact hshape envelope (Except.ok.inj (h.symm.trans hjson))
      · intro h
        refine .inr (.inr ⟨_, hjson, fun other hother => ?_⟩)
        cases hother
        exact h
    rw [hcoded, henvelope]
    cases hcode : codeOf envelope with
    | ok code =>
        refine iff_of_true (fun e h => ?_) ⟨code, rfl⟩
        change read envelope = _ at h
        by_cases hmem : code ∈ successCodes
        · rw [hread.accepted _ _ hcode hmem] at h
          cases h
        · obtain ⟨exc, hexc⟩ := hread.refused _ _ hcode hmem
          rw [hexc] at h
          cases h
    | error e =>
        refine iff_of_false (fun h => h (.python e) (hread.raised _ _ hcode)) ?_
        rintro ⟨code, h⟩
        cases h

/-- An exchange ends a call cleanly exactly if it has a response that can be read. -/
theorem endsClean_exchange {codeOf : Fields → Except PyError Int} {readable : Fields → Prop}
    (hreadable : ∀ envelope, (∃ code, codeOf envelope = .ok code) ↔ readable envelope)
    {successCodes : List Int} {read : Fields → Except ClientError PyValue}
    (hread : ReadsEnvelope codeOf successCodes read) (exchange : Except Raised HttpResponse)
    (action : String) :
    EndsClean codeOf successCodes exchange (do
        let response ← exchange.mapError .raised
        let envelope ← envelopeOf p response action
        read envelope) ↔ Answered readable exchange := by
  cases exchange with
  | ok response =>
      refine (endsClean_response hreadable hread response action).trans ?_
      exact ⟨fun h => ⟨response, rfl, h⟩, fun ⟨_, hresponse, h⟩ => Except.ok.inj hresponse ▸ h⟩
  | error e =>
      refine iff_of_false ?_ fun ⟨_, h, _⟩ => nomatch h
      rintro (⟨_, _, _, h, _⟩ | ⟨exc, h⟩) <;> cases h

/-! ### Signing -/

def IsText (s : PyStr) : Prop := ∃ text, s = .text text

theorem encode_isOk {s : PyStr} : (∃ text, s.encode = .ok text) ↔ IsText s := by
  cases s with
  | text s => exact iff_of_true ⟨s, rfl⟩ ⟨s, rfl⟩
  | lone points h => exact iff_of_false (fun ⟨_, h⟩ => nomatch h) fun ⟨_, h⟩ => nomatch h

theorem stringify_text {value : PyValue} (h : shouldInclude value = .ok true) :
    IsText (stringify p value) := by
  cases value with
  | str s =>
      cases s with
      | text s => exact ⟨s, rfl⟩
      | lone points h' => cases h
  | _ => exact ⟨_, rfl⟩

theorem keys_setField {α : Type} (items : List (PyStr × α)) (key : PyStr) (value : α) :
    (setField items key value).map Prod.fst =
      if key ∈ items.map Prod.fst then items.map Prod.fst else items.map Prod.fst ++ [key] := by
  rw [setField]
  split
  · rw [List.map_map]
    refine List.map_congr_left fun item _ => ?_
    by_cases hkey : item.1 = key <;> simp [hkey]
  · rw [List.map_append, List.map_singleton]

theorem mem_of_mem_setField {α : Type} {items : List (PyStr × α)} {key : PyStr} {value : α}
    {item : PyStr × α} (h : item ∈ setField items key value) : item ∈ items ∨ item.2 = value := by
  rw [setField] at h
  split at h
  · obtain ⟨other, hother, rfl⟩ := List.mem_map.mp h
    split
    · exact .inr rfl
    · exact .inl hother
  · rcases List.mem_append.mp h with hitem | hnew
    · exact .inl hitem
    · rw [List.mem_singleton.mp hnew]
      exact .inr rfl

/-- A text key of its own makes no difference to whether the keys are texts. -/
theorem textKeys_setField {α : Type} {items : List (PyStr × α)} {key : String} {value : α} :
    (∀ k ∈ (setField items (.text key) value).map Prod.fst, IsText k) ↔
      ∀ k ∈ items.map Prod.fst, IsText k := by
  rw [keys_setField]
  split
  · exact Iff.rfl
  · rw [List.forall_mem_append, List.forall_mem_singleton]
    exact and_iff_left ⟨key, rfl⟩

/-- The pairs that are signed have texts as values, and text keys exactly if the body is signable. -/
theorem signedPairs_spec {body : Fields} {timestamp : Int} {pairs : List (PyStr × PyStr)}
    (h : signedPairs p client body timestamp = .ok pairs) :
    (∀ pair ∈ pairs, IsText pair.2) ∧ ((∀ k ∈ pairs.map Prod.fst, IsText k) ↔ Signable body) := by
  obtain ⟨signed, hsigned, h⟩ := bind_eq_ok.mp h
  obtain rfl := pure_eq_ok.mp h
  have hentry {entry : Bool × PyStr × PyValue} (hmem : entry ∈ signed) :
      shouldInclude entry.2.2 = .ok entry.1 := by
    obtain ⟨item, -, hitem⟩ := exists_of_mem_mapM hsigned hmem
    obtain ⟨included, hincluded, rfl⟩ := map_eq_ok.mp hitem
    exact hincluded
  have hbody : signed.map Prod.snd = body := by
    have hframe : signed.map Prod.snd = body.map id := mapM_frame (fun item entry h => by
      obtain ⟨included, -, rfl⟩ := map_eq_ok.mp h
      rfl) hsigned
    rw [hframe, List.map_id]
  constructor
  · intro pair hpair
    rcases mem_of_mem_setField hpair with hpair | hvalue
    · rcases mem_of_mem_setField hpair with hpair | hvalue
      · obtain ⟨entry, hmem, rfl⟩ := List.mem_map.mp hpair
        obtain ⟨hmem, hkept⟩ := List.mem_filter.mp hmem
        exact stringify_text (hkept ▸ hentry hmem)
      · exact ⟨_, hvalue⟩
    · exact ⟨_, hvalue⟩
  · rw [textKeys_setField, textKeys_setField, Signable, ← hbody]
    constructor
    · intro h item hitem
      obtain ⟨entry, hmem, rfl⟩ := List.mem_map.mp hitem
      refine ⟨entry.1, hentry hmem, fun hkept => h _ ?_⟩
      exact List.mem_map_of_mem (List.mem_map_of_mem (List.mem_filter.mpr ⟨hmem, hkept⟩))
    · intro h k hk
      obtain ⟨pair, hpair, rfl⟩ := List.mem_map.mp hk
      obtain ⟨entry, hmem, rfl⟩ := List.mem_map.mp hpair
      obtain ⟨hmem, hkept⟩ := List.mem_filter.mp hmem
      obtain ⟨included, hincluded, htext⟩ := h entry.2 (List.mem_map_of_mem hmem)
      rw [hentry hmem, hkept] at hincluded
      exact htext (Except.ok.inj hincluded).symm

/-- A body is signed exactly if the texts in question can be encoded. -/
theorem signV2_isOk {body : Fields} {ts : Option Int} :
    (∃ headers, signV2 p client body ts = .ok headers) ↔ Signable body := by
  have hpair (pair : PyStr × PyStr) : (∃ texts, (do
        let key ← pair.1.encode
        let value ← pair.2.encode
        pure (key, value) : Except PyError (String × String)) = .ok texts) ↔
      IsText pair.1 ∧ IsText pair.2 := by
    rw [bind_isOk, ← encode_isOk, ← encode_isOk]
    constructor
    · rintro ⟨key, hkey, h⟩
      obtain ⟨value, hvalue, -⟩ := bind_isOk.mp h
      exact ⟨⟨key, hkey⟩, value, hvalue⟩
    · rintro ⟨⟨key, hkey⟩, value, hvalue⟩
      exact ⟨key, hkey, bind_isOk.mpr ⟨value, hvalue, _, rfl⟩⟩
  have htext : (∃ headers, signV2 p client body ts = .ok headers) ↔
      ∃ pairs, signedPairs p client body (timestampOf client ts) = .ok pairs ∧
        ∀ pair ∈ pairs, IsText pair.1 ∧ IsText pair.2 := by
    simp only [← hpair, ← mapM_isOk]
    rw [signV2, bind_isOk]
    constructor
    · rintro ⟨text, h, -⟩
      obtain ⟨pairs, hpairs, h⟩ := bind_eq_ok.mp h
      obtain ⟨texts, htexts, -⟩ := bind_eq_ok.mp h
      exact ⟨pairs, hpairs, texts, htexts⟩
    · rintro ⟨pairs, hpairs, texts, htexts⟩
      exact ⟨_, bind_eq_ok.mpr ⟨pairs, hpairs, bind_eq_ok.mpr ⟨texts, htexts, rfl⟩⟩, _, rfl⟩
  rw [htext]
  constructor
  · rintro ⟨pairs, hpairs, h⟩
    refine (signedPairs_spec hpairs).2.mp fun k hk => ?_
    obtain ⟨pair, hpair, rfl⟩ := List.mem_map.mp hk
    exact (h pair hpair).1
  · intro hsignable
    obtain ⟨signed, hsigned⟩ := mapM_isOk.mpr fun item hitem =>
      (map_isOk (f := fun signed => (signed, item))).mpr ((hsignable item hitem).imp fun _ h => h.1)
    have hpairs : ∃ pairs, signedPairs p client body (timestampOf client ts) = .ok pairs :=
      ⟨_, bind_eq_ok.mpr ⟨signed, hsigned, rfl⟩⟩
    obtain ⟨pairs, hpairs⟩ := hpairs
    have hspec := signedPairs_spec hpairs
    exact ⟨pairs, hpairs, fun pair hpair =>
      ⟨hspec.2.mpr hsignable _ (List.mem_map_of_mem hpair), hspec.1 pair hpair⟩⟩

end Ends

/-- A v1 call ends cleanly, a read returns and the probe of the credentials has a verdict exactly if the
exchange has a response that can be read; a v2 call if its body can be signed as well. -/
theorem client_clean_iff (p : Platform) (client : ClassInClient) :
    (∀ action body successCodes ts,
      EndsClean codeV1 successCodes (exchangeV1 p client action body ts)
          (callV1 p client action body successCodes ts) ↔
        Answered ReadableV1 (exchangeV1 p client action body ts)) ∧
    (∀ path body successCodes ts,
      EndsClean codeV2 successCodes (exchangeV2 p client path body ts)
          (callV2 p client path body successCodes ts) ↔
        Signable (body.getD []) ∧ Answered ReadableV2 (exchangeV2 p client path body ts)) ∧
    (∀ lastErrors action body,
      (∃ data, (tryAction p client lastErrors action body).1 = .ok data) ↔
        Answered ReadableV1 (exchangeV1 p client action (some body) none)) ∧
    ((∃ verdict, verifyCredentials p client = .ok verdict) ↔
      Answered ReadableV1 (exchangeV1 p client "getLoginLinked" (some probeBody) none)) := by
  have hclean (action : String) (body : Option Fields) (successCodes : List Int) (ts : Option Int) :
      EndsClean codeV1 successCodes (exchangeV1 p client action body ts)
          (callV1 p client action body successCodes ts) ↔
        Answered ReadableV1 (exchangeV1 p client action body ts) :=
    endsClean_exchange (fun _ => codeV1_isOk) (readsEnvelope_readV1 action successCodes) _ action
  have hraised (action : String) (body : Option Fields) :
      Answered ReadableV1 (exchangeV1 p client action body none) ↔
        ∀ e, callV1 p client action body [1] none ≠ .error (.raised e) :=
    (hclean action body [1] none).symm.trans
      (endsClean_iff (readsEnvelope_readV1 action [1]) (exchangeV1 p client action body none) action rfl)
  refine ⟨hclean, fun path body successCodes ts => ?_, fun lastErrors action body => ?_, ?_⟩
  · have hsigned : Answered ReadableV2 (exchangeV2 p client path body ts) → Signable (body.getD []) := by
      rintro ⟨response, hresponse, -⟩
      obtain ⟨headers, hheaders, -⟩ := bind_eq_ok.mp hresponse
      cases hsign : signV2 p client (body.getD []) ts with
      | ok headers => exact signV2_isOk.mp ⟨headers, hsign⟩
      | error e =>
          rw [hsign] at hheaders
          cases hheaders
    rw [and_iff_right_of_imp hsigned]
    exact endsClean_exchange (fun _ => intValue_isOk)
      (readsEnvelope_readV2 (normalized path) successCodes) _ (normalized path)
  · rw [hraised, tryAction]
    cases callV1 p client action (some body) [1] none with
    | ok data => exact iff_of_true ⟨data, rfl⟩ nofun
    | error error =>
        cases error with
        | classIn exc => exact iff_of_true ⟨_, rfl⟩ nofun
        | raised e => exact iff_of_false (fun ⟨_, h⟩ => nomatch h) fun h => h e rfl
  · rw [hraised, verifyCredentials]
    cases callV1 p client "getLoginLinked" (some probeBody) [1] none with
    | ok data => exact iff_of_true ⟨_, rfl⟩ nofun
    | error error =>
        cases error with
        | classIn exc => exact iff_of_true ⟨_, rfl⟩ nofun
        | raised e => exact iff_of_false (fun ⟨_, h⟩ => nomatch h) fun h => h e rfl

/-- A client whose every request ends in one exchange. -/
def clientOf (exchange : Except Raised HttpResponse) : ClassInClient :=
  ⟨"sid", "secret", fun _ => exchange, fun _ => .text "", id, 0⟩

/-- Exchanges that go past `ClassInError`: no connection, a body that is no UTF-8, an `error_info` that
is a list, an infinite code. -/
def leaks : List (Except Raised HttpResponse) :=
  [.error (.named "ConnectError"), .ok ⟨200, "", .error (.python .unicodeDecodeError)⟩,
    .ok ⟨200, "", .ok (.object [("error_info", .list [.int 1])])⟩,
    .ok ⟨200, "", .ok (.object [("error_info", .object [("errno", .float (.inf false))])])⟩]

/-- Without a connection, or with an answer of another shape, the probe of the credentials raises. -/
theorem probe_leaks : (∀ exchange ∈ leaks, ¬∃ verdict, verifyCredentials .plain (clientOf exchange) = .ok verdict) ∧
    ¬∀ (p : Platform) (client : ClassInClient),
      (∀ action body successCodes ts, EndsClean codeV1 successCodes (exchangeV1 p client action body ts)
        (callV1 p client action body successCodes ts)) ∧
      (∀ path body successCodes ts, EndsClean codeV2 successCodes (exchangeV2 p client path body ts)
        (callV2 p client path body successCodes ts)) ∧
      (∀ lastErrors action body, ∃ data, (tryAction p client lastErrors action body).1 = .ok data) ∧
      ∃ verdict, verifyCredentials p client = .ok verdict := by
  have hleaks : ∀ exchange ∈ leaks, ¬∃ verdict, verifyCredentials .plain (clientOf exchange) = .ok verdict := by
    intro exchange hexchange
    simp only [leaks, List.mem_cons, List.not_mem_nil, or_false] at hexchange
    rintro ⟨verdict, h⟩
    rcases hexchange with rfl | rfl | rfl | rfl <;> cases h
  exact ⟨hleaks, fun h => hleaks _ List.mem_cons_self (h .plain (clientOf _)).2.2.2⟩

end ClassinDashboard
