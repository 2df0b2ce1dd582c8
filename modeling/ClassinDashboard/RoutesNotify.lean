import ClassinDashboard.EventReads
import ClassinDashboard.NotifyCopy
import ClassinDashboard.RoutesBranches

/-!
The requests about missing homework: composing the texts, and recording the ones that come back. A
form is the list of its fields in their order, each with `str(value)`.
-/

namespace ClassinDashboard

open Py Sql

/-! ### Dispatch -/

structure OutgoingMessage where
  studentUid : Int
  studentName : String
  message : String
  deriving DecidableEq

/-- What a dispatch does. -/
inductive NotifyEffect
  | record (row : NotificationRow)
  /-- The call of the sender. -/
  | send (message : OutgoingMessage)

/-- The student that a notification is about. -/
def NotifyEffect.studentUid : NotifyEffect → Option Int
  | record row => row.studentUid
  | send message => some message.studentUid

/-- The text of a notification. -/
def NotifyEffect.message : NotifyEffect → String
  | record row => row.message.getD ""
  | send message => message.message

abbrev NotifyScript (α : Type) := Script NotifyEffect PyError α

def appendNotification (eventType provider status : String) (message : OutgoingMessage)
    (error : Option String) : NotifyScript Unit :=
  Script.commit ((bindInt (some message.studentUid)).map fun uid =>
    .record ⟨eventType, provider, status, uid, some message.studentName, some message.message, error⟩)

structure DispatchResult where
  sent : Nat
  failed : Nat
  deriving DecidableEq

/-- One message; whether it counts as sent. A sender raises with a text. -/
def dispatchMessage (eventType : String) (dryRun : Bool)
    (sender : Option (OutgoingMessage → Except String Unit)) (provider : String)
    (message : OutgoingMessage) : NotifyScript Bool :=
  match dryRun, sender with
  | false, some sender => do
      Script.tell (.send message)
      match sender message with
      | .error text => do
          appendNotification eventType provider "failed" message
            (some (String.ofList (text.toList.take 500)))
          pure false
      | .ok () => do
          appendNotification eventType provider "sent" message none
          pure true
  | _, _ => do
      appendNotification eventType "dry_run" "dry_run" message none
      pure true

/-- A failed send is recorded and does not end the batch. -/
def dispatch (eventType : String) (dryRun : Bool)
    (sender : Option (OutgoingMessage → Except String Unit)) (provider : String) :
    List OutgoingMessage → NotifyScript DispatchResult
  | [] => pure ⟨0, 0⟩
  | message :: messages => do
      let sent ← dispatchMessage eventType dryRun sender provider message
      let result ← dispatch eventType dryRun sender provider messages
      pure (if sent then ⟨result.sent + 1, result.failed⟩ else ⟨result.sent, result.failed + 1⟩)

/-! ### `POST /notify/send` -/

/-- `str(form.get(key, ""))`; of two fields of a name the later one counts. -/
def formField (form : List (String × String)) (key : String) : String :=
  (form.reverse.lookup key).getD ""

/-- The message of one field of the form. -/
def outgoingMessage (form : List (String × String)) (field : String × String) :
    Except PyError (Option OutgoingMessage) :=
  match suffixOf "message_" field.1 with
  | none => .ok none
  | some suffix => do
      let uid ← intOf (.string suffix)
      let name := formField form ("name_" ++ toString uid)
      let text := stripText field.2
      pure (if text = "" then none else some ⟨uid, name, text⟩)

inductive SendResponse
  | login
  | home (sent : Nat)
  deriving DecidableEq

/-- Record the messages of a form; the session only has to be there. -/
def notifySend (session : Option Session) (form : List (String × String)) :
    NotifyScript SendResponse :=
  match session with
  | none => pure .login
  | some _ => do
      let messages ← Script.lift (form.mapM (outgoingMessage form))
      let result ← dispatch "missing_homework" true none "dry_run" messages.reduceOption
      pure (.home result.sent)

/-! ### `POST /notify/compose` -/

structure PreviewItem where
  uid : Int
  name : String
  missingCount : Nat
  message : String

inductive ComposeResponse
  | login
  | home
  | page (preview : List PreviewItem) (error : Option String)

/-- A text that goes into a page, which is sent as UTF-8. -/
def renderText (text : PyStr) : Except PyError String := text.encode

variable (p : Platform)

/-- The texts, and what went wrong when the model failed as a whole. `model` is there when the program
has a key for it. -/
def composeMessages (model : Option Model) (byStudent : RowsByStudent)
    (mode tone academyName : String) : Messages × Option PyStr :=
  match model with
  | some model =>
      if mode = "ai" then
        match composeAiMessages p model byStudent academyName with
        | .ok messages => (messages, none)
        | .error text => (composeTemplateMessages byStudent academyName tone, some text)
      else (composeTemplateMessages byStudent academyName tone, none)
  | none => (composeTemplateMessages byStudent academyName tone, none)

def previewItem (messages : Messages) (uid : Int) (rows : List MissingRow) :
    Except PyError PreviewItem :=
  (renderText ((messages uid).getD (.text ""))).map fun message =>
    ⟨uid, (rows.head?.map MissingRow.studentName).getD "", rows.length, message⟩

/-- Compose the texts for the students in scope with missing homework since a date. -/
def notifyCompose (model : Option Model) (store : Store) (session : Option Session) (since : String)
    (mode tone academyName : String) : Except PyError ComposeResponse :=
  match session with
  | none => .ok .login
  | some session =>
      let rows := missingHomeworkRows store (scopeFor session store) since
      if rows.isEmpty then .ok .home
      else do
        let byStudent := groupOn (fun row => row.record.studentUid) rows
        let (messages, error) := composeMessages p model byStudent mode tone academyName
        let preview ← byStudent.mapM fun (uid, rows) => previewItem messages uid rows
        let error ← error.mapM renderText
        pure (.page preview (error.map fun text =>
          "AI 문구 생성 실패(" ++ text ++ "); 템플릿으로 대체했습니다."))

end ClassinDashboard
