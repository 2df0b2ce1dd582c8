import ClassinDashboard.PyValue

/-!
The reader of `csv` in its default dialect, on text whose lines end in a line feed. A quoted field
may hold delimiters, line feeds and doubled quotes; a quote anywhere else is a character like any
other.
-/

namespace Py.Csv

/-- Where the reader is. -/
inductive Place
  | startRecord | startField | inField | inQuotedField | quoteInQuotedField
  deriving DecidableEq

structure Reader where
  place : Place
  /-- The field that is being read, its last character first. -/
  field : List Char
  /-- The fields of the record so far, the last one first. -/
  fields : List (List Char)
  /-- The records so far, the last one first. -/
  records : List (List (List Char))

namespace Reader

def init : Reader := ⟨.startRecord, [], [], []⟩

def fieldLimit : Nat := 131072

def addChar (reader : Reader) (c : Char) (place : Place) : Except PyError Reader :=
  if reader.field.length < fieldLimit then
    .ok { reader with place, field := c :: reader.field }
  else .error .csvError

def saveField (reader : Reader) : Reader :=
  { reader with
    place := .startField
    field := []
    fields := reader.field.reverse :: reader.fields }

/-- The end of a line outside quotes. -/
def endRecord (reader : Reader) : Reader :=
  { reader with
    place := .startRecord
    fields := []
    records := reader.fields.reverse :: reader.records }

/-- A character that starts a field. -/
def startField (reader : Reader) (delimiter c : Char) : Except PyError Reader :=
  if c = '\n' then .ok reader.saveField.endRecord
  else if c = '"' then .ok { reader with place := .inQuotedField }
  else if c = delimiter then .ok reader.saveField
  else reader.addChar c .inField

def step (delimiter : Char) (reader : Reader) (c : Char) : Except PyError Reader :=
  match reader.place with
  | .startRecord => if c = '\n' then .ok reader.endRecord else reader.startField delimiter c
  | .startField => reader.startField delimiter c
  | .inField =>
      if c = '\n' then .ok reader.saveField.endRecord
      else if c = delimiter then .ok reader.saveField
      else reader.addChar c .inField
  | .inQuotedField =>
      if c = '"' then .ok { reader with place := .quoteInQuotedField }
      else reader.addChar c .inQuotedField
  | .quoteInQuotedField =>
      if c = '"' then reader.addChar c .inQuotedField
      else if c = delimiter then .ok reader.saveField
      else if c = '\n' then .ok reader.saveField.endRecord
      else reader.addChar c .inField

/-- The end of the text ends the record that is being read. -/
def finish (reader : Reader) : List (List (List Char)) :=
  match reader.place with
  | .startRecord => reader.records.reverse
  | _ => reader.saveField.endRecord.records.reverse

end Reader

/-- `list(csv.reader(io.StringIO(text), delimiter=delimiter))` -/
def read (delimiter : Char) (text : List Char) : Except PyError (List (List (List Char))) :=
  (text.foldlM (Reader.step delimiter) Reader.init).map Reader.finish

example : (read ',' "a,\"b\"\"c,\nd\",\ne".toList).toOption =
    some [["a".toList, "b\"c,\nd".toList, []], ["e".toList]] := by decide

end Py.Csv
