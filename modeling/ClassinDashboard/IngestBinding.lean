import ClassinDashboard.IngestRun

/-!
Which parameters a statement accepts. Validated payload fields are typed as their columns are, so
the only thing that can go wrong is an int outside the range of an INTEGER cell, and the only things
that become NULL are `None` and NaN.
-/

namespace ClassinDashboard

open Py Sql

/-- An optional int that a statement accepts. -/
def fits (n : Option Int) : Bool := n.all SqlValue.inRange

/-- A value that a statement accepts. -/
def fitsCell : PyValue → Bool
  | .int n => SqlValue.inRange n
  | _ => true

/-- A value of the type of its column. -/
def typed : ColumnType → PyValue → Bool
  | _, .none | .integer, .int _ | .real, .int _ | .real, .float _ | .text, .str (.text _) => true
  | _, _ => false

/-- A value that is stored as NULL. -/
def blank : PyValue → Bool
  | .none | .float .nan => true
  | _ => false

variable (p : Platform)

theorem bindInt_isOk {n : Option Int} : (∃ k, bindInt n = .ok k) ↔ fits n = true := by
  cases n with
  | none => simp [bindInt, fits]
  | some n =>
      simp only [bindInt, fits, Option.all_some]
      split <;> simp_all

theorem bindInt_of_fits {n : Option Int} (h : fits n = true) : bindInt n = .ok n := by
  cases n with
  | none => rfl
  | some n =>
      rw [fits, Option.all_some] at h
      rw [bindInt, if_pos h]

/-- The cell of an optional int. -/
def intCell : Option Int → SqlValue
  | some n => .int n
  | none => .null

theorem bindInteger_of_fits {n : Option Int} (h : fits n = true) :
    p.bindInteger (.ofInt? n) = .ok (intCell n) := by
  cases n with
  | none => rfl
  | some n =>
      rw [fits, Option.all_some] at h
      simp only [Platform.bindInteger, PyValue.ofInt?, SqlValue.bind, h, ↓reduceIte]
      rfl

theorem bindInteger_isOk {n : Option Int} :
    (∃ c, p.bindInteger (.ofInt? n) = .ok c) ↔ fits n = true := by
  constructor
  · rintro ⟨c, hc⟩
    cases n with
    | none => rfl
    | some n =>
        simp only [Platform.bindInteger, PyValue.ofInt?, SqlValue.bind] at hc
        split at hc
        · assumption
        · cases hc
  · exact fun h => ⟨_, bindInteger_of_fits p h⟩

/-- A typed value is accepted exactly when it fits. -/
theorem bind_typed {type : ColumnType} {value : PyValue} (h : typed type value = true) :
    (∃ c, type.bind p value = .ok c) ↔ fitsCell value = true := by
  cases value with
  | none => cases type <;> exact ⟨fun _ => rfl, fun _ => ⟨.null, rfl⟩⟩
  | int n =>
      cases type with
      | text => cases h
      | integer => exact bindInteger_isOk p (n := some n)
      | real =>
          by_cases hn : SqlValue.inRange n = true
          · simp [ColumnType.bind, Platform.bindReal, SqlValue.bind, fitsCell, hn, Except.map]
          · simp [ColumnType.bind, Platform.bindReal, SqlValue.bind, fitsCell, hn, Except.map]
  | float x =>
      cases type with
      | text => cases h
      | integer => cases h
      | real => cases x <;> exact ⟨fun _ => rfl, fun _ => ⟨_, rfl⟩⟩
  | str s =>
      cases s with
      | lone points hp => cases type <;> cases h
      | text s =>
          cases type with
          | text => exact ⟨fun _ => rfl, fun _ => ⟨.text s, rfl⟩⟩
          | integer => cases h
          | real => cases h
  | bool b => cases type <;> cases h
  | list items => cases type <;> cases h
  | dict items => cases type <;> cases h

/-- A typed value is stored as NULL exactly when it is blank. -/
theorem bind_typed_null {type : ColumnType} {value : PyValue} (h : typed type value = true) :
    type.bind p value = .ok .null ↔ blank value = true := by
  cases value with
  | none => cases type <;> exact ⟨fun _ => rfl, fun _ => rfl⟩
  | int n =>
      have hblank : blank (.int n) = false := rfl
      cases type with
      | text => cases h
      | integer =>
          simp only [ColumnType.bind, Platform.bindInteger, SqlValue.bind, hblank]
          split <;> simp [Except.map]
      | real =>
          simp only [ColumnType.bind, Platform.bindReal, SqlValue.bind, hblank]
          split <;> simp [Except.map]
  | float x =>
      cases type with
      | text => cases h
      | integer => cases h
      | real =>
          cases x with
          | nan => exact ⟨fun _ => rfl, fun _ => rfl⟩
          | inf negative => simp [ColumnType.bind, Platform.bindReal, SqlValue.bind, Except.map, blank]
          | fin q => simp [ColumnType.bind, Platform.bindReal, SqlValue.bind, Except.map, blank]
  | str s =>
      cases s with
      | lone points hp => cases type <;> cases h
      | text s =>
          cases type with
          | text =>
              simp [ColumnType.bind, Platform.bindText, SqlValue.bind, PyStr.encode, Except.map, blank]
          | integer => cases h
          | real => cases h
  | bool b => cases type <;> cases h
  | list items => cases type <;> cases h
  | dict items => cases type <;> cases h

/-- Any value that a statement accepts. -/
def storable : PyValue → Bool
  | .int n => SqlValue.inRange n
  | .str (.lone _ _) | .list _ | .dict _ => false
  | _ => true

theorem storable_ofInt? (n : Option Int) : storable (.ofInt? n) = fits n := by cases n <;> rfl

theorem storable_ofText? (s : Option String) : storable (.ofText? s) = true := by cases s <;> rfl

theorem sqlBind_isOk {value : PyValue} :
    (∃ c, SqlValue.bind value = .ok c) ↔ storable value = true := by
  cases value with
  | int n =>
      simp only [SqlValue.bind, storable]
      split <;> simp_all
  | float x => cases x <;> simp [SqlValue.bind, storable]
  | str s => cases s <;> simp [SqlValue.bind, storable, PyStr.encode, Except.map]
  | _ => simp [SqlValue.bind, storable]

theorem bindText_isOk {value : PyValue} :
    (∃ s, p.bindText value = .ok s) ↔ storable value = true :=
  map_isOk.trans sqlBind_isOk

theorem bindInteger_isOk_iff {value : PyValue} :
    (∃ c, p.bindInteger value = .ok c) ↔ storable value = true :=
  map_isOk.trans sqlBind_isOk

/-! ### Field lists -/

/-- Fields of the types of their columns. -/
def Typed (fields : List (Column × PyValue)) : Prop :=
  ∀ field ∈ fields, typed field.1.type field.2 = true

theorem bindFields_cons (field : Column × PyValue) (fields : List (Column × PyValue)) :
    bindFields p (field :: fields) =
      (field.1.type.bind p field.2).bind fun cell =>
        (bindFields p fields).map fun cells => (field.1, cell) :: cells := by
  simp only [bindFields, List.mapM_cons]
  cases field.1.type.bind p field.2 with
  | error e => rfl
  | ok cell =>
      cases List.mapM (fun field : Column × PyValue =>
        (field.1.type.bind p field.2).map fun cell => (field.1, cell)) fields <;> rfl

theorem bindFields_isOk {fields : List (Column × PyValue)} (h : Typed fields) :
    (∃ cells, bindFields p fields = .ok cells) ↔ ∀ field ∈ fields, fitsCell field.2 = true := by
  induction fields with
  | nil => exact ⟨fun _ _ hf => absurd hf List.not_mem_nil, fun _ => ⟨[], rfl⟩⟩
  | cons field fields ih =>
      have ih := ih fun f hf => h f (List.mem_cons_of_mem _ hf)
      rw [List.forall_mem_cons, ← ih, ← bind_typed p (h field List.mem_cons_self), bindFields_cons]
      cases field.1.type.bind p field.2 with
      | error e => simp [Except.bind]
      | ok cell => cases bindFields p fields <;> simp [Except.bind, Except.map]

/-- A column of the bound fields holds the bound value of that column. -/
theorem lookup_bindFields {fields : List (Column × PyValue)} {cells : List (Column × SqlValue)}
    (h : bindFields p fields = .ok cells) (c : Column) :
    cells.lookup c = (fields.lookup c).bind fun value => (c.type.bind p value).toOption := by
  induction fields generalizing cells with
  | nil =>
      cases h
      rfl
  | cons field fields ih =>
      rw [bindFields_cons] at h
      cases hcell : field.1.type.bind p field.2 with
      | error e =>
          rw [hcell] at h
          cases h
      | ok cell =>
          cases hcells : bindFields p fields with
          | error e =>
              rw [hcell, hcells] at h
              cases h
          | ok rest =>
              rw [hcell, hcells] at h
              cases h
              obtain ⟨column, value⟩ := field
              by_cases hc : c = column
              · subst hc
                simp only at hcell
                simp [hcell, Except.toOption]
              · simp only [List.lookup_cons, beq_eq_false_iff_ne.mpr hc]
                exact ih hcells

end ClassinDashboard
