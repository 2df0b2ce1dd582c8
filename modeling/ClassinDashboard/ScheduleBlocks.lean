import ClassinDashboard.LineTimes
import Mathlib.Data.List.ModifyLast

/-!
The rule-based reader as what it is for: a schedule is a list of blocks, each a line of a course and the
lines of homework down to the next one. The loop over the lines, with its dictionary of homework lines by
the number of a course, computes the blocks.
-/

namespace Py

/-- A text below another has its own lines, but for a blank one that may stand between them. -/
theorem linesFrom_newline (line text below : List Char) :
    ∃ gap, (gap = [] ∨ gap = [[]]) ∧
      linesFrom line (text ++ '\n' :: below) = linesFrom line text ++ gap ++ linesFrom [] below := by
  have hbreak (line : List Char) : linesFrom line ('\n' :: below) = line.reverse :: linesFrom [] below := by
    rw [linesFrom]
    · exact if_pos rfl
    · intro _ hc
      cases hc
  fun_induction linesFrom line text with
  | case1 line hempty =>
      rw [List.nil_append, hbreak, List.isEmpty_iff.mp hempty]
      exact ⟨[[]], .inr rfl, rfl⟩
  | case2 line hempty =>
      rw [List.nil_append, hbreak]
      exact ⟨[], .inl rfl, rfl⟩
  | case3 line rest ih =>
      obtain ⟨gap, hgap, hrest⟩ := ih
      refine ⟨gap, hgap, ?_⟩
      rw [List.cons_append, List.cons_append, linesFrom, hrest]
      rfl
  | case4 line c rest hpair hc ih =>
      by_cases hcr : c = '\r' ∧ rest = []
      · obtain ⟨rfl, rfl⟩ := hcr
        refine ⟨[], .inl rfl, ?_⟩
        rw [List.cons_append, List.nil_append, linesFrom]
        rfl
      · obtain ⟨gap, hgap, hrest⟩ := ih
        refine ⟨gap, hgap, ?_⟩
        rw [List.cons_append, linesFrom, if_pos hc, hrest]
        · rfl
        · rintro rest' rfl happend
          cases rest with
          | nil => exact hcr ⟨rfl, rfl⟩
          | cons first rest =>
              obtain ⟨rfl, rfl⟩ := List.cons.inj happend
              exact hpair _ rfl rfl
  | case5 line c rest hpair hc ih =>
      obtain ⟨gap, hgap, hrest⟩ := ih
      refine ⟨gap, hgap, ?_⟩
      rw [List.cons_append, linesFrom, if_neg hc, hrest]
      rintro rest' rfl happend
      exact hc rfl

end Py

namespace ClassinDashboard

open Py

/-! ### Blocks -/

/-- A course, what was assumed for it and the homework lines below it. -/
structure Block where
  course : ParsedCourse
  notes : List Text
  homework : List Text

/-- What a line is read as. -/
inductive Reading
  | nothing
  | homework (line : Text)
  | course (course : ParsedCourse) (notes : List Text)

section Blocks

variable (p : Platform) (known : List Text) (day : Date)

/-- A schedule line read as the course of a number, when it has dates. -/
def courseReading (number : Nat) (line : Text) : Except PyError Reading := do
  let span ← parseTimeRange p line true
  let name := splitCourseName line
  let name := if name.isEmpty then "코스 ".toList ++ decimal number else name
  let (dates, dateNotes) ← lessonDates line (weekdaysIn line) day
  if dates.isEmpty then pure .nothing
  else
    pure (.course
      { courseName := name
        teacherName := findTeacher line known
        lessons := lessonsOn name (span.getD defaultSpan) dates
        confidence := 6 / 10 }
      (spanNotes name line span ++ dateNotes))

/-- A line below `count` courses. -/
def readingOf (count : Nat) (rawLine : Text) : Except PyError Reading :=
  let line := strip rawLine
  if line.isEmpty then .ok .nothing
  else if isHomeworkLine line then .ok (.homework line)
  else if isScheduleLine p line day then courseReading p known day (count + 1) line
  else .ok .nothing

/-- The homework lines above the first course of some lines, and the blocks from there, below `count`
courses. -/
def readBlocks (count : Nat) : List Text → Except PyError (List Text × List Block)
  | [] => .ok ([], [])
  | rawLine :: rest => do
      match ← readingOf p known day count rawLine with
      | .nothing => readBlocks count rest
      | .homework line =>
          let (above, blocks) ← readBlocks count rest
          pure (line :: above, blocks)
      | .course course notes =>
          let (homework, blocks) ← readBlocks (count + 1) rest
          pure ([], ⟨course, notes, homework⟩ :: blocks)

/-- The course of a block, with its homework. -/
def Block.read (block : Block) : Except PyError ParsedCourse := block.homework.foldlM setHomework block.course

/-- What is assumed of every schedule. -/
def ruleNote : Text := "AI 없이 규칙 기반으로 해석했습니다 — 날짜/시간을 꼭 확인하세요.".toList

/-- The courses of a schedule and what was assumed for them; homework above all courses is dropped. -/
def readSchedule (lines : List Text) : Except PyError (List ParsedCourse × List Text) := do
  let (_, blocks) ← readBlocks p known day 0 lines
  let courses ← blocks.mapM Block.read
  pure (courses, if courses.isEmpty then []
    else blocks.flatMap Block.notes ++ [ruleNote])

end Blocks

/-! ### The state of the loop -/

/-- Further homework lines for the last block. -/
def giveHomework (lines : List Text) (blocks : List Block) : List Block :=
  blocks.modifyLast fun block => { block with homework := block.homework ++ lines }

def addReading (blocks : List Block) : Reading → List Block
  | .nothing => blocks
  | .homework line => giveHomework [line] blocks
  | .course course notes => blocks ++ [⟨course, notes, []⟩]

/-- The homework lines of blocks by number, from `count` on. -/
def homeworkEntries : Nat → List Block → List (Nat × List Text)
  | _, [] => []
  | count, block :: blocks =>
      if block.homework.isEmpty then homeworkEntries (count + 1) blocks
      else (count, block.homework) :: homeworkEntries (count + 1) blocks

/-- The state of the loop that has read the blocks. -/
def stateOf (blocks : List Block) : HeuristicState :=
  ⟨blocks.map Block.course, blocks.flatMap Block.notes, homeworkEntries 0 blocks⟩

@[simp] theorem giveHomework_nil (lines : List Text) : giveHomework lines [] = [] := rfl

@[simp] theorem giveHomework_concat (lines : List Text) (blocks : List Block) (block : Block) :
    giveHomework lines (blocks ++ [block]) =
      blocks ++ [{ block with homework := block.homework ++ lines }] :=
  List.modifyLast_concat ..

theorem giveHomework_none (blocks : List Block) : giveHomework [] blocks = blocks := by
  rcases List.eq_nil_or_concat' blocks with rfl | ⟨init, last, rfl⟩
  · rfl
  · rw [giveHomework_concat, List.append_nil]

theorem giveHomework_append (lines more : List Text) (blocks : List Block) :
    giveHomework more (giveHomework lines blocks) = giveHomework (lines ++ more) blocks := by
  rcases List.eq_nil_or_concat' blocks with rfl | ⟨init, last, rfl⟩
  · rfl
  · rw [giveHomework_concat, giveHomework_concat, giveHomework_concat, List.append_assoc]

theorem length_giveHomework (lines : List Text) (blocks : List Block) :
    (giveHomework lines blocks).length = blocks.length := by
  rcases List.eq_nil_or_concat' blocks with rfl | ⟨init, last, rfl⟩
  · rfl
  · rw [giveHomework_concat, List.length_append, List.length_append]
    rfl

theorem homeworkEntries_append (count : Nat) (blocks more : List Block) :
    homeworkEntries count (blocks ++ more) =
      homeworkEntries count blocks ++ homeworkEntries (count + blocks.length) more := by
  induction blocks generalizing count with
  | nil => rfl
  | cons block blocks ih =>
      have hcount : count + 1 + blocks.length = count + (block :: blocks).length := by
        rw [List.length_cons]
        omega
      rw [List.cons_append, homeworkEntries, homeworkEntries, ih, hcount]
      split <;> rfl

theorem homeworkEntries_lt {count : Nat} {blocks : List Block} {entry : Nat × List Text}
    (h : entry ∈ homeworkEntries count blocks) : entry.1 < count + blocks.length := by
  induction blocks generalizing count with
  | nil => cases h
  | cons block blocks ih =>
      rw [homeworkEntries] at h
      rw [List.length_cons]
      split at h
      · have := ih h
        omega
      · rcases List.mem_cons.mp h with rfl | h
        · exact Nat.lt_add_of_pos_right (Nat.succ_pos _)
        · have := ih h
          omega

theorem addHomeworkLine_append {index : Nat} (line : Text) {entries : List (Nat × List Text)}
    (h : ∀ entry ∈ entries, entry.1 ≠ index) (more : List (Nat × List Text)) :
    addHomeworkLine index line (entries ++ more) = entries ++ addHomeworkLine index line more := by
  induction entries with
  | nil => rfl
  | cons entry entries ih =>
      rw [List.cons_append, addHomeworkLine, if_neg (h entry List.mem_cons_self),
        ih fun other hother => h other (List.mem_cons_of_mem _ hother)]
      rfl

/-- A homework line goes to the entry of the last block, which it may have to open. -/
theorem addHomeworkLine_last (line : Text) (blocks : List Block) (last : Block) :
    addHomeworkLine blocks.length line (homeworkEntries 0 (blocks ++ [last])) =
      homeworkEntries 0 (giveHomework [line] (blocks ++ [last])) := by
  have hothers : ∀ entry ∈ homeworkEntries 0 blocks, entry.1 ≠ blocks.length := by
    intro entry hentry
    have := homeworkEntries_lt hentry
    omega
  rw [giveHomework_concat, homeworkEntries_append, homeworkEntries_append,
    addHomeworkLine_append line hothers, Nat.zero_add]
  refine congrArg (homeworkEntries 0 blocks ++ ·) ?_
  simp only [homeworkEntries]
  cases hlast : last.homework with
  | nil => rfl
  | cons first rest => simp [addHomeworkLine]

/-! ### The loop reads blocks -/

section Loop

variable {p : Platform} {known : List Text} {day : Date}

theorem readCourse_reading (blocks : List Block) (line : Text) :
    (courseReading p known day (blocks.length + 1) line).map (fun reading => stateOf (addReading blocks reading)) =
      readCourse p known day (stateOf blocks) line := by
  have hlength : (stateOf blocks).courses.length = blocks.length := List.length_map _
  rw [courseReading, readCourse, hlength]
  cases parseTimeRange p line true with
  | error e => rfl
  | ok span =>
      cases lessonDates line (weekdaysIn line) day with
      | error e => rfl
      | ok found =>
          obtain ⟨dates, notes⟩ := found
          cases dates with
          | nil => rfl
          | cons date dates =>
              refine congrArg Except.ok ?_
              simp only [addReading, stateOf, List.map_append, List.flatMap_append, homeworkEntries_append,
                List.map_cons, List.map_nil, List.flatMap_cons, List.flatMap_nil, homeworkEntries,
                List.isEmpty_nil, if_true, List.append_nil, List.append_assoc]

/-- An iteration adds what the line is read as. -/
theorem readLine_reading (blocks : List Block) (rawLine : Text) :
    ((readingOf p known day blocks.length rawLine).map (addReading blocks)).map stateOf =
      readLine p known day (stateOf blocks) rawLine := by
  rw [readingOf, readLine]
  split
  · rfl
  · split
    · rcases List.eq_nil_or_concat' blocks with rfl | ⟨init, last, rfl⟩
      · rfl
      · have hcourses : (stateOf (init ++ [last])).courses.isEmpty = false := by simp [stateOf]
        have hindex : (stateOf (init ++ [last])).courses.length - 1 = init.length := by simp [stateOf]
        rw [hcourses, if_neg Bool.false_ne_true, hindex]
        refine congrArg Except.ok ?_
        simp only [addReading, stateOf, addHomeworkLine_last]
        rw [giveHomework_concat]
        simp only [List.map_append, List.flatMap_append, List.map_cons, List.map_nil, List.flatMap_cons,
          List.flatMap_nil]
    · split
      · rw [← readCourse_reading]
        cases courseReading p known day (blocks.length + 1) (strip rawLine) <;> rfl
      · rfl

/-- The loop over lines, from the blocks above them. -/
theorem foldlM_readBlocks (lines : List Text) (blocks : List Block) :
    lines.foldlM (fun blocks rawLine => (readingOf p known day blocks.length rawLine).map (addReading blocks))
        blocks =
      (readBlocks p known day blocks.length lines).map fun found => giveHomework found.1 blocks ++ found.2 := by
  induction lines generalizing blocks with
  | nil =>
      show Except.ok blocks = Except.ok (giveHomework [] blocks ++ [])
      rw [giveHomework_none, List.append_nil]
  | cons rawLine rest ih =>
      rw [List.foldlM_cons, readBlocks]
      cases readingOf p known day blocks.length rawLine with
      | error e => rfl
      | ok reading =>
          show rest.foldlM _ (addReading blocks reading) = _
          rw [ih]
          cases reading with
          | nothing => rfl
          | homework line =>
              show (readBlocks p known day (giveHomework [line] blocks).length rest).map _ =
                (readBlocks p known day blocks.length rest >>= _).map _
              rw [length_giveHomework]
              cases readBlocks p known day blocks.length rest with
              | error e => rfl
              | ok found =>
                  show Except.ok (giveHomework found.1 (giveHomework [line] blocks) ++ found.2) =
                    Except.ok (giveHomework (line :: found.1) blocks ++ found.2)
                  rw [giveHomework_append]
                  rfl
          | course course notes =>
              show (readBlocks p known day (blocks ++ [Block.mk course notes []]).length rest).map _ =
                (readBlocks p known day (blocks.length + 1) rest >>= _).map _
              rw [List.length_append, List.length_singleton]
              cases readBlocks p known day (blocks.length + 1) rest with
              | error e => rfl
              | ok found =>
                  show Except.ok (giveHomework found.1 (blocks ++ [⟨course, notes, []⟩]) ++ found.2) =
                    Except.ok (giveHomework [] blocks ++ ⟨course, notes, found.1⟩ :: found.2)
                  rw [giveHomework_concat, giveHomework_none, List.append_assoc]
                  rfl

/-- The second loop, over the dictionary, gives every block its homework. -/
theorem foldlM_assignHomework (courses : List ParsedCourse) (blocks : List Block) :
    (homeworkEntries courses.length blocks).foldlM assignHomework (courses ++ blocks.map Block.course) =
      (blocks.mapM Block.read).map fun read => courses ++ read := by
  induction blocks generalizing courses with
  | nil => rfl
  | cons block blocks ih =>
      have hnext (course : ParsedCourse) : (homeworkEntries (courses.length + 1) blocks).foldlM assignHomework
          (courses ++ course :: blocks.map Block.course) =
            (blocks.mapM Block.read).map fun read => courses ++ course :: read := by
        have hcourses := ih (courses ++ [course])
        rw [List.length_append, List.length_singleton, List.append_assoc] at hcourses
        simp only [List.append_assoc] at hcourses
        exact hcourses
      rw [homeworkEntries, List.map_cons, List.mapM_cons]
      cases hlines : block.homework with
      | nil =>
          have hread : block.read = .ok block.course := by
            rw [Block.read, hlines]
            rfl
          rw [hread, List.isEmpty_nil, if_pos rfl, hnext]
          cases blocks.mapM Block.read <;> rfl
      | cons line lines =>
          rw [List.isEmpty_cons, if_neg Bool.false_ne_true, List.foldlM_cons]
          have hassign : assignHomework (courses ++ block.course :: blocks.map Block.course)
              (courses.length, line :: lines) =
                block.read.map fun course => courses ++ course :: blocks.map Block.course := by
            rw [assignHomework, Block.read, hlines, List.getElem?_append_right (le_refl _), Nat.sub_self]
            simp only [List.getElem?_cons_zero]
            cases (line :: lines).foldlM setHomework block.course with
            | error e => rfl
            | ok course =>
                refine congrArg Except.ok ?_
                rw [List.set_append_right _ _ (le_refl _), Nat.sub_self]
                rfl
          rw [hassign]
          cases block.read with
          | error e => rfl
          | ok course =>
              show (homeworkEntries (courses.length + 1) blocks).foldlM assignHomework
                (courses ++ course :: blocks.map Block.course) = _
              rw [hnext]
              cases blocks.mapM Block.read <;> rfl

end Loop

/-- Both loops of the reader, in terms of blocks. -/
theorem heuristicParse_loops (p : Platform) (text : Text) (known : List Text) (day : Date) :
    heuristicParse p text known day =
      (readBlocks p (known.filter fun name => !name.isEmpty) day 0 (splitLines text) >>= fun found =>
        (found.2.mapM Block.read).map fun courses =>
          (courses, if courses.isEmpty then found.2.flatMap Block.notes
            else found.2.flatMap Block.notes ++ [ruleNote])) := by
  generalize hknown : (known.filter fun name => !name.isEmpty) = names
  rw [heuristicParse, hknown]
  have hlines : (splitLines text).foldlM (readLine p names day) ⟨[], [], []⟩ =
      (readBlocks p names day 0 (splitLines text)).map fun found => stateOf found.2 := by
    have hread : ∀ blocks rawLine,
        ((readingOf p names day blocks.length rawLine).map (addReading blocks)).map stateOf =
          readLine p names day (stateOf blocks) rawLine := readLine_reading
    have hview := foldlM_view hread (splitLines text) []
    rw [foldlM_readBlocks] at hview
    refine hview.symm.trans ?_
    show ((readBlocks p names day 0 (splitLines text)).map _).map stateOf = _
    cases readBlocks p names day 0 (splitLines text) <;> rfl
  rw [hlines]
  cases readBlocks p names day 0 (splitLines text) with
  | error e => rfl
  | ok found =>
      obtain ⟨above, blocks⟩ := found
      have hassign := foldlM_assignHomework [] blocks
      show (homeworkEntries 0 blocks).foldlM assignHomework (blocks.map Block.course) >>= _ = _
      change (homeworkEntries 0 blocks).foldlM assignHomework (blocks.map Block.course) = _ at hassign
      rw [hassign]
      show _ = (blocks.mapM Block.read).map _
      cases blocks.mapM Block.read <;> rfl

/-- The two loops of the reader, with the dictionary between them, read a schedule block by block: the
same courses, the same assumptions and the same exception. -/
theorem schedule_read_by_blocks (p : Platform) (text : Text) (known : List Text) (day : Date) :
    heuristicParse p text known day =
      readSchedule p (known.filter fun name => !name.isEmpty) day (splitLines text) := by
  rw [heuristicParse_loops, readSchedule]
  cases readBlocks p (known.filter fun name => !name.isEmpty) day 0 (splitLines text) with
  | error e => rfl
  | ok found =>
      obtain ⟨above, blocks⟩ := found
      show (blocks.mapM Block.read).map _ = blocks.mapM Block.read >>= _
      cases hread : blocks.mapM Block.read with
      | error e => rfl
      | ok courses =>
          have hlength := (mapM_eq_ok.mp hread).length_eq
          cases courses with
          | nil =>
              rw [List.length_eq_zero_iff.mp hlength]
              rfl
          | cons course courses => rfl

/-! ### Schedules one below the other -/

section Compose

variable (p : Platform) (known : List Text) (day : Date)

theorem readBlocks_append (count : Nat) (lines more : List Text) :
    readBlocks p known day count (lines ++ more) =
      (readBlocks p known day count lines >>= fun found =>
        (readBlocks p known day (count + found.2.length) more).map fun found' =>
          if found.2.isEmpty then (found.1 ++ found'.1, found'.2)
          else (found.1, giveHomework found'.1 found.2 ++ found'.2)) := by
  induction lines generalizing count with
  | nil =>
      show readBlocks p known day count more = (readBlocks p known day count more).map _
      cases readBlocks p known day count more <;> rfl
  | cons rawLine rest ih =>
      rw [List.cons_append, readBlocks, readBlocks]
      cases readingOf p known day count rawLine with
      | error e => rfl
      | ok reading =>
          cases reading with
          | nothing => exact ih count
          | homework line =>
              show (readBlocks p known day count (rest ++ more) >>= _) = (readBlocks p known day count rest >>= _) >>= _
              rw [ih]
              cases readBlocks p known day count rest with
              | error e => rfl
              | ok found =>
                  obtain ⟨above, blocks⟩ := found
                  show (readBlocks p known day (count + blocks.length) more).map _ >>= _ =
                    (readBlocks p known day (count + blocks.length) more).map _
                  cases readBlocks p known day (count + blocks.length) more with
                  | error e => rfl
                  | ok found' => cases blocks <;> rfl
          | course course notes =>
              show (readBlocks p known day (count + 1) (rest ++ more) >>= _) =
                (readBlocks p known day (count + 1) rest >>= _) >>= _
              rw [ih]
              cases readBlocks p known day (count + 1) rest with
              | error e => rfl
              | ok found =>
                  obtain ⟨above, blocks⟩ := found
                  show (readBlocks p known day (count + 1 + blocks.length) more).map _ >>= _ =
                    (readBlocks p known day (count + (blocks.length + 1)) more).map _
                  rw [Nat.add_right_comm, Nat.add_assoc]
                  cases readBlocks p known day (count + (blocks.length + 1)) more with
                  | error e => rfl
                  | ok found' =>
                      refine congrArg Except.ok ?_
                      cases blocks with
                      | nil => rfl
                      | cons block blocks =>
                          refine congrArg (Prod.mk []) ?_
                          show Block.mk course notes above :: (giveHomework found'.1 (block :: blocks) ++ found'.2) =
                            giveHomework found'.1 ([⟨course, notes, above⟩] ++ block :: blocks) ++ found'.2
                          rw [giveHomework, giveHomework,
                            List.modifyLast_append_of_right_ne_nil _ _ _ (List.cons_ne_nil _ _)]
                          rfl

/-- Every line of a course names it. -/
def Named (lines : List Text) : Prop :=
  ∀ rawLine ∈ lines, isCourseLine p (strip rawLine) day = true → splitCourseName (strip rawLine) ≠ []

instance (lines : List Text) : Decidable (Named p day lines) :=
  inferInstanceAs (Decidable (∀ rawLine ∈ lines, _ → _))

variable {p known day}

/-- A course that is named is read alike below any number of courses. -/
theorem readBlocks_count {lines : List Text} (h : Named p day lines) (count count' : Nat) :
    readBlocks p known day count lines = readBlocks p known day count' lines := by
  induction lines generalizing count count' with
  | nil => rfl
  | cons rawLine rest ih =>
      have hrest := ih fun line hline => h line (List.mem_cons_of_mem _ hline)
      have hreading : readingOf p known day count rawLine = readingOf p known day count' rawLine := by
        have hname := h rawLine List.mem_cons_self
        rw [isCourseLine, Bool.and_eq_true, Bool.and_eq_true] at hname
        rw [readingOf, readingOf]
        split
        · rfl
        · rename_i hempty
          split
          · rfl
          · rename_i hhomework
            split
            · rename_i hschedule
              have hnamed := hname ⟨⟨by simpa using hempty, by simpa using hhomework⟩, hschedule⟩
              rw [courseReading, courseReading]
              have hsome : (splitCourseName (strip rawLine)).isEmpty = false := by simpa using hnamed
              simp only [hsome, Bool.false_eq_true, if_false]
            · rfl
      rw [readBlocks, readBlocks, hreading]
      cases readingOf p known day count' rawLine with
      | error e => rfl
      | ok reading =>
          cases reading with
          | nothing => exact hrest count count'
          | homework line =>
              show readBlocks p known day count rest >>= _ = readBlocks p known day count' rest >>= _
              rw [hrest count count']
          | course course notes =>
              show readBlocks p known day (count + 1) rest >>= _ = readBlocks p known day (count' + 1) rest >>= _
              rw [hrest (count + 1) (count' + 1)]

variable (p known day)

/-- No homework stands above the first course of the lines. -/
def startsWithCourse (lines : List Text) : Bool :=
  (readBlocks p known day 0 lines).toOption.all fun found => found.1.isEmpty

/-- The courses of a schedule, when it can be read. -/
def scheduleCourses (text : Text) : Option (List ParsedCourse) :=
  (heuristicParse p text known day).toOption.map Prod.fst

theorem scheduleCourses_eq (text : Text) :
    scheduleCourses p known day text =
      (readBlocks p (known.filter fun name => !name.isEmpty) day 0 (splitLines text)).toOption.bind
        fun found => (found.2.mapM Block.read).toOption := by
  rw [scheduleCourses, heuristicParse_loops]
  cases readBlocks p (known.filter fun name => !name.isEmpty) day 0 (splitLines text) with
  | error e => rfl
  | ok found =>
      show ((found.2.mapM Block.read).map _).toOption.map Prod.fst = (found.2.mapM Block.read).toOption
      cases found.2.mapM Block.read <;> rfl

/-- A schedule pasted below another is read like the two on their own: a course depends on nothing above
its line, as long as it is named, and on nothing below the next course. -/
theorem schedules_compose (first second : Text)
    (hstarts : startsWithCourse p (known.filter fun name => !name.isEmpty) day (splitLines second) = true)
    (hnamed : Named p day (splitLines second)) :
    scheduleCourses p known day (first ++ '\n' :: second) =
      Option.map₂ (· ++ ·) (scheduleCourses p known day first) (scheduleCourses p known day second) := by
  rw [scheduleCourses_eq, scheduleCourses_eq, scheduleCourses_eq]
  generalize (known.filter fun name => !name.isEmpty) = names at hstarts ⊢
  obtain ⟨gap, hgap, hlines⟩ := linesFrom_newline [] first second
  have hsecond (count : Nat) : readBlocks p names day count (gap ++ splitLines second) =
      readBlocks p names day 0 (splitLines second) := by
    rcases hgap with rfl | rfl
    · exact readBlocks_count hnamed count 0
    · exact readBlocks_count hnamed count 0
  have hwhole : splitLines (first ++ '\n' :: second) = splitLines first ++ (gap ++ splitLines second) := by
    rw [← List.append_assoc]
    exact hlines
  rw [hwhole, readBlocks_append]
  simp only [hsecond]
  rw [startsWithCourse] at hstarts
  cases readBlocks p names day 0 (splitLines first) with
  | error e => rfl
  | ok found =>
      obtain ⟨above, blocks⟩ := found
      cases hread : readBlocks p names day 0 (splitLines second) with
      | error e =>
          show none = Option.map₂ _ _ none
          rw [Option.map₂_none_right]
      | ok found' =>
          obtain ⟨above', blocks'⟩ := found'
          rw [hread] at hstarts
          obtain rfl : above' = [] := List.isEmpty_iff.mp hstarts
          have hboth : (if blocks.isEmpty then (above ++ [], blocks')
              else (above, giveHomework [] blocks ++ blocks')).2 = blocks ++ blocks' := by
            rw [giveHomework_none]
            cases blocks <;> rfl
          show (((if blocks.isEmpty then (above ++ [], blocks')
            else (above, giveHomework [] blocks ++ blocks')).2).mapM Block.read).toOption = _
          rw [hboth, List.mapM_append]
          show _ = Option.map₂ (· ++ ·) (blocks.mapM Block.read).toOption (blocks'.mapM Block.read).toOption
          cases blocks.mapM Block.read with
          | error e => rfl
          | ok courses => cases blocks'.mapM Block.read <;> rfl

end Compose

/-- Two schedules of one course each, the second with homework. -/
def mathSchedule : Text := "수학 A 김선생님 화/목 7-9시".toList

def englishSchedule : Text := "영어 B 이선생님 월/수 5-6시 2주\n숙제: 단어장 이틀 뒤까지".toList

theorem mathSchedule_compose :
    scheduleCourses .plain [] ⟨739707, by decide, by decide⟩ (mathSchedule ++ '\n' :: englishSchedule) =
      Option.map₂ (· ++ ·) (scheduleCourses .plain [] ⟨739707, by decide, by decide⟩ mathSchedule)
        (scheduleCourses .plain [] ⟨739707, by decide, by decide⟩ englishSchedule) :=
  schedules_compose .plain [] ⟨739707, by decide, by decide⟩ mathSchedule englishSchedule
    (by decide +kernel) (by decide +kernel)

end ClassinDashboard
