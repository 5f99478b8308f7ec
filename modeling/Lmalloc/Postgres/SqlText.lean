/-
  Lmalloc/Postgres/SqlText.lean
  =============================
  **When the SQL texts of `PgPrepareCtx` are complete.**

  Both texts are a list of fragments with a separator behind each, the last of which
  is taken away again before the ending is appended.  The results of the appends
  are ignored, so a fragment for which the arena has no room is left out and the
  text is sent, or stored, all the same.  A text is complete exactly if all of it
  fits, and the COPY text needs a column besides, as the two bytes that are taken
  away are otherwise those of the table's name and the bracket.
-/
import Lmalloc.Postgres.Layout
import Lmalloc.Postgres.Prepare

namespace Lmalloc.Postgres

open Lmalloc.Library
open Lmalloc.Strings (Growing headerSize)

/-! ### The intended texts -/

def attributeText (attr : Text × Text) : Text :=
  createSeparator ++ attr.1 ++ createSpace ++ attr.2

/-- The key column without its separator. -/
@[irreducible] def createKeyText : Text := "(\nid SERIAL PRIMARY KEY".toList

/-- The text before its ending. -/
def createBody (name : Text) (attributes : List (Text × Text)) : Text :=
  createStart ++ name ++ createKeyText ++ attributes.flatMap attributeText

def createText (name : Text) (attributes : List (Text × Text)) : Text :=
  createBody name attributes ++ createEnd

theorem length_createStart : createStart.length = 27 := by
  unfold createStart
  rfl

theorem length_createSeparator : createSeparator.length = 2 := by
  unfold createSeparator
  rfl

theorem length_createEnd : createEnd.length = 2 := by
  unfold createEnd
  rfl

theorem createKey_eq : createKey = createKeyText ++ createSeparator := by
  unfold createKey createKeyText createSeparator
  rw [← String.toList_append]
  rfl

/-- The attributes of a data object, if all of them are strings. -/
def attributesOf : List (Text × Json) → Option (List (Text × Text))
  | [] => some []
  | (key, .string value) :: rest => (attributesOf rest).map ((key, value) :: ·)
  | _ :: _ => none

def dataAttributes : Option Json → Option (List (Text × Text))
  | some (.object items) => attributesOf items
  | _ => none

def Sensor.attributes (s : Sensor) : Option (List (Text × Text)) :=
  dataAttributes (getObjectItem s.schema "data".toList)

/-- The columns that are in the data. -/
def dataNamesOf (rows : List CatalogRow) : List Text :=
  (rows.filter (! isTrue ·.isAutoIncrement)).map (·.columnName)

def Answers.dataNames (a : Answers) : List Text := dataNamesOf a.rows

/-! ### The CREATE text as fragments -/

def attributeFragments (attr : Text × Text) : List Text :=
  [attr.1, createSpace, attr.2, createSeparator]

theorem appendAttributes_eq (query : Growing Char) (items : List (Text × Json)) :
    appendAttributes query items = (attributesOf items).map fun attributes =>
      (attributes.flatMap attributeFragments).foldl Growing.append query := by
  induction items generalizing query with
  | nil => rfl
  | cons item rest ih =>
    obtain ⟨key, json⟩ := item
    cases json with
    | string value =>
      simp only [appendAttributes, attributesOf, ih, Option.map_map]
      rfl
    | object _ | array _ | other => rfl

/-- Moving the separator from behind each attribute to before it. -/
theorem flatten_attributeFragments (attributes : List (Text × Text)) :
    createSeparator ++ (attributes.flatMap attributeFragments).flatten =
      attributes.flatMap attributeText ++ createSeparator := by
  induction attributes with
  | nil => simp
  | cons attr attributes ih =>
    rw [List.flatMap_cons, List.flatMap_cons, List.flatten_append, List.append_assoc, ← ih]
    simp [attributeFragments, attributeText]

def createFragments (name : Text) (attributes : List (Text × Text)) : List Text :=
  name :: createKey :: attributes.flatMap attributeFragments

theorem createFragments_eq (name : Text) (attributes : List (Text × Text)) :
    createStart ++ (createFragments name attributes).flatten =
      createBody name attributes ++ createSeparator := by
  have hmove := flatten_attributeFragments attributes
  rw [createFragments, createBody, List.flatten_cons, List.flatten_cons, createKey_eq]
  simp only [List.append_assoc, hmove]

/-! ### Building the CREATE text -/

theorem creationQuery_eq (scratch : Bump) (name : Text) (data : Option Json) :
    creationQuery scratch name data =
      match Growing.make scratch createStart, dataAttributes data with
      | none, _ => .error nullString
      | some _, none => .error .failed
      | some query, some attributes =>
          .ok (query.finish (createFragments name attributes) 2 createEnd) := by
  rw [creationQuery]
  cases Growing.make scratch createStart with
  | none => rfl
  | some query =>
    simp only
    cases data with
    | none => rfl
    | some json =>
      cases json with
      | object items =>
        simp only [dataAttributes, appendAttributes_eq]
        cases attributesOf items with
        | none => rfl
        | some attributes => rfl
      | string _ | array _ | other => rfl

/-- A string of `n` bytes with its header and its `NUL`. -/
def stringSize (n : ℕ) : ℕ := headerSize + n + 1

theorem arenaPush_eq_some_iff {arena arena' : Bump} {n : ℕ} :
    arenaPush arena n = some arena' ↔
      arena'.cap = arena.cap ∧ arena'.cur = arena.cur + n := by
  rw [arenaPush]
  constructor
  · intro h
    by_cases hfit : arena.cur + n ≤ arena.cap
    · rw [dif_pos hfit] at h
      cases h
      exact ⟨rfl, rfl⟩
    · rw [dif_neg hfit] at h
      cases h
  · rintro ⟨hcap, hcur⟩
    have hle := arena'.cur_le
    rw [dif_pos (by omega)]
    cases arena'
    cases hcap
    cases hcur
    rfl

theorem arenaPush_eq_none_iff {arena : Bump} {n : ℕ} :
    arenaPush arena n = none ↔ arena.cap < arena.cur + n := by
  rw [arenaPush]
  by_cases hfit : arena.cur + n ≤ arena.cap
  · rw [dif_pos hfit]
    exact iff_of_false (fun h => by cases h) (Nat.not_lt.mpr hfit)
  · rw [dif_neg hfit]
    exact iff_of_true rfl (Nat.lt_of_not_le hfit)

/-- **The CREATE text is complete if and only if it fits as one block**, and then it
    takes that block. -/
theorem createText_cases {scratch : Bump} {query : Growing Char}
    (hmake : Growing.make scratch createStart = some query) (name : Text)
    (attributes : List (Text × Text)) :
    (arenaPush scratch (stringSize (createText name attributes).length) = none ∧
        (query.finish (createFragments name attributes) 2 createEnd).text ≠
          createText name attributes) ∨
      (arenaPush scratch (stringSize (createText name attributes).length) =
          some (query.finish (createFragments name attributes) 2 createEnd).arena ∧
        (query.finish (createFragments name attributes) 2 createEnd).text =
          createText name attributes) := by
  obtain ⟨htight, hnew, hcapEq, hcurEq⟩ := Growing.fresh_of_make hmake
  have hroom : Growing.endingRoom 2 createEnd = 0 := by
    rw [Growing.endingRoom, length_createEnd, if_pos (Nat.le_refl _)]
  have hstart : 2 ≤ query.text.length := by
    rw [hnew, length_createStart]
    decide
  have hall := createFragments_eq name attributes
  have hlength := congrArg List.length hall
  rw [List.length_append, List.length_append, length_createSeparator] at hlength
  have hwhole : (createText name attributes).length = (createBody name attributes).length + 2 := by
    rw [createText, List.length_append, length_createEnd]
  have htext := Growing.finish_text_iff htight (createFragments name attributes) hstart createEnd
  have harena := Growing.finish_arena htight (createFragments name attributes) hstart createEnd
  have hcut : (createStart ++ (createFragments name attributes).flatten).take
      ((createStart ++ (createFragments name attributes).flatten).length - 2) ++ createEnd =
        createText name attributes := by
    rw [hall, createText]
    exact congrArg (· ++ createEnd) (backspace_append length_createSeparator)
  rw [hnew, hcut, hroom] at htext
  rw [hroom] at harena
  rw [Ne, htext, stringSize, hwhole]
  by_cases hfits : query.arena.cur + (createFragments name attributes).flatten.length + 0 ≤
      query.arena.cap
  · obtain ⟨hcap, hcur⟩ := harena hfits
    exact Or.inr ⟨arenaPush_eq_some_iff.mpr ⟨hcap.trans hcapEq, by omega⟩, hfits⟩
  · exact Or.inl ⟨arenaPush_eq_none_iff.mpr (by omega), hfits⟩

/-! ### Building the COPY text -/

theorem copyText_eq (tableName : Text) (names : List Text) :
    copyText tableName names = copyStart ++ tableName ++ copyBracket ++
      List.intercalate copySeparator names ++ copyEnd := by
  unfold copyText copyStart copyBracket copySeparator copyEnd
  rfl

theorem length_copyStart : copyStart.length = 5 := by
  unfold copyStart
  rfl

theorem length_copyBracket : copyBracket.length = 1 := by
  unfold copyBracket
  rfl

theorem length_copySeparator : copySeparator.length = 2 := by
  unfold copySeparator
  rfl

theorem length_copyEnd : copyEnd.length = 33 := by
  unfold copyEnd
  rfl

/-- The names that the loop appends, unless one of them is a null pointer. -/
def appendedNames : List (Bool × Option Text) → Option (List Text)
  | [] => some []
  | (isAutoIncrement, name) :: rest =>
      if isAutoIncrement then appendedNames rest
      else name.bind fun name => (appendedNames rest).map (name :: ·)

def nameFragments (name : Text) : List Text := [name, copySeparator]

theorem appendColumns_eq (command : Growing Char) (cols : List (PgColMetadata × Option Text)) :
    appendColumns command cols =
      (appendedNames (cols.map fun col => (col.1.isAutoIncrement, col.2))).map fun names =>
        (names.flatMap nameFragments).foldl Growing.append command := by
  induction cols generalizing command with
  | nil => rfl
  | cons col rest ih =>
    obtain ⟨col, name⟩ := col
    simp only [appendColumns, List.map_cons, appendedNames]
    cases col.isAutoIncrement with
    | true => exact ih command
    | false =>
      cases name with
      | none => rfl
      | some name =>
        simp only [Bool.false_eq_true, if_false, Option.bind_some, ih, Option.map_map]
        rfl

def copyFragments (tableName : Text) (names : List Text) : List Text :=
  tableName :: copyBracket :: names.flatMap nameFragments

theorem flatten_nameFragments (names : List Text) :
    (names.flatMap nameFragments).flatten = names.flatMap (· ++ copySeparator) := by
  induction names with
  | nil => rfl
  | cons name names ih =>
    rw [List.flatMap_cons, List.flatMap_cons, List.flatten_append, ih]
    simp [nameFragments]

theorem copyCommandIn_eq (arena : Bump) (tableName : Option Text)
    (cols : List (PgColMetadata × Option Text)) :
    copyCommandIn arena tableName cols =
      match Growing.make arena copyStart, tableName,
        appendedNames (cols.map fun col => (col.1.isAutoIncrement, col.2)) with
      | some command, some tableName, some names =>
          .ok (command.finish (copyFragments tableName names) 2 copyEnd)
      | _, _, _ => .error nullString := by
  unfold copyCommandIn
  cases Growing.make arena copyStart with
  | none => rfl
  | some command =>
    cases tableName with
    | none => rfl
    | some tableName =>
      simp only [appendColumns_eq]
      cases appendedNames (cols.map fun col => (col.1.isAutoIncrement, col.2)) with
      | none => rfl
      | some names => rfl

/-- **The COPY text is complete if and only if there is a column and it fits**, with
    the two bytes that are taken away again. -/
theorem copyText_iff {arena : Bump} {command : Growing Char}
    (hmake : Growing.make arena copyStart = some command) (tableName : Text)
    (names : List Text) :
    (command.finish (copyFragments tableName names) 2 copyEnd).text = copyText tableName names ↔
      names ≠ [] ∧
        arena.cur + (stringSize (copyText tableName names).length + 2) ≤ arena.cap := by
  obtain ⟨htight, hnew, hcapEq, hcurEq⟩ := Growing.fresh_of_make hmake
  have hroom : Growing.endingRoom 2 copyEnd = 33 := by
    rw [Growing.endingRoom, length_copyEnd, if_neg (by decide)]
  have hstart : 2 ≤ command.text.length := by
    rw [hnew, length_copyStart]
    decide
  have hshort := Growing.length_finish_le htight (copyFragments tableName names) 2 copyEnd
  have htext := Growing.finish_text_iff htight (copyFragments tableName names) hstart copyEnd
  rw [hnew] at hshort htext
  have hflatten : (copyFragments tableName names).flatten =
      tableName ++ copyBracket ++ names.flatMap (· ++ copySeparator) := by
    rw [copyFragments, List.flatten_cons, List.flatten_cons, flatten_nameFragments,
      List.append_assoc]
  have hlength := congrArg List.length (copyText_eq tableName names)
  simp only [List.length_append, length_copyStart, length_copyBracket, length_copyEnd] at hlength
  by_cases hnone : names = []
  · -- the bracket and a byte of the name are taken away
    subst hnone
    refine iff_of_false ?_ fun h => h.1 rfl
    intro hsame
    have hlong := congrArg List.length hsame
    have hempty : (List.intercalate copySeparator ([] : List Text)).length = 0 := rfl
    have hbare := congrArg List.length hflatten
    rw [List.flatMap_nil, List.append_nil, List.length_append, length_copyBracket] at hbare
    have hfive := length_copyStart
    have hending := length_copyEnd
    omega
  · have hall := flatMap_append_separator copySeparator hnone
    have hbody : copyStart ++ (copyFragments tableName names).flatten =
        copyStart ++ tableName ++ copyBracket ++ List.intercalate copySeparator names ++
          copySeparator := by
      rw [hflatten, hall]
      simp only [List.append_assoc]
    have hcut : (copyStart ++ (copyFragments tableName names).flatten).take
        ((copyStart ++ (copyFragments tableName names).flatten).length - 2) ++ copyEnd =
          copyText tableName names := by
      rw [hbody, copyText_eq]
      exact congrArg (· ++ copyEnd) (backspace_append length_copySeparator)
    have hbodyLength := congrArg List.length hbody
    simp only [List.length_append, length_copyStart, length_copyBracket,
      length_copySeparator] at hbodyLength
    rw [hcut, hroom] at htext
    rw [htext, and_iff_right hnone, stringSize]
    have hfive := length_copyStart
    constructor
    · intro h
      omega
    · intro h
      omega

/-! ### The names -/

theorem makeName_cases (arena : Bump) (name : Text) :
    (arena.cur + stringSize name.length ≤ arena.cap ∧ (makeName arena name).1 = some name) ∨
      (arena.cap < arena.cur + stringSize name.length ∧ (makeName arena name).1 = none) := by
  rw [makeName]
  cases hmake : Growing.make arena name with
  | none => exact Or.inr ⟨Growing.make_eq_none_iff.mp hmake, rfl⟩
  | some s =>
    obtain ⟨hfit, rfl⟩ := Growing.make_eq_some_iff.mp hmake
    exact Or.inl ⟨hfit, rfl⟩

/-- Every column that is in the data has its name. -/
def Named (rows : List CatalogRow) (names : List (Option Text)) : Prop :=
  ∀ col ∈ rows.zip names, isTrue col.1.isAutoIncrement = false → col.2 ≠ none

theorem appendedNames_eq_some_iff (arena : Bump) (rows : List CatalogRow) {names : List Text} :
    appendedNames ((rows.map fun row => isTrue row.isAutoIncrement).zip
        (columnNames arena rows).1) = some names ↔
      Named rows (columnNames arena rows).1 ∧ names = dataNamesOf rows := by
  induction rows generalizing arena names with
  | nil =>
    simp only [columnNames, List.map_nil, List.zip_nil_left, appendedNames, Option.some.injEq]
    constructor
    · rintro rfl
      exact ⟨fun _ hcol => absurd hcol List.not_mem_nil, rfl⟩
    · rintro ⟨_, rfl⟩
      rfl
  | cons row rows ih =>
    have hnamed : Named (row :: rows) (columnNames arena (row :: rows)).1 ↔
        (isTrue row.isAutoIncrement = false → (makeName arena row.columnName).1 ≠ none) ∧
          Named rows (columnNames (makeName arena row.columnName).2 rows).1 := by
      simp only [Named, columnNames, List.zip_cons_cons, List.forall_mem_cons]
    rw [hnamed]
    simp only [columnNames, List.map_cons, List.zip_cons_cons, appendedNames]
    cases hauto : isTrue row.isAutoIncrement with
    | true =>
      have hskip : dataNamesOf (row :: rows) = dataNamesOf rows := by
        rw [dataNamesOf, List.filter_cons_of_neg (by simp [hauto]), dataNamesOf]
      rw [if_pos rfl, ih, hskip]
      simp
    | false =>
      have htake : dataNamesOf (row :: rows) = row.columnName :: dataNamesOf rows := by
        rw [dataNamesOf, List.filter_cons_of_pos (by simp [hauto]), List.map_cons, dataNamesOf]
      rw [if_neg Bool.false_ne_true, htake]
      rcases makeName_cases arena row.columnName with ⟨_, hsome⟩ | ⟨_, hnone⟩
      · simp only [hsome, Option.bind_some, Option.map_eq_some_iff, ih]
        constructor
        · rintro ⟨rest, ⟨hrest, rfl⟩, rfl⟩
          exact ⟨⟨fun _ => Option.some_ne_none _, hrest⟩, rfl⟩
        · rintro ⟨⟨_, hrest⟩, rfl⟩
          exact ⟨_, ⟨hrest, rfl⟩, rfl⟩
      · rw [hnone, Option.bind_none]
        constructor
        · intro h
          cases h
        · rintro ⟨⟨h, _⟩, _⟩
          exact absurd rfl (h rfl)

theorem isAutoIncrement_foldl (s : Layout) (rows : List CatalogRow) :
    (rows.foldl Layout.addColumn s).metadataArray.map (·.isAutoIncrement) =
      s.metadataArray.map (·.isAutoIncrement) ++ rows.map fun row => isTrue row.isAutoIncrement := by
  induction rows generalizing s with
  | nil => simp
  | cons row rows ih =>
    rw [List.foldl_cons, ih, Layout.addColumn]
    cases hauto : isTrue row.isAutoIncrement <;> simp [CatalogRow.metadata, hauto]

theorem length_columnNames (arena : Bump) (rows : List CatalogRow) :
    (columnNames arena rows).1.length = rows.length := by
  induction rows generalizing arena with
  | nil => rfl
  | cons row rows ih =>
    simp only [columnNames, List.length_cons, ih]

/-- What `GetTableMetadata` gives when it does not fail. -/
theorem getMetadata_ok {scratch arena : Bump} {a : Answers} {md : TableMetadata}
    (h : getMetadata scratch arena a = .ok md) :
    ∃ pushed, md.names = (columnNames pushed a.rows).1 ∧
      md.colCount = Int16.ofNat a.rows.length ∧
      md.layout = a.rows.foldl Layout.addColumn ⟨0, a.oldRowSize, 0, []⟩ := by
  unfold getMetadata at h
  cases hmake : Growing.make scratch ([] : Text) with
  | none =>
    rw [hmake] at h
    cases h
  | some query =>
    rw [hmake] at h
    simp only [getTableMetadata] at h
    by_cases hstatus : a.metadataStatus = .tuplesOk
    · rw [if_neg (not_not_intro hstatus)] at h
      cases hpush : arenaPush arena (colMetadataSize * a.rows.length) with
      | none =>
        rw [hpush] at h
        cases h
      | some pushed =>
        rw [hpush] at h
        cases h
        exact ⟨pushed, rfl, rfl, rfl⟩
    · rw [if_pos hstatus] at h
      cases h

/-- It fails, or cannot make the text of its query. -/
theorem getMetadata_error {scratch arena : Bump} {a : Answers} {e : Exit}
    (h : getMetadata scratch arena a = .error e) : e = .failed ∨ e = nullPointer := by
  unfold getMetadata at h
  cases hmake : Growing.make scratch ([] : Text) with
  | none =>
    rw [hmake] at h
    exact Or.inr (Except.error.inj h).symm
  | some query =>
    rw [hmake] at h
    simp only at h
    cases hquery : getTableMetadata a.oldRowSize
        ⟨a.metadataStatus, a.rows, (arenaPush arena (colMetadataSize * a.rows.length)).isSome⟩ with
    | none =>
      rw [hquery] at h
      exact Or.inl (Except.error.inj h).symm
    | some _ =>
      rw [hquery] at h
      cases h

/-- The columns that the loop over `c < ColCount` goes through are all columns. -/
theorem appended_columns {scratch arena : Bump} {a : Answers} {md : TableMetadata}
    (h : getMetadata scratch arena a = .ok md) {names : List Text} :
    appendedNames (((md.layout.metadataArray.zip md.names).take md.colCount.toInt.toNat).map
        fun col => (col.1.isAutoIncrement, col.2)) = some names ↔
      Named a.rows md.names ∧ names = a.dataNames := by
  obtain ⟨pushed, hnames, hcount, hlayout⟩ := getMetadata_ok h
  have hauto := isAutoIncrement_foldl ⟨0, a.oldRowSize, 0, []⟩ a.rows
  have hlen := length_foldl_addColumn ⟨0, a.oldRowSize, 0, []⟩ a.rows
  rw [List.map_nil, List.nil_append] at hauto
  rw [List.length_nil, Nat.zero_add] at hlen
  have hall : (md.layout.metadataArray.zip md.names).take md.colCount.toInt.toNat =
      md.layout.metadataArray.zip md.names := by
    apply List.take_of_length_le
    rw [List.length_zip, hlayout, hlen, hnames, length_columnNames, hcount,
      toInt_colCount a.rows_le, Int.toNat_natCast, Nat.min_self]
  have hflags : (md.layout.metadataArray.zip md.names).map
        (fun col => (col.1.isAutoIncrement, col.2)) =
      (a.rows.map fun row => isTrue row.isAutoIncrement).zip md.names := by
    rw [← hauto, hlayout, List.zip_map_left]
    rfl
  rw [hall, hflags, hnames]
  exact appendedNames_eq_some_iff pushed a.rows

/-! ### One round -/

/-- The COPY text of a table fits: the table's name was made, there are columns, their
    names were made, and there is room for the text and two bytes. -/
structure CopyFits (arena : Bump) (name : Text) (a : Answers) (md : TableMetadata) : Prop where
  tableName : arena.cur + stringSize name.length ≤ arena.cap
  column : a.dataNames ≠ []
  columnNames : Named a.rows md.names
  text : md.arena.cur + (stringSize (copyText name a.dataNames).length + 2) ≤ md.arena.cap

/-- A table whose COPY text has been built has the whole text. -/
structure StoresWhole (name : Text) (a : Answers) (r : Except Exit Described) : Prop where
  noTrap : r ≠ .error nullString
  text : ∀ table, r = .ok table → table.copyCommand = copyText name a.dataNames

theorem copyCommandIn_iff {scratch arena : Bump} {name : Text} {a : Answers} {md : TableMetadata}
    (h : getMetadata scratch (makeName arena name).2 a = .ok md) :
    (∃ command, copyCommandIn md.arena (makeName arena name).1
        ((md.layout.metadataArray.zip md.names).take md.colCount.toInt.toNat) = .ok command ∧
          command.text = copyText name a.dataNames) ↔ CopyFits arena name a md := by
  have hcols := fun names => @appended_columns scratch (makeName arena name).2 a md h names
  rw [copyCommandIn_eq]
  constructor
  · rintro ⟨command, hcommand, htext⟩
    cases hmake : Growing.make md.arena copyStart with
    | none =>
      rw [hmake] at hcommand
      cases hcommand
    | some start =>
      rw [hmake] at hcommand
      rcases makeName_cases arena name with ⟨hname, hsome⟩ | ⟨_, hnone⟩
      · rw [hsome] at hcommand
        cases hnames : appendedNames (((md.layout.metadataArray.zip md.names).take
            md.colCount.toInt.toNat).map fun col => (col.1.isAutoIncrement, col.2)) with
        | none =>
          rw [hnames] at hcommand
          cases hcommand
        | some names =>
          rw [hnames] at hcommand
          obtain ⟨hnamed, rfl⟩ := (hcols names).mp hnames
          cases hcommand
          obtain ⟨hcolumn, hroom⟩ := (copyText_iff hmake name a.dataNames).mp htext
          exact ⟨hname, hcolumn, hnamed, hroom⟩
      · rw [hnone] at hcommand
        cases hcommand
  · rintro ⟨hname, hcolumn, hnamed, hroom⟩
    have hlength := congrArg List.length (copyText_eq name a.dataNames)
    have hfive := length_copyStart
    simp only [List.length_append] at hlength
    cases hmake : Growing.make md.arena copyStart with
    | none =>
      have hfull := Growing.make_eq_none_iff.mp hmake
      simp only [stringSize] at hroom
      omega
    | some start =>
      rcases makeName_cases arena name with ⟨_, hsome⟩ | ⟨hfull, _⟩
      · rw [hsome, (hcols _).mpr ⟨hnamed, rfl⟩]
        exact ⟨_, rfl, (copyText_iff hmake name a.dataNames).mpr ⟨hcolumn, hroom⟩⟩
      · omega

/-- Building the COPY text ends with a text or with a null string. -/
theorem copyCommandIn_error {arena : Bump} {tableName : Option Text}
    {cols : List (PgColMetadata × Option Text)} {e : Exit}
    (h : copyCommandIn arena tableName cols = .error e) : e = nullString := by
  rw [copyCommandIn_eq] at h
  split at h
  · cases h
  · cases h
    rfl

theorem describeTable_error {scratch arena : Bump} {tableName : Option Text} {a : Answers} {e : Exit}
    (h : describeTable scratch arena tableName a = .error e) :
    e = .failed ∨ e = nullPointer ∨ e = nullString := by
  unfold describeTable at h
  by_cases hstatus : a.createStatus = .commandOk
  · rw [if_neg (not_not_intro hstatus)] at h
    cases hmd : getMetadata scratch arena a with
    | error e' =>
      rw [hmd] at h
      cases h
      exact (getMetadata_error hmd).imp_right Or.inl
    | ok md =>
      simp only [hmd] at h
      by_cases hcount : md.colCount = 0
      · rw [if_pos hcount] at h
        exact Or.inl (Except.error.inj h).symm
      · rw [if_neg hcount] at h
        cases hcommand : copyCommandIn md.arena tableName
            ((md.layout.metadataArray.zip md.names).take md.colCount.toInt.toNat) with
        | error e' =>
          rw [hcommand] at h
          cases h
          exact Or.inr (Or.inr (copyCommandIn_error hcommand))
        | ok command =>
          rw [hcommand] at h
          cases h
  · rw [if_pos hstatus] at h
    exact Or.inl (Except.error.inj h).symm

/-- What `describeTable` has gone through when it succeeds. -/
theorem describeTable_ok {scratch arena : Bump} {tableName : Option Text} {a : Answers}
    {table : Described} (h : describeTable scratch arena tableName a = .ok table) :
    ∃ md command, getMetadata scratch arena a = .ok md ∧
      copyCommandIn md.arena tableName
        ((md.layout.metadataArray.zip md.names).take md.colCount.toInt.toNat) = .ok command ∧
      table = ⟨scratch, command.arena, md.layout.rowSize, command.text⟩ := by
  unfold describeTable at h
  by_cases hstatus : a.createStatus = .commandOk
  · rw [if_neg (not_not_intro hstatus)] at h
    cases hmd : getMetadata scratch arena a with
    | error e =>
      rw [hmd] at h
      cases h
    | ok md =>
      simp only [hmd] at h
      by_cases hcount : md.colCount = 0
      · rw [if_pos hcount] at h
        cases h
      · rw [if_neg hcount] at h
        cases hcommand : copyCommandIn md.arena tableName
            ((md.layout.metadataArray.zip md.names).take md.colCount.toInt.toNat) with
        | error e =>
          rw [hcommand] at h
          cases h
        | ok command =>
          rw [hcommand] at h
          cases h
          exact ⟨md, command, rfl, hcommand, rfl⟩
  · rw [if_pos hstatus] at h
    cases h

/-- An exit that is not a string function handed the null pointer stores nothing. -/
theorem storesWhole_error {name : Text} {a : Answers} {e : Exit} (he : e ≠ nullString) :
    StoresWhole name a (.error e) := by
  refine ⟨?_, ?_⟩
  · intro h
    exact he (Except.error.inj h)
  · intro table h
    cases h

theorem storesWhole_iff (scratch arena : Bump) (name : Text) (a : Answers) :
    StoresWhole name a (describeTable scratch (makeName arena name).2 (makeName arena name).1 a) ↔
      (a.createStatus = .commandOk →
        ∀ md, getMetadata scratch (makeName arena name).2 a = .ok md → md.colCount ≠ 0 →
          CopyFits arena name a md) := by
  unfold describeTable
  by_cases hstatus : a.createStatus = .commandOk
  · rw [if_neg (not_not_intro hstatus)]
    cases hmd : getMetadata scratch (makeName arena name).2 a with
    | error e =>
      have he : e ≠ nullString := by
        rcases getMetadata_error hmd with rfl | rfl
        · decide
        · decide
      refine iff_of_true (storesWhole_error he) ?_
      intro _ md h
      cases h
    | ok md =>
      by_cases hcount : md.colCount = 0
      · simp only [if_pos hcount]
        refine iff_of_true (storesWhole_error (by decide)) ?_
        rintro _ _ ⟨⟩ hne
        exact absurd hcount hne
      · simp only [if_neg hcount]
        have hiff := copyCommandIn_iff hmd
        cases hcommand : copyCommandIn md.arena (makeName arena name).1
            ((md.layout.metadataArray.zip md.names).take md.colCount.toInt.toNat) with
        | error e =>
          have he := copyCommandIn_error hcommand
          subst he
          rw [hcommand] at hiff
          refine iff_of_false (fun h => h.noTrap rfl) fun h => ?_
          obtain ⟨command, hok, _⟩ := hiff.mpr (h hstatus md rfl hcount)
          cases hok
        | ok command =>
          rw [hcommand] at hiff
          constructor
          · rintro h _ _ ⟨⟩ _
            exact hiff.mp ⟨command, rfl, h.text _ rfl⟩
          · intro h
            obtain ⟨_, ⟨⟩, htext⟩ := hiff.mpr (h hstatus md rfl hcount)
            refine ⟨fun h => ?_, ?_⟩
            · cases h
            · rintro _ ⟨⟩
              exact htext
  · rw [if_pos hstatus]
    exact iff_of_true (storesWhole_error (by decide)) fun h => absurd h hstatus

/-- The texts of a round are the intended ones, and no string function is handed the
    null pointer. -/
structure SqlWhole (st : PgPrep) (s : Sensor) : Prop where
  executed : ∀ text, (prepareTable st s).executed = some text →
    ∃ name attributes, s.name = some name ∧ s.attributes = some attributes ∧
      text = createText name attributes
  stored : ∀ text, (prepareTable st s).stored = some text →
    ∃ name, s.name = some name ∧ text = copyText name s.answers.dataNames
  noTrap : (prepareTable st s).result ≠ .error nullString

/-- The texts of a round fit into the arenas as they are before the round.  The first
    text is made before the attributes are looked at; a COPY text is built only for a
    table of which the database has given the columns. -/
def SqlFits (st : PgPrep) (s : Sensor) : Prop :=
  ∀ name arena, s.name = some name → arenaPush st.arena tableInfoSize = some arena →
    st.tablesInfo = true →
      st.scratch.cur + stringSize createStart.length ≤ st.scratch.cap ∧
        ∀ attributes, s.attributes = some attributes →
          ∃ scratch, arenaPush st.scratch (stringSize (createText name attributes).length) =
              some scratch ∧
            (s.answers.createStatus = .commandOk →
              ∀ md, getMetadata scratch (makeName arena name).2 s.answers = .ok md →
                md.colCount ≠ 0 → CopyFits arena name s.answers md)

/-- A round that ends before its CREATE text is complete has no texts. -/
theorem sqlWhole_of_stop {st : PgPrep} {s : Sensor} {e : Exit} (h : prepareTable st s = .stop e)
    (he : e ≠ nullString) : SqlWhole st s := by
  refine ⟨?_, ?_, ?_⟩
  · intro text htext
    rw [h] at htext
    cases htext
  · intro text htext
    rw [h] at htext
    cases htext
  · rw [h]
    intro hresult
    exact he (Except.error.inj hresult)

/-- The texts of a round whose CREATE text has been built. -/
theorem sqlWhole_iff_of_built {st : PgPrep} {s : Sensor} {name : Text}
    {attributes : List (Text × Text)} {text : Text} {r : Except Exit Described}
    (hname : s.name = some name) (hattributes : s.attributes = some attributes)
    (h : prepareTable st s = ⟨some text, r.toOption.map (·.copyCommand), r⟩) :
    SqlWhole st s ↔ text = createText name attributes ∧ StoresWhole name s.answers r := by
  constructor
  · intro hwhole
    refine ⟨?_, ?_, ?_⟩
    · obtain ⟨name', attributes', hname', hattributes', htext⟩ :=
        hwhole.executed text (by rw [h])
      rw [hname] at hname'
      rw [hattributes] at hattributes'
      cases hname'
      cases hattributes'
      exact htext
    · have hnoTrap := hwhole.noTrap
      rw [h] at hnoTrap
      exact hnoTrap
    · rintro table rfl
      obtain ⟨name', hname', htext⟩ := hwhole.stored table.copyCommand (by rw [h]; rfl)
      rw [hname] at hname'
      cases hname'
      exact htext
  · rintro ⟨htext, hstores⟩
    refine ⟨?_, ?_, ?_⟩
    · intro text' htext'
      rw [h] at htext'
      cases htext'
      exact ⟨name, attributes, hname, hattributes, htext⟩
    · intro text' htext'
      rw [h] at htext'
      cases r with
      | error e => cases htext'
      | ok table =>
        cases htext'
        exact ⟨name, hname, hstores.text table rfl⟩
    · rw [h]
      exact hstores.noTrap

/-- A round with a named sensor whose table info has been allocated. -/
theorem prepareTable_of_named {st : PgPrep} {s : Sensor} {name : Text} {arena : Bump}
    (hname : s.name = some name) (hpush : arenaPush st.arena tableInfoSize = some arena)
    (htables : st.tablesInfo = true) :
    prepareTable st s =
      match Growing.make st.scratch createStart, s.attributes with
      | none, _ => .stop nullString
      | some _, none => .stop .failed
      | some query, some attributes =>
          let query := query.finish (createFragments name attributes) 2 createEnd
          let result := describeTable query.arena (makeName arena name).2
            (makeName arena name).1 s.answers
          ⟨some query.text, result.toOption.map (·.copyCommand), result⟩ := by
  unfold prepareTable
  simp only [hname, hpush, htables, Bool.true_eq_false, if_false, creationQuery_eq,
    Sensor.attributes]
  cases Growing.make st.scratch createStart with
  | none => rfl
  | some query =>
    cases dataAttributes (getObjectItem s.schema "data".toList) with
    | none => rfl
    | some attributes => rfl

theorem sqlWhole_iff_of_named {st : PgPrep} {s : Sensor} {name : Text} {arena : Bump}
    (hname : s.name = some name) (hpush : arenaPush st.arena tableInfoSize = some arena)
    (htables : st.tablesInfo = true) :
    SqlWhole st s ↔
      st.scratch.cur + stringSize createStart.length ≤ st.scratch.cap ∧
        ∀ attributes, s.attributes = some attributes →
          ∃ scratch, arenaPush st.scratch (stringSize (createText name attributes).length) =
              some scratch ∧
            (s.answers.createStatus = .commandOk →
              ∀ md, getMetadata scratch (makeName arena name).2 s.answers = .ok md →
                md.colCount ≠ 0 → CopyFits arena name s.answers md) := by
  have hround := prepareTable_of_named hname hpush htables
  cases hmake : Growing.make st.scratch createStart with
  | none =>
    have hfull := Growing.make_eq_none_iff.mp hmake
    rw [hmake] at hround
    refine iff_of_false (fun h => h.noTrap ?_) fun h => ?_
    · rw [hround]
      rfl
    · exact absurd h.1 (Nat.not_le_of_lt hfull)
  | some query =>
    have hfirst : st.scratch.cur + stringSize createStart.length ≤ st.scratch.cap := by
      obtain ⟨hfirst, _⟩ := Growing.make_eq_some_iff.mp hmake
      exact hfirst
    rw [hmake] at hround
    rw [and_iff_right hfirst]
    cases hattributes : s.attributes with
    | none =>
      rw [hattributes] at hround
      refine iff_of_true (sqlWhole_of_stop hround fun h => by cases h) ?_
      intro attributes hsome
      cases hsome
    | some attributes =>
      rw [hattributes] at hround
      rw [sqlWhole_iff_of_built hname hattributes hround]
      rcases createText_cases hmake name attributes with ⟨hnone, htext⟩ | ⟨hsome, htext⟩
      · refine iff_of_false (fun h => htext h.1) fun h => ?_
        obtain ⟨scratch, hscratch, _⟩ := h attributes rfl
        rw [hnone] at hscratch
        cases hscratch
      · rw [and_iff_right htext, storesWhole_iff]
        constructor
        · rintro hcopy _ ⟨⟩
          exact ⟨_, hsome, hcopy⟩
        · intro h
          obtain ⟨scratch, hscratch, hcopy⟩ := h attributes rfl
          rw [hsome] at hscratch
          cases hscratch
          exact hcopy

/-- **The texts of a round are complete if and only if they fit.** -/
theorem sqlWhole_iff (st : PgPrep) (s : Sensor) : SqlWhole st s ↔ SqlFits st s := by
  cases hname : s.name with
  | none =>
    have hround : prepareTable st s = .stop .failed := by
      unfold prepareTable
      rw [hname]
    refine iff_of_true (sqlWhole_of_stop hround fun h => by cases h) ?_
    intro name _ hsome
    rw [hname] at hsome
    cases hsome
  | some name =>
    cases hpush : arenaPush st.arena tableInfoSize with
    | none =>
      have hround : prepareTable st s = .stop nullPointer := by
        unfold prepareTable
        simp only [hname, hpush]
      refine iff_of_true (sqlWhole_of_stop hround fun h => by cases h) ?_
      intro _ arena _ hsome
      rw [hpush] at hsome
      cases hsome
    | some arena =>
      by_cases htables : st.tablesInfo = true
      · rw [sqlWhole_iff_of_named hname hpush htables]
        constructor
        · intro h name' arena' hname' hpush' _
          rw [hname] at hname'
          rw [hpush] at hpush'
          cases hname'
          cases hpush'
          exact h
        · intro h
          exact h name arena hname hpush htables
      · have hround : prepareTable st s = .stop nullPointer := by
          unfold prepareTable
          simp only [hname, hpush, if_pos (Bool.eq_false_of_not_eq_true htables)]
        refine iff_of_true (sqlWhole_of_stop hround fun h => by cases h) ?_
        intro _ _ _ _ htrue
        exact absurd htrue htables

/-! ### The whole call -/

/-- `P` holds of every round that a call of `PgPrepareCtx` gets to. -/
def InEveryRound (P : PgPrep → Sensor → Prop) (w : PgWorld) (arena : Bump) (pipe : PipeSizes) :
    Prop :=
  ∀ st sensors, loopStart w arena pipe = .ok (st, sensors) →
    Along (prepareStep w.bufCap) P st sensors

/-- A sensor with a name of 40 bytes and no attributes. -/
def longName : Json :=
  .object [("name".toList, .string (List.replicate 40 'a')), ("data".toList, .object [])]

/-- A scratch arena of 78 bytes: the first text and the key column fit, the name does not. -/
def narrow : PgWorld where
  scratch := some ⟨78, 0, by decide⟩
  schemaConf := some (.object [("sensors".toList, .array [longName])])
  connected := true
  answers := fun _ => ⟨.commandOk, .fatalError, [], 0, by decide⟩
  bufCap := 4096

end Lmalloc.Postgres
