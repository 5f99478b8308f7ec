/-
  Lmalloc/Postgres/Prepare.lean
  =============================
  **`PgPrepareCtx` on arenas that may be too small.**

  `Table.lean` takes it that every allocation is served.  Here the two arenas of the
  function have a size: the scratch arena for the CREATE text, the Postgres arena
  for the table infos, the metadata, the names and the COPY text.  The results of
  the string functions are ignored, as in the source, so a text may lack fragments
  and a string may be the null pointer.

  A C string of a few bytes and an arena of less than `2^63` bytes make no sum wrap,
  so the arenas are bump allocators over `ℕ`.  What the database and the files
  answer is arbitrary.
-/
import Lmalloc.Postgres.Table
import Lmalloc.Strings.Growing

namespace Lmalloc.Postgres

open Lmalloc.Library
open Lmalloc.Strings (Growing)

/-! ### The JSON tree -/

inductive Json where
  | string (valuestring : Text)
  | object (items : List (Text × Json))
  | array (items : List Json)
  | other     -- a number, a truth value or null

/-- `case_insensitive_strcmp` finds no difference. -/
def sameName (a b : Text) : Bool := a.map Char.toLower = b.map Char.toLower

/-- `cJSON_GetObjectItem`: the first item of that name. -/
def getObjectItem (json : Json) (name : Text) : Option Json :=
  match json with
  | .object items => (items.find? fun item => sameName name item.1).map (·.2)
  | _ => none

/-! ### What can go wrong -/

inductive Trap where
  | nullString        -- a string function is handed the null pointer
  | nullPointer       -- another null pointer is followed
  | divisionByZero
deriving DecidableEq, Repr

inductive Exit where
  | failed                -- `goto cleanup` with an error
  | trapped (t : Trap)
deriving DecidableEq, Repr

def nullString : Exit := .trapped .nullString
def nullPointer : Exit := .trapped .nullPointer

/-! ### Allocating -/

/-- `sizeof` of `postgres_ctx`, `pg_table_info *`, `pg_table_info` and `pg_col_metadata`. -/
def postgresCtxSize : ℕ := 16
def tableInfoPtrSize : ℕ := 8
def tableInfoSize : ℕ := 40
def colMetadataSize : ℕ := 32

/-- `ArenaPushStruct` and `ArenaPushArray`. -/
def arenaPush (arena : Bump) (size : ℕ) : Option Bump :=
  if h : arena.cur + size ≤ arena.cap then some (arena.moveTo _ h) else none

/-- `SdbStringMake` of a name; the arena is as before if there is no room. -/
def makeName (arena : Bump) (name : Text) : Option Text × Bump :=
  match Growing.make arena name with
  | some s => (some s.text, s.arena)
  | none => (none, arena)

/-! ### The fixed parts of the texts -/

@[irreducible] def createStart : Text := "CREATE TABLE IF NOT EXISTS ".toList
@[irreducible] def createKey : Text := "(\nid SERIAL PRIMARY KEY,\n".toList
@[irreducible] def createSpace : Text := " ".toList
@[irreducible] def createSeparator : Text := ",\n".toList
@[irreducible] def createEnd : Text := ");".toList
@[irreducible] def copyStart : Text := "COPY ".toList
@[irreducible] def copyBracket : Text := "(".toList
@[irreducible] def copySeparator : Text := ", ".toList
@[irreducible] def copyEnd : Text := ") FROM STDIN WITH (FORMAT binary)".toList

/-! ### The CREATE text -/

/-- The loop over the attributes; one that is not a string ends the call. -/
def appendAttributes (query : Growing Char) : List (Text × Json) → Option (Growing Char)
  | [] => some query
  | (key, .string value) :: rest =>
      let query := query.append key
      let query := query.append createSpace
      let query := query.append value
      appendAttributes (query.append createSeparator) rest
  | _ :: _ => none

def creationQuery (scratch : Bump) (name : Text) (data : Option Json) :
    Except Exit (Growing Char) :=
  match Growing.make scratch createStart with
  | none => .error nullString
  | some query =>
      let query := query.append name
      let query := query.append createKey
      match data with
      | some (.object attributes) =>
          match appendAttributes query attributes with
          | none => .error .failed
          | some query => .ok ((query.backspace 2).append createEnd)
      | _ => .error .failed

/-! ### The metadata and the COPY text -/

/-- What the database answers for one sensor, and what is in the field `RowSize` of
    the new `pg_table_info`, which is not zeroed.  PostgreSQL has no tables of more
    than 1600 columns. -/
structure Answers where
  createStatus : ExecStatus
  metadataStatus : ExecStatus
  rows : List CatalogRow
  oldRowSize : UInt64
  rows_le : rows.length ≤ 1600

/-- What `GetTableMetadata` leaves: its metadata and the column names, which may be
    null pointers. -/
structure TableMetadata where
  colCount : Int16
  layout : Layout
  names : List (Option Text)
  arena : Bump

def columnNames (arena : Bump) : List CatalogRow → List (Option Text) × Bump
  | [] => ([], arena)
  | row :: rows =>
      let named := makeName arena row.columnName
      let rest := columnNames named.2 rows
      (named.1 :: rest.1, rest.2)

/-- `GetTableMetadata`.  The text of its query goes to the scratch arena and is
    released again. -/
def getMetadata (scratch arena : Bump) (a : Answers) : Except Exit TableMetadata :=
  match Growing.make scratch ([] : Text) with
  | none => .error nullPointer
  | some _ =>
      let pushed := arenaPush arena (colMetadataSize * a.rows.length)
      match getTableMetadata a.oldRowSize ⟨a.metadataStatus, a.rows, pushed.isSome⟩ with
      | none => .error .failed
      | some (colCount, layout) =>
          let named := columnNames (pushed.getD arena) a.rows
          .ok ⟨colCount, layout, named.1, named.2⟩

/-- The loop over the columns; `SdbStringAppend` reads the length of the name. -/
def appendColumns (command : Growing Char) :
    List (PgColMetadata × Option Text) → Option (Growing Char)
  | [] => some command
  | (col, name) :: rest =>
      if col.isAutoIncrement then appendColumns command rest
      else name.bind fun name =>
        appendColumns ((command.append name).append copySeparator) rest

def copyCommandIn (arena : Bump) (tableName : Option Text)
    (cols : List (PgColMetadata × Option Text)) : Except Exit (Growing Char) :=
  match Growing.make arena copyStart, tableName with
  | some command, some tableName =>
      let command := command.append tableName
      match appendColumns (command.append copyBracket) cols with
      | none => .error nullString
      | some command =>
          .ok ((command.backspace 2).append copyEnd)
  | _, _ => .error nullString

/-! ### One sensor -/

/-- The sizes that the function stores in the pipe. -/
structure PipeSizes where
  packetSize : UInt64
  itemMaxCount : UInt64
  bufferMaxFill : UInt64
deriving DecidableEq, Repr

/-- The function between two rounds of its loop. -/
structure PgPrep where
  scratch : Bump
  arena : Bump
  tablesInfo : Bool       -- the array of table infos is not the null pointer
  pipe : PipeSizes

structure Sensor where
  schema : Json
  answers : Answers

def Sensor.name (s : Sensor) : Option Text :=
  match getObjectItem s.schema "name".toList with
  | some (.string name) => some name
  | _ => none

/-- A table when its COPY text has been built. -/
structure Described where
  scratch : Bump
  arena : Bump
  rowSize : UInt64
  copyCommand : Text

/-- From the answer to the CREATE command to the COPY text. -/
def describeTable (scratch arena : Bump) (tableName : Option Text) (a : Answers) :
    Except Exit Described :=
  if a.createStatus ≠ .commandOk then .error .failed
  else match getMetadata scratch arena a with
  | .error e => .error e
  | .ok md =>
      if md.colCount = 0 then .error .failed
      else
        let cols := (md.layout.metadataArray.zip md.names).take md.colCount.toInt.toNat
        match copyCommandIn md.arena tableName cols with
        | .error e => .error e
        | .ok command => .ok ⟨scratch, command.arena, md.layout.rowSize, command.text⟩

/-- What one round hands to `PQexec`, what it stores, and where it ends. -/
structure Round where
  executed : Option Text
  stored : Option Text
  result : Except Exit Described

def Round.stop (e : Exit) : Round := ⟨none, none, .error e⟩

/-- A round up to the sizes of the pipe. -/
def prepareTable (st : PgPrep) (s : Sensor) : Round :=
  match s.name with
  | none => .stop .failed
  | some name =>
      match arenaPush st.arena tableInfoSize with
      | none => .stop nullPointer
      | some arena =>
          let tableName := makeName arena name
          if st.tablesInfo = false then .stop nullPointer
          else match creationQuery st.scratch name (getObjectItem s.schema "data".toList) with
          | .error e => .stop e
          | .ok query =>
              let result := describeTable query.arena tableName.2 tableName.1 s.answers
              ⟨some query.text, result.toOption.map (·.copyCommand), result⟩

/-- `ItemMaxCount` is a quotient by the row size. -/
def sizePipe (bufCap rowSize : UInt64) : Option PipeSizes :=
  if rowSize = 0 then none
  else some ⟨rowSize, bufCap / rowSize, rowSize * (bufCap / rowSize)⟩

def prepareSensor (bufCap : UInt64) (st : PgPrep) (s : Sensor) : Except Exit PgPrep :=
  match (prepareTable st s).result with
  | .error e => .error e
  | .ok table =>
      match sizePipe bufCap table.rowSize with
      | none => .error (.trapped .divisionByZero)
      | some pipe => .ok { st with scratch := table.scratch, arena := table.arena, pipe := pipe }

def prepareSensors (bufCap : UInt64) : PgPrep → List Sensor → Except Exit PgPrep
  | st, [] => .ok st
  | st, s :: rest =>
      match prepareSensor bufCap st s with
      | .error e => .error e
      | .ok st => prepareSensors bufCap st rest

/-! ### The call -/

/-- What the files and the database answer, and `ArenaCap(Pipe->Buffers[0])`. -/
structure PgWorld where
  scratch : Option Bump       -- the scratch arena with the configuration file in it
  schemaConf : Option Json    -- what `DbInitGetConfFromFile` returns
  connected : Bool
  answers : ℕ → Answers
  bufCap : UInt64

/-- What comes before the loop: its first state, and the sensors. -/
def loopStart (w : PgWorld) (arena : Bump) (pipe : PipeSizes) :
    Except Exit (PgPrep × List Sensor) :=
  match w.scratch, w.schemaConf with
  | some scratch, some conf =>
      match getObjectItem conf "sensors".toList with
      | some (.array sensors) =>
          match arenaPush arena postgresCtxSize with
          | none => .error nullPointer
          | some arena =>
              let tables := arenaPush arena (tableInfoPtrSize * sensors.length)
              if w.connected = false then .error .failed
              else .ok (⟨scratch, tables.getD arena, tables.isSome, pipe⟩,
                sensors.mapIdx fun i schema => ⟨schema, w.answers i⟩)
      | _ => .error .failed
  | _, _ => .error .failed

def pgPrepareCtx (w : PgWorld) (arena : Bump) (pipe : PipeSizes) : Except Exit PgPrep :=
  match loopStart w arena pipe with
  | .error e => .error e
  | .ok (st, sensors) => prepareSensors w.bufCap st sensors

/-- The round as a step of a run. -/
def prepareStep (bufCap : UInt64) (st : PgPrep) (s : Sensor) : Option PgPrep :=
  (prepareSensor bufCap st s).toOption

end Lmalloc.Postgres
