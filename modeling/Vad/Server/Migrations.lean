/-
  Schema migrations (`ServerStore.migrate` of `vad/server/db/store.py`).

  Every method of the store migrates first.  A migration reads `PRAGMA user_version`, runs the
  scripts of the versions above it, and writes the version it has reached.  `executescript` commits
  statement by statement, so a process that dies leaves a schema between two versions, and other
  processes see every such schema.

  1. **The code** — the ten scripts, statement by statement, over a database of tables with rows,
     of indexes and of a version (`migrate`).

  2. **One statement** (`execute_spec`) — on a sound database it is not refused, its object is there
     afterwards, and whatever was there still is, the rows of its tables included (`Grows`).

  3. **Any number of processes, stopped anywhere** (`migrate_crash_safe`) — each relies on the others
     to let the database grow: none raises, whoever returns leaves the complete schema, and one more
     migration completes whatever the others have left.
-/
import Vad.Lib.Rely
import Vad.Lib.Table

namespace Vad.Schema

open Keyed (Table)
open Atomic (Program Pool)
open Atomic.Program (Rely Returns rely_atomic rely_bind rely_pure rely_read)

/-! ## Databases -/

inductive ColumnType where
  | text
  | integer
deriving DecidableEq, Repr

structure Column where
  name : String
  type : ColumnType := .text
  notNull : Bool := true
  default : Option String := none
deriving DecidableEq, Repr

inductive DeleteAction where
  | noAction
  | cascade
  | setNull
deriving DecidableEq, Repr

structure ForeignKey where
  column : String
  table : String
  parent : String
  onDelete : DeleteAction
deriving DecidableEq, Repr

structure TableSchema where
  columns : List Column
  primaryKey : List String
  foreignKeys : List ForeignKey := []
deriving DecidableEq, Repr

def TableSchema.has (t : TableSchema) (column : String) : Bool :=
  t.columns.any fun c => c.name = column

structure IndexSchema where
  table : String
  columns : List String
deriving DecidableEq, Repr

/-- A table with its rows, of whatever kind they are. -/
structure StoredTable (ρ : Type) where
  name : String
  schema : TableSchema
  rows : List ρ

structure StoredIndex where
  name : String
  schema : IndexSchema
deriving DecidableEq

structure Database (ρ : Type) where
  userVersion : Int
  tables : Table (StoredTable.name : StoredTable ρ → String)
  indexes : Table StoredIndex.name

/-- A new file. -/
def Database.empty {ρ : Type} : Database ρ := ⟨0, Table.empty, Table.empty⟩

inductive MigrationError where
  | runtimeError (message : String)
  | operationalError (message : String)
deriving DecidableEq, Repr

/-! ## Statements -/

/-- `CREATE TABLE IF NOT EXISTS` and `CREATE INDEX IF NOT EXISTS`. -/
inductive Statement where
  | createTable (name : String) (schema : TableSchema)
  | createIndex (name : String) (schema : IndexSchema)
deriving DecidableEq, Repr

def Statement.name : Statement → String
  | .createTable name _ => name
  | .createIndex name _ => name

variable {ρ : Type}

def addTable (name : String) (schema : TableSchema) (db : Database ρ) :
    Except MigrationError (Database ρ) :=
  match db.tables.insert ⟨name, schema, []⟩ with
  | none => .ok db
  | some tables =>
    if db.indexes.has name then
      .error (.operationalError ("there is already an index named " ++ name))
    else .ok { db with tables := tables }

/-- The table is looked up before the name of the index is, its columns afterwards. -/
def addIndex (name : String) (schema : IndexSchema) (db : Database ρ) :
    Except MigrationError (Database ρ) :=
  match db.tables.find? schema.table with
  | none => .error (.operationalError ("no such table: main." ++ schema.table))
  | some t =>
    if db.tables.has name then
      .error (.operationalError ("there is already a table named " ++ name))
    else
      match db.indexes.insert ⟨name, schema⟩ with
      | none => .ok db
      | some indexes =>
        match schema.columns.find? fun c => !t.schema.has c with
        | some c =>
          .error (.operationalError ("table " ++ schema.table ++ " has no column named " ++ c))
        | none => .ok { db with indexes := indexes }

def Statement.execute : Statement → Database ρ → Except MigrationError (Database ρ)
  | .createTable name schema => addTable name schema
  | .createIndex name schema => addIndex name schema

/-! ## The scripts -/

/-- `name TEXT NOT NULL`. -/
def required (name : String) : Column := { name := name }

/-- `name TEXT`. -/
def nullable (name : String) : Column := { name := name, notNull := false }

/-- `name TEXT PRIMARY KEY`. -/
def keyColumn (name : String) : Column := { name := name, notNull := false }

/-- `name INTEGER NOT NULL`. -/
def integerColumn (name : String) : Column := { name := name, type := .integer }

/-- `FOREIGN KEY(column) REFERENCES table(parent)`. -/
def references (column table parent : String) (onDelete : DeleteAction := .noAction) :
    ForeignKey := ⟨column, table, parent, onDelete⟩

def migrate001 : List Statement := [
  .createTable "run_evidence" {
    columns := [keyColumn "run_id", required "evidence_digest", required "payload_json",
      required "created_at", required "final_decision"]
    primaryKey := ["run_id"] },
  .createTable "approval_events" {
    columns := [keyColumn "approval_id", required "run_id", required "actor", required "action",
      required "created_at", required "decision_json", nullable "evidence_digest"]
    primaryKey := ["approval_id"]
    foreignKeys := [references "run_id" "run_evidence" "run_id"] }]

def migrate002 : List Statement := [
  .createTable "dashboard_activity" {
    columns := [keyColumn "activity_id", required "run_id", required "kind", required "status",
      required "client", required "actor", required "role", required "summary",
      required "created_at", nullable "task_id", nullable "evidence_digest",
      required "payload_json"]
    primaryKey := ["activity_id"]
    foreignKeys := [references "run_id" "run_evidence" "run_id"] }]

def migrate003 : List Statement := [
  .createTable "control_plane_events" {
    columns := [keyColumn "event_id", integerColumn "sequence", required "created_at",
      required "client_id", nullable "run_id", nullable "task_id", required "kind",
      required "status", required "actor", required "role", nullable "evidence_digest",
      required "payload_json"]
    primaryKey := ["event_id"] },
  .createIndex "idx_control_plane_events_order"
    ⟨"control_plane_events", ["sequence", "created_at", "event_id"]⟩,
  .createIndex "idx_control_plane_events_run" ⟨"control_plane_events", ["run_id", "sequence"]⟩,
  .createIndex "idx_control_plane_events_client"
    ⟨"control_plane_events", ["client_id", "sequence"]⟩]

def migrate004 : List Statement := [
  .createTable "client_manifests" {
    columns := [keyColumn "client_id", required "display_name", required "client_type",
      required "connection_mode", required "trust_state", required "workspace_root",
      required "payload_json", required "registered_at"]
    primaryKey := ["client_id"] },
  .createIndex "idx_client_manifests_type" ⟨"client_manifests", ["client_type", "display_name"]⟩,
  .createIndex "idx_client_manifests_trust"
    ⟨"client_manifests", ["trust_state", "display_name"]⟩]

def migrate005 : List Statement := [
  .createTable "client_heartbeats" {
    columns := [keyColumn "client_id", required "status", nullable "last_heartbeat_at",
      nullable "last_run_id", nullable "last_task_id",
      { name := "lost_task_leases_json", default := some "[]" }, required "payload_json"]
    primaryKey := ["client_id"]
    foreignKeys := [references "client_id" "client_manifests" "client_id" .cascade] },
  .createIndex "idx_client_heartbeats_status"
    ⟨"client_heartbeats", ["status", "last_heartbeat_at"]⟩]

def migrate006 : List Statement := [
  .createTable "task_leases" {
    columns := [keyColumn "task_id", required "run_id", required "client_id", required "role",
      required "actor", required "acquired_at", required "expires_at", required "status",
      required "payload_json"]
    primaryKey := ["task_id"]
    foreignKeys := [references "client_id" "client_manifests" "client_id" .cascade] },
  .createIndex "idx_task_leases_client_status"
    ⟨"task_leases", ["client_id", "status", "expires_at"]⟩,
  .createIndex "idx_task_leases_run" ⟨"task_leases", ["run_id", "status", "task_id"]⟩]

def migrate007 : List Statement := [
  .createTable "work_items" {
    columns := [keyColumn "work_item_id", required "run_id", required "title", required "role",
      nullable "requested_capability", integerColumn "priority", required "status",
      required "created_at", required "updated_at", nullable "assigned_client_id",
      nullable "lease_id", nullable "evidence_digest", required "payload_json"]
    primaryKey := ["work_item_id"]
    foreignKeys := [references "assigned_client_id" "client_manifests" "client_id" .setNull,
      references "lease_id" "task_leases" "task_id" .setNull] },
  .createIndex "idx_work_items_run_status"
    ⟨"work_items", ["run_id", "status", "priority", "created_at"]⟩,
  .createIndex "idx_work_items_status_priority"
    ⟨"work_items", ["status", "priority", "created_at"]⟩,
  .createIndex "idx_work_items_assigned_client"
    ⟨"work_items", ["assigned_client_id", "status", "priority"]⟩]

def migrate008 : List Statement := [
  .createTable "plugin_inventory" {
    columns := [keyColumn "plugin_id", required "target_client", required "version",
      required "review_state", required "dashboard_status", required "uninstall_status",
      required "rollback_status", required "payload_json"]
    primaryKey := ["plugin_id"] },
  .createIndex "idx_plugin_inventory_target"
    ⟨"plugin_inventory", ["target_client", "review_state", "plugin_id"]⟩,
  .createIndex "idx_plugin_inventory_dashboard"
    ⟨"plugin_inventory", ["dashboard_status", "plugin_id"]⟩]

def migrate009 : List Statement := [
  .createTable "proof_stream_records" {
    columns := [keyColumn "record_id", required "run_id", required "task_id", required "status",
      required "created_at", nullable "evidence_digest", required "payload_json"]
    primaryKey := ["record_id"] },
  .createIndex "idx_proof_stream_run"
    ⟨"proof_stream_records", ["run_id", "task_id", "created_at", "record_id"]⟩,
  .createIndex "idx_proof_stream_status"
    ⟨"proof_stream_records", ["status", "created_at", "record_id"]⟩,
  .createTable "terminal_stream_records" {
    columns := [keyColumn "record_id", required "run_id", required "task_id", required "kind",
      required "status", required "created_at", nullable "evidence_digest",
      required "payload_json"]
    primaryKey := ["record_id"] },
  .createIndex "idx_terminal_stream_run"
    ⟨"terminal_stream_records", ["run_id", "task_id", "created_at", "record_id"]⟩,
  .createIndex "idx_terminal_stream_kind"
    ⟨"terminal_stream_records", ["kind", "status", "created_at", "record_id"]⟩]

def migrate010 : List Statement := [
  .createTable "diff_proposals" {
    columns := [keyColumn "proposal_id", required "run_id", required "task_id", required "status",
      required "created_at", required "payload_json"]
    primaryKey := ["proposal_id"] },
  .createIndex "idx_diff_proposals_run_task"
    ⟨"diff_proposals", ["run_id", "task_id", "created_at", "proposal_id"]⟩,
  .createTable "diff_apply_records" {
    columns := [keyColumn "record_id", required "proposal_id", required "created_at",
      required "payload_json"]
    primaryKey := ["record_id"]
    foreignKeys := [references "proposal_id" "diff_proposals" "proposal_id" .cascade] },
  .createIndex "idx_diff_apply_records_proposal"
    ⟨"diff_apply_records", ["proposal_id", "created_at", "record_id"]⟩,
  .createTable "run_task_states" {
    columns := [required "run_id", required "task_id", required "status", nullable "work_item_id",
      required "updated_at", required "payload_json"]
    primaryKey := ["run_id", "task_id"] },
  .createIndex "idx_run_task_states_status"
    ⟨"run_task_states", ["status", "updated_at", "run_id", "task_id"]⟩,
  .createTable "operator_intent_records" {
    columns := [keyColumn "intent_ref", required "actor", required "role", required "scope",
      required "created_at", required "payload_json"]
    primaryKey := ["intent_ref"] },
  .createIndex "idx_operator_intent_scope"
    ⟨"operator_intent_records", ["scope", "created_at", "intent_ref"]⟩]

/-! ## The migration -/

abbrev Migration (ρ α : Type) : Type := Program (Database ρ) MigrationError α

def schemaVersion : Int := 10

/-- `ServerStore._schema_version`. -/
def readVersion : Migration ρ Int := Program.atomic fun db => (.ok db.userVersion, db)

/-- `conn.execute(f"PRAGMA user_version = {SCHEMA_VERSION}")`. -/
def writeVersion : Migration ρ Unit :=
  Program.atomic fun db => (.ok (), { db with userVersion := schemaVersion })

/-- One statement in autocommit mode. -/
def Statement.autocommit (st : Statement) (db : Database ρ) :
    Except MigrationError Unit × Database ρ :=
  match st.execute db with
  | .ok db' => (.ok (), db')
  | .error e => (.error e, db)

def Statement.run (st : Statement) : Migration ρ Unit := Program.atomic st.autocommit

/-- `conn.executescript`. -/
def executescript : List Statement → Migration ρ Unit
  | [] => pure ()
  | st :: rest => do
    st.run
    executescript rest

/-- The scripts above the first, each with the version that it leads to. -/
def laterScripts : List (Int × List Statement) := [
  (2, migrate002), (3, migrate003), (4, migrate004), (5, migrate005), (6, migrate006),
  (7, migrate007), (8, migrate008), (9, migrate009), (10, migrate010)]

/-- `if current < version: ...; current = version`, one after the other. -/
def upgrade : List (Int × List Statement) → Int → Migration ρ Unit
  | [], _ => pure ()
  | (version, script) :: rest, current =>
    if current < version then do
      executescript script
      upgrade rest version
    else upgrade rest current

/-- The scripts, from the version that was read. -/
def upgradeFrom (current : Int) : Migration ρ Unit :=
  if current = 0 then do
    executescript migrate001
    upgrade laterScripts 1
  else upgrade laterScripts current

/-- `ServerStore.migrate`. -/
def migrate : Migration ρ Unit := do
  let current ← readVersion
  if current > schemaVersion then
    Program.raise (.runtimeError ("database schema " ++ toString current ++
      " is newer than supported " ++ toString schemaVersion))
  else do
    upgradeFrom current
    writeVersion

/-! ## Sound databases -/

def scripts : List (Int × List Statement) := (1, migrate001) :: laterScripts

def statements : List Statement := scripts.flatMap Prod.snd

/-- The object of the statement is there, as the statement has it. -/
def Statement.Holds : Statement → Database ρ → Prop
  | .createTable name schema, db => ∃ t, db.tables.find? name = some t ∧ t.schema = schema
  | .createIndex name schema, db => ∃ i, db.indexes.find? name = some i ∧ i.schema = schema

/-- Nothing else goes by the name of the statement's object. -/
def Statement.Fits : Statement → Database ρ → Prop
  | .createTable name schema, db =>
    (∀ t, db.tables.find? name = some t → t.schema = schema) ∧ db.indexes.find? name = none
  | .createIndex name schema, db =>
    (∀ i, db.indexes.find? name = some i → i.schema = schema) ∧ db.tables.find? name = none

/-- Everything that is there stays, the rows of the tables too. -/
structure Grows (a b : Database ρ) : Prop where
  version : a.userVersion ≤ b.userVersion
  tables : ∀ name t, a.tables.find? name = some t → b.tables.find? name = some t
  indexes : ∀ name i, a.indexes.find? name = some i → b.indexes.find? name = some i

theorem Grows.refl (db : Database ρ) : Grows db db := ⟨le_refl _, fun _ _ h => h, fun _ _ h => h⟩

theorem Grows.trans {a b c : Database ρ} (h : Grows a b) (h' : Grows b c) : Grows a c where
  version := le_trans h.version h'.version
  tables name t ht := h'.tables name t (h.tables name t ht)
  indexes name i hi := h'.indexes name i (h.indexes name i hi)

theorem Statement.Holds.grows {st : Statement} {a b : Database ρ} (h : st.Holds a)
    (hab : Grows a b) : st.Holds b := by
  cases st with
  | createTable name schema =>
    obtain ⟨t, ht, hschema⟩ := h
    exact ⟨t, hab.tables name t ht, hschema⟩
  | createIndex name schema =>
    obtain ⟨i, hi, hschema⟩ := h
    exact ⟨i, hab.indexes name i hi, hschema⟩

/-- A database that migrations have left: its version is one of ours, what the scripts up to that
    version create is there, and no other object has a name that a script uses. -/
structure Sound (db : Database ρ) : Prop where
  version : 0 ≤ db.userVersion ∧ db.userVersion ≤ schemaVersion
  fits : ∀ st ∈ statements, st.Fits db
  done : ∀ s ∈ scripts, s.1 ≤ db.userVersion → ∀ st ∈ s.2, st.Holds db

/-- The schema of the last version. -/
structure Complete (db : Database ρ) : Prop where
  version : db.userVersion = schemaVersion
  holds : ∀ st ∈ statements, st.Holds db

/-! ## One statement -/

/-- What a statement does at most: it adds its own object. -/
structure Adds (st : Statement) (a b : Database ρ) : Prop where
  grows : Grows a b
  version : b.userVersion = a.userVersion
  holds : st.Holds b
  newTable : ∀ name t, b.tables.find? name = some t →
    a.tables.find? name = some t ∨ ∃ schema, st = .createTable name schema ∧ t.schema = schema
  newIndex : ∀ name i, b.indexes.find? name = some i →
    a.indexes.find? name = some i ∨ ∃ schema, st = .createIndex name schema ∧ i.schema = schema

/-- A statement whose object is there adds nothing. -/
theorem Adds.same {st : Statement} {db : Database ρ} (h : st.Holds db) : Adds st db db where
  grows := Grows.refl db
  version := rfl
  holds := h
  newTable _ _ ht := Or.inl ht
  newIndex _ _ hi := Or.inl hi

theorem addTable_spec {name : String} {schema : TableSchema} {db : Database ρ}
    (hfits : (Statement.createTable name schema).Fits db) :
    ∃ db', addTable name schema db = .ok db' ∧ Adds (.createTable name schema) db db' := by
  unfold addTable
  cases htables : db.tables.insert ⟨name, schema, []⟩ with
  | none =>
    obtain ⟨t, ht⟩ := Table.has_iff.mp (Table.insert_eq_none.mp htables)
    exact ⟨db, rfl, .same ⟨t, ht, hfits.1 t ht⟩⟩
  | some tables =>
    have hfree : db.indexes.has name = false := by
      rw [Table.has, hfits.2]
      rfl
    refine ⟨{ db with tables := tables }, by simp only [hfree]; rfl, ?_⟩
    have hfind := Table.find?_insert htables
    exact {
      grows := ⟨le_refl _, fun k t ht => Table.find?_of_insert htables ht, fun _ _ h => h⟩
      version := rfl
      holds := ⟨⟨name, schema, []⟩, by rw [hfind]; exact if_pos rfl, rfl⟩
      newTable := by
        intro k t ht
        rw [hfind] at ht
        split at ht
        · rename_i hk
          cases ht
          exact Or.inr ⟨schema, by rw [← hk], rfl⟩
        · exact Or.inl ht
      newIndex := fun _ _ hi => Or.inl hi }

/-- The table of an index is there, with the columns of the index. -/
def Statement.Ready : Statement → Database ρ → Prop
  | .createTable .., _ => True
  | .createIndex _ schema, db =>
    ∃ t, db.tables.find? schema.table = some t ∧ ∀ c ∈ schema.columns, t.schema.has c = true

theorem addIndex_spec {name : String} {schema : IndexSchema} {db : Database ρ}
    (hfits : (Statement.createIndex name schema).Fits db)
    (hready : (Statement.createIndex name schema).Ready db) :
    ∃ db', addIndex name schema db = .ok db' ∧ Adds (.createIndex name schema) db db' := by
  obtain ⟨t, ht, hcolumns⟩ := hready
  have hfree : db.tables.has name = false := by
    rw [Table.has, hfits.2]
    rfl
  have hnone : schema.columns.find? (fun c => !t.schema.has c) = none := by
    rw [List.find?_eq_none]
    intro c hc
    simp [hcolumns c hc]
  simp only [addIndex, ht, hfree, Bool.false_eq_true, if_false, hnone]
  cases hindexes : db.indexes.insert ⟨name, schema⟩ with
  | none =>
    obtain ⟨i, hi⟩ := Table.has_iff.mp (Table.insert_eq_none.mp hindexes)
    exact ⟨db, rfl, .same ⟨i, hi, hfits.1 i hi⟩⟩
  | some indexes =>
    refine ⟨{ db with indexes := indexes }, rfl, ?_⟩
    have hfind := Table.find?_insert hindexes
    exact {
      grows := ⟨le_refl _, fun _ _ h => h, fun k i hi => Table.find?_of_insert hindexes hi⟩
      version := rfl
      holds := ⟨⟨name, schema⟩, by rw [hfind]; exact if_pos rfl, rfl⟩
      newTable := fun _ _ h => Or.inl h
      newIndex := by
        intro k i hi
        rw [hfind] at hi
        split at hi
        · rename_i hk
          cases hi
          exact Or.inr ⟨schema, by rw [← hk], rfl⟩
        · exact Or.inl hi }

/-- The scripts name every object once. -/
theorem statement_names_nodup : (statements.map Statement.name).Nodup := by decide

theorem eq_of_name {st st' : Statement} (h : st ∈ statements) (h' : st' ∈ statements)
    (hname : st.name = st'.name) : st = st' :=
  List.inj_on_of_nodup_map statement_names_nodup h h' hname

theorem Adds.fits {st other : Statement} {a b : Database ρ} (h : Adds st a b)
    (hst : st ∈ statements) (hother : other ∈ statements) (hfits : other.Fits a) :
    other.Fits b := by
  cases other with
  | createTable name schema =>
    refine ⟨fun t ht => ?_, Option.eq_none_iff_forall_ne_some.mpr fun i hi => ?_⟩
    · rcases h.newTable name t ht with hold | ⟨schema', rfl, hschema⟩
      · exact hfits.1 t hold
      · cases eq_of_name hst hother rfl
        exact hschema
    · rcases h.newIndex name i hi with hold | ⟨schema', rfl, -⟩
      · rw [hfits.2] at hold
        cases hold
      · cases eq_of_name hst hother rfl
  | createIndex name schema =>
    refine ⟨fun i hi => ?_, Option.eq_none_iff_forall_ne_some.mpr fun t ht => ?_⟩
    · rcases h.newIndex name i hi with hold | ⟨schema', rfl, hschema⟩
      · exact hfits.1 i hold
      · cases eq_of_name hst hother rfl
        exact hschema
    · rcases h.newTable name t ht with hold | ⟨schema', rfl, -⟩
      · rw [hfits.2] at hold
        cases hold
      · cases eq_of_name hst hother rfl

theorem Adds.sound {st : Statement} {a b : Database ρ} (h : Adds st a b) (hst : st ∈ statements)
    (ha : Sound a) : Sound b where
  version := by rw [h.version]; exact ha.version
  fits other hother := h.fits hst hother (ha.fits other hother)
  done s hs hversion st' hst' := by
    rw [h.version] at hversion
    exact (ha.done s hs hversion st' hst').grows h.grows

/-- A statement of the scripts, on a sound database. -/
theorem execute_spec {st : Statement} {db : Database ρ} (hst : st ∈ statements) (h : Sound db)
    (hready : st.Ready db) : ∃ db', st.execute db = .ok db' ∧ Adds st db db' := by
  cases st with
  | createTable name schema => exact addTable_spec (h.fits _ hst)
  | createIndex name schema => exact addIndex_spec (h.fits _ hst) hready

/-! ## One process among others -/

/-- Nothing is raised. -/
def Never (_ : MigrationError) (_ : Database ρ) : Prop := False

theorem rely_statement {st : Statement} (hst : st ∈ statements) (pre : Database ρ → Prop)
    (hready : ∀ db, Sound db → pre db → st.Ready db)
    (hstable : ∀ a b, pre a → Grows a b → pre b) :
    Rely Sound Grows (fun _ db => pre db ∧ st.Holds db) Never pre st.run := by
  have hrun : ∀ db, Sound db → pre db →
      ∃ db', Adds st db db' ∧ st.autocommit db = (.ok (), db') := by
    intro db hdb hpre
    obtain ⟨db', hok, hadds⟩ := execute_spec hst hdb (hready db hdb hpre)
    exact ⟨db', hadds, by rw [Statement.autocommit, hok]⟩
  refine rely_atomic ?_ ?_ ?_
  · intro db hdb hpre
    obtain ⟨db', hadds, hok⟩ := hrun db hdb hpre
    rw [hok]
    exact ⟨hadds.sound hst hdb, hadds.grows⟩
  · intro db a hdb hpre _ db'' _ hgrows
    obtain ⟨db', hadds, hok⟩ := hrun db hdb hpre
    rw [hok] at hgrows
    exact ⟨hstable db db'' hpre (hadds.grows.trans hgrows), hadds.holds.grows hgrows⟩
  · intro db e hdb hpre he
    obtain ⟨db', -, hok⟩ := hrun db hdb hpre
    rw [hok] at he
    cases he

/-- After the statements `earlier`, the index finds its table and its columns. -/
def readyAfter (earlier : List Statement) : Statement → Bool
  | .createTable .. => true
  | .createIndex _ schema => earlier.any fun st =>
    match st with
    | .createTable name table => name = schema.table && schema.columns.all table.has
    | .createIndex .. => false

def ordered : List Statement → List Statement → Bool
  | _, [] => true
  | earlier, st :: rest => readyAfter earlier st && ordered (st :: earlier) rest

theorem ready_of_earlier {earlier : List Statement} {st : Statement} {db : Database ρ}
    (h : readyAfter earlier st = true) (hearlier : ∀ st ∈ earlier, st.Holds db) : st.Ready db := by
  cases st with
  | createTable name schema => trivial
  | createIndex name schema =>
    obtain ⟨st, hst, hmatch⟩ := List.any_eq_true.mp h
    cases st with
    | createTable table tableSchema =>
      rw [Bool.and_eq_true, decide_eq_true_iff, List.all_eq_true] at hmatch
      obtain ⟨t, ht, hschema⟩ := hearlier _ hst
      rw [hmatch.1] at ht
      exact ⟨t, ht, fun c hc => by rw [hschema]; exact hmatch.2 c hc⟩
    | createIndex table indexSchema => cases hmatch

theorem rely_executescript (script : List Statement) :
    ∀ (earlier : List Statement) (known : Database ρ → Prop),
      (∀ st ∈ script, st ∈ statements) → ordered earlier script = true →
      (∀ a b, known a → Grows a b → known b) →
      Rely Sound Grows (fun _ db => known db ∧ ∀ st ∈ script, st.Holds db) Never
        (fun db => known db ∧ ∀ st ∈ earlier, st.Holds db) (executescript script) := by
  induction script with
  | nil =>
    intro earlier known _ _ _
    exact rely_pure fun db _ h => ⟨h.1, fun st hst => absurd hst List.not_mem_nil⟩
  | cons st rest ih =>
    intro earlier known hmem hordered hknown
    rw [ordered, Bool.and_eq_true] at hordered
    have hfirst := rely_statement (hmem st (List.mem_cons_self ..))
      (fun db => known db ∧ ∀ st ∈ earlier, st.Holds db)
      (fun db _ h => ready_of_earlier hordered.1 h.2)
      (fun a b h hab => ⟨hknown a b h.1 hab, fun st' hst' => (h.2 st' hst').grows hab⟩)
    have hrest := ih (st :: earlier) (fun db => known db ∧ st.Holds db)
      (fun st' hst' => hmem st' (List.mem_cons_of_mem st hst')) hordered.2
      (fun a b h hab => ⟨hknown a b h.1 hab, h.2.grows hab⟩)
    refine rely_bind hfirst fun _ => hrest.mono ?_ ?_
    · rintro db - ⟨⟨hk, hearlier⟩, hst⟩
      exact ⟨⟨hk, hst⟩, List.forall_mem_cons.mpr ⟨hst, hearlier⟩⟩
    · rintro _ db - ⟨⟨hk, hst⟩, hholds⟩
      exact ⟨hk, List.forall_mem_cons.mpr ⟨hst, hholds⟩⟩

/-- What the versions up to `current` have created is there. -/
def Reached (current : Int) (todo : List (Int × List Statement)) (db : Database ρ) : Prop :=
  ∀ s ∈ todo, s.1 ≤ current → ∀ st ∈ s.2, st.Holds db

theorem Reached.grows {current : Int} {todo : List (Int × List Statement)} {a b : Database ρ}
    (h : Reached current todo a) (hab : Grows a b) : Reached current todo b :=
  fun s hs hle st hst => (h s hs hle st hst).grows hab

/-- The scripts that `upgrade` runs, and those that it skips, leave all their objects. -/
theorem rely_upgrade (todo : List (Int × List Statement)) :
    ∀ (current : Int) (known : Database ρ → Prop),
      (∀ s ∈ todo, (∀ st ∈ s.2, st ∈ statements) ∧ ordered [] s.2 = true) →
      (todo.map Prod.fst).Pairwise (· < ·) →
      (∀ a b, known a → Grows a b → known b) →
      Rely Sound Grows (fun _ db => known db ∧ ∀ s ∈ todo, ∀ st ∈ s.2, st.Holds db) Never
        (fun db => known db ∧ Reached current todo db) (upgrade todo current) := by
  induction todo with
  | nil =>
    intro current known _ _ _
    exact rely_pure fun db _ h => ⟨h.1, fun s hs => absurd hs List.not_mem_nil⟩
  | cons s rest ih =>
    intro current known hscripts hsorted hknown
    obtain ⟨version, script⟩ := s
    rw [List.map_cons, List.pairwise_cons] at hsorted
    have hrest : ∀ s ∈ rest, (∀ st ∈ s.2, st ∈ statements) ∧ ordered [] s.2 = true :=
      fun s hs => hscripts s (List.mem_cons_of_mem _ hs)
    have hnext (current : Int) := ih current
      (fun db => known db ∧ ∀ st ∈ script, st.Holds db) hrest hsorted.2
      (fun a b h hab => ⟨hknown a b h.1 hab, fun st hst => (h.2 st hst).grows hab⟩)
    have hall : ∀ (u : Unit) (db : Database ρ), Sound db →
        ((known db ∧ ∀ st ∈ script, st.Holds db) ∧ ∀ s ∈ rest, ∀ st ∈ s.2, st.Holds db) →
        known db ∧ ∀ s ∈ (version, script) :: rest, ∀ st ∈ s.2, st.Holds db := by
      rintro - db - ⟨⟨hk, hscript⟩, hrest⟩
      exact ⟨hk, List.forall_mem_cons.mpr ⟨hscript, hrest⟩⟩
    obtain ⟨hmem, hordered⟩ := hscripts _ (List.mem_cons_self ..)
    unfold upgrade
    split
    · -- a script that is run: no later one has a version below the one it reaches
      have hscript := rely_executescript script [] known hmem
        hordered hknown
      refine rely_bind (hscript.mono ?_ fun _ _ _ h => h) fun _ => (hnext _).mono ?_ hall
      · exact fun db _ h => ⟨h.1, fun st hst => absurd hst List.not_mem_nil⟩
      · intro db _ h
        refine ⟨h, fun s hs hle => ?_⟩
        exact absurd (hsorted.1 s.1 (List.mem_map_of_mem hs)) (not_lt.mpr hle)
    · -- a script that is skipped: its version had been reached
      rename_i hreached
      refine (hnext _).mono ?_ hall
      rintro db - ⟨hk, h⟩
      have hle : version ≤ current := not_lt.mp hreached
      refine ⟨⟨hk, h _ (List.mem_cons_self ..) hle⟩, fun s hs => ?_⟩
      exact h s (List.mem_cons_of_mem _ hs)

theorem laterScripts_ordered : ∀ s ∈ laterScripts, ordered [] s.2 = true := by decide

theorem laterScripts_sorted : (laterScripts.map Prod.fst).Pairwise (· < ·) := by decide

theorem rely_upgradeFrom {current : Int} (hcurrent : 0 ≤ current) :
    Rely Sound Grows (fun _ db => ∀ st ∈ statements, st.Holds db) Never
      (fun db : Database ρ => Reached current scripts db) (upgradeFrom current) := by
  have hmem : ∀ s ∈ scripts, ∀ st ∈ s.2, st ∈ statements :=
    fun s hs st hst => List.mem_flatMap.mpr ⟨s, hs, hst⟩
  have hlater : ∀ s ∈ laterScripts, (∀ st ∈ s.2, st ∈ statements) ∧ ordered [] s.2 = true :=
    fun s hs => ⟨hmem s (List.mem_cons_of_mem _ hs), laterScripts_ordered s hs⟩
  have hupgrade (current : Int) := rely_upgrade laterScripts current
    (fun db : Database ρ => ∀ st ∈ migrate001, st.Holds db) hlater laterScripts_sorted
    (fun a b h hab st hst => (h st hst).grows hab)
  have hall : ∀ (u : Unit) (db : Database ρ), Sound db →
      ((∀ st ∈ migrate001, st.Holds db) ∧ ∀ s ∈ laterScripts, ∀ st ∈ s.2, st.Holds db) →
      ∀ st ∈ statements, st.Holds db := by
    rintro - db - ⟨hfirst, hrest⟩ st hst
    obtain ⟨s, hs, hst⟩ := List.mem_flatMap.mp hst
    rcases List.mem_cons.mp hs with rfl | hs
    · exact hfirst st hst
    · exact hrest s hs st hst
  unfold upgradeFrom
  split
  · have hscript := rely_executescript (ρ := ρ) migrate001 [] (fun _ => True)
      (hmem _ (List.mem_cons_self ..)) (by decide) (fun _ _ _ _ => trivial)
    refine rely_bind (hscript.mono ?_ fun _ _ _ h => h.2) fun _ => (hupgrade _).mono ?_ hall
    · exact fun db _ _ => ⟨trivial, fun st hst => absurd hst List.not_mem_nil⟩
    · intro db _ h
      refine ⟨h, fun s hs hle => ?_⟩
      have : ∀ s ∈ laterScripts, 1 < s.1 := by decide
      exact absurd (this s hs) (not_lt.mpr hle)
  · rename_i hne
    refine (hupgrade _).mono ?_ hall
    intro db _ h
    refine ⟨h _ (List.mem_cons_self ..) ?_, fun s hs => h s (List.mem_cons_of_mem _ hs)⟩
    show 1 ≤ current
    omega

theorem rely_writeVersion :
    Rely Sound Grows (fun _ db => Complete db) Never
      (fun db : Database ρ => ∀ st ∈ statements, st.Holds db) writeVersion := by
  have hholds : ∀ {db db' : Database ρ}, (∀ st ∈ statements, st.Holds db) → Grows db db' →
      ∀ st ∈ statements, st.Holds db' := fun h hgrows st hst => (h st hst).grows hgrows
  have hwrite : ∀ db : Database ρ, Sound db → (∀ st ∈ statements, st.Holds db) →
      Sound { db with userVersion := schemaVersion } ∧
        Grows db { db with userVersion := schemaVersion } := by
    intro db hdb h
    have hgrows : Grows db { db with userVersion := schemaVersion } :=
      ⟨hdb.version.2, fun _ _ h => h, fun _ _ h => h⟩
    have hversion : 0 ≤ schemaVersion := by decide
    refine ⟨⟨⟨hversion, le_refl _⟩, fun st hst => ?_, fun s hs _ st hst => ?_⟩, hgrows⟩
    · cases st with
      | createTable name schema => exact hdb.fits _ hst
      | createIndex name schema => exact hdb.fits _ hst
    · exact hholds h hgrows st (List.mem_flatMap.mpr ⟨s, hs, hst⟩)
  refine rely_atomic hwrite ?_ ?_
  · intro db _ hdb h _ db' hdb' hgrows
    refine ⟨le_antisymm hdb'.version.2 hgrows.version, ?_⟩
    exact hholds h ((hwrite db hdb h).2.trans hgrows)
  · intro db e _ _ he
    cases he

theorem rely_migrate :
    Rely Sound Grows (fun _ db => Complete db) Never (fun _ : Database ρ => True) migrate := by
  have hread : Rely Sound Grows
      (fun current db => (0 ≤ current ∧ current ≤ schemaVersion) ∧ Reached current scripts db)
      Never (fun _ : Database ρ => True) readVersion := by
    refine rely_read Grows.refl fun db hdb _ db' hdb' hgrows => ⟨hdb.version, ?_⟩
    exact Reached.grows hdb.done hgrows
  refine rely_bind hread fun current => ?_
  split
  · rename_i hnewer
    refine Atomic.Program.rely_raise fun db _ h => ?_
    exact absurd h.1.2 (not_le.mpr hnewer)
  · by_cases hcurrent : 0 ≤ current
    · refine rely_bind ((rely_upgradeFrom hcurrent).mono (fun db _ h => h.2) fun _ _ _ h => h) ?_
      exact fun _ => rely_writeVersion
    · exact Atomic.Program.rely_of_never fun db _ h => hcurrent h.1.1

/-! ## Any number of processes -/

/-- Processes that migrate one database at once, each of them stopped after any of its statements:
    nothing that was stored is lost and none of them raises; one that returns leaves the complete
    schema, which stays complete; and whatever they leave, one more migration completes it. -/
theorem migrate_crash_safe {ρ : Type} (db : Database ρ) (hdb : Sound db) (n : Nat)
    (sched : List Nat) :
    let left := (Pool.mk db (List.replicate n migrate)).exec sched
    Grows db left.state ∧
      (∀ r, .done r ∈ left.threads → r = .ok () ∧ Complete left.state) ∧
      ∃ db', Returns migrate left.state () db' ∧ Grows left.state db' ∧ Complete db' := by
  intro left
  have hstart : Pool.Ahead Sound Grows (fun _ db => Complete db) Never
      (Pool.mk db (List.replicate n migrate)) := by
    refine ⟨hdb, fun p hp => ?_⟩
    rw [List.eq_of_mem_replicate hp]
    exact rely_migrate.mono (fun _ _ _ => trivial) fun _ _ _ h => h
  obtain ⟨hahead, hgrows⟩ := Pool.exec_rely Grows.refl Grows.trans sched _ hstart
  refine ⟨hgrows, fun r hr => ?_, ?_⟩
  · cases r with
    | ok a => exact ⟨rfl, hahead.returned Grows.refl hr⟩
    | error e => exact (hahead.raised Grows.refl hr).elim
  · obtain ⟨-, hmore, hok, herr⟩ :=
      rely_migrate.run Grows.refl Grows.trans hahead.1 trivial
    cases hr : (migrate.run left.state).1 with
    | ok a => exact ⟨_, Prod.ext hr rfl, hmore, hok a hr⟩
    | error e => exact (herr e hr).elim

/-- A database of a later version is refused and left alone. -/
theorem migrate_refuses_newer {db : Database ρ} (h : schemaVersion < db.userVersion) :
    migrate.run db = (.error (.runtimeError ("database schema " ++ toString db.userVersion ++
      " is newer than supported " ++ toString schemaVersion)), db) := by
  have hread : migrate.run db = Program.run (if db.userVersion > schemaVersion then
      Program.raise (.runtimeError ("database schema " ++ toString db.userVersion ++
        " is newer than supported " ++ toString schemaVersion))
    else do
      upgradeFrom db.userVersion
      writeVersion) db := rfl
  rw [hread, if_pos h, Program.run_raise]

theorem sound_empty : Sound (Database.empty : Database ρ) where
  version := ⟨le_refl 0, show (0 : Int) ≤ schemaVersion by decide⟩
  fits st _ := by
    cases st with
    | createTable name schema =>
      refine ⟨fun t ht => ?_, rfl⟩
      cases ht
    | createIndex name schema =>
      refine ⟨fun i hi => ?_, rfl⟩
      cases hi
  done s hs hle := by
    have : ∀ s ∈ scripts, 0 < s.1 := by decide
    exact absurd (this s hs) (not_lt.mpr hle)

/-- Two processes on a new file, both stopped: the first after six statements, the second after
    its second. -/
theorem migrate_interrupted :
    let left := (Pool.mk (Database.empty : Database Unit) [migrate, migrate]).exec
      [0, 0, 0, 1, 0, 0, 1, 1, 0]
    Grows Database.empty left.state ∧
      (∀ r, .done r ∈ left.threads → r = .ok () ∧ Complete left.state) ∧
      ∃ db', Returns migrate left.state () db' ∧ Grows left.state db' ∧ Complete db' :=
  migrate_crash_safe Database.empty sound_empty 2 [0, 0, 0, 1, 0, 0, 1, 1, 0]

end Vad.Schema
