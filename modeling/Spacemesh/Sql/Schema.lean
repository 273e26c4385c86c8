import Mathlib.Data.List.Sort

/-!
# Schema migrations

`Schema.Migrate` of the sql package. The database is its `user_version`, the
orders of the migrations whose `Apply` has committed, and whether it was closed.
Each migration past the current version runs in its own transaction (`WithTx`): its
`Apply`, unless skipped, and the `user_version` update commit together or not at
all; a commit does not fail. What `version`, `Apply`, `Rollback`, the `user_version`
update, `Vacuum` and `Close` return are inputs (`Faults`). `MigrationList.Version`
is not in the sources; it is the order of the last migration.

On a migration list sorted by order and not empty, every run from version `v` is
one of: `ErrTooNew` or `ErrOldSchema` with nothing changed, or the migrations past
`v` in order, each in its own transaction, all committed but the last, with
`user_version` the order of the last committed one and `Rollback` called only for a
migration whose `Apply` failed (`migrate_consistent`). With no migration at all,
`Migrate` returns nil whatever the version (`migrate_without_migrations`).
-/

namespace Spacemesh.Sql

structure Migration where
  order : ℤ
  name : String
  deriving DecidableEq

/-- Modelled from the spec: `MigrationList.Version` is not in the sources; with the migrations
sorted by increasing order, as the spec takes them, it is the order of the last one, `0` for
none. -/
def migrationsVersion (ms : List Migration) : ℤ := (ms.getLast?.map Migration.order).getD 0

structure Schema where
  migrations : List Migration
  skipMigration : List ℤ

def Schema.skipMigrations (s : Schema) (i : List ℤ) : Schema := { s with skipMigration := s.skipMigration ++ i }

/-- What the database calls of `Migrate` return, by the migration's order. -/
structure Faults where
  version : Option String
  apply : ℤ → Option String
  rollback : ℤ → Option String
  setVersion : ℤ → Option String
  vacuum : ℤ → Option String
  close : Option String

structure DB where
  userVersion : ℤ
  applied : List ℤ
  closed : Bool
  deriving DecidableEq

structure TxRecord where
  order : ℤ
  applyCalled : Bool
  rollbacks : List ℤ
  committed : Bool
  deriving DecidableEq

inductive MigrateError
  | version (err : String)
  /-- `ErrTooNew: %d > %d`. -/
  | tooNew (before after : ℤ)
  /-- `ErrOldSchema: %d < %d`. -/
  | oldSchema (before after : ℤ)
  /-- `apply %s: %w`, with the rollback's error and the close's joined. -/
  | apply (name err : String) (rollback close : Option String)
  /-- `update user_version to %d: %w`, with the close's error joined. -/
  | updateVersion (order : ℤ) (err : String) (close : Option String)
  | vacuum (err : String) (close : Option String)

/-- A run of `Migrate`: its transactions, the orders after which `Vacuum` ran, the
database after it, and its result. -/
structure MigrateRun where
  txs : List TxRecord
  vacuumed : List ℤ
  db : DB
  result : Except MigrateError Unit

section Migrate

variable (s : Schema) (f : Faults)

/-- The rollback loop after a failed `Apply`: `Rollback` of the migration and of the
earlier ones, latest first, while their order is past `before`, up to the first that
fails. -/
def rollbackLoop (before : ℤ) : List Migration → List ℤ × Option String
  | [] => ([], none)
  | m :: ms =>
    if m.order ≤ before then ([], none)
    else
      match f.rollback m.order with
      | some e => ([m.order], some e)
      | none => (m.order :: (rollbackLoop before ms).1, (rollbackLoop before ms).2)

/-- The loop of `Migrate` from version `before`, `prev` holding the migrations already
passed, latest first. -/
def migrateLoop (vacuumState : ℤ) : ℤ → List Migration → List Migration → DB → MigrateRun
  | _, _, [], db => ⟨[], [], db, .ok ()⟩
  | before, prev, m :: ms, db =>
    if m.order ≤ before then migrateLoop vacuumState before (m :: prev) ms db
    else
      let skip := decide (m.order ∈ s.skipMigration)
      match (if skip then none else f.apply m.order) with
      | some e =>
        let rb := rollbackLoop f before (m :: prev)
        ⟨[⟨m.order, true, rb.1, false⟩], [], { db with closed := true }, .error (.apply m.name e rb.2 f.close)⟩
      | none =>
        match f.setVersion m.order with
        | some e =>
          ⟨[⟨m.order, !skip, [], false⟩], [], { db with closed := true }, .error (.updateVersion m.order e f.close)⟩
        | none =>
          let db' : DB := { db with userVersion := m.order, applied := if skip then db.applied else db.applied ++ [m.order] }
          let tx : TxRecord := ⟨m.order, !skip, [], true⟩
          if vacuumState ≠ 0 ∧ before ≤ vacuumState then
            match f.vacuum m.order with
            | some e => ⟨[tx], [m.order], { db' with closed := true }, .error (.vacuum e f.close)⟩
            | none =>
              let r := migrateLoop vacuumState m.order (m :: prev) ms db'
              ⟨tx :: r.txs, m.order :: r.vacuumed, r.db, r.result⟩
          else
            let r := migrateLoop vacuumState m.order (m :: prev) ms db'
            ⟨tx :: r.txs, r.vacuumed, r.db, r.result⟩

def migrate (db : DB) (vacuumState : ℤ) (enable : Bool) : MigrateRun :=
  if s.migrations.length = 0 then ⟨[], [], db, .ok ()⟩
  else
    match f.version with
    | some e => ⟨[], [], db, .error (.version e)⟩
    | none =>
      let before := db.userVersion
      let after := migrationsVersion s.migrations
      if after < before then ⟨[], [], db, .error (.tooNew before after)⟩
      else if before = after then ⟨[], [], db, .ok ()⟩
      else if !enable then ⟨[], [], db, .error (.oldSchema before after)⟩
      else migrateLoop s f vacuumState before [] s.migrations db

end Migrate

/-! ## The loop -/

/-- What a run of the loop from version `v` does with the migrations `E` past `v`: it
opens one transaction for each of a prefix of `E`, in order; `Apply` runs in each
unless the migration is skipped; all transactions commit but the last, and all of them
when the run succeeds; `user_version` is the order of the last committed one, which is
past every committed one, and `v` if none committed; the applied migrations are the
committed ones; and `Rollback` runs only in a transaction whose `Apply` failed, and then
for that migration alone. -/
structure LoopSound (s : Schema) (f : Faults) (v : ℤ) (db : DB) (E : List Migration) (r : MigrateRun) :
    Prop where
  txs_prefix : ∃ n, r.txs.map TxRecord.order = (E.take n).map Migration.order
  apply_called : ∀ t ∈ r.txs, t.applyCalled = !decide (t.order ∈ s.skipMigration)
  committed_but_last : ∀ t ∈ r.txs.dropLast, t.committed = true
  ok_all : r.result = .ok () → r.txs.map TxRecord.order = E.map Migration.order ∧ ∀ t ∈ r.txs, t.committed = true
  version : r.db.userVersion = ((r.txs.filter (·.committed)).getLast?.map TxRecord.order).getD v
  version_ge : v ≤ r.db.userVersion
  committed_le : ∀ t ∈ r.txs, t.committed = true → t.order ≤ r.db.userVersion
  applied : r.db.applied = db.applied ++ (r.txs.filter fun t => t.committed && t.applyCalled).map TxRecord.order
  rollbacks : ∀ t ∈ r.txs,
    t.rollbacks = if t.applyCalled && !t.committed && (f.apply t.order).isSome then [t.order] else []

section Loop

variable (s : Schema) (f : Faults)

theorem rollbackLoop_first {before : ℤ} {m : Migration} {prev : List Migration} (hm : before < m.order)
    (hprev : ∀ p ∈ prev, p.order ≤ before) : (rollbackLoop f before (m :: prev)).1 = [m.order] := by
  have hnil : (rollbackLoop f before prev).1 = [] := by
    cases prev with
    | nil => rfl
    | cons p ps => simp [rollbackLoop, hprev p (List.mem_cons_self _ _)]
  simp only [rollbackLoop, not_le.2 hm, if_false]
  split <;> simp [hnil]

theorem loopSound_single {v : ℤ} {db : DB} {m : Migration} {E : List Migration} {t : TxRecord}
    {vacuumed : List ℤ} {e : MigrateError} (ht : t.order = m.order)
    (hv : v < m.order) (hskip : t.applyCalled = !decide (m.order ∈ s.skipMigration))
    (hrb : t.rollbacks = if t.applyCalled && !t.committed && (f.apply t.order).isSome then [t.order] else [])
    {db' : DB} (hdb' : db'.userVersion = if t.committed then m.order else v)
    (happ : db'.applied = if t.committed && t.applyCalled then db.applied ++ [m.order] else db.applied) :
    LoopSound s f v db (m :: E) ⟨[t], vacuumed, db', .error e⟩ := by
  refine ⟨⟨1, by simp [ht]⟩, by simpa [ht] using hskip, by simp, fun h => (nomatch h), ?_, ?_, ?_, ?_,
    by simpa using hrb⟩
  · cases hc : t.committed <;> simp [hdb', hc, ht]
  · cases hc : t.committed <;> simp [hdb', hc]; omega
  · intro t' ht' hc
    simp only [List.mem_singleton] at ht'
    subst ht'
    simp [hdb', hc, ht]
  · cases hc : t.committed <;> cases ha : t.applyCalled <;> simp [happ, hc, ha, ht]

theorem loopSound_cons {v : ℤ} {db : DB} {m : Migration} {E : List Migration} {r : MigrateRun}
    {vacuumed : List ℤ} (hv : v < m.order)
    (hr : LoopSound s f m.order
      { db with userVersion := m.order,
                applied := if decide (m.order ∈ s.skipMigration) then db.applied else db.applied ++ [m.order] }
      E r) :
    LoopSound s f v db (m :: E)
      ⟨⟨m.order, !decide (m.order ∈ s.skipMigration), [], true⟩ :: r.txs, vacuumed, r.db, r.result⟩ := by
  obtain ⟨⟨n, hn⟩, hcall, hbut, hok, hver, hge, hle, happ, hrb⟩ := hr
  refine ⟨⟨n + 1, by simp [hn]⟩, ?_, ?_, fun h => ?_, ?_, hv.le.trans hge, ?_, ?_, ?_⟩
  · intro t ht
    rcases List.mem_cons.1 ht with rfl | ht
    · rfl
    · exact hcall t ht
  · intro t ht
    cases hrt : r.txs with
    | nil => simp [hrt] at ht
    | cons a l =>
      rw [hrt, List.dropLast_cons₂, List.mem_cons] at ht
      rcases ht with rfl | ht
      · rfl
      · exact hbut t (hrt ▸ ht)
  · obtain ⟨h1, h2⟩ := hok h
    refine ⟨by simp [h1], fun t ht => ?_⟩
    rcases List.mem_cons.1 ht with rfl | ht
    · rfl
    · exact h2 t ht
  · simp only [List.filter_cons, if_true, List.getLast?_cons]
    rw [hver]
    cases (r.txs.filter (·.committed)).getLast? <;> rfl
  · intro t ht hc
    rcases List.mem_cons.1 ht with rfl | ht
    · exact hge
    · exact hle t ht hc
  · rw [happ]
    split_ifs with hs <;> simp [hs]
  · intro t ht
    rcases List.mem_cons.1 ht with rfl | ht
    · simp
    · exact hrb t ht

theorem migrateLoop_sound (vacuumState : ℤ) :
    ∀ (l prev : List Migration) (before : ℤ) (db : DB), (l.map Migration.order).Sorted (· < ·) →
      (∀ p ∈ prev, p.order ≤ before) → db.userVersion = before →
      LoopSound s f before db (l.filter fun m => before < m.order) (migrateLoop s f vacuumState before prev l db)
  | [], _, before, db, _, _, hdb => by
    refine ⟨⟨0, rfl⟩, ?_, ?_, fun _ => ?_, ?_, ?_, ?_, ?_, ?_⟩ <;> simp [migrateLoop, hdb]
  | m :: ms, prev, before, db, hsort, hprev, hdb => by
    have hms : (ms.map Migration.order).Sorted (· < ·) := (List.sorted_cons.1 hsort).2
    have hgt : ∀ m' ∈ ms, m.order < m'.order := fun m' hm' =>
      (List.sorted_cons.1 hsort).1 _ (List.mem_map_of_mem _ hm')
    by_cases hle : m.order ≤ before
    · have hE : (m :: ms).filter (fun m => before < m.order) = ms.filter (fun m => before < m.order) := by
        simp [List.filter_cons, not_lt.2 hle]
      rw [hE]
      simp only [migrateLoop, if_pos hle]
      exact migrateLoop_sound vacuumState ms (m :: prev) before db hms
        (fun p hp => (List.mem_cons.1 hp).elim (fun h => h ▸ hle) (hprev p)) hdb
    have hlt : before < m.order := lt_of_not_le hle
    have hE : (m :: ms).filter (fun m => before < m.order) = m :: ms := by
      rw [List.filter_cons_of_pos (by simpa using hlt), List.filter_eq_self.2 fun m' hm' => by
        simpa using hlt.trans (hgt m' hm')]
    have hE' : ms.filter (fun m' => m.order < m'.order) = ms := List.filter_eq_self.2 fun m' hm' => by
      simpa using hgt m' hm'
    have hprev' : ∀ p ∈ m :: prev, p.order ≤ m.order := fun p hp =>
      (List.mem_cons.1 hp).elim (fun h => h ▸ le_rfl) fun hp => (hprev p hp).trans hlt.le
    have hrest := migrateLoop_sound vacuumState ms (m :: prev) m.order
      { db with userVersion := m.order,
                applied := if decide (m.order ∈ s.skipMigration) then db.applied else db.applied ++ [m.order] }
      hms hprev' rfl
    rw [hE'] at hrest
    rw [hE]
    simp only [migrateLoop, if_neg hle]
    split
    · -- `Apply` fails
      rename_i e happly
      have hfa : m.order ∉ s.skipMigration ∧ f.apply m.order = some e := by simpa using happly
      exact loopSound_single s f rfl hlt (by simp [hfa.1])
        (by simp [hfa.2, rollbackLoop_first f hlt hprev]) (by simp [hdb]) (by simp)
    · rename_i happly
      split
      · -- the `user_version` update fails
        exact loopSound_single s f rfl hlt rfl
          (by by_cases hs : m.order ∈ s.skipMigration <;> simp [hs] at happly ⊢; simp [happly])
          (by simp [hdb]) (by simp)
      · by_cases hvac : vacuumState ≠ 0 ∧ before ≤ vacuumState
        · rw [if_pos hvac]
          split
          · -- `Vacuum` fails
            exact loopSound_single s f rfl hlt rfl (by simp) (by simp)
              (by by_cases hs : m.order ∈ s.skipMigration <;> simp [hs])
          · exact loopSound_cons s f hlt hrest
        · rw [if_neg hvac]
          exact loopSound_cons s f hlt hrest

end Loop

/-! ## Migrate -/

theorem migrate_without_migrations (skip : List ℤ) (f : Faults) (db : DB) (vacuumState : ℤ) (enable : Bool) :
    migrate ⟨[], skip⟩ f db vacuumState enable = ⟨[], [], db, .ok ()⟩ := rfl

/-- A database at version 1 and no migration, every call succeeding: `Migrate` returns
nil, not `ErrTooNew`, although the version is past `MigrationList.Version`. -/
theorem migrate_newer_version_without_migrations :
    migrationsVersion [] < (⟨1, [], false⟩ : DB).userVersion ∧
      migrate ⟨[], []⟩ ⟨none, fun _ => none, fun _ => none, fun _ => none, fun _ => none, none⟩ ⟨1, [], false⟩ 0 true =
        ⟨[], [], ⟨1, [], false⟩, .ok ()⟩ :=
  ⟨by decide, migrate_without_migrations [] _ _ 0 true⟩

theorem order_le_migrationsVersion {ms : List Migration} (hs : (ms.map Migration.order).Sorted (· < ·))
    {m : Migration} (hm : m ∈ ms) : m.order ≤ migrationsVersion ms := by
  obtain ⟨init, last, rfl⟩ := (List.eq_nil_or_concat ms).resolve_left (List.ne_nil_of_mem hm)
  simp only [List.concat_eq_append, List.map_append, List.Sorted, List.pairwise_append] at hs hm ⊢
  have hv : migrationsVersion (init ++ [last]) = last.order := by simp [migrationsVersion]
  rcases List.mem_append.1 hm with hm | hm
  · exact hv ▸ (hs.2.2 _ (List.mem_map_of_mem _ hm) _ (by simp)).le
  · rw [List.mem_singleton.1 hm, hv]

theorem getLast?_filter_version {ms : List Migration} (hne : ms ≠ []) {v : ℤ} (h : v < migrationsVersion ms) :
    (ms.filter fun m => v < m.order).getLast?.map Migration.order = some (migrationsVersion ms) := by
  obtain ⟨init, last, rfl⟩ := (List.eq_nil_or_concat ms).resolve_left hne
  have hlast : v < last.order := by simpa [migrationsVersion] using h
  simp [migrationsVersion, List.filter_append, hlast]

theorem LoopSound.version_of_ok {s : Schema} {f : Faults} {v : ℤ} {db : DB} {E : List Migration}
    {r : MigrateRun} (h : LoopSound s f v db E r) (hok : r.result = .ok ()) :
    r.db.userVersion = (E.getLast?.map Migration.order).getD v := by
  obtain ⟨horder, hall⟩ := h.ok_all hok
  rw [h.version, List.filter_eq_self.2 fun t ht => by simpa using hall t ht, ← List.getLast?_map, horder,
    List.getLast?_map]

/-- On a sorted, non-empty migration list, the version read: a database past the last
migration is refused with `ErrTooNew`, one behind it with `ErrOldSchema` unless
migrations are enabled, both untouched; otherwise the run is sound from the database's
version over the migrations past it, and one that succeeds leaves the database at the
last migration's order. -/
theorem migrate_consistent (s : Schema) (f : Faults) (db : DB) (vacuumState : ℤ) (enable : Bool)
    (hsorted : (s.migrations.map Migration.order).Sorted (· < ·)) (hne : s.migrations ≠ [])
    (hread : f.version = none) :
    (migrationsVersion s.migrations < db.userVersion →
      migrate s f db vacuumState enable =
        ⟨[], [], db, .error (.tooNew db.userVersion (migrationsVersion s.migrations))⟩) ∧
    (db.userVersion < migrationsVersion s.migrations → enable = false →
      migrate s f db vacuumState enable =
        ⟨[], [], db, .error (.oldSchema db.userVersion (migrationsVersion s.migrations))⟩) ∧
    (db.userVersion ≤ migrationsVersion s.migrations →
      (db.userVersion = migrationsVersion s.migrations ∨ enable = true) →
      LoopSound s f db.userVersion db (s.migrations.filter fun m => db.userVersion < m.order)
        (migrate s f db vacuumState enable) ∧
      ((migrate s f db vacuumState enable).result = .ok () →
        (migrate s f db vacuumState enable).db.userVersion = migrationsVersion s.migrations)) := by
  have hlen : s.migrations.length ≠ 0 := fun h => hne (List.length_eq_zero.1 h)
  simp only [migrate, hlen, hread, if_false]
  refine ⟨fun h => by simp [h], fun h he => by simp [not_lt.2 h.le, h.ne, he], fun h hcase => ?_⟩
  rw [if_neg (not_lt.2 h)]
  by_cases heq : db.userVersion = migrationsVersion s.migrations
  · -- at the last migration: nothing to run
    have hE : s.migrations.filter (fun m => db.userVersion < m.order) = [] :=
      List.filter_eq_nil_iff.2 fun m hm => by simpa [heq] using order_le_migrationsVersion hsorted hm
    rw [if_pos heq, hE]
    exact ⟨migrateLoop_sound s f vacuumState [] [] _ db (List.sorted_nil) (by simp) rfl, fun _ => heq⟩
  · have hen : enable = true := hcase.resolve_left heq
    have hlt : db.userVersion < migrationsVersion s.migrations := lt_of_le_of_ne h heq
    have hsound := migrateLoop_sound s f vacuumState s.migrations [] db.userVersion db hsorted (by simp) rfl
    simp only [if_neg heq, hen, Bool.not_true, Bool.false_eq_true, if_false]
    refine ⟨hsound, fun hok => ?_⟩
    rw [hsound.version_of_ok hok, getLast?_filter_version hne hlt]
    rfl

def twoMigrations : Schema := ⟨[⟨1, "init"⟩, ⟨2, "index"⟩], []⟩

def secondApplyFails : Faults :=
  ⟨none, fun o => if o = 2 then some "no such table" else none, fun _ => none, fun _ => none, fun _ => none, none⟩

example : migrate twoMigrations secondApplyFails ⟨0, [], false⟩ 0 true =
    ⟨[⟨1, true, [], true⟩, ⟨2, true, [2], false⟩], [], ⟨1, [1], true⟩,
      .error (.apply "index" "no such table" none none)⟩ := rfl

theorem migrate_consistent_second_apply_fails :
    ((twoMigrations.migrations.map Migration.order).Sorted (· < ·) ∧ twoMigrations.migrations ≠ [] ∧
      secondApplyFails.version = none) ∧
    (migrationsVersion twoMigrations.migrations < (⟨0, [], false⟩ : DB).userVersion →
      migrate twoMigrations secondApplyFails ⟨0, [], false⟩ 0 true =
        ⟨[], [], ⟨0, [], false⟩, .error (.tooNew 0 (migrationsVersion twoMigrations.migrations))⟩) ∧
    ((⟨0, [], false⟩ : DB).userVersion < migrationsVersion twoMigrations.migrations → true = false →
      migrate twoMigrations secondApplyFails ⟨0, [], false⟩ 0 true =
        ⟨[], [], ⟨0, [], false⟩, .error (.oldSchema 0 (migrationsVersion twoMigrations.migrations))⟩) ∧
    ((⟨0, [], false⟩ : DB).userVersion ≤ migrationsVersion twoMigrations.migrations →
      ((⟨0, [], false⟩ : DB).userVersion = migrationsVersion twoMigrations.migrations ∨ true = true) →
      LoopSound twoMigrations secondApplyFails 0 ⟨0, [], false⟩
        (twoMigrations.migrations.filter fun m => (⟨0, [], false⟩ : DB).userVersion < m.order)
        (migrate twoMigrations secondApplyFails ⟨0, [], false⟩ 0 true) ∧
      ((migrate twoMigrations secondApplyFails ⟨0, [], false⟩ 0 true).result = .ok () →
        (migrate twoMigrations secondApplyFails ⟨0, [], false⟩ 0 true).db.userVersion =
          migrationsVersion twoMigrations.migrations)) :=
  ⟨⟨by decide, by decide, rfl⟩,
    migrate_consistent twoMigrations secondApplyFails ⟨0, [], false⟩ 0 true (by decide) (by decide) rfl⟩

end Spacemesh.Sql
