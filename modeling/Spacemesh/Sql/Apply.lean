import Mathlib.Data.List.Basic
import Mathlib.Data.Nat.Digits

/-!
# Applying the schema script

`Schema.Apply` of the sql package runs the schema script in one transaction (`WithTx`),
statement by statement. A `bufio.Scanner` cuts the script: its split function returns the
data up to and including the first `;`, and asks for more data when there is none. The
scanner stops at the end of the script, leaving what follows the last `;` unread, and at
`MaxScanTokenSize` bytes of data with no `;` (`ErrTooLong`, which `Apply` does not check).
The script is its bytes; `tx.Exec` is the parameter `exec`, which gets the statements run
before in the transaction and the statement, and returns its error. A commit does not fail.

The statements are the script cut after each `;`, up to the last one, unless a statement is
longer than `MaxScanTokenSize` bytes, where the scan stops without an error
(`statements_split`). `Apply` either commits them all or, at the first that fails,
rolls back and names it (`apply_statements`).

`LoadDBSchemaScript` writes the script `SchemaGen.Generate` saves as the schema: the
`user_version` pragma, then the SQL of each schema object with a `;`, one a line. Applied,
that script runs the pragma and each object's SQL in turn, as long as no object's SQL has a
`;` of its own (`statements_loadDBSchemaScript`); a trigger's body does.
-/

namespace Spacemesh.Sql

/-- `bufio.MaxScanTokenSize`. -/
def maxScanTokenSize : ℕ := 65536

def semicolon : UInt8 := 59

/-- The scanner of `Apply` over the script left, `data` the bytes read since the last
statement. -/
def scanLoop : List UInt8 → List UInt8 → List (List UInt8)
  | _, [] => []
  | data, b :: rest =>
    if maxScanTokenSize ≤ data.length then []
    else if b = semicolon then (data ++ [b]) :: scanLoop [] rest
    else scanLoop (data ++ [b]) rest

def statements (script : List UInt8) : List (List UInt8) := scanLoop [] script

/-- The error of `Apply`: `exec %s: %w`. -/
inductive ApplyError
  | exec (stmt : List UInt8) (err : String)
  deriving DecidableEq, Repr

/-- The loop of `Apply` in its transaction, `done` the statements run before. -/
def execLoop (exec : List (List UInt8) → List UInt8 → Option String) :
    List (List UInt8) → List (List UInt8) → Option ApplyError
  | _, [] => none
  | done, stmt :: stmts =>
    match exec done stmt with
    | some err => some (.exec stmt err)
    | none => execLoop exec (done ++ [stmt]) stmts

/-- `Schema.Apply` in `WithTx`: the statements the transaction commits, and the error. -/
def apply (script : List UInt8) (exec : List (List UInt8) → List UInt8 → Option String) :
    List (List UInt8) × Option ApplyError :=
  match execLoop exec [] (statements script) with
  | none => (statements script, none)
  | some e => ([], some e)

/-! ## The statements -/

theorem scanLoop_statement : ∀ (data rest : List UInt8), semicolon ∉ data →
    ∀ s ∈ scanLoop data rest, s.getLast? = some semicolon ∧ semicolon ∉ s.dropLast ∧ s.length ≤ maxScanTokenSize
  | _, [], _, s, hs => nomatch hs
  | data, b :: rest, hdata, s, hs => by
    unfold scanLoop at hs
    split_ifs at hs with hfull hb
    · cases hs
    · rcases List.mem_cons.1 hs with rfl | hs
      · subst hb
        refine ⟨List.getLast?_concat _, by rwa [List.dropLast_concat], ?_⟩
        rw [List.length_append, List.length_singleton]; omega
      · exact scanLoop_statement [] rest (List.not_mem_nil _) s hs
    · exact scanLoop_statement (data ++ [b]) rest (by simp [hdata, Ne.symm hb]) s hs

theorem scanLoop_split : ∀ (data rest : List UInt8), semicolon ∉ data →
    ∃ tail, data ++ rest = (scanLoop data rest).flatten ++ tail ∧
      (semicolon ∉ tail ∨ maxScanTokenSize ≤ (tail.takeWhile (· != semicolon)).length)
  | data, [], hdata => ⟨data, by simp [scanLoop], .inl hdata⟩
  | data, b :: rest, hdata => by
    unfold scanLoop
    split_ifs with hfull hb
    · refine ⟨data ++ b :: rest, by simp, .inr ?_⟩
      rw [List.takeWhile_append_of_pos (fun a ha => by simpa using ne_of_mem_of_not_mem ha hdata),
        List.length_append]
      omega
    · obtain ⟨tail, htail, hstop⟩ := scanLoop_split [] rest (List.not_mem_nil _)
      exact ⟨tail, by rw [List.flatten_cons, List.append_assoc, ← htail, hb]; simp, hstop⟩
    · obtain ⟨tail, htail, hstop⟩ := scanLoop_split (data ++ [b]) rest (by simp [hdata, Ne.symm hb])
      exact ⟨tail, by rw [← htail]; simp, hstop⟩

theorem statements_split (script : List UInt8) :
    (∀ s ∈ statements script,
      s.getLast? = some semicolon ∧ semicolon ∉ s.dropLast ∧ s.length ≤ maxScanTokenSize) ∧
    ∃ tail, script = (statements script).flatten ++ tail ∧
      (semicolon ∉ tail ∨ maxScanTokenSize ≤ (tail.takeWhile (· != semicolon)).length) :=
  ⟨scanLoop_statement [] script (List.not_mem_nil _), scanLoop_split [] script (List.not_mem_nil _)⟩

example : statements [97, 59, 98, 59, 99] = [[97, 59], [98, 59]] := rfl

/-! ## The transaction -/

def AllRun (exec : List (List UInt8) → List UInt8 → Option String) (done stmts : List (List UInt8)) : Prop :=
  ∀ k (hk : k < stmts.length), exec (done ++ stmts.take k) stmts[k] = none

theorem allRun_cons {exec : List (List UInt8) → List UInt8 → Option String} {done : List (List UInt8)}
    {stmt : List UInt8} {stmts : List (List UInt8)} (h : exec done stmt = none)
    (hrest : AllRun exec (done ++ [stmt]) stmts) : AllRun exec done (stmt :: stmts)
  | 0, _ => by simpa using h
  | k + 1, hk => by
    simpa [List.take_succ_cons] using hrest k (by simpa using hk)

theorem execLoop_spec (exec : List (List UInt8) → List UInt8 → Option String) :
    ∀ (done stmts : List (List UInt8)),
      (execLoop exec done stmts = none ∧ AllRun exec done stmts) ∨
      ∃ pre s post err, stmts = pre ++ s :: post ∧ AllRun exec done pre ∧ exec (done ++ pre) s = some err ∧
        execLoop exec done stmts = some (.exec s err)
  | _, [] => .inl ⟨rfl, fun _ hk => absurd hk (Nat.not_lt_zero _)⟩
  | done, stmt :: stmts => by
    cases h : exec done stmt with
    | some err =>
      exact .inr ⟨[], stmt, stmts, err, rfl, fun _ hk => absurd hk (Nat.not_lt_zero _), by simpa using h,
        by simp [execLoop, h]⟩
    | none =>
      have hloop : execLoop exec done (stmt :: stmts) = execLoop exec (done ++ [stmt]) stmts := by
        simp [execLoop, h]
      rcases execLoop_spec exec (done ++ [stmt]) stmts with ⟨hnone, hall⟩ | ⟨pre, s, post, err, rfl, hpre, hs, he⟩
      · exact .inl ⟨hloop.trans hnone, allRun_cons h hall⟩
      · exact .inr ⟨stmt :: pre, s, post, err, rfl, allRun_cons h hpre, by simpa using hs, hloop.trans he⟩

/-- `Apply` runs, in one transaction, the statements of the script as `statements_split`
describes them: each ends at its only `;`, the text after the last `;` is never run, and a
statement longer than `MaxScanTokenSize` bytes silently ends the scan. When every statement
runs without an error it commits them all; otherwise it rolls back at the first that fails
and returns the error naming it. -/
theorem apply_statements (script : List UInt8) (exec : List (List UInt8) → List UInt8 → Option String) :
    (∀ s ∈ statements script,
      s.getLast? = some semicolon ∧ semicolon ∉ s.dropLast ∧ s.length ≤ maxScanTokenSize) ∧
    (∃ tail, script = (statements script).flatten ++ tail ∧
      (semicolon ∉ tail ∨ maxScanTokenSize ≤ (tail.takeWhile (· != semicolon)).length)) ∧
    ((AllRun exec [] (statements script) ∧ apply script exec = (statements script, none)) ∨
      ∃ pre s post err, statements script = pre ++ s :: post ∧ AllRun exec [] pre ∧ exec pre s = some err ∧
        apply script exec = ([], some (.exec s err))) := by
  refine ⟨(statements_split script).1, (statements_split script).2, ?_⟩
  unfold apply
  rcases execLoop_spec exec [] (statements script) with ⟨hnone, hall⟩ | ⟨pre, s, post, err, hsplit, hpre, hs, he⟩
  · exact .inl ⟨hall, by rw [hnone]⟩
  · exact .inr ⟨pre, s, post, err, hsplit, hpre, by simpa using hs, by rw [he]⟩

/-! ## The generated schema -/

def ascii (s : String) : List UInt8 := s.toList.map (·.toNat.toUInt8)

def pragmaUserVersion : List UInt8 := ascii "PRAGMA user_version = "

/-- The bytes `%d` prints for a Go `int`. -/
def formatDecimal (v : ℤ) : List UInt8 := ascii (toString v)

/-- The error of `LoadDBSchemaScript`: that of `version`, or
`error retrieving DB schema: %w`. -/
inductive LoadError
  | version (err : String)
  | retrievingSchema (err : String)
  deriving DecidableEq, Repr

/-- `LoadDBSchemaScript`, from the database's `user_version` and the rows of its schema
query, each the `sql` of a schema object, in the query's order; `ColumnText(1)` is the `sql`
with a `;`, and `Fprintln` ends it with a newline. -/
def loadDBSchemaScript (version : Except String ℤ) (rows : Except String (List (List UInt8))) :
    Except LoadError (List UInt8) :=
  match version with
  | .error e => .error (.version e)
  | .ok v =>
    match rows with
    | .error e => .error (.retrievingSchema e)
    | .ok rows => .ok (pragmaUserVersion ++ formatDecimal v ++ [semicolon, 10] ++
        (rows.map fun sql => sql ++ [semicolon, 10]).flatten)

theorem scanLoop_segment : ∀ (data seg rest : List UInt8), semicolon ∉ data ++ seg →
    (data ++ seg).length < maxScanTokenSize →
    scanLoop data (seg ++ semicolon :: rest) = (data ++ seg ++ [semicolon]) :: scanLoop [] rest
  | data, [], rest, _, hlen => by
    rw [List.append_nil] at hlen
    rw [List.nil_append, scanLoop, if_neg (Nat.not_le.2 hlen), if_pos rfl, List.append_nil]
  | data, b :: seg, rest, hsemi, hlen => by
    have hb : b ≠ semicolon := fun h => hsemi (by simp [h])
    have hdata : data.length < maxScanTokenSize := by simp at hlen; omega
    rw [List.cons_append, scanLoop, if_neg (Nat.not_le.2 hdata), if_neg hb,
      scanLoop_segment (data ++ [b]) seg rest (by simpa using hsemi) (by simpa using hlen)]
    simp

theorem rows_flatten (rows : List (List UInt8)) :
    10 :: (rows.map fun sql => sql ++ [semicolon, 10]).flatten =
      (rows.map fun sql => 10 :: sql ++ [semicolon]).flatten ++ [10] := by
  induction rows with
  | nil => rfl
  | cons sql rows ih =>
    simp only [List.map_cons, List.flatten_cons, List.cons_append, List.append_assoc] at ih ⊢
    rw [← ih]
    rfl

theorem scanLoop_rows (rows : List (List UInt8)) (hsemi : ∀ sql ∈ rows, semicolon ∉ sql)
    (hlen : ∀ sql ∈ rows, sql.length + 2 ≤ maxScanTokenSize) :
    scanLoop [] ((rows.map fun sql => 10 :: sql ++ [semicolon]).flatten ++ [10]) =
      rows.map fun sql => 10 :: sql ++ [semicolon] := by
  induction rows with
  | nil => rfl
  | cons sql rows ih =>
    have h := scanLoop_segment [] (10 :: sql) ((rows.map fun sql => 10 :: sql ++ [semicolon]).flatten ++ [10])
      (by simpa [semicolon] using hsemi sql (List.mem_cons_self _ _))
      (by have := hlen sql (List.mem_cons_self _ _); simp; omega)
    have ih := ih (fun s hs => hsemi s (List.mem_cons_of_mem _ hs)) (fun s hs => hlen s (List.mem_cons_of_mem _ hs))
    simp only [List.map_cons, List.flatten_cons, List.cons_append, List.append_assoc, List.nil_append] at h ih ⊢
    rw [h, ih]

theorem mem_toDigitsCore {c : Char} : ∀ (fuel n : ℕ) (acc : List Char), c ∈ Nat.toDigitsCore 10 fuel n acc →
    c ∈ acc ∨ ∃ k < 10, c = Nat.digitChar k
  | 0, _, _, h => .inl h
  | fuel + 1, n, acc, h => by
    have hd : ∀ h : c ∈ Nat.digitChar (n % 10) :: acc, c ∈ acc ∨ ∃ k < 10, c = Nat.digitChar k := fun h =>
      (List.mem_cons.1 h).elim (fun h => .inr ⟨n % 10, Nat.mod_lt _ (by decide), h⟩) .inl
    unfold Nat.toDigitsCore at h
    dsimp only at h
    split_ifs at h
    · exact hd h
    · exact (mem_toDigitsCore fuel _ _ h).elim hd .inr

theorem digitChar_ne_semicolon : ∀ k < 10, (Nat.digitChar k).toNat.toUInt8 ≠ semicolon := by decide

theorem semicolon_not_mem_formatDecimal (v : ℤ) : semicolon ∉ formatDecimal v := by
  have hdigits : ∀ n, semicolon ∉ ascii (Nat.repr n) := by
    intro n h
    obtain ⟨c, hc, hsemi⟩ := List.mem_map.1 h
    rcases mem_toDigitsCore (n + 1) n [] hc with hc | ⟨k, hk, rfl⟩
    · cases hc
    · exact digitChar_ne_semicolon k hk hsemi
  cases v with
  | ofNat n => exact hdigits n
  | negSucc n =>
    intro h
    rcases List.mem_cons.1 h with h | h
    · cases h
    · exact hdigits (n + 1) h

theorem length_formatDecimal {v : ℤ} (hv : -9223372036854775808 ≤ v ∧ v < 9223372036854775808) :
    (formatDecimal v).length ≤ 20 := by
  have hrepr : ∀ n : ℕ, n ≤ 9223372036854775808 → (ascii (Nat.repr n)).length ≤ 19 := fun n hn => by
    rw [ascii, List.length_map]
    exact Nat.repr_length n 19 (by decide) (by omega)
  cases v with
  | ofNat n =>
    rw [Int.ofNat_eq_coe] at hv
    exact (hrepr n (by omega)).trans (by decide)
  | negSucc n =>
    rw [Int.negSucc_eq] at hv
    show (ascii (Nat.repr (n + 1))).length + 1 ≤ 20
    have := hrepr (n + 1) (by omega)
    omega

/-- The schema file `SchemaGen.Generate` writes is the script `LoadDBSchemaScript` loads.
`Apply` runs it as the `PRAGMA` that sets the version, then the SQL of each schema object in
order, each after its newline, and leaves the last newline unread; this holds when the
version is a Go `int`, no object's SQL has a `;`, and each fits the scanner's token size. -/
theorem statements_loadDBSchemaScript (version : ℤ) (rows : List (List UInt8))
    (hv : -9223372036854775808 ≤ version ∧ version < 9223372036854775808)
    (hsemi : ∀ sql ∈ rows, semicolon ∉ sql) (hlen : ∀ sql ∈ rows, sql.length + 2 ≤ maxScanTokenSize) :
    ∃ script, loadDBSchemaScript (.ok version) (.ok rows) = .ok script ∧
      statements script = (pragmaUserVersion ++ formatDecimal version ++ [semicolon]) ::
        rows.map fun sql => 10 :: sql ++ [semicolon] := by
  refine ⟨_, rfl, ?_⟩
  have hhead : semicolon ∉ [] ++ (pragmaUserVersion ++ formatDecimal version) := by
    rw [List.nil_append, List.mem_append, not_or]
    exact ⟨by decide, semicolon_not_mem_formatDecimal version⟩
  have hfit : ([] ++ (pragmaUserVersion ++ formatDecimal version)).length < maxScanTokenSize := by
    have := length_formatDecimal hv
    simp only [List.nil_append, List.length_append]
    show 22 + _ < 65536
    omega
  have hscript : pragmaUserVersion ++ formatDecimal version ++ [semicolon, 10] ++
      (rows.map fun sql => sql ++ [semicolon, 10]).flatten =
      (pragmaUserVersion ++ formatDecimal version) ++ semicolon ::
        ((rows.map fun sql => 10 :: sql ++ [semicolon]).flatten ++ [10]) := by
    rw [← rows_flatten]; simp
  rw [statements, hscript, scanLoop_segment [] _ _ hhead hfit, scanLoop_rows rows hsemi hlen, List.nil_append]

theorem statements_loadDBSchemaScript_table :
    (-9223372036854775808 ≤ (3 : ℤ) ∧ (3 : ℤ) < 9223372036854775808) ∧
    (∀ sql ∈ [ascii "CREATE TABLE a (x)"], semicolon ∉ sql) ∧
    (∀ sql ∈ [ascii "CREATE TABLE a (x)"], sql.length + 2 ≤ maxScanTokenSize) ∧
    ∃ script, loadDBSchemaScript (.ok 3) (.ok [ascii "CREATE TABLE a (x)"]) = .ok script ∧
      statements script = (pragmaUserVersion ++ formatDecimal 3 ++ [semicolon]) ::
        [ascii "CREATE TABLE a (x)"].map fun sql => 10 :: sql ++ [semicolon] :=
  have hv : -9223372036854775808 ≤ (3 : ℤ) ∧ (3 : ℤ) < 9223372036854775808 := by decide
  have hsemi : ∀ sql ∈ [ascii "CREATE TABLE a (x)"], semicolon ∉ sql := by decide
  have hlen : ∀ sql ∈ [ascii "CREATE TABLE a (x)"], sql.length + 2 ≤ maxScanTokenSize := by decide
  ⟨hv, hsemi, hlen, statements_loadDBSchemaScript 3 _ hv hsemi hlen⟩

example : (loadDBSchemaScript (.ok 1) (.ok [ascii "CREATE TRIGGER t BEGIN DELETE FROM a; END"])).map statements =
    .ok [ascii "PRAGMA user_version = 1;", ascii "\nCREATE TRIGGER t BEGIN DELETE FROM a;", ascii " END;"] := rfl

end Spacemesh.Sql
