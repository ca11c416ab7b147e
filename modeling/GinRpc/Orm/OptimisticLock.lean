import GinRpc.Data.Checks
import GinRpc.LTS.Basic
import GinRpc.Orm.Rendering

/-!
# Optimistic locking

Model of `plugins/db/orm/optimistic_lock.go`.  `UpdateWithVersion` sends one `UPDATE` statement,
`UpdateWithRetry` reads the version and sends it until a row is affected.  The statement has a
placeholder for every column, for the new version, for the id and for the expected version; the
expected version is not among its arguments.

* `buildVersionedUpdateQuery_placeholders` : the statement has one placeholder more than arguments.
* `LockSys` : any number of clients on one database.
* `versionedUpdate_unbound` : no accepted call binds its version, and on a database that refuses
  such a statement no client ever has success.

`RetryDelay` is left out.  Maps are given by their sorted entries.
-/

namespace GinRpc

namespace Orm

open Text

variable {α S : Type*}

/-! ### Statements -/

/-- The values of `interface{}` that `incrementVersion` tells apart. -/
inductive Value (α : Type*) where
  | int (v : Int64)
  | int32 (v : Int32)
  | int64 (v : Int64)
  | uint (v : UInt64)
  | uint32 (v : UInt32)
  | uint64 (v : UInt64)
  | other (v : α)
  deriving DecidableEq, Repr

/-- Numbers are incremented, other versions stay as they are. -/
def incrementVersion : Value α → Value α
  | .int v => .int (v + 1)
  | .int32 v => .int32 (v + 1)
  | .int64 v => .int64 (v + 1)
  | .uint v => .uint (v + 1)
  | .uint32 v => .uint32 (v + 1)
  | .uint64 v => .uint64 (v + 1)
  | .other v => .other v

/-- Numbers may be stored, other values are checked by `valid`. -/
def isValidDataType (valid : α → Bool) : Value α → Bool
  | .other v => valid v
  | _ => true

structure OptimisticLock where
  versionColumn : Text
  retryCount : ℤ
  deriving DecidableEq, Repr

def newOptimisticLock : OptimisticLock := ⟨"version", 3⟩

structure OptimisticLockResult (α : Type*) where
  success : Bool
  rowsAffected : ℤ
  currentVersion : Option (Value α)
  deriving DecidableEq, Repr

/-- A call of `UpdateWithVersion` without the version: what is to be updated. -/
structure Change (α : Type*) where
  table : Text
  idColumn : Text
  id : Value α
  data : List (Text × Value α)
  deriving DecidableEq, Repr

/-- The database as far as it is used: `Exec` returns an error or the number of affected rows. -/
structure DB (S α : Type*) where
  exec : S → Text → List (Value α) → S × Except Text ℤ

/-- `column = placeholder`, of an assignment or a condition. -/
def columnEq (dialect : Dialect) (column : Text) (index : ℕ) : Text :=
  dialect.quoteIdentifier column ++ " = " ++ dialect.placeholder index

namespace OptimisticLock

variable (ol : OptimisticLock)

/-- The `UPDATE` statement and its arguments. -/
def buildVersionedUpdateQuery (c : Change α) (expectedVersion : Value α) (dialect : Dialect) :
    Text × List (Value α) :=
  let n := c.data.length
  let setParts := c.data.mapIdx fun i entry => columnEq dialect entry.1 i
  let args := c.data.map Prod.snd
  let newVersion := incrementVersion expectedVersion
  let setParts := setParts ++ [columnEq dialect ol.versionColumn n]
  let args := args ++ [newVersion]
  let args := args ++ [c.id]
  ("UPDATE " ++ dialect.quoteIdentifier c.table ++ " SET " ++ List.intercalate ", " setParts ++
    " WHERE " ++ columnEq dialect c.idColumn (n + 1) ++
    " AND " ++ columnEq dialect ol.versionColumn n, args)

/-- The checks of one entry of the data. -/
def checkEntry (valid : α → Bool) (entry : Text × Value α) : Except Text Unit :=
  match validateColumnName entry.1 with
  | .error e => .error ("invalid column name '" ++ entry.1 ++ "': " ++ e)
  | .ok () =>
    if isValidDataType valid entry.2 then .ok ()
    else .error ("invalid data type for column '" ++ entry.1 ++ "'")

/-- The checks of `UpdateWithVersion`; the version column is taken out of the data. -/
def checkChange (valid : α → Bool) (c : Change α) : Except Text (Change α) :=
  match validateTableName c.table with
  | .error e => .error e
  | .ok () =>
    match validateColumnName c.idColumn with
    | .error e => .error ("invalid ID column name '" ++ c.idColumn ++ "': " ++ e)
    | .ok () =>
      match validateColumnName ol.versionColumn with
      | .error e => .error ("invalid version column name '" ++ ol.versionColumn ++ "': " ++ e)
      | .ok () =>
        let data := c.data.filter fun entry => entry.1 ≠ ol.versionColumn
        if data.length = 0 then .error errEmptyData
        else
          match data.forM (checkEntry valid) with
          | .error e => .error e
          | .ok () => .ok { c with data := data }

/-- One update, if the version is still the expected one. -/
def updateWithVersion (valid : α → Bool) (db : DB S α) (c : Change α) (expectedVersion : Value α)
    (s : S) : S × Except Text (OptimisticLockResult α) :=
  match ol.checkChange valid c with
  | .error e => (s, .error e)
  | .ok c =>
    let (query, args) := ol.buildVersionedUpdateQuery c expectedVersion .default
    match db.exec s query args with
    | (s, .error e) => (s, .error e)
    | (s, .ok rowsAffected) =>
      let success := decide (0 < rowsAffected)
      (s, .ok ⟨success, rowsAffected,
        if success then some (incrementVersion expectedVersion) else none⟩)

end OptimisticLock

/-! ### Placeholders of a statement -/

/-- The number of `?` outside of single quotes. -/
def countMarks : Bool → Text → ℕ
  | _, [] => 0
  | quoted, c :: t =>
    if c = '\'' then countMarks (!quoted) t
    else (if c = '?' ∧ quoted = false then 1 else 0) + countMarks quoted t

/-- The number of placeholders of a statement. -/
def placeholderCount (query : Text) : ℕ := countMarks false query

/-- The text has `n` placeholders and ends outside of quotes. -/
structure Marks (n : ℕ) (t : Text) : Prop where
  count : ∀ u, countMarks false (t ++ u) = n + countMarks false u

section Marks

variable {m n : ℕ} {t u : Text}

theorem Marks.total (h : Marks n t) : placeholderCount t = n := by
  simpa [countMarks, placeholderCount] using h.count []

theorem Marks.append (ht : Marks m t) (hu : Marks n u) : Marks (m + n) (t ++ u) where
  count v := by rw [List.append_assoc, ht.count, hu.count, Nat.add_assoc]

theorem marks_of_notMem (hq : '?' ∉ t) (hs : '\'' ∉ t) : Marks 0 t where
  count u := by
    induction t with
    | nil => simp
    | cons c t ih =>
      rw [List.mem_cons, not_or] at hq hs
      simp only [List.cons_append, countMarks, Ne.symm hq.1, Ne.symm hs.1, if_false, false_and,
        Nat.zero_add] at ih ⊢
      simpa using ih hq.2 hs.2

theorem marks_mark : Marks 1 "?" where
  count u := by simp [countMarks]

/-- Inside quotes nothing is counted. -/
theorem countMarks_quoted (hs : '\'' ∉ t) (u : Text) :
    countMarks true (t ++ '\'' :: u) = countMarks false u := by
  induction t with
  | nil => simp [countMarks]
  | cons c t ih =>
    rw [List.mem_cons, not_or] at hs
    simpa [countMarks, Ne.symm hs.1] using ih hs.2

theorem marks_quoted (hs : '\'' ∉ t) : Marks 0 ('\'' :: (t ++ ['\''])) where
  count u := by simp [countMarks, countMarks_quoted hs]

theorem marks_one_intercalate {ts : List Text} (h : ∀ t ∈ ts, Marks 1 t) :
    Marks ts.length (List.intercalate ", " ts) := by
  induction ts with
  | nil => exact marks_of_notMem List.not_mem_nil List.not_mem_nil
  | cons t ts ih =>
    have ht := h t List.mem_cons_self
    cases ts with
    | nil => simpa using ht
    | cons t' ts =>
      have hsep : Marks 0 ", " := marks_of_notMem (by decide) (by decide)
      have hrest := ih fun t ht => h t (List.mem_cons_of_mem _ ht)
      have hall := (ht.append hsep).append hrest
      rw [List.intercalate_cons_cons, List.length_cons, Nat.add_comm]
      simpa using hall

end Marks

/-! ### Names that have passed the checks -/

theorem marks_quoteIdentifier {t : Text} (h : ∀ c ∈ trimSpace t, c = '.' ∨ isWordChar c = true) :
    Marks 0 (Dialect.default.quoteIdentifier t) := by
  have hnot : ∀ c : Char, c ≠ '.' → isWordChar c = false → c ∉ trimSpace t := by
    intro c hd hw hc
    obtain rfl | hw' := h c hc
    · exact hd rfl
    · rw [hw] at hw'
      cases hw'
  refine marks_of_notMem ?_ ?_
  · exact notMem_quoteBackticks (by decide) (by decide) (by decide)
      (hnot '?' (by decide) (by decide))
  · exact notMem_quoteBackticks (by decide) (by decide) (by decide)
      (hnot '\'' (by decide) (by decide))

theorem isWordChar_of_isName {t : Text} (h : isName t = true) : ∀ c ∈ t, isWordChar c = true := by
  intro c hc
  cases t with
  | nil => cases hc
  | cons e t =>
    rw [isName, Bool.and_eq_true] at h
    obtain rfl | hc := List.mem_cons.1 hc
    · simp [isWordChar, Char.isAlphanum, h.1]
    · exact List.all_eq_true.1 h.2 c hc

theorem marks_of_dropWhile {t : Text} (h : Marks 0 (t.dropWhile isBlank)) : Marks 0 t := by
  have hblank : ∀ c : Char, isBlank c = false → c ∉ t.takeWhile isBlank := by
    intro c hc hm
    have htrue := List.all_eq_true.1 (List.all_takeWhile (p := isBlank) (l := t)) c hm
    rw [hc] at htrue
    cases htrue
  have happ := (marks_of_notMem (hblank '?' (by decide)) (hblank '\'' (by decide))).append h
  rwa [List.takeWhile_append_dropWhile] at happ

theorem marks_of_isQuoted {t : Text} (h : isQuoted t = true) : Marks 0 t := by
  unfold isQuoted at h
  split at h
  · rename_i t
    split at h
    · rename_i body hbody
      obtain rfl : t = body.reverse ++ ['\''] := by
        rw [← List.reverse_inj, hbody]
        simp
      simp only [Bool.and_eq_true, Bool.not_eq_true', List.contains_eq_mem, decide_eq_false_iff_not]
        at h
      exact marks_quoted fun hm => h.2 (List.mem_reverse.1 hm)
    · cases h
  · cases h

/-- An arrow and the quoted text after it. -/
theorem marks_arrow (arrow : Text) {u : Text} (hq : '?' ∉ arrow) (hs : '\'' ∉ arrow)
    (h : isQuoted (u.dropWhile isBlank) = true) : Marks 0 (arrow ++ u) :=
  (marks_of_notMem hq hs).append (marks_of_dropWhile (marks_of_isQuoted h))

theorem marks_of_isArrow {t : Text} (h : isArrow t = true) : Marks 0 t ∧ '-' ∈ t := by
  suffices hd : Marks 0 (t.dropWhile isBlank) ∧ '-' ∈ t.dropWhile isBlank from
    ⟨marks_of_dropWhile hd.1, (List.dropWhile_sublist _).subset hd.2⟩
  unfold isArrow at h
  split at h
  · rename_i u hu
    rw [hu]
    exact ⟨marks_arrow "->>" (by decide) (by decide) h, List.mem_cons_self⟩
  · rename_i u _ hu
    rw [hu]
    exact ⟨marks_arrow "->" (by decide) (by decide) h, List.mem_cons_self⟩
  · cases h

/-- A JSON path is left as it is. -/
theorem marks_of_isJsonPath {t : Text} (h : isJsonPath (trimSpace t) = true) :
    Marks 0 (Dialect.default.quoteIdentifier t) := by
  unfold isJsonPath at h
  simp only [Bool.and_eq_true] at h
  obtain ⟨⟨hcol, -⟩, harrow⟩ := h
  obtain ⟨hmarks, hminus⟩ := marks_of_isArrow harrow
  have hsub : '-' ∈ trimSpace t := List.mem_of_mem_drop hminus
  have hquote : Dialect.default.quoteIdentifier t = trimSpace t := by
    show Dialect.quoteBackticks t = trimSpace t
    have hany : containsAny (trimSpace t) "()*,+-/\\" = true :=
      List.any_eq_true.2 ⟨'-', hsub, by decide⟩
    unfold Dialect.quoteBackticks
    dsimp only
    rw [if_neg (List.ne_nil_of_mem hsub), if_pos hany]
  have hnot : ∀ c : Char, c ≠ '.' → isWordChar c = false →
      c ∉ (trimSpace t).takeWhile fun c => isWordChar c || c == '.' := by
    intro c hd hw hc
    obtain rfl | hw' := mem_of_isQualified hcol hc
    · exact hd rfl
    · rw [hw] at hw'
      cases hw'
  have hall := (marks_of_notMem (hnot '?' (by decide) (by decide))
    (hnot '\'' (by decide) (by decide))).append hmarks
  rw [hquote]
  have hsplit := List.prefix_iff_eq_append.1 (List.takeWhile_prefix
    (fun c => isWordChar c || c == '.') (l := trimSpace t))
  rwa [hsplit] at hall

theorem marks_of_validateColumnName {column : Text} (h : validateColumnName column = .ok ()) :
    Marks 0 (Dialect.default.quoteIdentifier column) := by
  unfold validateColumnName at h
  dsimp only at h
  split_ifs at h with _ hok
  simp only [Bool.or_eq_true] at hok
  obtain (hn | hq) | hj := hok
  · exact marks_quoteIdentifier fun c hc => .inr (isWordChar_of_isName hn c hc)
  · exact marks_quoteIdentifier fun c hc => mem_of_isQualified hq hc
  · exact marks_of_isJsonPath hj

theorem marks_of_validateTableName {table : Text} (h : validateTableName table = .ok ()) :
    Marks 0 (Dialect.default.quoteIdentifier table) := by
  unfold validateTableName at h
  split_ifs at h with _ hn
  exact marks_quoteIdentifier fun c hc => .inr (isWordChar_of_isName hn c (mem_of_mem_trimSpace hc))

/-! ### The statement of a checked change -/

namespace OptimisticLock

variable {ol : OptimisticLock} {valid : α → Bool} {c c' : Change α}

/-- What the checks leave. -/
structure Checked (ol : OptimisticLock) (c : Change α) : Prop where
  table : validateTableName c.table = .ok ()
  idColumn : validateColumnName c.idColumn = .ok ()
  versionColumn : validateColumnName ol.versionColumn = .ok ()
  columns : ∀ entry ∈ c.data, validateColumnName entry.1 = .ok ()

theorem checkEntry_ok {entry : Text × Value α} (h : checkEntry valid entry = .ok ()) :
    validateColumnName entry.1 = .ok () := by
  unfold checkEntry at h
  split at h
  · cases h
  · assumption

theorem forM_checkEntry {data : List (Text × Value α)}
    (h : data.forM (checkEntry valid) = .ok ()) :
    ∀ entry ∈ data, validateColumnName entry.1 = .ok () := by
  intro entry hentry
  exact checkEntry_ok (forM_eq_ok_iff.1 h entry hentry)

theorem checkChange_ok (h : ol.checkChange valid c = .ok c') : Checked ol c' := by
  unfold checkChange at h
  split at h
  · cases h
  rename_i htable
  split at h
  · cases h
  rename_i hid
  split at h
  · cases h
  rename_i hver
  dsimp only at h
  split_ifs at h
  split at h
  · cases h
  rename_i hdata
  cases h
  exact ⟨htable, hid, hver, forM_checkEntry hdata⟩

theorem marks_columnEq {column : Text} (h : validateColumnName column = .ok ()) (i : ℕ) :
    Marks 1 (columnEq .default column i) :=
  ((marks_of_validateColumnName h).append (marks_of_notMem (by decide) (by decide))).append
    marks_mark

theorem marks_setParts (h : Checked ol c) :
    Marks (c.data.length + 1) (List.intercalate ", "
      ((c.data.mapIdx fun i entry => columnEq .default entry.1 i) ++
        [columnEq .default ol.versionColumn c.data.length])) := by
  have hlen : ((c.data.mapIdx fun i entry => columnEq .default entry.1 i) ++
      [columnEq .default ol.versionColumn c.data.length]).length = c.data.length + 1 := by simp
  rw [← hlen]
  refine marks_one_intercalate fun t ht => ?_
  rw [List.mem_append, List.mem_mapIdx, List.mem_singleton] at ht
  obtain ⟨i, hi, rfl⟩ | rfl := ht
  · exact marks_columnEq (h.columns _ (List.getElem_mem hi)) i
  · exact marks_columnEq h.versionColumn _

/-- **The statement ends with the condition on the version, and its arguments are those of the
placeholders before it.** -/
theorem buildVersionedUpdateQuery_marks (h : Checked ol c) (v : Value α) :
    ∃ before, Marks (c.data.length + 2) before ∧
      ol.buildVersionedUpdateQuery c v .default =
        (before ++ columnEq .default ol.versionColumn c.data.length,
          c.data.map Prod.snd ++ [incrementVersion v, c.id]) := by
  have hupdate : Marks 0 "UPDATE " := marks_of_notMem (by decide) (by decide)
  have hsetWord : Marks 0 " SET " := marks_of_notMem (by decide) (by decide)
  have hwhere : Marks 0 " WHERE " := marks_of_notMem (by decide) (by decide)
  have hand : Marks 0 " AND " := marks_of_notMem (by decide) (by decide)
  have htable := (hupdate.append (marks_of_validateTableName h.table)).append hsetWord
  have hset := (htable.append (marks_setParts h)).append hwhere
  have hall := (hset.append (marks_columnEq h.idColumn (c.data.length + 1))).append hand
  have hn : 0 + 0 + 0 + (c.data.length + 1) + 0 + 1 + 0 = c.data.length + 2 := by omega
  rw [hn] at hall
  refine ⟨_, hall, ?_⟩
  unfold buildVersionedUpdateQuery
  simp only [List.append_assoc, List.singleton_append]

/-- The statement has one placeholder more than arguments. -/
theorem buildVersionedUpdateQuery_placeholders (h : Checked ol c) (v : Value α) :
    placeholderCount (ol.buildVersionedUpdateQuery c v .default).1 =
      (ol.buildVersionedUpdateQuery c v .default).2.length + 1 := by
  obtain ⟨before, hb, heq⟩ := buildVersionedUpdateQuery_marks h v
  rw [heq, (hb.append (marks_columnEq h.versionColumn _)).total]
  simp

end OptimisticLock

/-! ### Clients -/

/-- The database refuses a statement whose placeholders and arguments do not match. -/
def DB.Strict (db : DB S α) : Prop :=
  ∀ s query args, placeholderCount query ≠ args.length →
    ∃ e, db.exec s query args = (s, .error e)

/-- What a client does: one `UpdateWithVersion`, or `UpdateWithRetry`. -/
structure LockJob (α : Type*) where
  change : Change α
  retry : Bool

/-- Where a client is. -/
inductive LockClient (α : Type*) where
  /-- before the version is read -/
  | reading (attempt : ℕ)
  /-- before the update -/
  | updating (attempt : ℕ) (version : Value α)
  | done (result : Except Text (OptimisticLockResult α))

namespace OptimisticLock

/-- The message after the last attempt. -/
def failed (ol : OptimisticLock) (lastErr : Text) : Text :=
  "optimistic lock failed after " ++ itoa (ol.retryCount + 1) ++ " attempts: " ++ lastErr

/-- A client before its first attempt; `attempt <= ol.RetryCount` may fail at once. -/
def start (ol : OptimisticLock) (job : LockJob α) : LockClient α :=
  if job.retry ∧ ol.retryCount < 0 then .done (.error (ol.failed "%!w(<nil>)")) else .reading 0

/-- What comes after an update. -/
def next (ol : OptimisticLock) (job : LockJob α) (attempt : ℕ) :
    Except Text (OptimisticLockResult α) → LockClient α
  | .error e => .done (.error e)
  | .ok result =>
    if job.retry = false ∨ result.success then .done (.ok result)
    else if (attempt : ℤ) < ol.retryCount then .reading (attempt + 1)
    else
      .done (.error (ol.failed ("optimistic lock conflict on attempt " ++ decimal (attempt + 1))))

end OptimisticLock

/-- The database and the clients. -/
structure LockSys (S α ι : Type*) where
  db : S
  client : ι → LockClient α

/-- A step of one client. -/
inductive LockAction (α ι : Type*) where
  | read (i : ι) (version : Option (Value α))
  | update (i : ι)
  /-- the context is cancelled between two attempts -/
  | cancel (i : ι) (err : Text)

section Clients

variable {ι : Type*} [DecidableEq ι] (ol : OptimisticLock) (valid : α → Bool) (db : DB S α)
  (jobs : ι → LockJob α)

/-- The steps of the clients; each update is one atomic step of the database. -/
inductive LockSys.Step : LockSys S α ι → LockAction α ι → LockSys S α ι → Prop
  | read {s : LockSys S α ι} {i : ι} {attempt : ℕ} (version : Value α) :
      s.client i = .reading attempt →
      Step s (.read i (some version))
        { s with client := Function.update s.client i (.updating attempt version) }
  | readNil {s : LockSys S α ι} {i : ι} {attempt : ℕ} :
      (jobs i).retry = true → s.client i = .reading attempt →
      Step s (.read i none)
        { s with client :=
          Function.update s.client i (.done (.error "failed to get current version")) }
  | update {s : LockSys S α ι} {i : ι} {attempt : ℕ} {version : Value α} :
      s.client i = .updating attempt version →
      Step s (.update i)
        { db := (ol.updateWithVersion valid db (jobs i).change version s.db).1
          client := Function.update s.client i (ol.next (jobs i) attempt
            (ol.updateWithVersion valid db (jobs i).change version s.db).2) }
  | cancel {s : LockSys S α ι} {i : ι} {attempt : ℕ} (err : Text) :
      s.client i = .reading (attempt + 1) →
      Step s (.cancel i err)
        { s with client := Function.update s.client i (.done (.error err)) }

/-- The clients on a database that starts in `s₀`. -/
def lockSystem (s₀ : S) : LTS (LockSys S α ι) (LockAction α ι) where
  init s := s = ⟨s₀, fun i => ol.start (jobs i)⟩
  step := LockSys.Step ol valid db jobs

variable {ol valid db jobs}

/-- On a strict database no update is made. -/
theorem updateWithVersion_strict (ol : OptimisticLock) (valid : α → Bool) (hdb : db.Strict)
    (c : Change α) (v : Value α) (s : S) :
    ∃ e, ol.updateWithVersion valid db c v s = (s, .error e) := by
  unfold OptimisticLock.updateWithVersion
  cases hc : ol.checkChange valid c with
  | error e => exact ⟨e, rfl⟩
  | ok c' =>
    have hcount := OptimisticLock.buildVersionedUpdateQuery_placeholders
      (OptimisticLock.checkChange_ok hc) v
    obtain ⟨e, he⟩ := hdb s (ol.buildVersionedUpdateQuery c' v .default).1
      (ol.buildVersionedUpdateQuery c' v .default).2 (by omega)
    exact ⟨e, by simp only [he]⟩

/-- No client has a result. -/
def Unsuccessful (s₀ : S) (s : LockSys S α ι) : Prop :=
  s.db = s₀ ∧ ∀ i r, s.client i ≠ .done (.ok r)

theorem Unsuccessful.set {s₀ : S} {s : LockSys S α ι} (h : Unsuccessful s₀ s) (i : ι)
    {c : LockClient α}
    (hc : ∀ r, c ≠ .done (.ok r)) :
    Unsuccessful s₀ { s with client := Function.update s.client i c } := by
  refine ⟨h.1, fun j r => ?_⟩
  by_cases hj : j = i
  · subst hj
    simpa using hc r
  · simpa [hj] using h.2 j r

theorem unsuccessful_step {s₀ : S} (hdb : db.Strict) {s s' : LockSys S α ι} {a : LockAction α ι}
    (h : Unsuccessful s₀ s) (hst : LockSys.Step ol valid db jobs s a s') : Unsuccessful s₀ s' := by
  cases hst with
  | read version hi => exact h.set _ fun r => nofun
  | readNil hretry hi => exact h.set _ fun r => nofun
  | @update i attempt version hi =>
    obtain ⟨e, he⟩ := updateWithVersion_strict ol valid hdb (jobs i).change version s.db
    rw [he]
    exact h.set _ fun r => nofun
  | cancel err hi => exact h.set _ fun r => nofun

/-- **No accepted call binds the version it expects**: its statement has a placeholder too many,
that of the version in `WHERE`.  On a database that refuses the statement no client, in any
interleaving, has a result, and nothing is updated. -/
theorem versionedUpdate_unbound (ol : OptimisticLock) (valid : α → Bool) :
    (∀ (c c' : Change α) (v : Value α), ol.checkChange valid c = .ok c' →
      let (query, args) := ol.buildVersionedUpdateQuery c' v .default
      placeholderCount query ≠ args.length ∧
        ∃ before, query = before ++ columnEq .default ol.versionColumn c'.data.length ∧
          args[c'.data.length]? = some (incrementVersion v) ∧
          args[placeholderCount before]? = none) ∧
    ∀ (db : DB S α) (jobs : ι → LockJob α) (s₀ : S) (tr : List (LockAction α ι))
      (s : LockSys S α ι),
      db.Strict → (lockSystem ol valid db jobs s₀).Run LTS.anyStep tr s →
        s.db = s₀ ∧ ∀ i r, s.client i ≠ .done (.ok r) := by
  constructor
  · intro c c' v hc
    have hch := OptimisticLock.checkChange_ok hc
    have hcount := OptimisticLock.buildVersionedUpdateQuery_placeholders hch v
    obtain ⟨before, hb, heq⟩ := OptimisticLock.buildVersionedUpdateQuery_marks hch v
    rw [heq] at hcount ⊢
    refine ⟨fun h => absurd (h ▸ hcount) (Nat.ne_of_lt (Nat.lt_succ_self _)), before, rfl, by simp,
      ?_⟩
    rw [hb.total]
    simp
  · intro db jobs s₀ tr s hdb hrun
    refine hrun.invariant (I := Unsuccessful s₀) ?_ fun s a s' h _ hst =>
      unsuccessful_step hdb h hst
    rintro s rfl
    refine ⟨rfl, fun i r => ?_⟩
    show ol.start (jobs i) ≠ _
    unfold OptimisticLock.start
    split_ifs <;> exact nofun

end Clients

/-- A database of one row that counts its updates. -/
def countingDB : DB ℕ ℕ where
  exec s query args :=
    if placeholderCount query = args.length then (s + 1, .ok 1)
    else (s, .error "sql: wrong number of arguments")

theorem countingDB_strict : countingDB.Strict := fun _ _ _ h => ⟨_, if_neg h⟩

theorem versionedUpdate_unbound_name :
    placeholderCount "UPDATE `users` SET `name` = ?, `version` = ? WHERE `id` = ? AND `version` = ?"
        ≠ [Value.other 7, .int 4, .int 1].length ∧
      ∀ (tr : List (LockAction ℕ (Fin 2))) (s : LockSys ℕ ℕ (Fin 2)),
        (lockSystem newOptimisticLock (fun _ => true) countingDB
          (fun _ => ⟨⟨"users", "id", .int 1, [("name".toList, .other 7)]⟩, true⟩) 0).Run
            LTS.anyStep tr s →
        s.db = 0 ∧ ∀ i r, s.client i ≠ .done (.ok r) := by
  have h := versionedUpdate_unbound (S := ℕ) (ι := Fin 2) newOptimisticLock fun _ : ℕ => true
  refine ⟨(h.1 ⟨"users", "id", .int 1, [("name".toList, .other 7)]⟩ _ (.int 3) rfl).1, ?_⟩
  exact fun tr s hrun => h.2 countingDB _ 0 tr s countingDB_strict hrun

/-- The statement for one column has four placeholders and three arguments. -/
theorem versionedUpdate_missing_argument :
    newOptimisticLock.buildVersionedUpdateQuery
        ⟨"users", "id", .int 1, [("name".toList, Value.other 7)]⟩ (.int 3) .default =
      ("UPDATE `users` SET `name` = ?, `version` = ? WHERE `id` = ? AND `version` = ?".toList,
        [.other 7, .int 4, .int 1]) ∧
    (newOptimisticLock.updateWithVersion (fun _ => true) countingDB
        ⟨"users", "id", .int 1, [("name".toList, .other 7)]⟩ (.int 3) 0).2 =
      .error "sql: wrong number of arguments".toList := by
  decide

end Orm

end GinRpc
