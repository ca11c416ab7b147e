import GinRpc.Sql.Lexer
import GinRpc.Text.Pattern
import GinRpc.Text.Trim

/-!
# Read and write statements

Model of the routing in `plugins/db/rwproxy/client.go`: `getQueryType` matches a statement against
two regular expressions, `getDB` chooses the master or a replica, and `Query` and `QueryRow` send
the statement there.

What a statement is, is a matter of its tokens and not of how its text begins: `PureRead` is defined
with a lexer, for any lexical rules.

* `getQueryType_eq_write_iff` : the statements that are known as writes.
* `Client.replica_only_pureRead_iff` : a statement that is not a pure read is kept from the replicas
  exactly if it begins with one of thirteen words and a blank.
* `Client.missed_writes` : statements that lock or write and are sent to a replica.
-/

namespace GinRpc

namespace RwProxy

open Text Pattern Sql

inductive QueryType where
  | unknown
  | write
  | read
  deriving DecidableEq

inductive LBStrategy where
  | roundRobin
  | random
  deriving DecidableEq

/-- The configuration; any of the databases can be nil. -/
structure Config (DB : Type) where
  master : Option DB
  replicas : List (Option DB)
  strategy : LBStrategy := .roundRobin
  forceMaster : Bool := false

structure Client (DB : Type) where
  config : Config DB
  roundRobin : UInt32 := 0

/-- Where a statement is sent. -/
inductive Target (DB : Type) where
  | master (db : DB)
  | replica (db : DB)
  deriving DecidableEq

def writeWords : List Text :=
  ["INSERT", "UPDATE", "DELETE", "REPLACE", "CREATE", "DROP", "ALTER", "TRUNCATE", "MERGE",
    "UPSERT", "GRANT", "REVOKE", "LOCK"]

def writePattern : RegularExpression Char := leading writeWords

def readPattern : RegularExpression Char := leading ["SELECT"]

def getQueryType (query : Text) : QueryType :=
  let trimmed := trimSpace query
  if matchString writePattern trimmed then .write
  else if matchString readPattern trimmed then .read
  else .unknown

namespace Client

variable {DB : Type} (c : Client DB)

/-- The replica at the next position, which is the same for both strategies. -/
def nextReplica : Option DB × Client DB :=
  let n := c.roundRobin + 1
  ((c.config.replicas.getD (n.toNat % c.config.replicas.length) none), { c with roundRobin := n })

def selectReplica : Option DB × Client DB :=
  if c.config.replicas = [] then (none, c)
  else if c.config.forceMaster then (none, c)
  else
    match c.config.strategy with
    | .random => c.nextReplica
    | .roundRobin => c.nextReplica

def getDB (queryType : QueryType) : Option (Target DB) × Client DB :=
  if queryType = .write ∨ c.config.forceMaster = true then (c.config.master.map .master, c)
  else
    match c.selectReplica with
    | (some db, c) => (some (.replica db), c)
    | (none, c) => (c.config.master.map .master, c)

def query (query : Text) : Except Text (Target DB) × Client DB :=
  match c.getDB (getQueryType query) with
  | (some target, c) => (.ok target, c)
  | (none, c) => (.error "no database available for query", c)

/-- The row is nil if there is no database. -/
def queryRow (query : Text) : Option (Target DB) × Client DB := c.getDB (getQueryType query)

end Client

/-! ### Statements -/

/-- The word of a token in capital letters. -/
def keyword : Token → Option Text
  | .word w => some (w.map Char.toUpper)
  | _ => none

def firstKeyword (toks : List Token) : Option Text := toks.findSome? keyword

/-- The words that a statement can begin with. -/
def statementWords : List Text :=
  ["SELECT", "VALUES", "TABLE", "INSERT", "UPDATE", "DELETE", "REPLACE", "MERGE"]

/-- The first keyword of the statement after the common table expressions of a `WITH`: the first
word outside of parentheses that can begin a statement.  An opening parenthesis directly after a
closing one begins the statement too. -/
def mainKeyword (depth : ℕ) (closed : Bool) : List Token → Option Text
  | [] => none
  | .punct c :: toks =>
    if c = '(' then
      if depth = 0 ∧ closed = true then firstKeyword toks else mainKeyword (depth + 1) false toks
    else if c = ')' then mainKeyword (depth - 1) true toks
    else mainKeyword depth false toks
  | .word w :: toks =>
    if depth == 0 && statementWords.contains (w.map Char.toUpper) then some (w.map Char.toUpper)
    else mainKeyword depth false toks
  | _ :: toks => mainKeyword depth false toks

/-- `FOR UPDATE`, `FOR SHARE`, `FOR NO KEY UPDATE`, `FOR KEY SHARE` or `LOCK IN SHARE MODE`. -/
def locks (toks : List Token) : Bool :=
  match toks.map keyword with
  | some first :: some second :: rest =>
    first == "FOR".toList && (["UPDATE", "SHARE", "NO", "KEY"] : List Text).contains second ||
      first == "LOCK".toList && second == "IN".toList &&
        rest.take 2 == [some "SHARE".toList, some "MODE".toList]
  | _ => false

def hasLockingClause (toks : List Token) : Bool := toks.tails.any locks

/-- A `SELECT`, or a `WITH` for a `SELECT`, without a locking clause. -/
def isPureRead (toks : List Token) : Bool :=
  (firstKeyword toks == some "SELECT".toList ||
    firstKeyword toks == some "WITH".toList &&
      mainKeyword 0 false toks == some "SELECT".toList) &&
    !hasLockingClause toks

/-- The text is a pure read, whatever comments and blanks it has. -/
def PureRead (L : Lexicon) (query : Text) : Prop := (L.lex query).any isPureRead = true

/-- The text begins with one of the words, with nothing but blanks before it and a blank and
something else after it. -/
def LeadsWith (words : List Text) (query : Text) : Prop :=
  ∃ b w c r, query = b ++ (w ++ c :: r) ∧ (∀ d ∈ b, isSpace d = true) ∧ c ∈ blanks ∧
    (∃ d ∈ r, isSpace d = false) ∧
    ∃ k ∈ words, List.Forall₂ (fun c d => d ∈ foldCases c) k w

/-! ### How a text begins -/

theorem isSpace_of_mem_blanks : ∀ c ∈ blanks, isSpace c = true :=
  List.all_eq_true.1 (by decide)

section

variable {words : List Text} {query : Text}

/-- The words are not empty and have no blanks. -/
def Solid (words : List Text) : Prop :=
  ∀ k ∈ words, k ≠ [] ∧ (k.all fun c => (foldCases c).all isWordChar) = true

instance : Decidable (Solid words) :=
  inferInstanceAs
    (Decidable (∀ k ∈ words, k ≠ [] ∧ (k.all fun c => (foldCases c).all isWordChar) = true))

theorem ne_nil_of_forall₂ {k w : Text} (hk : k ≠ [])
    (h : List.Forall₂ (fun c d => d ∈ foldCases c) k w) : w ≠ [] := by
  rintro rfl
  exact hk (List.forall₂_nil_right_iff.1 h)

theorem isWordChar_of_forall₂ {k w : Text}
    (hk : (k.all fun c => (foldCases c).all isWordChar) = true)
    (h : List.Forall₂ (fun c d => d ∈ foldCases c) k w) : ∀ d ∈ w, isWordChar d = true := by
  induction h with
  | nil => nofun
  | cons hd _ ih =>
    intro e he
    obtain ⟨hfirst, hrest⟩ := Bool.and_eq_true_iff.1 (List.all_cons ▸ hk)
    obtain rfl | he := List.mem_cons.1 he
    · exact List.all_eq_true.1 hfirst _ hd
    · exact ih hrest e he

/-- The pattern on the trimmed text. -/
theorem matchString_leading_trimSpace_iff (hwords : Solid words) :
    matchString (leading words) (trimSpace query) = true ↔ LeadsWith words query := by
  rw [matchString_leading_iff]
  constructor
  · rintro ⟨b, w, c, r, htrim, hb, hc, hk⟩
    obtain ⟨pre, post, hquery, hpre, hpost⟩ := exists_append_trimSpace query
    -- the blank after the word is not at the end of the trimmed text
    have hr : ∃ d ∈ r, isSpace d = false := by
      cases hlast : r.getLast? with
      | none =>
        obtain rfl := List.getLast?_eq_none_iff.1 hlast
        have hend := isSpace_getLast_trimSpace (t := query) (c := c) (by rw [htrim]; simp)
        rw [isSpace_of_mem_blanks c hc] at hend
        cases hend
      | some d =>
        refine ⟨d, List.mem_of_getLast? hlast, isSpace_getLast_trimSpace (t := query) ?_⟩
        rw [htrim]
        simp [List.getLast?_append, List.getLast?_cons, hlast]
    obtain ⟨d, hd, hds⟩ := hr
    refine ⟨pre ++ b, w, c, r ++ post, ?_, ?_, hc, ⟨d, List.mem_append_left _ hd, hds⟩, hk⟩
    · rw [hquery, htrim]
      simp only [List.append_assoc, List.cons_append]
    · intro e he
      obtain he | he := List.mem_append.1 he
      · exact hpre e he
      · exact isSpace_of_mem_blanks e (hb e he)
  · rintro ⟨b, w, c, r, rfl, hb, hc, hr, k, hk, hw⟩
    obtain ⟨u, d, post, rfl, hd, hpost⟩ := exists_append_space hr
    have hword := isWordChar_of_forall₂ (hwords k hk).2 hw
    have htrim : trimSpace (b ++ (w ++ c :: (u ++ d :: post))) = w ++ c :: (u ++ [d]) := by
      have hsplit : w ++ c :: (u ++ d :: post) = (w ++ c :: (u ++ [d])) ++ post := by simp
      rw [hsplit]
      refine trimSpace_append hb (fun e he => ?_) (fun e he => ?_) hpost
      · obtain ⟨e', w', rfl⟩ := List.exists_cons_of_ne_nil (ne_nil_of_forall₂ (hwords k hk).1 hw)
        obtain rfl : e' = e := Option.some.inj he
        exact Lexicon.isSpace_eq_false_of_isWordChar (hword e' List.mem_cons_self)
      · have hlast : (w ++ c :: (u ++ [d])).getLast? = some d := by
          simp [List.getLast?_append, List.getLast?_cons]
        rw [hlast] at he
        exact Option.some.inj he ▸ hd
    exact ⟨[], w, c, u ++ [d], htrim, nofun, hc, k, hk, hw⟩

end

theorem solid_writeWords : Solid writeWords := by decide +kernel

/-- The statements that are known as writes. -/
theorem getQueryType_eq_write_iff {query : Text} :
    getQueryType query = .write ↔ LeadsWith writeWords query := by
  rw [← matchString_leading_trimSpace_iff solid_writeWords]
  unfold getQueryType
  dsimp only
  split_ifs with hwrite hread
  · exact iff_of_true rfl hwrite
  · exact iff_of_false nofun hwrite
  · exact iff_of_false nofun hwrite

namespace Client

variable {DB : Type} {c : Client DB} {query : Text} {L : Lexicon}

/-- A call of `Query` or of `QueryRow` sends the statement to a replica. -/
def SendsToReplica (c : Client DB) (query : Text) : Prop :=
  ∃ db, (c.query query).1 = .ok (.replica db) ∨ (c.queryRow query).1 = some (.replica db)

theorem getDB_of_write : c.getDB .write = (c.config.master.map .master, c) := by
  rw [getDB, if_pos (.inl rfl)]

/-- Everything that is not known as a write goes to the chosen replica. -/
theorem getDB_of_replica {queryType : QueryType} {db : DB} {c' : Client DB}
    (htype : queryType ≠ .write) (h : c.selectReplica = (some db, c')) :
    c.getDB queryType = (some (.replica db), c') := by
  have hforce : c.config.forceMaster ≠ true := by
    intro hforce
    rw [selectReplica, if_pos hforce] at h
    split_ifs at h <;> cases h
  rw [getDB, if_neg (not_or.2 ⟨htype, hforce⟩), h]

theorem getDB_of_no_replica (queryType : QueryType) (h : c.selectReplica.1 = none) :
    (c.getDB queryType).1 = c.config.master.map .master ∨
      (c.getDB queryType).1 = c.selectReplica.2.config.master.map .master := by
  rw [getDB]
  split_ifs
  · exact .inl rfl
  · cases hsel : c.selectReplica with
    | mk db c' =>
      rw [hsel] at h
      obtain rfl : db = none := h
      exact .inr rfl

theorem sendsToReplica_iff :
    c.SendsToReplica query ↔ ∃ db, (c.getDB (getQueryType query)).1 = some (.replica db) := by
  refine exists_congr fun db => ?_
  rw [Client.query, queryRow]
  cases c.getDB (getQueryType query) with
  | mk target c' => cases target <;> simp

/-- **A statement is sent to a replica only if it is a pure read**, exactly if there is no replica
to send it to, or it is a pure read, or it begins with one of the words that writes are known
by. -/
theorem replica_only_pureRead_iff (L : Lexicon) (c : Client DB) (query : Text) :
    (c.SendsToReplica query → PureRead L query) ↔
      c.selectReplica.1 = none ∨ PureRead L query ∨ LeadsWith writeWords query := by
  constructor
  · intro h
    by_cases hwrite : LeadsWith writeWords query
    · exact .inr (.inr hwrite)
    · cases hsel : c.selectReplica with
      | mk db c' =>
        cases db with
        | none => exact .inl rfl
        | some db =>
          have htype := mt getQueryType_eq_write_iff.1 hwrite
          have hsend : c.SendsToReplica query :=
            sendsToReplica_iff.2 ⟨db, by rw [getDB_of_replica htype hsel]⟩
          exact .inr (.inl (h hsend))
  · rintro h hsend
    obtain ⟨db, hdb⟩ := sendsToReplica_iff.1 hsend
    obtain hnone | hpure | hwrite := h
    · obtain hmaster | hmaster := getDB_of_no_replica (getQueryType query) hnone
      all_goals
        rw [hmaster] at hdb
        obtain ⟨_, -, hdb⟩ := Option.map_eq_some_iff.1 hdb
        cases hdb
    · exact hpure
    · rw [getQueryType_eq_write_iff.2 hwrite, getDB_of_write] at hdb
      obtain ⟨_, -, hdb⟩ := Option.map_eq_some_iff.1 hdb
      cases hdb

/-- A master and a replica. -/
def pair : Client ℕ := { config := { master := some 0, replicas := [some 1] } }

/-- The statement is sent to the replica and is not a pure read. -/
def Missed (query : Text) : Prop := pair.SendsToReplica query ∧ ¬ PureRead (.postgreSQL []) query

theorem missed_of_eval {query : Text}
    (hdb : (pair.getDB (getQueryType query)).1 = some (.replica 1))
    (hlex : ((Lexicon.postgreSQL []).lex query).any isPureRead = false) : Missed query := by
  refine ⟨sendsToReplica_iff.2 ⟨1, hdb⟩, ?_⟩
  rw [PureRead, hlex]
  nofun

/-- A locking read, a comment before a write, a `WITH` for a write, and a procedure. -/
theorem missed_writes :
    Missed "SELECT * FROM jobs FOR UPDATE" ∧ Missed "/* retry */ UPDATE jobs SET done = 1" ∧
      Missed "WITH d AS (SELECT 1) DELETE FROM jobs" ∧ Missed "CALL run_jobs()" :=
  ⟨missed_of_eval (by decide +kernel) (by decide +kernel),
    missed_of_eval (by decide +kernel) (by decide +kernel),
    missed_of_eval (by decide +kernel) (by decide +kernel),
    missed_of_eval (by decide +kernel) (by decide +kernel)⟩

end Client

end RwProxy

end GinRpc
