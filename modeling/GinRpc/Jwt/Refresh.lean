import GinRpc.Jwt.Ledger
import GinRpc.LTS.Threads

/-!
# Concurrent refreshes

`Refresh` and `GenerateTokenPair` by any number of goroutines, where each operation of the store is
one step.

* `Refreshing.Pc` : what a goroutine does next.
* `Refreshing.SingleUse` : no refresh token is exchanged twice.
* `Refreshing.singleUse_of_exclusive` : this holds along every run in which a goroutine asks the
  store for a refresh token only while no other one has found it there and not yet deleted it.
* `Refreshing.exchanged_twice` : two goroutines find the token before one of them deletes it.
-/

namespace GinRpc

namespace Jwt

/-- What a goroutine does next. -/
inductive Pc where
  /-- no call has begun -/
  | idle
  /-- `Refresh`: `Store.Get` -/
  | getKey (token : ℕ) (c : Claims)
  /-- `Refresh`: `Store.Del` -/
  | delKey (token : ℕ) (c : Claims)
  /-- `GenerateTokenPair`: `Store.Get`; with the token that is exchanged, and the time -/
  | getVersion (origin : Option ℕ) (userID username deviceID : String) (now : ℤ)
  /-- `GenerateTokenPair`: `Store.Set` -/
  | setKey (origin : Option ℕ) (userID username deviceID : String) (version : Int64) (now : ℤ)
  | done (pair : ℕ × ℕ)
  | failed (err : Err)
  deriving DecidableEq

/-- The manager, its goroutines, and the tokens that were exchanged. -/
structure Refreshing where
  server : Server := {}
  pc : ℕ → Pc := fun _ => .idle
  exchanged : List ℕ := []

/-- A call begins, a call with one operation of the store is made, time passes, or a goroutine takes
a step; then it may draw two IDs. -/
inductive Move where
  | generate (i : ℕ) (userID username deviceID : String)
  | refresh (i token : ℕ)
  | logout (token : ℕ)
  | revoke (userID : String)
  | tick (d : ℕ)
  | step (i : ℕ) (ids : String × String)
  deriving DecidableEq

namespace Refreshing

variable (cfg : Config) (s : Refreshing)

def goto (i : ℕ) (pc : Pc) : Refreshing := { s with pc := Function.update s.pc i pc }

/-- The next operation of a goroutine. -/
def exec (i : ℕ) (ids : String × String) : Pc → Option Refreshing
  | .getKey token c =>
    match s.server.get (refreshKey c.tokenID) with
    | none => some (s.goto i (.failed (.msg "refresh token invalid")))
    | some _ => some (s.goto i (.delKey token c))
  | .delKey token c =>
    some { s.goto i (.getVersion (some token) c.userID c.username c.deviceID s.server.now) with
      server := s.server.del (refreshKey c.tokenID) }
  | .getVersion origin userID username deviceID now =>
    some (s.goto i (.setKey origin userID username deviceID (s.server.userVersion userID) now))
  | .setKey origin userID username deviceID version now =>
    if s.server.Fresh ids then
      let (server, pair) := s.server.issuePair cfg userID username deviceID version now ids
      some { s.goto i (.done pair) with
        server := server, exchanged := origin.toList ++ s.exchanged }
    else none
  | .idle | .done _ | .failed _ => none

/-- A call can begin. -/
def start (i : ℕ) (pc : Pc) : Option Refreshing :=
  match s.pc i with
  | .idle => some (s.goto i pc)
  | _ => none

def step : Move → Option Refreshing
  | .generate i userID username deviceID =>
    s.start i (.getVersion none userID username deviceID s.server.now)
  | .refresh i token =>
    s.start i (match s.server.refreshClaims token with
      | .ok c => .getKey token c
      | .error err => .failed err)
  | .logout token => some { s with server := (s.server.logout token).1 }
  | .revoke userID => some { s with server := s.server.revokeUser userID }
  | .tick d => some { s with server := s.server.atTime (s.server.now + d) }
  | .step i ids => s.exec cfg i ids (s.pc i)

/-- All interleavings on a new manager. -/
def lts : LTS Refreshing Move where
  init s := ∃ t, s = { server := { now := t } }
  step s a s' := s.step (applyDefaults cfg) a = some s'

variable {cfg s}

theorem pc_goto {i j : ℕ} {pc : Pc} : (s.goto i pc).pc j = if j = i then pc else s.pc j :=
  Function.update_apply ..

/-- No refresh token is exchanged twice. -/
def SingleUse (s : Refreshing) : Prop := s.exchanged.Nodup

end Refreshing

/-! ### Who has a token -/

namespace Pc

/-- The token that the store is asked for. -/
def asked : Pc → Option ℕ
  | .getKey token _ => some token
  | _ => none

/-- The token that was found and is not yet deleted. -/
def found : Pc → Option ℕ
  | .delKey token _ => some token
  | _ => none

/-- The token that was deleted and is being exchanged. -/
def taken : Pc → Option ℕ
  | .getVersion origin _ _ _ _ | .setKey origin _ _ _ _ _ => origin
  | _ => none

/-- The token that is asked for, with its claims. -/
def claims : Pc → Option (ℕ × Claims)
  | .getKey token c | .delKey token c => some (token, c)
  | _ => none

end Pc

namespace Refreshing

variable {cfg : Config} {s s' : Refreshing}

/-- The token was exchanged, or is about to be. -/
def Spent (s : Refreshing) (token : ℕ) : Prop :=
  token ∈ s.exchanged ∨ ∃ i, (s.pc i).taken = some token

/-- Nobody asks for a token that another goroutine has found. -/
def Exclusive (s : Refreshing) : Move → Prop
  | .step i _ => ∀ token, (s.pc i).asked = some token → ∀ j, (s.pc j).found ≠ some token
  | _ => True

structure Held (s : Refreshing) : Prop where
  unique : (s.server.issued.map Claims.tokenID).Nodup
  claims : ∀ i token c, (s.pc i).claims = some (token, c) → s.server.issued[token]? = some c
  issued : ∀ token, s.Spent token → token < s.server.issued.length
  /-- a token that is spent is not in the store any more, and nobody has found it -/
  deleted : ∀ token c, s.Spent token → s.server.issued[token]? = some c →
    s.server.store.lookup (refreshKey c.tokenID) = none
  unseen : ∀ token, s.Spent token → ∀ i, (s.pc i).found ≠ some token
  found : ∀ i j token, (s.pc i).found = some token → (s.pc j).found = some token → i = j
  taken : ∀ i j token, (s.pc i).taken = some token → (s.pc j).taken = some token → i = j
  open_ : ∀ i token, (s.pc i).taken = some token → token ∉ s.exchanged
  nodup : s.exchanged.Nodup

theorem held_init {t : ℤ} : Held { server := { now := t } } where
  unique := List.nodup_nil
  claims _ _ _ h := by cases h
  issued _ h := h.elim nofun nofun
  deleted _ _ h := h.elim nofun nofun
  unseen _ h := h.elim nofun nofun
  found _ _ _ h := by cases h
  taken _ _ _ h := by cases h
  open_ _ _ h := by cases h
  nodup := List.nodup_nil

/-- The refresh tokens in the store stay as they are. -/
theorem Held.server (h : s.Held) {server : Server} (hissued : server.issued = s.server.issued)
    (hstore : ∀ id, server.store.lookup (refreshKey id) =
      s.server.store.lookup (refreshKey id)) : Held { s with server := server } where
  unique := by rw [hissued]; exact h.unique
  claims := by rw [hissued]; exact h.claims
  issued := by rw [hissued]; exact h.issued
  deleted := by
    simp only [hissued, hstore]
    exact h.deleted
  unseen := h.unseen
  found := h.found
  taken := h.taken
  open_ := h.open_
  nodup := h.nodup

/-- A goroutine that has found nothing goes on with what it has taken. -/
theorem Held.goto (h : s.Held) {i : ℕ} {pc : Pc} (hfound : pc.found = none)
    (htaken : pc.taken = (s.pc i).taken)
    (hclaims : ∀ token c, pc.claims = some (token, c) → s.server.issued[token]? = some c) :
    (s.goto i pc).Held := by
  have hf : ∀ {j token}, ((s.goto i pc).pc j).found = some token →
      (s.pc j).found = some token := fun hj => (LTS.view_update_none hfound hj).2
  have ht : ∀ j, ((s.goto i pc).pc j).taken = (s.pc j).taken := by
    intro j
    rw [pc_goto]
    split_ifs with hj
    · rw [hj, htaken]
    · rfl
  have hspent : ∀ {token}, (s.goto i pc).Spent token → s.Spent token :=
    Or.imp_right fun ⟨j, hj⟩ => ⟨j, ht j ▸ hj⟩
  constructor
  case unique => exact h.unique
  case claims =>
    intro j token c hj
    obtain ⟨-, hc⟩ | ⟨-, hj⟩ := LTS.view_update hj
    · exact hclaims token c hc
    · exact h.claims j token c hj
  case issued => exact fun token hs => h.issued token (hspent hs)
  case deleted => exact fun token c hs => h.deleted token c (hspent hs)
  case unseen => exact fun token hs j hj => h.unseen token (hspent hs) j (hf hj)
  case found => exact fun j k token hj hk => h.found j k token (hf hj) (hf hk)
  case taken =>
    intro j k token hj hk
    rw [ht] at hj hk
    exact h.taken j k token hj hk
  case open_ =>
    intro j token hj
    rw [ht] at hj
    exact h.open_ j token hj
  case nodup => exact h.nodup

/-- A token is found by one goroutine only. -/
theorem Held.find (h : s.Held) {i token : ℕ} {c : Claims} (hpc : s.pc i = .getKey token c)
    (hkey : s.server.get (refreshKey c.tokenID) ≠ none)
    (hex : ∀ j, (s.pc j).found ≠ some token) : (s.goto i (.delKey token c)).Held := by
  have hc := h.claims i token c (by rw [hpc]; rfl)
  have htaken : ∀ {j t}, ((s.goto i (.delKey token c)).pc j).taken = some t →
      (s.pc j).taken = some t := fun hj => (LTS.view_update_none rfl hj).2
  have hspent : ∀ {t}, (s.goto i (.delKey token c)).Spent t → s.Spent t :=
    Or.imp_right fun ⟨j, hj⟩ => ⟨j, htaken hj⟩
  -- it is in the store, so it was not spent
  have hfresh : ¬ s.Spent token :=
    fun hs => hkey (Server.get_of_lookup_eq_none (h.deleted token c hs hc))
  constructor
  case unique => exact h.unique
  case claims =>
    intro j t d hj
    obtain ⟨-, hd⟩ | ⟨-, hj⟩ := LTS.view_update hj
    · cases hd
      exact hc
    · exact h.claims j t d hj
  case issued => exact fun t hs => h.issued t (hspent hs)
  case deleted => exact fun t d hs => h.deleted t d (hspent hs)
  case unseen =>
    intro t hs j hj
    obtain ⟨-, ht⟩ | ⟨-, hj⟩ := LTS.view_update hj
    · cases ht
      exact hfresh (hspent hs)
    · exact h.unseen t (hspent hs) j hj
  case found =>
    refine LTS.Sole.update h.found fun t ht j _ => ?_
    cases ht
    exact hex j
  case taken => exact fun j k t hj hk => h.taken j k t (htaken hj) (htaken hk)
  case open_ => exact fun j t hj => h.open_ j t (htaken hj)
  case nodup => exact h.nodup

/-- The one that has found a token deletes it. -/
theorem Held.take (h : s.Held) {i token : ℕ} {c : Claims} (hpc : s.pc i = .delKey token c)
    {now : ℤ} : Held { s.goto i (.getVersion (some token) c.userID c.username c.deviceID now) with
      server := s.server.del (refreshKey c.tokenID) } := by
  have hc := h.claims i token c (by rw [hpc]; rfl)
  have hfi : (s.pc i).found = some token := by rw [hpc]; rfl
  have hfresh : ¬ s.Spent token := fun hs => h.unseen token hs i hfi
  have hlookup : ∀ k, (s.server.del (refreshKey c.tokenID)).store.lookup k =
      if k = refreshKey c.tokenID then none else s.server.store.lookup k :=
    fun k => AList.lookup_erase_apply
  have hspent : ∀ {t}, Spent { s.goto i (.getVersion (some token) c.userID c.username c.deviceID
      now) with server := s.server.del (refreshKey c.tokenID) } t → t = token ∨ s.Spent t := by
    rintro t (ht | ⟨j, hj⟩)
    · exact .inr (.inl ht)
    · obtain ⟨-, ht⟩ | ⟨-, hj⟩ := LTS.view_update hj
      · exact .inl (Option.some.inj ht).symm
      · exact .inr (.inr ⟨j, hj⟩)
  constructor
  case unique => exact h.unique
  case claims => exact fun j t d hj => h.claims j t d (LTS.view_update_none rfl hj).2
  case issued =>
    intro t hs
    obtain rfl | hs := hspent hs
    · exact (List.getElem?_eq_some_iff.1 hc).1
    · exact h.issued t hs
  case deleted =>
    intro t d hs hd
    rw [hlookup]
    split_ifs with hid
    · rfl
    · obtain rfl | hs := hspent hs
      · exact absurd (by rw [Option.some.inj (hd.symm.trans hc)]) hid
      · exact h.deleted t d hs hd
  case unseen =>
    intro t hs j hj
    obtain ⟨hji, hold⟩ := LTS.view_update_none rfl hj
    obtain rfl | hs := hspent hs
    · exact hji (h.found j i t hold hfi)
    · exact h.unseen t hs j hold
  case found => exact LTS.Sole.update h.found (by rintro _ ⟨⟩)
  case taken =>
    refine LTS.Sole.update h.taken fun t ht j _ hj => ?_
    cases ht
    exact hfresh (.inr ⟨j, hj⟩)
  case open_ =>
    intro j t hj
    obtain ⟨-, ht⟩ | ⟨-, hj⟩ := LTS.view_update hj
    · cases ht
      exact fun hmem => hfresh (.inl hmem)
    · exact h.open_ j t hj
  case nodup => exact h.nodup

theorem nodup_issuePair {issued : List Claims} {a r : Claims}
    (hissued : (issued.map Claims.tokenID).Nodup) (ha : ∀ d ∈ issued, d.tokenID ≠ a.tokenID)
    (hr : ∀ d ∈ issued, d.tokenID ≠ r.tokenID) (hne : a.tokenID ≠ r.tokenID) :
    ((issued ++ [a, r]).map Claims.tokenID).Nodup := by
  rw [List.map_append, List.nodup_append]
  refine ⟨hissued, by simpa using hne, fun x hx y hy heq => ?_⟩
  obtain ⟨d, hd, rfl⟩ := List.mem_map.1 hx
  obtain rfl | hy := List.mem_cons.1 hy
  · exact ha d hd heq
  · exact hr d hd (heq.trans (List.mem_singleton.1 hy))

/-- The new pair is stored, and the exchange is done. -/
theorem Held.finish (h : s.Held) {i : ℕ} {origin : Option ℕ} {u name dev : String} {ver : Int64}
    {now : ℤ} (hpc : s.pc i = .setKey origin u name dev ver now) {ids : String × String}
    (hids : s.server.Fresh ids) {pair : ℕ × ℕ} : Held { s.goto i (.done pair) with
      server := (s.server.issuePair cfg u name dev ver now ids).1
      exchanged := origin.toList ++ s.exchanged } := by
  obtain ⟨hid₁, hid₂, hne⟩ := hids
  have hti : (s.pc i).taken = origin := by rw [hpc]; rfl
  have hissued : ∃ a r : Claims, a.tokenID = ids.1 ∧ r.tokenID = ids.2 ∧
      (s.server.issuePair cfg u name dev ver now ids).1.issued = s.server.issued ++ [a, r] :=
    ⟨_, _, rfl, rfl, List.append_assoc ..⟩
  obtain ⟨a, r, ha, hr, hissued⟩ := hissued
  have hlookup : ∀ k, k ≠ refreshKey ids.2 →
      (s.server.issuePair cfg u name dev ver now ids).1.store.lookup k =
        s.server.store.lookup k := fun k hk => AList.lookup_insert_apply.trans (if_neg hk)
  -- the tokens that are spent are the same
  have hspent : ∀ {t}, Spent { s.goto i (.done pair) with
      server := (s.server.issuePair cfg u name dev ver now ids).1
      exchanged := origin.toList ++ s.exchanged } t → s.Spent t := by
    rintro t (ht | ⟨j, hj⟩)
    · obtain ht | ht := List.mem_append.1 ht
      · exact .inr ⟨i, hti.trans (Option.mem_toList.1 ht)⟩
      · exact .inl ht
    · exact .inr ⟨j, (LTS.view_update_none rfl hj).2⟩
  constructor
  case unique =>
    dsimp only
    rw [hissued]
    exact nodup_issuePair h.unique (ha ▸ hid₁) (hr ▸ hid₂) (by rwa [ha, hr])
  case claims =>
    intro j t d hj
    have hd := h.claims j t d (LTS.view_update_none rfl hj).2
    dsimp only
    rw [hissued, List.getElem?_append_left (List.getElem?_eq_some_iff.1 hd).1, hd]
  case issued =>
    intro t hs
    dsimp only
    rw [hissued, List.length_append]
    exact (h.issued t (hspent hs)).trans_le (Nat.le_add_right _ _)
  case deleted =>
    intro t d hs hd
    dsimp only at hd ⊢
    rw [hissued, List.getElem?_append_left (h.issued t (hspent hs))] at hd
    rw [hlookup _ (refreshKey_inj.not.2 (hid₂ d (List.mem_of_getElem? hd)))]
    exact h.deleted t d (hspent hs) hd
  case unseen => exact fun t hs j hj => h.unseen t (hspent hs) j (LTS.view_update_none rfl hj).2
  case found => exact LTS.Sole.update h.found (by rintro _ ⟨⟩)
  case taken => exact LTS.Sole.update h.taken (by rintro _ ⟨⟩)
  case open_ =>
    intro j t hj hmem
    obtain ⟨hji, hj⟩ := LTS.view_update_none rfl hj
    obtain hmem | hmem := List.mem_append.1 hmem
    · exact hji (h.taken j i t hj (hti.trans (Option.mem_toList.1 hmem)))
    · exact h.open_ j t hj hmem
  case nodup =>
    dsimp only
    cases origin with
    | none => exact h.nodup
    | some t => exact List.nodup_cons.2 ⟨h.open_ i t hti, h.nodup⟩

theorem Held.exec (h : s.Held) {i : ℕ} {ids : String × String}
    (hok : s.Exclusive (.step i ids)) (hs : s.exec cfg i ids (s.pc i) = some s') : s'.Held := by
  cases hpc : s.pc i with
  | getKey token c =>
    rw [hpc, Refreshing.exec] at hs
    split at hs
    · cases hs
      exact h.goto rfl (by rw [hpc]; rfl) nofun
    next v hv =>
      cases hs
      exact h.find hpc (by rw [hv]; nofun) (hok token (by rw [hpc]; rfl))
  | delKey token c =>
    rw [hpc] at hs
    cases hs
    exact h.take hpc
  | getVersion origin u name dev now =>
    rw [hpc] at hs
    cases hs
    exact h.goto rfl (by rw [hpc]; rfl) nofun
  | setKey origin u name dev ver now =>
    rw [hpc, Refreshing.exec] at hs
    split_ifs at hs with hids
    cases hs
    exact h.finish hpc hids
  | idle | done | failed =>
    rw [hpc] at hs
    cases hs

/-- A call begins with nothing in its hands. -/
theorem Held.start (h : s.Held) {i : ℕ} {pc : Pc} (hs : s.start i pc = some s')
    (hfound : pc.found = none) (htaken : pc.taken = none)
    (hclaims : ∀ token c, pc.claims = some (token, c) → s.server.issued[token]? = some c) :
    s'.Held := by
  rw [Refreshing.start] at hs
  split at hs
  next hidle =>
    cases hs
    exact h.goto hfound (by rw [hidle, htaken]; rfl) hclaims
  · cases hs

theorem Held.step (h : s.Held) {a : Move} (hok : s.Exclusive a) (hs : s.step cfg a = some s') :
    s'.Held := by
  cases a with
  | generate i u name dev => exact h.start hs rfl rfl nofun
  | refresh i token =>
    cases hc : s.server.refreshClaims token with
    | error err =>
      rw [Refreshing.step, hc] at hs
      exact h.start hs rfl rfl nofun
    | ok c =>
      rw [Refreshing.step, hc] at hs
      refine h.start hs rfl rfl fun t d hd => ?_
      cases hd
      exact (Server.refreshClaims_eq_ok.1 hc).1
  | logout token =>
    cases hs
    rw [Server.logout]
    split
    · exact h
    · exact h.server rfl fun id =>
        AList.lookup_insert_apply.trans (if_neg refreshKey_ne_blacklistKey)
  | revoke u =>
    cases hs
    exact h.server rfl fun id => AList.lookup_insert_apply.trans (if_neg refreshKey_ne_versionKey)
  | tick d =>
    cases hs
    exact h.server rfl fun id => rfl
  | step i ids => exact h.exec hok hs

/-- **No refresh token is exchanged twice**, along every run in which nobody asks for a token that
another goroutine has found and not yet deleted. -/
theorem singleUse_of_exclusive {tr : List Move} (hrun : (lts cfg).Run Exclusive tr s) :
    s.SingleUse := by
  have h : s.Held := by
    refine hrun.invariant (I := Held) ?_ ?_
    · rintro _ ⟨t, rfl⟩
      exact held_init
    · rintro s a s' h hok hs
      exact h.step hok hs
  exact h.nodup

/-- A move of the goroutines in a list that asks for no token another one has found. -/
def exclusive (ts : List ℕ) (s : Refreshing) : Move → Bool
  | .generate i _ _ _ | .refresh i _ => i ∈ ts
  | .step i _ => i ∈ ts ∧ (s.pc i).asked.all fun token =>
      ts.all fun j => decide ((s.pc j).found ≠ some token)
  | _ => true

theorem quiet_start {ts : List ℕ} {i : ℕ} {pc : Pc} (h : LTS.Quiet .idle ts s.pc) (hi : i ∈ ts)
    (hs : s.start i pc = some s') : LTS.Quiet .idle ts s'.pc := by
  rw [start] at hs
  split at hs
  · cases hs
    exact h.update hi
  · cases hs

theorem quiet_exec {ts : List ℕ} {i : ℕ} {ids : String × String} {pc : Pc}
    (h : LTS.Quiet .idle ts s.pc) (hi : i ∈ ts) (hs : s.exec cfg i ids pc = some s') :
    LTS.Quiet .idle ts s'.pc := by
  revert hs
  fun_cases Refreshing.exec cfg s i ids pc <;> intro hs <;> cases hs <;> exact h.update hi

theorem exclusive_of_check {ts : List ℕ} {a : Move} (h : LTS.Quiet .idle ts s.pc)
    (hc : s.exclusive ts a = true) (hs : s.step (applyDefaults cfg) a = some s') :
    s.Exclusive a ∧ (lts cfg).step s a s' ∧ LTS.Quiet .idle ts s'.pc := by
  cases a with
  | generate i u name dev => exact ⟨trivial, hs, quiet_start h (of_decide_eq_true hc) hs⟩
  | refresh i token => exact ⟨trivial, hs, quiet_start h (of_decide_eq_true hc) hs⟩
  | step i ids =>
    obtain ⟨hi, hc⟩ := of_decide_eq_true hc
    refine ⟨fun token hasked => h.forall (Q := fun pc => pc.found ≠ some token) nofun ?_, hs,
      quiet_exec h hi hs⟩
    rw [hasked] at hc
    exact fun j hj => of_decide_eq_true (List.all_eq_true.1 hc j hj)
  | logout token =>
    cases hs
    exact ⟨trivial, rfl, h⟩
  | revoke u =>
    cases hs
    exact ⟨trivial, rfl, h⟩
  | tick d =>
    cases hs
    exact ⟨trivial, rfl, h⟩

/-- A pair is generated by goroutine 0. -/
def issueFirst : List Move := [.generate 0 "u" "" "", .step 0 ("", ""), .step 0 ("1", "2")]

/-- Goroutine `i` exchanges the token from the point on where it was found. -/
def exchange (i : ℕ) (ids : String × String) : List Move := List.replicate 3 (.step i ids)

theorem singleUse_in_turn :
    ∃ s, (lts shortLived).Run Exclusive (issueFirst ++ [.refresh 1 1, .step 1 ("", "")] ++
        exchange 1 ("3", "4") ++ [.refresh 2 1, .step 2 ("", "")]) s ∧
      s.exchanged = [1] ∧ s.pc 2 = .failed (.msg "refresh token invalid") ∧ s.SingleUse := by
  refine LTS.exists_guarded_run (A := lts shortLived) (J := fun s => LTS.Quiet .idle [0, 1, 2] s.pc)
    (fun _ _ _ => exclusive_of_check) ⟨0, rfl⟩ (fun _ _ => rfl) _
    (P := fun s => s.exchanged = [1] ∧ s.pc 2 = .failed (.msg "refresh token invalid"))
    (by decide) fun s hrun hs => ?_
  exact ⟨hs.1, hs.2, singleUse_of_exclusive hrun⟩

/-- Both goroutines find the token in the store, and both exchange it. -/
theorem exchanged_twice :
    ∃ s, (lts shortLived).Run LTS.anyStep (issueFirst ++ [.refresh 1 1, .refresh 2 1,
        .step 1 ("", ""), .step 2 ("", "")] ++ exchange 1 ("3", "4") ++ exchange 2 ("5", "6")) s ∧
      s.pc 1 = .done (2, 3) ∧ s.pc 2 = .done (4, 5) ∧ s.exchanged = [1, 1] ∧ ¬ s.SingleUse := by
  refine LTS.exists_run_of_exec (A := lts shortLived)
    (f := fun s a => s.step (applyDefaults shortLived) a) (fun _ _ _ h => h) ⟨0, rfl⟩ _
    (P := fun s => s.pc 1 = .done (2, 3) ∧ s.pc 2 = .done (4, 5) ∧ s.exchanged = [1, 1])
    (by decide) fun s hrun hs => ?_
  obtain ⟨hpc₁, hpc₂, hex⟩ := hs
  refine ⟨hpc₁, hpc₂, hex, fun hsingle => ?_⟩
  rw [SingleUse, hex] at hsingle
  exact absurd hsingle (by decide)

end Refreshing

end Jwt

end GinRpc
