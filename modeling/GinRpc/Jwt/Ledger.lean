import GinRpc.Jwt.Manager

/-!
# Calls of the token manager

Runs of the manager: sequences of calls at times that do not decrease.

* `History` : the manager, and what is remembered of its calls.
* `History.Effect` : what a call does.
* `History.Ledger` : what the store holds about the tokens, as long as no two tokens share an ID.
-/

namespace GinRpc

namespace Jwt

/-- The manager, and what is remembered of its calls. -/
structure History where
  server : Server := {}
  /-- How many tokens there were when a user was revoked last. -/
  revoked : AList fun _ : String => ℕ := ∅
  /-- The tokens that `Logout` was called with, successfully. -/
  loggedOut : List ℕ := []
  /-- The tokens that were exchanged by `Refresh`. -/
  redeemed : List ℕ := []

inductive Act where
  | generate (userID username deviceID : String) (ids : String × String)
  | refresh (token : ℕ) (ids : String × String)
  | logout (token : ℕ)
  | revoke (userID : String)
  | sign (c : Claims) (id : String)
  /-- time passes -/
  | tick (d : ℕ)
  deriving DecidableEq

namespace Server

variable (cfg : Config) (s : Server)

/-- What `uuid.NewString` may return, twice. -/
def Fresh (ids : String × String) : Prop := s.Unused ids.1 ∧ s.Unused ids.2 ∧ ids.1 ≠ ids.2

instance (ids : String × String) : Decidable (s.Fresh ids) :=
  inferInstanceAs (Decidable (_ ∧ _ ∧ _))

/-- The same store at another time. -/
def atTime (t : ℤ) : Server := { s with now := t }

/-- `ValidateAccessToken` accepts the token. -/
def Accepts (token : ℕ) : Prop := ∃ claims, s.validateAccessToken token = .ok claims

/-- `Refresh` accepts the token. -/
def Redeems (token : ℕ) : Prop := ∃ ids pair, (s.refresh cfg token ids).2 = .ok pair

end Server

namespace History

variable (cfg : Config) (s : History)

/-- One call, if the IDs it draws are possible. -/
def step : Act → Option History
  | .generate userID username deviceID ids =>
    if s.server.Fresh ids then
      some { s with
        server := (s.server.generateTokenPair (applyDefaults cfg) userID username deviceID ids).1 }
    else none
  | .refresh token ids =>
    if s.server.Fresh ids then
      match s.server.refresh (applyDefaults cfg) token ids with
      | (server, .ok _) => some { s with server := server, redeemed := token :: s.redeemed }
      | (server, .error _) => some { s with server := server }
    else none
  | .logout token =>
    match s.server.logout token with
    | (server, .ok _) => some { s with server := server, loggedOut := token :: s.loggedOut }
    | (server, .error _) => some { s with server := server }
  | .revoke userID =>
    some { s with
      server := s.server.revokeUser userID
      revoked := s.revoked.insert userID s.server.issued.length }
  | .sign c id =>
    if s.server.Unused id then
      some { s with server := (s.server.signAccessClaims (applyDefaults cfg) c id).1 }
    else none
  | .tick d => some { s with server := s.server.atTime (s.server.now + d) }

/-- All sequences of calls on a new manager. -/
def lts : LTS History Act where
  init s := ∃ t, s = { server := { now := t } }
  step s a s' := s.step cfg a = some s'

end History

namespace Server

variable {cfg : Config} {s : Server} {token : ℕ}

theorem validateAccessToken_eq_ok {c : Claims} : s.validateAccessToken token = .ok c ↔
    s.issued[token]? = some c ∧ c.type = .access ∧ s.now ≤ c.expireAt ∧
      s.get (blacklistKey c.tokenID) = none ∧
      ∀ v, s.get (versionKey c.userID) = some v → (Text.parseInt v).1 = c.version := by
  rw [validateAccessToken, decodeClaims]
  cases s.issued[token]? with
  | none => exact iff_of_false nofun fun h => nomatch h.1
  | some d =>
    dsimp only
    cases hb : s.get (blacklistKey d.tokenID) <;> cases hv : s.get (versionKey d.userID) <;> grind

theorem refreshClaims_eq_ok {c : Claims} : s.refreshClaims token = .ok c ↔
    s.issued[token]? = some c ∧ c.type = .refresh ∧ s.now ≤ c.expireAt := by
  rw [refreshClaims, decodeClaims]
  cases s.issued[token]? with
  | none => exact iff_of_false nofun fun h => nomatch h.1
  | some c =>
    dsimp only
    grind

/-- A call of `Refresh` fails without an effect, or exchanges the token. -/
theorem refresh_cases (s : Server) (cfg : Config) (token : ℕ) (ids : String × String) :
    (∃ err, s.refresh cfg token ids = (s, .error err)) ∧
        (∀ c, s.refreshClaims token = .ok c → s.get (refreshKey c.tokenID) = none) ∨
      ∃ c v pair, s.refreshClaims token = .ok c ∧ s.get (refreshKey c.tokenID) = some v ∧
        s.refresh cfg token ids = (((s.del (refreshKey c.tokenID)).generateTokenPair cfg c.userID
          c.username c.deviceID ids).1, .ok pair) := by
  rw [refresh]
  cases hc : s.refreshClaims token with
  | error err => exact .inl ⟨⟨err, rfl⟩, nofun⟩
  | ok c =>
    dsimp only
    cases hv : s.get (refreshKey c.tokenID) with
    | none => exact .inl ⟨⟨_, rfl⟩, fun d hd => Except.ok.inj hd ▸ hv⟩
    | some v => exact .inr ⟨c, v, _, rfl, hv, rfl⟩

theorem redeems_iff : s.Redeems cfg token ↔ ∃ c, s.issued[token]? = some c ∧ c.type = .refresh ∧
    s.now ≤ c.expireAt ∧ s.get (refreshKey c.tokenID) ≠ none := by
  constructor
  · rintro ⟨ids, pair, h⟩
    obtain ⟨⟨err, herr⟩, -⟩ | ⟨c, v, -, hc, hv, -⟩ := s.refresh_cases cfg token ids
    · rw [herr] at h
      cases h
    · obtain ⟨hget, htype, hnow⟩ := refreshClaims_eq_ok.1 hc
      exact ⟨c, hget, htype, hnow, by rw [hv]; nofun⟩
  · rintro ⟨c, hget, htype, hnow, hv⟩
    have hc := refreshClaims_eq_ok.2 ⟨hget, htype, hnow⟩
    obtain ⟨-, hnone⟩ | ⟨_, _, pair, -, -, h⟩ := s.refresh_cases cfg token ("", "")
    · exact absurd (hnone c hc) hv
    · exact ⟨_, pair, by rw [h]⟩

variable {k : String} {e : Entry}

theorem get_of_lookup (h : s.store.lookup k = some e) :
    s.get k = if e.live s.now then some e.value else none := by
  rw [get, h, Option.filter_some]
  split_ifs <;> rfl

theorem get_of_lookup_eq_none (h : s.store.lookup k = none) : s.get k = none := by
  rw [get, h]
  rfl

/-- What has expired stays so. -/
theorem get_atTime_eq_none {t : ℤ} (ht : s.now ≤ t) (h : s.get k = none) :
    (s.atTime t).get k = none := by
  cases hl : s.store.lookup k with
  | none => exact get_of_lookup_eq_none hl
  | some e =>
    rw [get_of_lookup hl] at h
    have hdead : e.live s.now = false := by
      by_contra hlive
      rw [if_pos (Bool.eq_true_of_not_eq_false hlive)] at h
      cases h
    rw [get_of_lookup (s := s.atTime t) hl, if_neg]
    rw [Entry.live] at hdead ⊢
    cases hd : e.deadline with
    | none => simp [hd] at hdead
    | some d =>
      simp only [hd, Option.all_some, decide_eq_false_iff_not, decide_eq_true_eq] at hdead ⊢
      exact fun hlt => hdead (ht.trans_lt hlt)

end Server

namespace History

variable {cfg : Config} {s s' : History}

/-- Two new tokens for a user. -/
def issue (s : History) (cfg : Config) (userID username deviceID : String) (version : Int64)
    (ids : String × String) : History :=
  { s with
    server := (s.server.issuePair cfg userID username deviceID version s.server.now ids).1 }

/-- A refresh token is given up. -/
def redeem (s : History) (token : ℕ) (c : Claims) : History :=
  { s with server := s.server.del (refreshKey c.tokenID), redeemed := token :: s.redeemed }

/-- A token is put on the blacklist. -/
def blacklist (s : History) (token : ℕ) (c : Claims) : History :=
  { s with
    server := s.server.set (blacklistKey c.tokenID) "1" (untilTime c.expireAt s.server.now)
    loggedOut := token :: s.loggedOut }

/-- The version of a user is set. -/
def markRevoked (s : History) (userID : String) : History :=
  { s with
    server := s.server.revokeUser userID
    revoked := s.revoked.insert userID s.server.issued.length }

/-- A new token with given claims. -/
def encode (s : History) (c : Claims) : History :=
  { s with server := (s.server.encodeClaims c).1 }

/-- What a call does. -/
inductive Effect (cfg : Config) (s : History) : Act → History → Prop
  | generate {userID username deviceID ids} (hids : s.server.Fresh ids) :
      Effect cfg s (.generate userID username deviceID ids) (s.issue (applyDefaults cfg) userID
        username deviceID (s.server.userVersion userID) ids)
  | refresh {token ids c} (hids : s.server.Fresh ids)
      (hc : s.server.refreshClaims token = .ok c)
      (hkey : s.server.get (refreshKey c.tokenID) ≠ none) :
      Effect cfg s (.refresh token ids) ((s.redeem token c).issue (applyDefaults cfg) c.userID
        c.username c.deviceID (s.server.userVersion c.userID) ids)
  | logout {token c} (hc : s.server.issued[token]? = some c) :
      Effect cfg s (.logout token) (s.blacklist token c)
  | revoke {userID} : Effect cfg s (.revoke userID) (s.markRevoked userID)
  | sign {c id} (hid : s.server.Unused id) :
      Effect cfg s (.sign c id) (s.encode (s.server.signedClaims (applyDefaults cfg) c id))
  | tick {d : ℕ} :
      Effect cfg s (.tick d) { s with server := s.server.atTime (s.server.now + d) }
  | nothing {a} : Effect cfg s a s

theorem userVersion_del (s : Server) (id u : String) :
    (s.del (refreshKey id)).userVersion u = s.userVersion u := by
  rw [Server.userVersion, Server.get_del, if_neg refreshKey_ne_versionKey.symm]
  rfl

theorem effect_of_step {a : Act} (h : s.step cfg a = some s') : Effect cfg s a s' := by
  cases a with
  | generate userID username deviceID ids =>
    rw [step] at h
    split_ifs at h with hids
    cases h
    exact .generate hids
  | refresh token ids =>
    rw [step] at h
    split_ifs at h with hids
    obtain ⟨⟨err, herr⟩, -⟩ | ⟨c, v, pair, hc, hv, heq⟩ :=
      s.server.refresh_cases (applyDefaults cfg) token ids
    · rw [herr] at h
      cases h
      exact .nothing
    · rw [heq, Server.generateTokenPair, userVersion_del] at h
      cases h
      exact .refresh hids hc (by rw [hv]; nofun)
  | logout token =>
    rw [step, Server.logout, Server.decodeClaims] at h
    cases hc : s.server.issued[token]? with
    | none =>
      rw [hc] at h
      cases h
      exact .nothing
    | some c =>
      rw [hc] at h
      cases h
      exact .logout hc
  | revoke userID =>
    cases h
    exact .revoke
  | sign c id =>
    rw [step, Server.signAccessClaims] at h
    split_ifs at h with hid htype
    · cases h
      exact .sign hid
    · cases h
      exact .nothing
  | tick d =>
    cases h
    exact .tick

/-! ### What the store holds about the tokens -/

section Updates

variable {k : String} {token : ℕ} {c : Claims} {u name dev : String} {ver : Int64}
  {ids : String × String}

theorem lookup_issue : (s.issue cfg u name dev ver ids).server.store.lookup k =
    if k = refreshKey ids.2 then
      some ⟨u, if cfg.refreshTokenTTL = 0 then none else some (s.server.now + cfg.refreshTokenTTL)⟩
    else s.server.store.lookup k :=
  AList.lookup_insert_apply

theorem issued_issue : (s.issue cfg u name dev ver ids).server.issued = s.server.issued ++
    [Server.pairClaims u name dev ids.1 ver .access s.server.now cfg.accessTokenTTL,
      Server.pairClaims u name dev ids.2 ver .refresh s.server.now cfg.refreshTokenTTL] :=
  List.append_assoc ..

theorem lookup_redeem : (s.redeem token c).server.store.lookup k =
    if k = refreshKey c.tokenID then none else s.server.store.lookup k :=
  AList.lookup_erase_apply

theorem lookup_blacklist : (s.blacklist token c).server.store.lookup k =
    if k = blacklistKey c.tokenID then
      some ⟨"1", if untilTime c.expireAt s.server.now = 0 then none
        else some (s.server.now + untilTime c.expireAt s.server.now)⟩
    else s.server.store.lookup k :=
  AList.lookup_insert_apply

theorem lookup_markRevoked : (s.markRevoked u).server.store.lookup k =
    if k = versionKey u then some ⟨"999", none⟩ else s.server.store.lookup k :=
  AList.lookup_insert_apply

end Updates

/-- What the store holds about the tokens. -/
structure Ledger (s : History) : Prop where
  unique : (s.server.issued.map Claims.tokenID).Nodup
  known : ∀ u n, s.revoked.lookup u = some n → n ≤ s.server.issued.length
  numbered : ∀ token, token ∈ s.loggedOut ∨ token ∈ s.redeemed → token < s.server.issued.length
  version : ∀ u, s.server.store.lookup (versionKey u) =
    (s.revoked.lookup u).map fun _ => ⟨"999", none⟩
  unredeemed : ∀ token c, s.server.issued[token]? = some c → c.type = .refresh →
    token ∉ s.redeemed → ∃ e, s.server.store.lookup (refreshKey c.tokenID) = some e ∧
      ∀ d, e.deadline = some d → d = c.expireAt
  redeemed : ∀ token c, s.server.issued[token]? = some c → token ∈ s.redeemed →
    s.server.store.lookup (refreshKey c.tokenID) = none
  clean : ∀ token c, s.server.issued[token]? = some c → token ∉ s.loggedOut →
    s.server.store.lookup (blacklistKey c.tokenID) = none
  foreign : ∀ id, s.server.Unused id → s.server.store.lookup (blacklistKey id) = none

theorem ledger_init {t : ℤ} : Ledger { server := { now := t } } where
  unique := List.nodup_nil
  known _ _ h := by cases h
  numbered := nofun
  version _ := rfl
  unredeemed _ _ h := by cases h
  redeemed _ _ h := by cases h
  clean _ _ h := by cases h
  foreign _ _ := rfl

/-- A token is determined by its ID. -/
theorem Ledger.eq_of_tokenID (h : s.Ledger) {i j : ℕ} {c d : Claims}
    (hi : s.server.issued[i]? = some c) (hj : s.server.issued[j]? = some d)
    (heq : c.tokenID = d.tokenID) : i = j := by
  obtain ⟨hlt, rfl⟩ := List.getElem?_eq_some_iff.1 hi
  obtain ⟨hlt', rfl⟩ := List.getElem?_eq_some_iff.1 hj
  rw [← List.length_map Claims.tokenID] at hlt hlt'
  have : (s.server.issued.map Claims.tokenID)[i] = (s.server.issued.map Claims.tokenID)[j] := by
    rwa [List.getElem_map, List.getElem_map]
  exact h.unique.getElem_inj_iff.1 this

theorem getElem?_append_singleton {l : List Claims} {c d : Claims} {i : ℕ}
    (h : (l ++ [d])[i]? = some c) : l[i]? = some c ∨ i = l.length ∧ c = d := by
  rw [List.getElem?_append] at h
  split_ifs at h with hi
  · exact .inl h
  · obtain ⟨hlt, heq⟩ := List.getElem?_eq_some_iff.1 h
    have hzero : i - l.length = 0 := Nat.lt_one_iff.1 hlt
    simp only [hzero] at heq
    exact .inr ⟨by omega, heq.symm⟩

/-- One more token, with an ID of its own; if it is a refresh token, it is stored. -/
theorem Ledger.append (h : s.Ledger) {c : Claims} (hid : s.server.Unused c.tokenID)
    (hissued : s'.server.issued = s.server.issued ++ [c])
    (hstore : ∀ k, k ≠ refreshKey c.tokenID →
      s'.server.store.lookup k = s.server.store.lookup k)
    (hkey : c.type = .refresh → ∃ e, s'.server.store.lookup (refreshKey c.tokenID) = some e ∧
      ∀ d, e.deadline = some d → d = c.expireAt)
    (hrev : s'.revoked = s.revoked) (hout : s'.loggedOut = s.loggedOut)
    (hred : s'.redeemed = s.redeemed) : s'.Ledger := by
  -- the tokens before do not have this ID
  have hne : ∀ {i : ℕ} {d : Claims}, s.server.issued[i]? = some d → d.tokenID ≠ c.tokenID :=
    fun hi => hid _ (List.mem_of_getElem? hi)
  have hlen : s'.server.issued.length = s.server.issued.length + 1 := by
    rw [hissued, List.length_append, List.length_singleton]
  constructor
  case unique =>
    rw [hissued, List.map_append, List.nodup_append]
    refine ⟨h.unique, List.nodup_singleton _, fun a ha b hb heq => ?_⟩
    obtain ⟨d, hd, rfl⟩ := List.mem_map.1 ha
    exact hid d hd (heq.trans (List.mem_singleton.1 hb))
  case known =>
    intro u n hn
    rw [hrev] at hn
    exact (h.known u n hn).trans (by omega)
  case numbered =>
    intro token ht
    rw [hout, hred] at ht
    exact (h.numbered token ht).trans (by omega)
  case version =>
    intro u
    rw [hstore _ refreshKey_ne_versionKey.symm, hrev]
    exact h.version u
  case unredeemed =>
    intro token d hd htype hnot
    rw [hissued] at hd
    rw [hred] at hnot
    obtain hold | ⟨-, rfl⟩ := getElem?_append_singleton hd
    · rw [hstore _ (refreshKey_inj.not.2 (hne hold))]
      exact h.unredeemed token d hold htype hnot
    · exact hkey htype
  case redeemed =>
    intro token d hd hmem
    rw [hissued] at hd
    rw [hred] at hmem
    obtain hold | ⟨rfl, -⟩ := getElem?_append_singleton hd
    · rw [hstore _ (refreshKey_inj.not.2 (hne hold))]
      exact h.redeemed token d hold hmem
    · exact absurd (h.numbered _ (.inr hmem)) (lt_irrefl _)
  case clean =>
    intro token d hd hnot
    rw [hissued] at hd
    rw [hout] at hnot
    rw [hstore _ refreshKey_ne_blacklistKey.symm]
    obtain hold | ⟨-, rfl⟩ := getElem?_append_singleton hd
    · exact h.clean token d hold hnot
    · exact h.foreign _ hid
  case foreign =>
    intro id hunused
    rw [hstore _ refreshKey_ne_blacklistKey.symm]
    refine h.foreign id fun d hd => hunused d ?_
    rw [hissued]
    exact List.mem_append_left _ hd

theorem Ledger.issue (h : s.Ledger) {u name dev : String} {ver : Int64} {ids : String × String}
    (hids : s.server.Fresh ids) : (s.issue cfg u name dev ver ids).Ledger := by
  obtain ⟨hid₁, hid₂, hne⟩ := hids
  have haccess : (s.encode (Server.pairClaims u name dev ids.1 ver .access s.server.now
      cfg.accessTokenTTL)).Ledger :=
    h.append hid₁ rfl (fun _ _ => rfl) nofun rfl rfl rfl
  refine haccess.append (c := Server.pairClaims u name dev ids.2 ver .refresh s.server.now
    cfg.refreshTokenTTL) ?_ rfl (fun k hk => ?_)
    (fun _ => ⟨_, lookup_issue.trans (if_pos rfl), fun d hd => ?_⟩) rfl
    rfl rfl
  · intro d hd
    obtain hd | hd := List.mem_append.1 hd
    · exact hid₂ d hd
    · rw [List.mem_singleton.1 hd]
      exact hne
  · exact lookup_issue.trans (if_neg hk)
  · dsimp only at hd
    split_ifs at hd
    exact (Option.some.inj hd).symm

theorem Ledger.redeem (h : s.Ledger) {token : ℕ} {c : Claims}
    (hc : s.server.issued[token]? = some c) : (s.redeem token c).Ledger := by
  constructor
  case unique => exact h.unique
  case known => exact h.known
  case numbered =>
    rintro i (hi | hi)
    · exact h.numbered i (.inl hi)
    · obtain rfl | hi := List.mem_cons.1 hi
      · exact (List.getElem?_eq_some_iff.1 hc).1
      · exact h.numbered i (.inr hi)
  case version =>
    intro u
    rw [lookup_redeem, if_neg refreshKey_ne_versionKey.symm]
    exact h.version u
  case unredeemed =>
    intro i d hd htype hnot
    obtain ⟨hne, hnot⟩ := not_or.1 (mt List.mem_cons.2 hnot)
    rw [lookup_redeem, if_neg]
    · exact h.unredeemed i d hd htype hnot
    · rw [refreshKey_inj]
      exact fun heq => hne (h.eq_of_tokenID hd hc heq)
  case redeemed =>
    intro i d hd hmem
    rw [lookup_redeem]
    split_ifs with heq
    · rfl
    · refine h.redeemed i d hd ((List.mem_cons.1 hmem).resolve_left ?_)
      rintro rfl
      exact heq (congrArg _ (congrArg _ (Option.some.inj (hd.symm.trans hc))))
  case clean =>
    intro i d hd hnot
    rw [lookup_redeem, if_neg refreshKey_ne_blacklistKey.symm]
    exact h.clean i d hd hnot
  case foreign =>
    intro id hid
    rw [lookup_redeem, if_neg refreshKey_ne_blacklistKey.symm]
    exact h.foreign id hid

theorem Ledger.blacklist (h : s.Ledger) {token : ℕ} {c : Claims}
    (hc : s.server.issued[token]? = some c) : (s.blacklist token c).Ledger := by
  have hstore : ∀ k, k ≠ blacklistKey c.tokenID →
      (s.blacklist token c).server.store.lookup k = s.server.store.lookup k :=
    fun k hk => lookup_blacklist.trans (if_neg hk)
  constructor
  case unique => exact h.unique
  case known => exact h.known
  case numbered =>
    rintro i (hi | hi)
    · obtain rfl | hi := List.mem_cons.1 hi
      · exact (List.getElem?_eq_some_iff.1 hc).1
      · exact h.numbered i (.inl hi)
    · exact h.numbered i (.inr hi)
  case version =>
    intro u
    rw [hstore _ blacklistKey_ne_versionKey.symm]
    exact h.version u
  case unredeemed =>
    intro i d
    rw [hstore _ refreshKey_ne_blacklistKey]
    exact h.unredeemed i d
  case redeemed =>
    intro i d
    rw [hstore _ refreshKey_ne_blacklistKey]
    exact h.redeemed i d
  case clean =>
    intro i d hd hnot
    obtain ⟨hne, hnot⟩ := not_or.1 (mt List.mem_cons.2 hnot)
    rw [hstore]
    · exact h.clean i d hd hnot
    · rw [ne_eq, blacklistKey_inj]
      exact fun heq => hne (h.eq_of_tokenID hd hc heq)
  case foreign =>
    intro id hid
    rw [hstore]
    · exact h.foreign id hid
    · rw [ne_eq, blacklistKey_inj]
      exact fun heq => hid c (List.mem_of_getElem? hc) heq.symm

theorem Ledger.markRevoked (h : s.Ledger) (u : String) : (s.markRevoked u).Ledger := by
  have hstore : ∀ k, k ≠ versionKey u →
      (s.markRevoked u).server.store.lookup k = s.server.store.lookup k :=
    fun k hk => lookup_markRevoked.trans (if_neg hk)
  constructor
  case unique => exact h.unique
  case known =>
    intro v n hn
    rw [History.markRevoked, AList.lookup_insert_apply] at hn
    split_ifs at hn
    · exact (Option.some.inj hn).symm.le
    · exact h.known v n hn
  case numbered => exact h.numbered
  case version =>
    intro v
    rw [lookup_markRevoked, History.markRevoked, AList.lookup_insert_apply]
    simp only [versionKey_inj]
    split_ifs
    · rfl
    · exact h.version v
  case unredeemed =>
    intro i d
    rw [hstore _ refreshKey_ne_versionKey]
    exact h.unredeemed i d
  case redeemed =>
    intro i d
    rw [hstore _ refreshKey_ne_versionKey]
    exact h.redeemed i d
  case clean =>
    intro i d
    rw [hstore _ blacklistKey_ne_versionKey]
    exact h.clean i d
  case foreign =>
    intro id
    rw [hstore _ blacklistKey_ne_versionKey]
    exact h.foreign id

/-- The claims that are signed have an ID of their own. -/
def Distinct (s : History) : Act → Prop
  | .sign c _ => c.tokenID = "" ∨ s.server.Unused c.tokenID
  | _ => True

theorem Ledger.step (h : s.Ledger) {a : Act} (hok : s.Distinct a) (hs : s.step cfg a = some s') :
    s'.Ledger := by
  cases effect_of_step hs with
  | generate hids => exact h.issue hids
  | refresh hids hc hkey =>
    exact (h.redeem (Server.refreshClaims_eq_ok.1 hc).1).issue hids
  | logout hc => exact h.blacklist hc
  | revoke => exact h.markRevoked _
  | @sign c id hid =>
    refine h.append ?_ rfl (fun _ _ => rfl) nofun rfl rfl rfl
    rw [Server.signedClaims]
    dsimp only
    split_ifs with hempty
    · exact hid
    · exact hok.resolve_left hempty
  | tick => exact ⟨h.unique, h.known, h.numbered, h.version, h.unredeemed, h.redeemed, h.clean,
      h.foreign⟩
  | nothing => exact h

/-! ### What a call leaves -/

theorem Effect.now_le {a : Act} (h : Effect cfg s a s') : s.server.now ≤ s'.server.now := by
  cases h with
  | tick => exact Int.le_add_of_nonneg_right (Int.natCast_nonneg _)
  | _ => exact le_rfl

/-- Tokens keep their numbers. -/
theorem Effect.issued {a : Act} (h : Effect cfg s a s') : s.server.issued <+: s'.server.issued := by
  cases h with
  | generate => exact issued_issue ▸ List.prefix_append ..
  | refresh => exact issued_issue ▸ List.prefix_append ..
  | sign => exact List.prefix_append ..
  | _ => exact List.prefix_rfl

theorem Effect.getElem? {a : Act} (h : Effect cfg s a s') {token : ℕ} {c : Claims}
    (hc : s.server.issued[token]? = some c) : s'.server.issued[token]? = some c := by
  obtain ⟨l, hl⟩ := h.issued
  rw [← hl, List.getElem?_append_left (List.getElem?_eq_some_iff.1 hc).1, hc]

theorem get_issue {u name dev k : String} {ver : Int64} {ids : String × String}
    (hk : k ≠ refreshKey ids.2) : (s.issue cfg u name dev ver ids).server.get k = s.server.get k :=
  Server.get_set.trans (if_neg hk)

/-- A refresh token that cannot be exchanged is not stored again. -/
theorem Effect.get_refreshKey {a : Act} (h : Effect cfg s a s') {c : Claims}
    (hc : c ∈ s.server.issued) (hnone : s.server.get (refreshKey c.tokenID) = none) :
    s'.server.get (refreshKey c.tokenID) = none := by
  cases h with
  | generate hids => rwa [get_issue (refreshKey_inj.not.2 (hids.2.1 c hc))]
  | refresh hids =>
    rw [get_issue (refreshKey_inj.not.2 (hids.2.1 c hc))]
    refine Server.get_del.trans ?_
    split_ifs
    · rfl
    · exact hnone
  | logout => exact Server.get_set.trans ((if_neg refreshKey_ne_blacklistKey).trans hnone)
  | revoke => exact Server.get_set.trans ((if_neg refreshKey_ne_versionKey).trans hnone)
  | sign => exact hnone
  | tick =>
    exact Server.get_atTime_eq_none (Int.le_add_of_nonneg_right (Int.natCast_nonneg _)) hnone
  | nothing => exact hnone

end History

end Jwt

end GinRpc
