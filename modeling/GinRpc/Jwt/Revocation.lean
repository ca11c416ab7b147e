import GinRpc.Jwt.Ledger

/-!
# Revoking a user

`RevokeUser` stores a version for the user, and `ValidateAccessToken` compares it with the version
in the token.

* `History.Revokes` : no token of the user from before the last revocation is accepted, and the
  tokens from after it are.
* `History.revokes_of_conclusive` : this holds along every run in which, whenever a user is revoked,
  no access token of theirs that could still be valid has the version 999 already, and no refresh
  token of theirs can still be exchanged.
* `History.accepted_after_revoking` : the version is always the same, so a second revocation has no
  effect; and `Refresh` does not look at the version at all.
-/

namespace GinRpc

namespace Jwt

namespace Server

/-- A token that a revocation need not care about. -/
def Stale (s : Server) (c : Claims) : Prop :=
  (c.type = .access → c.version ≠ 999 ∨ c.expireAt < s.now) ∧
    (c.type = .refresh → c.expireAt < s.now ∨ s.get (refreshKey c.tokenID) = none)

end Server

namespace History

variable {cfg : Config} {s s' : History}

theorem Effect.stale {a : Act} (h : Effect cfg s a s') {c : Claims} (hc : c ∈ s.server.issued)
    (hst : s.server.Stale c) : s'.server.Stale c :=
  ⟨fun ht => (hst.1 ht).imp_right fun hlt => hlt.trans_le h.now_le,
    fun ht => (hst.2 ht).imp (fun hlt => hlt.trans_le h.now_le) (h.get_refreshKey hc)⟩

/-- The version of a user that has been revoked. -/
theorem Ledger.get_version (h : s.Ledger) {u : String} {n : ℕ} (hn : s.revoked.lookup u = some n) :
    s.server.get (versionKey u) = some "999" := by
  have hl := h.version u
  rw [hn] at hl
  exact Server.get_of_lookup hl

theorem Ledger.userVersion (h : s.Ledger) {u : String} {n : ℕ}
    (hn : s.revoked.lookup u = some n) : s.server.userVersion u = 999 := by
  rw [Server.userVersion, h.get_version hn]
  decide

/-! ### Revocation -/

/-- The tokens of a user that was revoked. -/
structure Revokes (cfg : Config) (s : History) (u : String) : Prop where
  before : ∀ n token c, s.revoked.lookup u = some n → s.server.issued[token]? = some c →
    c.userID = u → token < n → ¬ s.server.Accepts token ∧ ¬ s.server.Redeems cfg token
  after : ∀ n token c, s.revoked.lookup u = some n → s.server.issued[token]? = some c →
    c.userID = u → n ≤ token → s.server.now < c.expireAt →
      (c.type = .access → token ∉ s.loggedOut → s.server.Accepts token) ∧
        (c.type = .refresh → token ∉ s.redeemed → s.server.Redeems cfg token)

/-- A user is revoked when no token of theirs needs it, as far as the version goes. -/
def Conclusive (s : History) : Act → Prop
  | .revoke u => ∀ c ∈ s.server.issued, c.userID = u → s.server.Stale c
  | .sign _ _ => False
  | _ => True

/-- The invariant of the revocations. -/
def Dated (s : History) : Prop :=
  ∀ u n token c, s.revoked.lookup u = some n → s.server.issued[token]? = some c → c.userID = u →
    (token < n → s.server.Stale c) ∧ (n ≤ token → c.version = 999)

/-- Old tokens stay as they are, and new ones have the version. -/
theorem Dated.of_issued (h : s.Dated) {a : Act} (heff : Effect cfg s a s')
    (hrev : s'.revoked = s.revoked)
    (hnew : ∀ token c n, s'.server.issued[token]? = some c → s.server.issued.length ≤ token →
      s.revoked.lookup c.userID = some n → c.version = 999)
    (hknown : ∀ u n, s.revoked.lookup u = some n → n ≤ s.server.issued.length) : s'.Dated := by
  intro u n token c hn hc hu
  rw [hrev] at hn
  rcases lt_or_ge token s.server.issued.length with hlt | hle
  · have hold : s.server.issued[token]? = some c := by
      rw [List.getElem?_eq_getElem hlt, ← heff.getElem? (List.getElem?_eq_getElem hlt), hc]
    obtain ⟨hbefore, hafter⟩ := h u n token c hn hold hu
    exact ⟨fun hlt => heff.stale (List.mem_of_getElem? hold) (hbefore hlt), hafter⟩
  · exact ⟨fun hlt => absurd (hknown u n hn) (by omega), fun _ => hnew token c n hc hle (hu ▸ hn)⟩

/-- The two tokens of a pair have the version of their user. -/
theorem version_of_issue {u name dev : String} {ver : Int64} {ids : String × String} {token : ℕ}
    {c : Claims} (h : (s.issue cfg u name dev ver ids).server.issued[token]? = some c)
    (hle : s.server.issued.length ≤ token) : c.userID = u ∧ c.version = ver := by
  rw [issued_issue, List.getElem?_append_right hle] at h
  have := List.mem_of_getElem? h
  simp only [List.mem_cons, List.not_mem_nil, or_false] at this
  obtain rfl | rfl := this
  · exact ⟨rfl, rfl⟩
  · exact ⟨rfl, rfl⟩

theorem Dated.step (h : s.Dated) (hl : s.Ledger) {a : Act} (hok : s.Conclusive a)
    (hs : s.step cfg a = some s') : s'.Dated := by
  have heff := effect_of_step hs
  cases effect_of_step hs with
  | generate hids =>
    refine h.of_issued heff rfl (fun token c n hc hle hn => ?_) hl.known
    obtain ⟨rfl, hver⟩ := version_of_issue hc hle
    exact hver.trans (hl.userVersion hn)
  | refresh hids hc hkey =>
    refine h.of_issued heff rfl (fun token d n hd hle hn => ?_) hl.known
    obtain ⟨hu, hver⟩ := version_of_issue hd hle
    exact hver.trans (hl.userVersion (hu ▸ hn))
  | logout hc =>
    refine h.of_issued heff rfl (fun token c n hc hle _ => ?_) hl.known
    exact absurd (List.getElem?_eq_some_iff.1 hc).1 (not_lt.2 hle)
  | @revoke u =>
    intro v n token c hn hc hv
    rw [markRevoked, AList.lookup_insert_apply] at hn
    split_ifs at hn with hvu
    · have hlt := (List.getElem?_eq_some_iff.1 hc).1
      cases hn
      refine ⟨fun _ => ?_, fun hle => absurd hlt (not_lt.2 hle)⟩
      exact heff.stale (List.mem_of_getElem? hc)
        (hok c (List.mem_of_getElem? hc) (hv.trans hvu))
    · obtain ⟨hbefore, hafter⟩ := h v n token c hn hc hv
      exact ⟨fun hlt => heff.stale (List.mem_of_getElem? hc) (hbefore hlt),
        hafter⟩
  | sign => exact hok.elim
  | tick =>
    refine h.of_issued heff rfl (fun token c n hc hle _ => ?_) hl.known
    exact absurd (List.getElem?_eq_some_iff.1 hc).1 (not_lt.2 hle)
  | nothing => exact h

theorem distinct_of_conclusive {a : Act} (h : s.Conclusive a) : s.Distinct a := by
  cases a with
  | sign => exact h.elim
  | _ => trivial

/-- **Revoking a user ends the tokens before it and leaves the ones after it**, along every run in
which the version 999 is new to the user and no refresh token of theirs is open. -/
theorem revokes_of_conclusive {tr : List Act} (hrun : (lts cfg).Run Conclusive tr s) (u : String) :
    s.Revokes (applyDefaults cfg) u := by
  have hinv : s.Ledger ∧ s.Dated := by
    refine hrun.invariant (I := fun s => s.Ledger ∧ s.Dated) ?_ ?_
    · rintro _ ⟨t, rfl⟩
      exact ⟨ledger_init, fun _ _ _ _ h => nomatch h⟩
    · rintro s a s' ⟨hl, hd⟩ hok hs
      exact ⟨hl.step (distinct_of_conclusive hok) hs, hd.step hl hok hs⟩
  obtain ⟨hl, hd⟩ := hinv
  constructor
  case before =>
    intro n token c hn hc hu hlt
    obtain ⟨haccess, hrefresh⟩ := (hd u n token c hn hc hu).1 hlt
    constructor
    · rintro ⟨d, hval⟩
      obtain ⟨hd, htype, hnow, -, hver⟩ := Server.validateAccessToken_eq_ok.1 hval
      cases hc.symm.trans hd
      have h999 := hver "999" (hl.get_version (hu ▸ hn))
      obtain hne | hexp := haccess htype
      · exact hne (h999.symm.trans (by decide))
      · exact absurd hnow (not_le.2 hexp)
    · rw [Server.redeems_iff]
      rintro ⟨d, hd, htype, hnow, hkey⟩
      cases hc.symm.trans hd
      obtain hexp | hnone := hrefresh htype
      · exact absurd hnow (not_le.2 hexp)
      · exact hkey hnone
  case after =>
    intro n token c hn hc hu hle hnow
    have h999 := (hd u n token c hn hc hu).2 hle
    refine ⟨fun htype hnot => ⟨c, ?_⟩, fun htype hnot => Server.redeems_iff.2 ?_⟩
    · refine Server.validateAccessToken_eq_ok.2 ⟨hc, htype, hnow.le,
        Server.get_of_lookup_eq_none (hl.clean token c hc hnot), fun v hv => ?_⟩
      rw [hu, hl.get_version hn] at hv
      rw [← Option.some.inj hv, h999]
      decide
    · obtain ⟨e, he, hdl⟩ := hl.unredeemed token c hc htype hnot
      refine ⟨c, hc, htype, hnow.le, ?_⟩
      rw [Server.get_of_lookup he, if_pos]
      · nofun
      · rw [Entry.live, Option.all_eq_true]
        intro d hd
        rw [hdl d hd]
        exact decide_eq_true hnow

instance (s : Server) (c : Claims) : Decidable (s.Stale c) :=
  inferInstanceAs (Decidable (_ ∧ _))

/-- A conclusive step, checked by evaluation. -/
def conclusive (s : History) : Act → Bool
  | .revoke u => s.server.issued.all fun c => decide (c.userID = u → s.server.Stale c)
  | .sign _ _ => false
  | _ => true

theorem conclusive_of_check {a : Act} (h : s.conclusive a = true) : s.Conclusive a := by
  cases a with
  | revoke u => exact fun c hc => of_decide_eq_true (List.all_eq_true.1 h c hc)
  | sign => cases h
  | _ => trivial

/-- A user gets tokens, exchanges the refresh token, is revoked when the new one has been used as
well, and gets tokens again. -/
def revokeOnce : List Act :=
  [.generate "u" "" "" ("1", "2"), .tick 5, .revoke "v", .refresh 1 ("3", "4"), .tick 200,
    .revoke "u", .generate "u" "" "" ("5", "6")]

/-- A user is revoked twice, and gets tokens in between. -/
def revokeTwice : List Act :=
  [.revoke "u", .generate "u" "" "" ("1", "2"), .revoke "u"]

theorem revokes_once :
    ∃ s, (lts shortLived).Run Conclusive revokeOnce s ∧ s.revoked.lookup "u" = some 4 ∧
      s.server.issued.length = 6 ∧ s.Revokes (applyDefaults shortLived) "u" := by
  refine LTS.exists_checked_run (A := lts shortLived) (fun _ _ _ h => h)
    (fun _ _ => conclusive_of_check)
    ⟨0, rfl⟩ _
    (P := fun s => s.revoked.lookup "u" = some 4 ∧ s.server.issued.length = 6)
    (by decide) fun s hrun hs => ?_
  exact ⟨hs.1, hs.2, revokes_of_conclusive hrun "u"⟩

/-- Both tokens from before the second revocation are accepted after it. -/
theorem accepted_after_revoking :
    ∃ s, (lts shortLived).Run LTS.anyStep revokeTwice s ∧ s.revoked.lookup "u" = some 2 ∧
      s.server.validateAccessToken 0 = .ok (Server.pairClaims "u" "" "" "1" 999 .access 0 10) ∧
      (s.server.refresh (applyDefaults shortLived) 1 ("3", "4")).2 = .ok (2, 3) ∧
      ¬ s.Revokes (applyDefaults shortLived) "u" := by
  refine LTS.exists_run_of_exec (A := lts shortLived) (f := step shortLived) (fun _ _ _ h => h)
    ⟨0, rfl⟩ _
    (P := fun s => s.revoked.lookup "u" = some 2 ∧
      s.server.validateAccessToken 0 = .ok (Server.pairClaims "u" "" "" "1" 999 .access 0 10) ∧
      (s.server.refresh (applyDefaults shortLived) 1 ("3", "4")).2 = .ok (2, 3))
    (by decide) fun s hrun hs => ?_
  obtain ⟨hrev, hval, href⟩ := hs
  refine ⟨hrev, hval, href, fun hrevokes => ?_⟩
  have hget := (Server.validateAccessToken_eq_ok.1 hval).1
  exact (hrevokes.before 2 0 _ hrev hget rfl (by decide)).1 ⟨_, hval⟩

end History

end Jwt

end GinRpc
