import GinRpc.Jwt.Revocation

/-!
# Logging out

`Logout` puts the ID of a token on the blacklist, for as long as the token is valid.

* `History.Silences` : no token that was logged out is accepted, and the next call of `Logout` does
  not change what becomes of other tokens, at any time.
* `History.silences_of_discreet` : this holds along every run in which a refresh token is logged out
  only when it cannot be exchanged any more, tokens have IDs of their own and expire within the
  range of a duration, and the clock does not show the very time at which a token expires that was
  logged out.
* `History.exchanged_after_logout` : `Refresh` does not look at the blacklist.
-/

namespace GinRpc

namespace Jwt

namespace History

variable {cfg : Config} {s s' : History}

/-- What `Logout` promises. -/
structure Silences (cfg : Config) (s : History) : Prop where
  rejected : ∀ token ∈ s.loggedOut,
    ¬ s.server.Accepts token ∧ ¬ s.server.Redeems (applyDefaults cfg) token
  others : ∀ token s', s.step cfg (.logout token) = some s' →
    ∀ other ≠ token, ∀ t, s.server.now ≤ t →
      ((s'.server.atTime t).Accepts other ↔ (s.server.atTime t).Accepts other) ∧
      ((s'.server.atTime t).Redeems (applyDefaults cfg) other ↔
        (s.server.atTime t).Redeems (applyDefaults cfg) other)

def Discreet (s : History) : Act → Prop
  | .sign c _ => c.tokenID = "" ∨ s.server.Unused c.tokenID
  | .logout token => ∀ c, s.server.issued[token]? = some c → c.expireAt - s.server.now < 2 ^ 63 ∧
      (c.type = .refresh →
        c.expireAt < s.server.now ∨ s.server.get (refreshKey c.tokenID) = none)
  | .tick d => ∀ token ∈ s.loggedOut, ∀ c, s.server.issued[token]? = some c →
      s.server.now + d ≠ c.expireAt
  | _ => True

/-- A token is on the blacklist until it expires. -/
def Barred (s : History) (c : Claims) : Prop :=
  c.expireAt < s.server.now ∨ ∃ e, s.server.store.lookup (blacklistKey c.tokenID) = some e ∧
    ∀ d, e.deadline = some d → d = c.expireAt ∧ s.server.now ≠ c.expireAt

/-- The invariant of the tokens that were logged out. -/
def Muted (s : History) : Prop :=
  ∀ token ∈ s.loggedOut, ∀ c, s.server.issued[token]? = some c → s.Barred c ∧
    (c.type = .refresh → c.expireAt < s.server.now ∨ s.server.get (refreshKey c.tokenID) = none)

theorem Barred.of_lookup {c : Claims} (h : s.Barred c) (hnow : s'.server.now = s.server.now)
    (hstore : s'.server.store.lookup (blacklistKey c.tokenID) =
      s.server.store.lookup (blacklistKey c.tokenID)) : s'.Barred c := by
  rw [Barred, hnow, hstore]
  exact h

/-- The entry of the blacklist is there as long as the token is valid. -/
theorem barred_blacklist {token : ℕ} {c : Claims} (h : c.expireAt - s.server.now < 2 ^ 63) :
    (s.blacklist token c).Barred c := by
  rcases lt_or_ge c.expireAt s.server.now with hlt | hge
  · exact .inl hlt
  · have huntil : untilTime c.expireAt s.server.now = c.expireAt - s.server.now := by
      rw [untilTime]
      omega
    refine .inr ⟨_, lookup_blacklist.trans (if_pos rfl), fun d hd => ?_⟩
    rw [huntil] at hd
    dsimp only at hd
    split_ifs at hd with hzero
    have hd := Option.some.inj hd
    exact ⟨by omega, fun heq => hzero (by rw [← heq]; exact sub_self _)⟩

theorem Muted.step (h : s.Muted) (hl : s.Ledger) {a : Act} (hok : s.Discreet a)
    (hs : s.step cfg a = some s') : s'.Muted := by
  have heff := effect_of_step hs
  -- a token that was logged out before, if the blacklist and the clock stay as they are
  have hkeep : s'.loggedOut = s.loggedOut → s'.server.now = s.server.now →
      (∀ id, s'.server.store.lookup (blacklistKey id) =
        s.server.store.lookup (blacklistKey id)) → s'.Muted := by
    intro hout hnow hstore token ht c hc
    rw [hout] at ht
    have hlt := hl.numbered token (.inl ht)
    have hold : s.server.issued[token]? = some c := by
      rw [List.getElem?_eq_getElem hlt, ← heff.getElem? (List.getElem?_eq_getElem hlt), hc]
    obtain ⟨hbar, href⟩ := h token ht c hold
    exact ⟨hbar.of_lookup hnow (hstore _), fun htype => hnow ▸ (href htype).imp_right
      (heff.get_refreshKey (List.mem_of_getElem? hold))⟩
  cases effect_of_step hs with
  | generate =>
    exact hkeep rfl rfl fun id => lookup_issue.trans (if_neg refreshKey_ne_blacklistKey.symm)
  | refresh =>
    exact hkeep rfl rfl fun id =>
      (lookup_issue.trans (if_neg refreshKey_ne_blacklistKey.symm)).trans
      (lookup_redeem.trans (if_neg refreshKey_ne_blacklistKey.symm))
  | revoke =>
    exact hkeep rfl rfl fun id => lookup_markRevoked.trans (if_neg blacklistKey_ne_versionKey)
  | sign => exact hkeep rfl rfl fun id => rfl
  | nothing => exact h
  | @logout token c hc =>
    intro i hi d hd
    obtain ⟨hfits, href⟩ := hok c hc
    by_cases heq : i = token
    · obtain rfl : d = c := Option.some.inj (hd.symm.trans (heq ▸ hc))
      exact ⟨barred_blacklist hfits, fun htype => (href htype).imp_right
        (heff.get_refreshKey (List.mem_of_getElem? hc))⟩
    · obtain ⟨hbar, href⟩ := h i ((List.mem_cons.1 hi).resolve_left heq) d hd
      refine ⟨hbar.of_lookup rfl (lookup_blacklist.trans (if_neg ?_)), fun htype =>
        (href htype).imp_right (heff.get_refreshKey (List.mem_of_getElem? hd))⟩
      rw [blacklistKey_inj]
      exact fun hid => heq (hl.eq_of_tokenID hd hc hid)
  | tick =>
    intro i hi d hd
    obtain ⟨hbar, href⟩ := h i hi d hd
    refine ⟨hbar.imp (fun hlt => hlt.trans_le heff.now_le) fun ⟨e, he, hdl⟩ => ⟨e, he, fun t ht =>
      ⟨(hdl t ht).1, hok i hi d hd⟩⟩, fun htype => (href htype).imp
        (fun hlt => hlt.trans_le heff.now_le) (heff.get_refreshKey (List.mem_of_getElem? hd))⟩

theorem distinct_of_discreet {a : Act} (h : s.Discreet a) : s.Distinct a := by
  cases a with
  | sign => exact h
  | _ => trivial

/-- Only the token with this ID meets its entry in the blacklist. -/
theorem Ledger.others (h : s.Ledger) {token other : ℕ} {c : Claims}
    (hc : s.server.issued[token]? = some c) (hne : other ≠ token) (t : ℤ) :
    (((s.blacklist token c).server.atTime t).Accepts other ↔
        (s.server.atTime t).Accepts other) ∧
      (((s.blacklist token c).server.atTime t).Redeems cfg other ↔
        (s.server.atTime t).Redeems cfg other) := by
  have hget : ∀ k, k ≠ blacklistKey c.tokenID →
      ((s.blacklist token c).server.atTime t).get k = (s.server.atTime t).get k := by
    intro k hk
    have hstore : (s.blacklist token c).server.store.lookup k = s.server.store.lookup k :=
      lookup_blacklist.trans (if_neg hk)
    rw [Server.get, Server.get]
    exact congrArg (fun e => (e.filter (Entry.live t)).map Entry.value) hstore
  have hid : ∀ {d}, s.server.issued[other]? = some d →
      blacklistKey d.tokenID ≠ blacklistKey c.tokenID :=
    fun hd => blacklistKey_inj.not.2 fun heq => hne (h.eq_of_tokenID hd hc heq)
  constructor
  · refine exists_congr fun d => ?_
    rw [Server.validateAccessToken_eq_ok, Server.validateAccessToken_eq_ok]
    refine and_congr_right fun hd => ?_
    rw [hget _ (hid hd), hget _ blacklistKey_ne_versionKey.symm]
    rfl
  · rw [Server.redeems_iff, Server.redeems_iff]
    refine exists_congr fun d => and_congr_right fun _ => ?_
    rw [hget _ refreshKey_ne_blacklistKey]
    rfl

/-- **A token that was logged out is never accepted again, and other tokens do not notice**, along
every run in which refresh tokens are logged out only when they cannot be exchanged any more. -/
theorem silences_of_discreet {tr : List Act} (hrun : (lts cfg).Run Discreet tr s) :
    s.Silences cfg := by
  have hinv : s.Ledger ∧ s.Muted := by
    refine hrun.invariant (I := fun s => s.Ledger ∧ s.Muted) ?_ ?_
    · rintro _ ⟨t, rfl⟩
      exact ⟨ledger_init, nofun⟩
    · rintro s a s' ⟨hl, hm⟩ hok hs
      exact ⟨hl.step (distinct_of_discreet hok) hs, hm.step hl hok hs⟩
  obtain ⟨hl, hm⟩ := hinv
  constructor
  case rejected =>
    intro token ht
    constructor
    · rintro ⟨c, hval⟩
      obtain ⟨hc, -, hnow, hblack, -⟩ := Server.validateAccessToken_eq_ok.1 hval
      obtain hexp | ⟨e, he, hdl⟩ := (hm token ht c hc).1
      · exact absurd hnow (not_le.2 hexp)
      · rw [Server.get_of_lookup he, if_pos] at hblack
        · cases hblack
        · rw [Entry.live, Option.all_eq_true]
          intro d hd
          obtain ⟨rfl, hne⟩ := hdl d hd
          exact decide_eq_true (lt_of_le_of_ne hnow hne)
    · rw [Server.redeems_iff]
      rintro ⟨c, hc, htype, hnow, hkey⟩
      obtain hexp | hnone := (hm token ht c hc).2 htype
      · exact absurd hnow (not_le.2 hexp)
      · exact hkey hnone
  case others =>
    intro token s' hs other hne t _
    cases effect_of_step hs with
    | logout hc => exact hl.others hc hne t
    | nothing => exact ⟨Iff.rfl, Iff.rfl⟩

/-- A discreet step, checked by evaluation. -/
def discreet (s : History) : Act → Bool
  | .sign c _ => decide (c.tokenID = "" ∨ s.server.Unused c.tokenID)
  | .logout token => s.server.issued[token]?.all fun c =>
      decide (c.expireAt - s.server.now < 2 ^ 63 ∧ (c.type = .refresh →
        c.expireAt < s.server.now ∨ s.server.get (refreshKey c.tokenID) = none))
  | .tick d => s.loggedOut.all fun token => s.server.issued[token]?.all fun c =>
      decide (s.server.now + d ≠ c.expireAt)
  | _ => true

theorem discreet_of_check {a : Act} (h : s.discreet a = true) : s.Discreet a := by
  cases a with
  | sign c id => exact of_decide_eq_true (p := c.tokenID = "" ∨ s.server.Unused c.tokenID) h
  | logout token => exact fun c hc => of_decide_eq_true ((Option.all_eq_true _ _).1 h c hc)
  | tick d =>
    exact fun token ht c hc =>
      of_decide_eq_true ((Option.all_eq_true _ _).1 (List.all_eq_true.1 h token ht) c hc)
  | _ => trivial

/-- An access token and a refresh token that was exchanged are logged out, another token is signed,
and time passes. -/
def logoutBoth : List Act :=
  [.generate "u" "" "" ("1", "2"), .tick 5, .refresh 1 ("3", "4"), .logout 0, .logout 1,
    .sign { userID := "u" } "5", .tick 4, .tick 3]

/-- A refresh token is logged out. -/
def logoutRefresh : List Act := [.generate "u" "" "" ("1", "2"), .logout 1]

theorem silences_both :
    ∃ s, (lts shortLived).Run Discreet logoutBoth s ∧ s.loggedOut = [1, 0] ∧
      s.server.issued.length = 5 ∧ s.Silences shortLived := by
  refine LTS.exists_checked_run (A := lts shortLived) (fun _ _ _ h => h)
    (fun _ _ => discreet_of_check)
    ⟨0, rfl⟩ _
    (P := fun s => s.loggedOut = [1, 0] ∧ s.server.issued.length = 5) (by decide)
    fun s hrun hs => ?_
  exact ⟨hs.1, hs.2, silences_of_discreet hrun⟩

/-- The refresh token is exchanged although it was logged out. -/
theorem exchanged_after_logout :
    ∃ s, (lts shortLived).Run LTS.anyStep logoutRefresh s ∧ s.loggedOut = [1] ∧
      (s.server.refresh (applyDefaults shortLived) 1 ("3", "4")).2 = .ok (2, 3) ∧
      ¬ s.Silences shortLived := by
  refine LTS.exists_run_of_exec (A := lts shortLived) (f := step shortLived) (fun _ _ _ h => h)
    ⟨0, rfl⟩ _
    (P := fun s => s.loggedOut = [1] ∧
      (s.server.refresh (applyDefaults shortLived) 1 ("3", "4")).2 = .ok (2, 3))
    (by decide) fun s hrun hs => ?_
  refine ⟨hs.1, hs.2, fun hsil => ?_⟩
  exact (hsil.rejected 1 (hs.1 ▸ List.mem_singleton_self 1)).2 ⟨_, _, hs.2⟩

end History

end Jwt

end GinRpc
