import GinRpc.Data.AList
import GinRpc.LTS.Basic
import GinRpc.Text.Number

/-!
# The token manager

Model of `Manager` in `plugins/auth/jwtx`, with a store: `token.go`, `refresh.go` and `logout.go`.

* Tokens are encrypted and authenticated claims.  Nobody can make one but the manager: a token is
  its number in the list of all claims the manager has encoded, and anything else cannot be decoded.
* The store is reliable.  An entry is there until its time to live has elapsed; a time to live of
  zero means for ever.
* `uuid.NewString` returns an ID that no token has had.
* Times are nanoseconds since the zero time, and a call happens at one time.

`Username` and `DeviceID` are handed on; `Payload` is never read and left out.
-/

namespace GinRpc

namespace Jwt

inductive TokenType where
  /-- the empty type -/
  | unset
  | access
  | refresh
  | other (name : String)
  deriving DecidableEq, Repr

structure Claims where
  userID : String
  username : String := ""
  deviceID : String := ""
  tokenID : String := ""
  version : Int64 := 0
  type : TokenType := .unset
  issuedAt : ℤ := 0
  expireAt : ℤ := 0
  deriving DecidableEq

structure Config where
  accessTokenTTL : ℤ
  refreshTokenTTL : ℤ
  deriving DecidableEq, Repr

def applyDefaults (cfg : Config) : Config where
  accessTokenTTL := if cfg.accessTokenTTL = 0 then 900000000000 else cfg.accessTokenTTL
  refreshTokenTTL := if cfg.refreshTokenTTL = 0 then 604800000000000 else cfg.refreshTokenTTL

/-- Tokens live for ten and a hundred nanoseconds. -/
def shortLived : Config := ⟨10, 100⟩

/-- An entry of the store, and when it expires. -/
structure Entry where
  value : String
  deadline : Option ℤ
  deriving DecidableEq, Repr

/-- Why a call fails. -/
inductive Err where
  /-- the token cannot be decoded -/
  | decode
  | msg (text : String)
  deriving DecidableEq, Repr

/-- The manager with its store, the tokens it has made, and the time. -/
structure Server where
  store : AList fun _ : String => Entry := ∅
  issued : List Claims := []
  now : ℤ := 0

def refreshKey (tokenID : String) : String := "refresh:" ++ tokenID

def blacklistKey (tokenID : String) : String := "blacklist:" ++ tokenID

def versionKey (userID : String) : String := "user:version:" ++ userID

/-- `time.Until`: the distance of two times, cut off at the limits of a duration. -/
def untilTime (t now : ℤ) : ℤ := max (-2 ^ 63) (min (t - now) (2 ^ 63 - 1))

def Entry.live (now : ℤ) (e : Entry) : Bool := e.deadline.all fun d => decide (now < d)

namespace Server

variable (cfg : Config) (s : Server)

/-- `Store.Get`. -/
def get (key : String) : Option String :=
  ((s.store.lookup key).filter (Entry.live s.now)).map Entry.value

/-- `Store.Set`. -/
def set (key value : String) (ttl : ℤ) : Server :=
  let deadline := if ttl = 0 then none else some (s.now + ttl)
  { s with store := s.store.insert key ⟨value, deadline⟩ }

/-- `Store.Del`. -/
def del (key : String) : Server := { s with store := s.store.erase key }

/-- The number of the token. -/
def encodeClaims (c : Claims) : Server × ℕ :=
  ({ s with issued := s.issued ++ [c] }, s.issued.length)

def decodeClaims (token : ℕ) : Option Claims := s.issued[token]?

/-- The version a user is given in `GenerateTokenPair`. -/
def userVersion (userID : String) : Int64 :=
  match s.get (versionKey userID) with
  | some v => (Text.parseInt v).1
  | none => 1

/-- The claims of `GenerateTokenPair`. -/
def pairClaims (userID username deviceID tokenID : String) (version : Int64) (type : TokenType)
    (now ttl : ℤ) : Claims where
  userID := userID
  username := username
  deviceID := deviceID
  tokenID := tokenID
  version := version
  type := type
  issuedAt := now
  expireAt := now + ttl

/-- The end of `GenerateTokenPair`: both tokens are encoded, and the refresh token is stored. -/
def issuePair (userID username deviceID : String) (version : Int64) (now : ℤ)
    (ids : String × String) : Server × ℕ × ℕ :=
  let access := pairClaims userID username deviceID ids.1 version .access now cfg.accessTokenTTL
  let refresh := pairClaims userID username deviceID ids.2 version .refresh now cfg.refreshTokenTTL
  let (s, accessToken) := s.encodeClaims access
  let (s, refreshToken) := s.encodeClaims refresh
  (s.set (refreshKey refresh.tokenID) userID cfg.refreshTokenTTL, accessToken, refreshToken)

def generateTokenPair (userID username deviceID : String) (ids : String × String) :
    Server × ℕ × ℕ :=
  s.issuePair cfg userID username deviceID (s.userVersion userID) s.now ids

/-- The checks of `Refresh` before the store is asked. -/
def refreshClaims (token : ℕ) : Except Err Claims :=
  match s.decodeClaims token with
  | none => .error .decode
  | some claims =>
    if claims.type ≠ .refresh then .error (.msg "invalid refresh token")
    else if s.now > claims.expireAt then .error (.msg "refresh token expired")
    else .ok claims

def refresh (token : ℕ) (ids : String × String) : Server × Except Err (ℕ × ℕ) :=
  match s.refreshClaims token with
  | .error err => (s, .error err)
  | .ok claims =>
    match s.get (refreshKey claims.tokenID) with
    | none => (s, .error (.msg "refresh token invalid"))
    | some _ =>
      let s := s.del (refreshKey claims.tokenID)
      let (s, pair) := s.generateTokenPair cfg claims.userID claims.username claims.deviceID ids
      (s, .ok pair)

def validateAccessToken (token : ℕ) : Except Err Claims :=
  match s.decodeClaims token with
  | none => .error .decode
  | some claims =>
    if claims.type ≠ .access then .error (.msg "invalid token type")
    else if s.now > claims.expireAt then .error (.msg "token expired")
    else
      match s.get (blacklistKey claims.tokenID) with
      | some _ => .error (.msg "token revoked")
      | none =>
        match s.get (versionKey claims.userID) with
        | some v =>
          if (Text.parseInt v).1 ≠ claims.version then .error (.msg "token invalid")
          else .ok claims
        | none => .ok claims

def logout (token : ℕ) : Server × Except Err Unit :=
  match s.decodeClaims token with
  | none => (s, .error .decode)
  | some claims =>
    (s.set (blacklistKey claims.tokenID) "1" (untilTime claims.expireAt s.now), .ok ())

def revokeUser (userID : String) : Server := s.set (versionKey userID) "999" 0

/-- The claims that `SignAccessClaims` encodes. -/
def signedClaims (c : Claims) (id : String) : Claims :=
  let issuedAt := if c.issuedAt = 0 then s.now else c.issuedAt
  { c with
    type := .access
    tokenID := if c.tokenID = "" then id else c.tokenID
    issuedAt := issuedAt
    expireAt := if c.expireAt = 0 then issuedAt + cfg.accessTokenTTL else c.expireAt }

def signAccessClaims (c : Claims) (id : String) : Server × Except Err ℕ :=
  if c.type = .unset ∨ c.type = .access then
    let (s, token) := s.encodeClaims (s.signedClaims cfg c id)
    (s, .ok token)
  else (s, .error (.msg "claims type must be access"))

/-- An ID that no token has. -/
def Unused (id : String) : Prop := ∀ c ∈ s.issued, c.tokenID ≠ id

instance (id : String) : Decidable (s.Unused id) := inferInstanceAs (Decidable (∀ c ∈ _, _))

end Server

/-! ### Keys and lookups -/

@[simp] theorem refreshKey_inj {a b : String} : refreshKey a = refreshKey b ↔ a = b :=
  String.append_right_inj _

@[simp] theorem blacklistKey_inj {a b : String} : blacklistKey a = blacklistKey b ↔ a = b :=
  String.append_right_inj _

@[simp] theorem versionKey_inj {a b : String} : versionKey a = versionKey b ↔ a = b :=
  String.append_right_inj _

theorem refreshKey_ne_blacklistKey {a b : String} : refreshKey a ≠ blacklistKey b := by
  intro h
  simpa [refreshKey, blacklistKey] using congrArg String.toList h

theorem refreshKey_ne_versionKey {a b : String} : refreshKey a ≠ versionKey b := by
  intro h
  simpa [refreshKey, versionKey] using congrArg String.toList h

theorem blacklistKey_ne_versionKey {a b : String} : blacklistKey a ≠ versionKey b := by
  intro h
  simpa [blacklistKey, versionKey] using congrArg String.toList h

namespace Server

variable {s : Server} {key k value : String} {ttl : ℤ}

theorem get_set : (s.set key value ttl).get k =
    if k = key then if 0 ≤ ttl then some value else none else s.get k := by
  rw [get, set, AList.lookup_insert_apply]
  by_cases hk : k = key
  · -- at once, an entry is live unless its time to live is negative
    rw [if_pos hk, if_pos hk]
    obtain hlt | rfl | hgt := lt_trichotomy ttl 0
    · simp [Entry.live, hlt.ne, not_lt.2 hlt.le, not_le.2 hlt]
    · simp [Entry.live]
    · simp [Entry.live, hgt.ne', hgt, hgt.le]
  · rw [if_neg hk, if_neg hk]
    rfl

theorem get_del : (s.del key).get k = if k = key then none else s.get k := by
  rw [get, del, AList.lookup_erase_apply]
  split_ifs
  · rfl
  · rfl

end Server

end Jwt

end GinRpc
