import GinRpc.Data.IpAddr

/-!
# The filter of client addresses

Model of the list in `plugins/middleware/ip_filter.go`.  Entries with a slash are blocks; the others
are compared with the text of the client's address, not with the address.

* `IPFilter.isInIPList_iff` : an address is found in the list as it should if and only if it is not
  listed in another spelling only.
* `IPFilter.spelled_otherwise` : such addresses are not found.
-/

namespace GinRpc

namespace IPFilter

open IpAddr

inductive Mode where
  | whitelist
  | blacklist
  deriving DecidableEq, Repr

structure IPFilterConfig where
  mode : Mode := .blacklist
  ipList : List Text
  /-- the blocks, which the constructor fills in -/
  ipNets : List IPNet := []

/-- `newIPFilterMiddleware` -/
def newIPFilterMiddleware (config : IPFilterConfig) : IPFilterConfig :=
  { config with
    ipNets := config.ipNets ++ config.ipList.filterMap fun ip =>
      if ip.contains '/' then parseCIDR ip else none }

def isInIPList (m : IPFilterConfig) (ip : Text) : Bool :=
  match parseIP ip with
  | none => false
  | some clientIP => m.ipList.contains ip || m.ipNets.any fun ipNet => ipNet.contains clientIP

/-- `isBlocked`, with the reason; `country` is given if it is blocked. -/
def isBlocked (m : IPFilterConfig) (country : Option Text) (ip : Text) : Option Text :=
  match country with
  | some country => some ("country " ++ country ++ " blocked")
  | none =>
    match m.mode, isInIPList m ip with
    | .whitelist, false => some "not in whitelist"
    | .blacklist, true => some "in blacklist"
    | _, _ => none

/-! ### Membership -/

variable {ipList : List Text} {ip : Text} {a : BitVec 128}

/-- The address is in a block of the list. -/
def InBlock (ipList : List Text) (a : BitVec 128) : Prop :=
  ∃ entry ∈ ipList, ∃ b, parseBlock entry = some b ∧ b.Holds a

/-- The address is equal to one of the list, or in a block. -/
def Listed (ipList : List Text) (a : BitVec 128) : Prop :=
  (∃ entry ∈ ipList, parseIP entry = some a) ∨ InBlock ipList a

/-- If an entry denotes the same address, the list has this text too, or a block with it. -/
def Spelled (ipList : List Text) (ip : Text) : Prop :=
  ∀ a, parseIP ip = some a → ∀ entry ∈ ipList, parseIP entry = some a →
    ip ∈ ipList ∨ InBlock ipList a

theorem contains_slash {b : Block} (h : parseBlock ip = some b) : ip.contains '/' = true := by
  unfold parseBlock at h
  split at h
  next hdrop =>
    have hmem : '/' ∈ ip.dropWhile (· ≠ '/') := hdrop ▸ List.mem_cons_self
    simpa using (List.dropWhile_sublist _).subset hmem
  next => cases h

/-- The blocks of the constructor contain the addresses of the blocks in the list. -/
theorem any_contains_iff (mode : Mode) :
    ((newIPFilterMiddleware ⟨mode, ipList, []⟩).ipNets.any fun ipNet => ipNet.contains a) = true ↔
      InBlock ipList a := by
  unfold newIPFilterMiddleware InBlock
  simp only [List.nil_append, List.any_eq_true, List.mem_filterMap]
  constructor
  · rintro ⟨ipNet, ⟨entry, hentry, hnet⟩, hcontains⟩
    split_ifs at hnet
    obtain ⟨b, hb, rfl⟩ := Option.map_eq_some_iff.1 hnet
    exact ⟨entry, hentry, b, hb, (contains_ipNet b a).1 hcontains⟩
  · rintro ⟨entry, hentry, b, hb, hholds⟩
    refine ⟨b.ipNet, ⟨entry, hentry, ?_⟩, (contains_ipNet b a).2 hholds⟩
    rw [if_pos (contains_slash hb), parseCIDR, hb, Option.map_some]

theorem isInIPList_eq_true (mode : Mode) :
    isInIPList (newIPFilterMiddleware ⟨mode, ipList, []⟩) ip = true ↔
      ∃ a, parseIP ip = some a ∧ (ip ∈ ipList ∨ InBlock ipList a) := by
  unfold isInIPList
  cases hip : parseIP ip with
  | none => simp
  | some a =>
    have hexact : (newIPFilterMiddleware ⟨mode, ipList, []⟩).ipList.contains ip = true ↔
        ip ∈ ipList := List.contains_iff_mem
    simp only [Bool.or_eq_true, hexact, any_contains_iff mode, Option.some.injEq, exists_eq_left']

/-- **When membership depends on the address only**: the verdict is that of the address if and only
if the address is not listed in another spelling only; then all its spellings are treated alike. -/
theorem isInIPList_iff (mode : Mode) (ipList : List Text) (ip : Text) :
    ((isInIPList (newIPFilterMiddleware ⟨mode, ipList, []⟩) ip = true ↔
        ∃ a, parseIP ip = some a ∧ Listed ipList a) ↔ Spelled ipList ip) ∧
    ∀ ip', parseIP ip' = parseIP ip → Spelled ipList ip → Spelled ipList ip' →
      isInIPList (newIPFilterMiddleware ⟨mode, ipList, []⟩) ip' =
        isInIPList (newIPFilterMiddleware ⟨mode, ipList, []⟩) ip := by
  have hverdict (ip : Text) :
      (isInIPList (newIPFilterMiddleware ⟨mode, ipList, []⟩) ip = true ↔
        ∃ a, parseIP ip = some a ∧ Listed ipList a) ↔ Spelled ipList ip := by
    rw [isInIPList_eq_true]
    constructor
    · intro h a ha entry hentry heq
      obtain ⟨a', ha', hlisted⟩ := h.2 ⟨a, ha, .inl ⟨entry, hentry, heq⟩⟩
      cases ha.symm.trans ha'
      exact hlisted
    · intro h
      refine exists_congr fun a => and_congr_right fun ha => ⟨?_, ?_⟩
      · exact Or.imp_left fun hmem => ⟨ip, hmem, ha⟩
      · rintro (⟨entry, hentry, heq⟩ | hblock)
        · exact h a ha entry hentry heq
        · exact .inr hblock
  refine ⟨hverdict ip, fun ip' heq h h' => Bool.eq_iff_iff.2 ?_⟩
  rw [(hverdict ip).2 h, (hverdict ip').2 h', heq]

/-- A list with two spellings of an address -/
def allowed : List Text := ["2001:db8::1", "2001:DB8::1"]

/-- Both spellings are treated alike. -/
theorem isInIPList_iff_allowed :
    isInIPList (newIPFilterMiddleware ⟨.whitelist, allowed, []⟩) "2001:DB8::1" =
      isInIPList (newIPFilterMiddleware ⟨.whitelist, allowed, []⟩) "2001:db8::1" := by
  refine (isInIPList_iff .whitelist allowed "2001:db8::1").2 "2001:DB8::1" (by decide +kernel) ?_ ?_
  · exact fun _ _ _ _ _ => .inl List.mem_cons_self
  · exact fun _ _ _ _ _ => .inl (List.mem_cons_of_mem _ List.mem_cons_self)

/-- **Another spelling is not found**: a client of the whitelist is blocked, and one of the
blacklist is not. -/
theorem spelled_otherwise :
    parseIP "2001:db8::1" = some 0x20010db8000000000000000000000001#128 ∧
    parseIP "2001:DB8:0:0::1" = some 0x20010db8000000000000000000000001#128 ∧
    isBlocked (newIPFilterMiddleware ⟨.whitelist, ["2001:DB8:0:0::1"], []⟩) none "2001:db8::1" =
      some "not in whitelist" ∧
    parseIP "10.0.0.1" = some 0xffff0a000001#128 ∧
    parseIP "::ffff:10.0.0.1" = some 0xffff0a000001#128 ∧
    isBlocked (newIPFilterMiddleware ⟨.blacklist, ["10.0.0.1"], []⟩) none "::ffff:10.0.0.1" =
      none := by
  decide +kernel

end IPFilter

end GinRpc
