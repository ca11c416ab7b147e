import GinRpc.Text.Basic

/-!
# Internet addresses

The addresses and blocks of Go's `net` and `net/netip` packages.  An address is written with four
decimal fields, or with fields of hexadecimal digits where `::` stands for fields of zeros and the
last two may be written like an IPv4 address; a block is an address with the number of its leading
bits.  `net` keeps 16 bytes, with a fixed start for IPv4 addresses, and looks for that start when it
compares.

* `IpAddr.parseIP`, `IpAddr.parseCIDR`, `IpAddr.IPNet.contains` : the functions of `net`.
* `IpAddr.contains_ipNet` : a block contains the addresses of its kind with the same leading bits.
-/

namespace GinRpc

namespace IpAddr

/-! ### Addresses -/

/-- An address without a zone -/
inductive Addr where
  | v4 (a : BitVec 32)
  | v6 (a : BitVec 128)
  deriving DecidableEq, Repr

/-- `As16` -/
def Addr.as16 : Addr → BitVec 128
  | .v4 a => 0xffff#96 ++ a
  | .v6 a => a

/-- The fields of an IPv4 address: those that are read, and the value and the number of digits of
the next one -/
def parseIPv4Fields : Text → (fields : List ℕ) → (val digLen : ℕ) → Option (List ℕ)
  | [], fields, val, _ => if fields.length < 3 then none else some (fields ++ [val])
  | c :: rest, fields, val, digLen =>
    if c.isDigit then
      -- no octet begins with a zero
      if digLen = 1 ∧ val = 0 then none
      else
        let val := val * 10 + (c.toNat - '0'.toNat)
        if 255 < val then none else parseIPv4Fields rest fields val (digLen + 1)
    else if c = '.' then
      if digLen = 0 ∨ rest = [] then none
      else if fields.length = 3 then none
      else parseIPv4Fields rest (fields ++ [val]) 0 0
    else none

/-- The number with the given digits, the first one being the highest -/
def number (base : ℕ) (digits : List ℕ) : ℕ := digits.foldl (fun acc d => acc * base + d) 0

def hexDigit (c : Char) : Option ℕ :=
  if '0' ≤ c ∧ c ≤ '9' then some (c.toNat - '0'.toNat)
  else if 'a' ≤ c ∧ c ≤ 'f' then some (c.toNat - 'a'.toNat + 10)
  else if 'A' ≤ c ∧ c ≤ 'F' then some (c.toNat - 'A'.toNat + 10)
  else none

/-- The loop of `parseIPv6`, for at most so many fields: what is not read, the fields of 16 bits,
and where `::` was found -/
def parseIPv6Fields : ℕ → Text → (fields : List ℕ) → (ellipsis : Option ℕ) →
    Option (Text × List ℕ × Option ℕ)
  | 0, s, fields, ellipsis => some (s, fields, ellipsis)
  | n + 1, s, fields, ellipsis =>
    let digits := (s.takeWhile fun c => (hexDigit c).isSome).filterMap hexDigit
    let rest := s.drop digits.length
    if digits = [] ∨ 4 < digits.length then none
    else if rest.head? = some '.' then
      -- an IPv4 address takes the last two fields
      if (ellipsis = none ∧ fields.length ≠ 6) ∨ 6 < fields.length then none
      else match parseIPv4Fields s [] 0 0 with
        | some [a, b, c, d] => some ([], fields ++ [a * 256 + b, c * 256 + d], ellipsis)
        | _ => none
    else
      let fields := fields ++ [number 16 digits]
      match rest with
      | [] => some ([], fields, ellipsis)
      | [':'] => none
      | ':' :: ':' :: s =>
        if ellipsis ≠ none then none
        else if s = [] then some ([], fields, some fields.length)
        else parseIPv6Fields n s fields (some fields.length)
      | ':' :: s => parseIPv6Fields n s fields ellipsis
      | _ => none

/-- The eight fields, with zeros for `::`, which stands for at least one field -/
def expand (fields : List ℕ) : Option ℕ → Option (List ℕ)
  | none => if fields.length < 8 then none else some fields
  | some i =>
    if fields.length < 8 then
      some (fields.take i ++ List.replicate (8 - fields.length) 0 ++ fields.drop i)
    else none

/-- `parseIPv6` for an address without a zone -/
def parseIPv6 (s : Text) : Option (BitVec 128) :=
  if s.contains '%' then none
  else if s = "::" then some 0
  else
    let (s, ellipsis) := match s with
      | ':' :: ':' :: s => (s, some 0)
      | s => (s, none)
    match parseIPv6Fields 8 s [] ellipsis with
    | some ([], fields, ellipsis) =>
      (expand fields ellipsis).map fun fields => BitVec.ofNat 128 (number 65536 fields)
    | _ => none

/-- `ParseAddr`, which looks for the first dot or colon; an address with a zone is an error here. -/
def parseAddr (s : Text) : Option Addr :=
  match s.find? fun c => c = '.' ∨ c = ':' ∨ c = '%' with
  | some '.' =>
    (parseIPv4Fields s [] 0 0).map fun fields => .v4 (BitVec.ofNat 32 (number 256 fields))
  | some ':' => (parseIPv6 s).map .v6
  | _ => none

/-- `net.ParseIP` -/
def parseIP (s : Text) : Option (BitVec 128) := (parseAddr s).map Addr.as16

/-! ### Blocks -/

/-- `To4` of an address of 16 bytes -/
def to4 (ip : BitVec 128) : Option (BitVec 32) :=
  if ip >>> 32 = 0xffff#128 then some (ip.setWidth 32) else none

/-- The number of bits of an address -/
def Addr.bitLen : Addr → ℕ
  | .v4 _ => 32
  | .v6 _ => 128

/-- An address and the number of its leading bits -/
structure Block where
  addr : Addr
  ones : ℕ
  ones_le : ones ≤ addr.bitLen

/-- `net.IPNet`; the network of an IPv4 block has 4 bytes. -/
inductive IPNet where
  | net4 (ip mask : BitVec 32)
  | net6 (ip mask : BitVec 128)
  deriving DecidableEq, Repr

/-- `CIDRMask` -/
def cidrMask (w ones : ℕ) : BitVec w := BitVec.allOnes w <<< (w - ones)

/-- What `ParseCIDR` reads -/
def parseBlock (s : Text) : Option Block :=
  match parseAddr (s.takeWhile (· ≠ '/')), s.dropWhile (· ≠ '/') with
  | some addr, '/' :: mask =>
    if h : mask ≠ [] ∧ mask.all Char.isDigit ∧ Text.atoi mask ≤ addr.bitLen then
      some ⟨addr, Text.atoi mask, h.2.2⟩
    else none
  | _, _ => none

/-- What `ParseCIDR` makes of it -/
def Block.ipNet (b : Block) : IPNet :=
  match b.addr with
  | .v4 a => .net4 (a &&& cidrMask 32 b.ones) (cidrMask 32 b.ones)
  | .v6 a => .net6 (a &&& cidrMask 128 b.ones) (cidrMask 128 b.ones)

/-- `net.ParseCIDR`, the network only -/
def parseCIDR (s : Text) : Option IPNet := (parseBlock s).map Block.ipNet

/-- `Contains` for an address of 16 bytes -/
def IPNet.contains : IPNet → BitVec 128 → Bool
  | .net4 nn m, ip =>
    match to4 ip with
    | some x => nn &&& m == x &&& m
    | none => false
  | .net6 nn m, ip =>
    match to4 nn, to4 ip with
    | some nn, some x => nn &&& m.setWidth 32 == x &&& m.setWidth 32
    | none, none => nn &&& m == ip &&& m
    | _, _ => false

/-! ### Leading bits -/

/-- The first bits are the same. -/
def Agree {w : ℕ} (n : ℕ) (a b : BitVec w) : Prop := ∀ i < n, a.getMsbD i = b.getMsbD i

section

variable {w n : ℕ} {a b c : BitVec w}

theorem Agree.symm (h : Agree n a b) : Agree n b a := fun i hi => (h i hi).symm

theorem Agree.trans (h : Agree n a b) (h' : Agree n b c) : Agree n a c :=
  fun i hi => (h i hi).trans (h' i hi)

theorem Agree.mono {m : ℕ} (h : Agree n a b) (hm : m ≤ n) : Agree m a b :=
  fun i hi => h i (hi.trans_le hm)

theorem getMsbD_and_cidrMask (a : BitVec w) (hn : n ≤ w) (i : ℕ) :
    (a &&& cidrMask w n).getMsbD i = (a.getMsbD i && decide (i < n)) := by
  rw [cidrMask, BitVec.getMsbD_and, BitVec.getMsbD_shiftLeft, BitVec.getMsbD_allOnes]
  congr 2
  rw [eq_iff_iff]
  omega

/-- Under a mask the bits after the leading ones are not compared. -/
theorem and_cidrMask_eq_iff (hn : n ≤ w) :
    a &&& cidrMask w n = b &&& cidrMask w n ↔ Agree n a b := by
  constructor
  · intro h i hi
    have hbit := congrArg (fun x => x.getMsbD i) h
    simpa only [getMsbD_and_cidrMask _ hn, decide_eq_true hi, Bool.and_true] using hbit
  · intro h
    refine BitVec.eq_of_getMsbD_eq fun i _ => ?_
    rw [getMsbD_and_cidrMask a hn, getMsbD_and_cidrMask b hn]
    by_cases hi : i < n
    · rw [h i hi]
    · rw [decide_eq_false hi, Bool.and_false, Bool.and_false]

theorem agree_and_cidrMask (a : BitVec w) (hn : n ≤ w) : Agree n (a &&& cidrMask w n) a := by
  intro i hi
  rw [getMsbD_and_cidrMask a hn, decide_eq_true hi, Bool.and_true]

end

/-- The IPv4 address 0.0.0.0 in 16 bytes -/
def mapped : BitVec 128 := 0xffff00000000#128

/-- The first 12 bytes are compared. -/
theorem to4_isSome_iff (ip : BitVec 128) : (to4 ip).isSome = true ↔ Agree 96 ip mapped := by
  have hmapped : (0xffff#128 : BitVec 128) = mapped >>> 32 := by decide
  have hshift (x : BitVec 128) {i : ℕ} (hi : i < 96) :
      (x >>> 32).getMsbD (i + 32) = x.getMsbD i := by
    rw [BitVec.getMsbD_ushiftRight]
    simp [show i + 32 < 128 by omega]
  have heq : (to4 ip).isSome = true ↔ ip >>> 32 = mapped >>> 32 := by
    rw [to4, hmapped]
    split_ifs with h <;> simp [h]
  rw [heq]
  constructor
  · intro h i hi
    rw [← hshift ip hi, h, hshift mapped hi]
  · intro h
    refine BitVec.eq_of_getMsbD_eq fun i hi => ?_
    by_cases hlow : i < 32
    · simp [BitVec.getMsbD_ushiftRight, hlow]
    · obtain ⟨j, rfl⟩ := Nat.exists_eq_add_of_le' (not_lt.1 hlow)
      rw [hshift ip (by omega), hshift mapped (by omega), h j (by omega)]

theorem to4_eq_some {ip : BitVec 128} {x : BitVec 32} (h : to4 ip = some x) :
    x = ip.setWidth 32 := by
  rw [to4] at h
  split_ifs at h
  exact (Option.some.inj h).symm

theorem getMsbD_setWidth_low (ip : BitVec 128) {i : ℕ} (hi : i < 32) :
    (ip.setWidth 32).getMsbD i = ip.getMsbD (96 + i) := by
  rw [BitVec.getMsbD_eq_getLsbD, BitVec.getMsbD_eq_getLsbD, BitVec.getLsbD_setWidth]
  simp only [hi, show 96 + i < 128 by omega, show 32 - 1 - i < 32 by omega, decide_true,
    Bool.true_and]
  congr 1
  omega

/-- The addresses of a block: those with its leading bits, IPv4 addresses only if the block has
their first 96 bits. -/
def Block.Holds (b : Block) (ip : BitVec 128) : Prop :=
  match b.addr with
  | .v4 a => ∃ x, to4 ip = some x ∧ Agree b.ones a x
  | .v6 a => Agree b.ones a ip ∧ ((to4 ip).isSome = true → 96 ≤ b.ones)

/-- The low 32 bits under a mask of at least 96 bits -/
theorem low_eq_iff {n : ℕ} {a b : BitVec 128} (hn : n ≤ 128) (hab : Agree 96 a b) :
    a.setWidth 32 &&& (cidrMask 128 n).setWidth 32 =
      b.setWidth 32 &&& (cidrMask 128 n).setWidth 32 ↔ Agree n a b := by
  rw [← BitVec.setWidth_and, ← BitVec.setWidth_and, ← and_cidrMask_eq_iff hn]
  constructor
  · intro h
    refine BitVec.eq_of_getMsbD_eq fun i hi => ?_
    by_cases hlow : i < 96
    · rw [getMsbD_and_cidrMask a hn, getMsbD_and_cidrMask b hn, hab i hlow]
    · obtain ⟨j, rfl⟩ := Nat.exists_eq_add_of_le (not_lt.1 hlow)
      have hbit := congrArg (fun x => x.getMsbD j) h
      simpa only [getMsbD_setWidth_low _ (show j < 32 by omega)] using hbit
  · exact congrArg _

theorem contains_net4 {nn m : BitVec 32} {ip : BitVec 128} :
    (IPNet.net4 nn m).contains ip = true ↔ ∃ x, to4 ip = some x ∧ nn &&& m = x &&& m := by
  rw [IPNet.contains]
  split <;> simp [*]

theorem contains_net6 {nn m ip : BitVec 128} :
    (IPNet.net6 nn m).contains ip = true ↔
      ((to4 nn).isSome = true ∧ (to4 ip).isSome = true ∧
        nn.setWidth 32 &&& m.setWidth 32 = ip.setWidth 32 &&& m.setWidth 32) ∨
      ((to4 nn).isSome = false ∧ (to4 ip).isSome = false ∧ nn &&& m = ip &&& m) := by
  rw [IPNet.contains]
  cases hnn : to4 nn with
  | none =>
    cases hip : to4 ip with
    | none => simp
    | some x => simp
  | some nn4 =>
    cases hip : to4 ip with
    | none => simp
    | some x =>
      rw [to4_eq_some hnn, to4_eq_some hip]
      simp only [beq_iff_eq, Option.isSome_some, true_and, Bool.true_eq_false, false_and, or_false]

/-- **A block contains the addresses with its leading bits.** -/
theorem contains_ipNet (b : Block) (ip : BitVec 128) :
    b.ipNet.contains ip = true ↔ b.Holds ip := by
  obtain ⟨addr, n, hn⟩ := b
  cases addr with
  | v4 a =>
    refine contains_net4.trans (exists_congr fun x => and_congr_right fun _ => ?_)
    rw [BitVec.and_assoc, BitVec.and_self]
    exact and_cidrMask_eq_iff hn
  | v6 a =>
    have hn : n ≤ 128 := hn
    have hself := agree_and_cidrMask a hn
    -- a network that begins like an IPv4 address has at least 96 bits
    have hlen (h : Agree 96 (a &&& cidrMask 128 n) mapped) : 96 ≤ n := by
      have hbit := h 95 (by omega)
      rw [getMsbD_and_cidrMask a hn, show mapped.getMsbD 95 = true by decide, Bool.and_eq_true,
        decide_eq_true_eq] at hbit
      omega
    refine contains_net6.trans ?_
    simp only [← Bool.not_eq_true, to4_isSome_iff, Block.Holds]
    constructor
    · rintro (⟨hnet, hip, hlow⟩ | ⟨hnet, hip, hall⟩)
      · have h96 := hlen hnet
        exact ⟨hself.symm.trans ((low_eq_iff hn (hnet.trans hip.symm)).1 hlow), fun _ => h96⟩
      · rw [BitVec.and_assoc, BitVec.and_self, and_cidrMask_eq_iff hn] at hall
        exact ⟨hall, fun h => absurd h hip⟩
    · rintro ⟨hagree, hv4⟩
      have hnet := hself.trans hagree
      by_cases hip : Agree 96 ip mapped
      · have h96 := hnet.mono (hv4 hip)
        exact .inl ⟨h96.trans hip, hip, (low_eq_iff hn h96).2 hnet⟩
      · refine .inr ⟨fun h => hip ?_, hip, ?_⟩
        · exact ((hnet.mono (hlen h)).symm).trans h
        · rw [BitVec.and_assoc, BitVec.and_self, and_cidrMask_eq_iff hn]
          exact hagree

end IpAddr

end GinRpc
