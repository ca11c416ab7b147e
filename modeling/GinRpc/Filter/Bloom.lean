import Mathlib.Data.Nat.Bitwise
import Mathlib.Tactic

/-!
# The Bloom filter

Model of `plugins/bloomfilter/bloomfilter.go`.  The bits are packed into words, and the arithmetic
on words and positions is that of `uint64`.  An index outside of the words is a panic, `none`, and
so is a slice that is larger than the address space: each call makes one with a place for every hash
function.

The numbers that `New` computes from the number of elements and the rate of false positives are
parameters; `New` goes on with them as integers.

* `BloomFilter.positions` : the probe positions of an element.
* `BloomFilter.Holds` : the bits that are set are the positions of the given elements.
* `contains_exact` : after every sequence of calls, an element is found if and only if each of its
  positions is one of an element that was added since the bits were cleared; or else there are so
  many hash functions that every call panics.
-/

namespace GinRpc

namespace Filter

def fnvOffset : UInt64 := 14695981039346656037

def fnvPrime : UInt64 := 1099511628211

/-- `fnv.New64a` -/
def fnv64a (data : List UInt8) : UInt64 :=
  data.foldl (fun h b => (h ^^^ b.toUInt64) * fnvPrime) fnvOffset

/-- `fnv.New64` -/
def fnv64 (data : List UInt8) : UInt64 :=
  data.foldl (fun h b => (h * fnvPrime) ^^^ b.toUInt64) fnvOffset

structure BloomFilter where
  bits : List UInt64
  size : UInt64
  hashes : UInt64
  deriving DecidableEq, Repr

/-- `make([]uint64, n)` does not panic: the slice fits into 2^48 bytes. -/
def Makes (n : UInt64) : Prop := n.toNat * 8 ≤ 2 ^ 48

instance (n : UInt64) : Decidable (Makes n) := inferInstanceAs (Decidable (_ ≤ _))

/-- `New`, from the size and the number of hash functions that are optimal -/
def new (size hashes : UInt64) : Option BloomFilter :=
  let size := if size = 0 then 1 else size
  let hashes := if hashes = 0 then 1 else hashes
  let words := (size + 63) / 64
  if Makes words then
    some { bits := List.replicate words.toNat 0, size := words * 64, hashes := hashes }
  else none

namespace BloomFilter

variable (bf : BloomFilter)

/-- The positions of an element -/
def probes (data : List UInt8) : List UInt64 :=
  (List.range bf.hashes.toNat).map fun i =>
    (fnv64a data + UInt64.ofNat i * fnv64 data) % bf.size

def positions (data : List UInt8) : Option (List UInt64) :=
  if Makes bf.hashes then some (bf.probes data) else none

/-- `bits[word] |= 1 << bit` -/
def mark (bits : List UInt64) (pos : UInt64) : Option (List UInt64) :=
  bits[(pos / 64).toNat]?.map fun w => bits.set (pos / 64).toNat (w ||| 1 <<< (pos % 64))

def add (data : List UInt8) : Option BloomFilter :=
  (bf.positions data).bind fun positions =>
    (positions.foldlM mark bf.bits).map fun bits => { bf with bits := bits }

/-- The loop of `Contains` -/
def probe (bits : List UInt64) : List UInt64 → Option Bool
  | [] => some true
  | pos :: rest =>
    bits[(pos / 64).toNat]?.bind fun w =>
      if w &&& 1 <<< (pos % 64) = 0 then some false else probe bits rest

def contains (data : List UInt8) : Option Bool := (bf.positions data).bind (probe bf.bits)

def clear : BloomFilter := { bf with bits := bf.bits.map fun _ => 0 }

end BloomFilter

inductive Op where
  | add (data : List UInt8)
  | clear
  | contains (data : List UInt8)
  deriving DecidableEq, Repr

def BloomFilter.apply (bf : BloomFilter) : Op → Option BloomFilter
  | .add data => bf.add data
  | .clear => some bf.clear
  | .contains data => (bf.contains data).map fun _ => bf

/-- A sequence of calls -/
def BloomFilter.run (bf : BloomFilter) (ops : List Op) : Option BloomFilter := ops.foldlM apply bf

/-- The elements that were added since the last `Clear`, after one more call -/
def Op.added (elems : List (List UInt8)) : Op → List (List UInt8)
  | .add data => data :: elems
  | .clear => []
  | .contains _ => elems

def added (ops : List Op) : List (List UInt8) := ops.foldl Op.added []

/-! ### Bits -/

/-- Bit `n` of the words -/
def bitAt (bits : List UInt64) (n : ℕ) : Bool :=
  bits[n / 64]?.any fun w => w.toNat.testBit (n % 64)

theorem toNat_bit (pos : UInt64) : (1 <<< (pos % 64) : UInt64).toNat = 2 ^ (pos.toNat % 64) := by
  have hlt : pos.toNat % 64 < 64 := Nat.mod_lt _ (by decide)
  have hpow : 2 ^ (pos.toNat % 64) < 2 ^ 64 := Nat.pow_lt_pow_right (by decide) hlt
  rw [UInt64.toNat_shiftLeft, UInt64.toNat_mod]
  change (1 <<< (pos.toNat % 64 % 64)) % 2 ^ 64 = _
  rw [Nat.mod_mod, Nat.one_shiftLeft, Nat.mod_eq_of_lt hpow]

theorem and_bit_eq_zero (w pos : UInt64) :
    w &&& 1 <<< (pos % 64) = 0 ↔ w.toNat.testBit (pos.toNat % 64) = false := by
  rw [← UInt64.toNat_inj, UInt64.toNat_and, toNat_bit, Nat.and_two_pow]
  change _ = 0 ↔ _
  rw [Nat.mul_eq_zero, or_iff_left (by positivity)]
  cases Nat.testBit w.toNat (pos.toNat % 64) <;> decide

theorem bitAt_toNat {bits : List UInt64} {pos w : UInt64}
    (hw : bits[(pos / 64).toNat]? = some w) :
    bitAt bits pos.toNat = w.toNat.testBit (pos.toNat % 64) := by
  rw [UInt64.toNat_div] at hw
  change bits[pos.toNat / 64]? = some w at hw
  rw [bitAt, hw]
  rfl

/-- Marking sets one bit. -/
theorem bitAt_mark {bits bits' : List UInt64} {pos : UInt64}
    (h : BloomFilter.mark bits pos = some bits') (n : ℕ) :
    bitAt bits' n = (bitAt bits n || decide (n = pos.toNat)) := by
  obtain ⟨w, hw, rfl⟩ := Option.map_eq_some_iff.1 h
  have hword : (pos / 64).toNat = pos.toNat / 64 := UInt64.toNat_div ..
  have hlt : pos.toNat / 64 < bits.length := hword ▸ (List.getElem?_eq_some_iff.1 hw).1
  rw [hword] at hw ⊢
  unfold bitAt
  rw [List.getElem?_set, if_pos hlt]
  by_cases hn : pos.toNat / 64 = n / 64
  · rw [if_pos hn, ← hn, hw, Option.any_some, Option.any_some, UInt64.toNat_or, toNat_bit,
      Nat.testBit_or, Nat.testBit_two_pow]
    congr 1
    rw [decide_eq_decide]
    omega
  · have hne : n ≠ pos.toNat := fun heq => hn (by rw [heq])
    rw [if_neg hn, decide_eq_false hne, Bool.or_false]

/-! ### Filters -/

/-- Every position of an element is one of the given elements. -/
def Covered (positions : List UInt8 → List UInt64) (elems : List (List UInt8)) (data : List UInt8) :
    Prop :=
  ∀ p ∈ positions data, ∃ y ∈ elems, p ∈ positions y

instance (positions : List UInt8 → List UInt64) (elems : List (List UInt8)) (data : List UInt8) :
    Decidable (Covered positions elems data) :=
  List.decidableBAll (fun p => ∃ y ∈ elems, p ∈ positions y) (positions data)

namespace BloomFilter

/-- The filter has words, and its size is the number of their bits. -/
structure Fits (bf : BloomFilter) : Prop where
  pos : bf.bits ≠ []
  size : bf.size.toNat = 64 * bf.bits.length

variable {bf bf' : BloomFilter} {data : List UInt8} {pos : UInt64}

/-- **No probe is outside of the words**, whether the sum has wrapped or not. -/
theorem Fits.word_lt (h : bf.Fits) (hpos : pos ∈ bf.probes data) :
    (pos / 64).toNat < bf.bits.length := by
  obtain ⟨i, -, rfl⟩ := List.mem_map.1 hpos
  have hlen := List.length_pos_iff.2 h.pos
  have hlt : (fnv64a data + UInt64.ofNat i * fnv64 data).toNat % bf.size.toNat < bf.size.toNat :=
    Nat.mod_lt _ (by rw [h.size]; omega)
  rw [UInt64.toNat_div, UInt64.toNat_mod]
  change _ / 64 < _
  rw [h.size] at hlt ⊢
  omega

/-- What does not depend on the bits -/
def SameShape (bf bf' : BloomFilter) : Prop :=
  bf'.bits.length = bf.bits.length ∧ bf'.size = bf.size ∧ bf'.hashes = bf.hashes

theorem SameShape.probes (h : SameShape bf bf') : bf'.probes = bf.probes := by
  funext data
  unfold BloomFilter.probes
  rw [h.2.1, h.2.2]

theorem Fits.congr (h : bf.Fits) (hs : SameShape bf bf') : bf'.Fits := by
  refine ⟨?_, by rw [hs.1, hs.2.1, h.size]⟩
  rw [← List.length_pos_iff, hs.1]
  exact List.length_pos_iff.2 h.pos

/-- The bits that are set are the positions of the elements. -/
def Holds (bf : BloomFilter) (elems : List (List UInt8)) : Prop :=
  ∀ n, bitAt bf.bits n = true ↔ ∃ y ∈ elems, ∃ p ∈ bf.probes y, p.toNat = n

theorem foldlM_mark (l : List UInt64) {bits : List UInt64}
    (h : ∀ p ∈ l, (p / 64).toNat < bits.length) :
    ∃ bits', l.foldlM mark bits = some bits' ∧ bits'.length = bits.length ∧
      ∀ n, bitAt bits' n = true ↔ bitAt bits n = true ∨ ∃ p ∈ l, p.toNat = n := by
  induction l generalizing bits with
  | nil => exact ⟨bits, rfl, rfl, by simp⟩
  | cons p l ih =>
    have hp := h p List.mem_cons_self
    obtain ⟨bits₁, hmark⟩ : ∃ bits₁, mark bits p = some bits₁ := by
      rw [mark, List.getElem?_eq_getElem hp]
      exact ⟨_, rfl⟩
    have hlen : bits₁.length = bits.length := by
      obtain ⟨w, -, rfl⟩ := Option.map_eq_some_iff.1 hmark
      exact List.length_set
    obtain ⟨bits', hfold, hlen', hbits⟩ := ih fun q hq => hlen ▸ h q (List.mem_cons_of_mem p hq)
    refine ⟨bits', ?_, hlen'.trans hlen, fun n => ?_⟩
    · rw [List.foldlM_cons, hmark]
      exact hfold
    · rw [hbits, bitAt_mark hmark, Bool.or_eq_true, decide_eq_true_iff, List.exists_mem_cons_iff,
        or_assoc, eq_comm (a := n)]

theorem positions_eq (h : Makes bf.hashes) (data : List UInt8) :
    bf.positions data = some (bf.probes data) :=
  if_pos h

theorem Holds.add {elems : List (List UInt8)} (h : bf.Holds elems) (hf : bf.Fits)
    (hm : Makes bf.hashes) (data : List UInt8) :
    ∃ bf', bf.add data = some bf' ∧ SameShape bf bf' ∧ bf'.Holds (data :: elems) := by
  obtain ⟨bits, hfold, hlen, hbits⟩ := foldlM_mark (bf.probes data) fun p hp => hf.word_lt hp
  refine ⟨{ bf with bits := bits }, ?_, ⟨hlen, rfl, rfl⟩, ?_⟩
  · rw [BloomFilter.add, positions_eq hm, Option.bind_some, hfold]
    rfl
  intro n
  change bitAt bits n = true ↔ ∃ y ∈ data :: elems, ∃ p ∈ bf.probes y, p.toNat = n
  rw [hbits, h n, List.exists_mem_cons_iff, or_comm]

theorem holds_clear : bf.clear.Holds [] := by
  intro n
  have hzero : bitAt bf.clear.bits n = false := by
    rw [bitAt, clear, List.getElem?_map]
    cases bf.bits[n / 64]? <;> simp
  simp [hzero]

/-- The loop of `Contains` looks for a bit that is not set. -/
theorem probe_eq {bits : List UInt64} (l : List UInt64)
    (h : ∀ p ∈ l, (p / 64).toNat < bits.length) :
    probe bits l = some (l.all fun p => bitAt bits p.toNat) := by
  induction l with
  | nil => rfl
  | cons p l ih =>
    have hw := List.getElem?_eq_getElem (h p List.mem_cons_self)
    rw [probe, hw, Option.bind_some, List.all_cons, bitAt_toNat hw,
      ih fun q hq => h q (List.mem_cons_of_mem p hq)]
    split_ifs with hbit
    · rw [and_bit_eq_zero] at hbit
      rw [hbit, Bool.false_and]
    · rw [and_bit_eq_zero, Bool.not_eq_false] at hbit
      rw [hbit, Bool.true_and]

theorem Holds.contains {elems : List (List UInt8)} (h : bf.Holds elems) (hf : bf.Fits)
    (hm : Makes bf.hashes) (data : List UInt8) :
    bf.contains data = some (decide (Covered bf.probes elems data)) := by
  rw [BloomFilter.contains, positions_eq hm, Option.bind_some, probe_eq _ fun p hp => hf.word_lt hp]
  congr 1
  rw [Bool.eq_iff_iff, List.all_eq_true, decide_eq_true_iff]
  refine forall₂_congr fun p _ => ?_
  rw [h]
  simp only [UInt64.toNat_inj, exists_eq_right]

theorem Holds.apply {elems : List (List UInt8)} (h : bf.Holds elems) (hf : bf.Fits)
    (hm : Makes bf.hashes) (op : Op) :
    ∃ bf', bf.apply op = some bf' ∧ SameShape bf bf' ∧ bf'.Holds (op.added elems) := by
  cases op with
  | add data => exact h.add hf hm data
  | clear => exact ⟨bf.clear, rfl, ⟨List.length_map _, rfl, rfl⟩, holds_clear⟩
  | contains data =>
    refine ⟨bf, ?_, ⟨rfl, rfl, rfl⟩, h⟩
    rw [BloomFilter.apply, h.contains hf hm]
    rfl

theorem Holds.run {elems : List (List UInt8)} (h : bf.Holds elems) (hf : bf.Fits)
    (hm : Makes bf.hashes) (ops : List Op) :
    ∃ bf', bf.run ops = some bf' ∧ SameShape bf bf' ∧ bf'.Holds (ops.foldl Op.added elems) := by
  induction ops generalizing bf elems with
  | nil => exact ⟨bf, rfl, ⟨rfl, rfl, rfl⟩, h⟩
  | cons op ops ih =>
    obtain ⟨bf₁, hop, hs, h₁⟩ := h.apply hf hm op
    obtain ⟨bf', hrun, hs', h'⟩ := ih h₁ (hf.congr hs) (hs.2.2 ▸ hm)
    refine ⟨bf', ?_, ⟨hs'.1.trans hs.1, hs'.2.1.trans hs.2.1, hs'.2.2.trans hs.2.2⟩, h'⟩
    rw [BloomFilter.run, List.foldlM_cons, hop]
    exact hrun

theorem add_hashes (h : bf.add data = some bf') : bf'.hashes = bf.hashes := by
  obtain ⟨l, -, h⟩ := Option.bind_eq_some_iff.1 h
  obtain ⟨bits, -, rfl⟩ := Option.map_eq_some_iff.1 h
  rfl

theorem run_hashes {ops : List Op} (h : bf.run ops = some bf') : bf'.hashes = bf.hashes := by
  induction ops generalizing bf with
  | nil => exact congrArg _ (Option.some.inj h).symm
  | cons op ops ih =>
    rw [run, List.foldlM_cons] at h
    obtain ⟨bf₁, hop, hrun⟩ := Option.bind_eq_some_iff.1 h
    rw [ih hrun]
    cases op with
    | add data => exact add_hashes hop
    | clear => exact (congrArg hashes (Option.some.inj hop)).symm
    | contains data =>
      obtain ⟨-, -, rfl⟩ := Option.map_eq_some_iff.1 hop
      rfl

end BloomFilter

open BloomFilter

/-- What `New` makes has the size of its words, and no bit is set. -/
theorem new_spec {size hashes : UInt64} {bf : BloomFilter} (h : new size hashes = some bf)
    (hwords : bf.bits ≠ []) : bf.Fits ∧ bf.Holds [] := by
  rw [new] at h
  revert h
  generalize (if size = 0 then 1 else size) = n
  generalize (if hashes = 0 then 1 else hashes) = k
  intro h
  split_ifs at h with hmakes
  cases h
  have hlt := (n + 63).toNat_lt
  have hword : ((n + 63) / 64).toNat = (n + 63).toNat / 64 := UInt64.toNat_div ..
  refine ⟨⟨hwords, ?_⟩, fun i => ?_⟩
  · rw [List.length_replicate, UInt64.toNat_mul, hword]
    change _ * 64 % 2 ^ 64 = _
    omega
  · have hzero : bitAt (List.replicate ((n + 63) / 64).toNat 0) i = false := by
      rw [bitAt, List.getElem?_replicate]
      split_ifs <;> simp
    exact iff_of_false (Bool.eq_false_iff.1 hzero) fun ⟨_, hmem, _⟩ => absurd hmem List.not_mem_nil

/-- **When `Contains` is exact up to positions**, for every filter with a word and every sequence of
calls: none of them panics, and an element is found if and only if every one of its positions is a
position of an element that was added since the last `Clear`; so there are no false negatives, and
it does not matter in which order and how often elements were added.  Exactly if the positions of an
element fit into a slice; otherwise the calls panic. -/
theorem contains_exact {size hashes : UInt64} {bf₀ : BloomFilter}
    (hnew : new size hashes = some bf₀) (hwords : bf₀.bits ≠ []) (ops : List Op) :
    (∃ bf, bf₀.run ops = some bf ∧
      (∀ x, bf.contains x = some (decide (Covered bf₀.probes (added ops) x))) ∧
      (∀ x ∈ added ops, bf.contains x = some true) ∧
      (∀ ops' bf', bf₀.run ops' = some bf' →
        (∀ y, y ∈ added ops' ↔ y ∈ added ops) → ∀ x, bf'.contains x = bf.contains x) ∧
      ∀ x, ∀ p ∈ bf₀.probes x, (p / 64).toNat < bf.bits.length) ↔ Makes bf₀.hashes := by
  obtain ⟨hf, hempty⟩ := new_spec hnew hwords
  constructor
  · rintro ⟨bf, hrun, hexact, -⟩
    have hsame : bf.hashes = bf₀.hashes := run_hashes hrun
    by_contra hm
    have hpanic : bf.contains [] = none := by
      rw [BloomFilter.contains, BloomFilter.positions, hsame, if_neg hm, Option.bind_none]
    rw [hexact] at hpanic
    cases hpanic
  · intro hm
    have hall (ops : List Op) : ∃ bf, bf₀.run ops = some bf ∧
        bf.bits.length = bf₀.bits.length ∧
        ∀ x, bf.contains x = some (decide (Covered bf₀.probes (added ops) x)) := by
      obtain ⟨bf, hrun, hs, h⟩ := hempty.run hf hm ops
      exact ⟨bf, hrun, hs.1, hs.probes ▸ h.contains (hf.congr hs) (hs.2.2 ▸ hm)⟩
    obtain ⟨bf, hrun, hlen, hanswer⟩ := hall ops
    refine ⟨bf, hrun, hanswer, fun x hx => ?_, fun ops' bf' hrun' hsame x => ?_, fun x p hp => ?_⟩
    · rw [hanswer]
      exact congrArg some (decide_eq_true fun p hp => ⟨x, hx, hp⟩)
    · obtain ⟨bf₁, hrun₁, -, hanswer₁⟩ := hall ops'
      cases hrun'.symm.trans hrun₁
      rw [hanswer, hanswer₁]
      refine congrArg some (decide_eq_decide.2 (forall₂_congr fun p _ => ?_))
      simp only [hsame]
    · rw [hlen]
      exact hf.word_lt hp

/-- A word, two positions for each element: what was cleared is not found, what was added is. -/
theorem contains_exact_word :
    ∃ bf₀ bf, new 64 2 = some bf₀ ∧
      bf₀.run [.add [1], .clear, .add [2], .add [3], .add [2]] = some bf ∧
      bf.contains [2] = some true ∧ bf.contains [1] = some false := by
  have hnew : new 64 2 = some ⟨[0], 64, 2⟩ := by decide
  obtain ⟨bf, hrun, hexact, hmem, -, -⟩ := (contains_exact hnew (by decide)
    [.add [1], .clear, .add [2], .add [3], .add [2]]).2 (by decide)
  refine ⟨_, bf, hnew, hrun, hmem [2] (by decide), ?_⟩
  rw [hexact]
  decide

/-- With one word and 2^63 hash functions, every element makes `Add` and `Contains` panic. -/
theorem add_panics : ∃ bf, new 1 0x8000000000000000 = some bf ∧
    ∀ x, bf.add x = none ∧ bf.contains x = none := by
  refine ⟨⟨[0], 64, 0x8000000000000000⟩, by decide, fun x => ?_⟩
  have hnone : BloomFilter.positions ⟨[0], 64, 0x8000000000000000⟩ x = none :=
    if_neg (by decide)
  rw [BloomFilter.add, BloomFilter.contains, hnone]
  exact ⟨rfl, rfl⟩

end Filter

end GinRpc
