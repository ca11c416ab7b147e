import Mathlib.Logic.Function.Basic
import Mathlib.Data.Nat.Basic

/-!
# Providers of the configuration center

What the configuration center relies on: a store that gives the values of a key strictly increasing
versions.  `MemoryProvider` of `plugins/configcenter/provider_memory.go`, which counts the versions
of all keys together, is such a store.

A key stands for a namespace and a key in it.
-/

namespace GinRpc

namespace ConfigCenter

variable {Key Value : Type*} [DecidableEq Key]

/-- A store of versioned values. -/
structure Provider (Key Value : Type*) where
  data : Key → Option (Value × ℕ) := fun _ => none
  /-- The largest version that was given to a value of the key. -/
  last : Key → ℕ := fun _ => 0

namespace Provider

variable (p : Provider Key Value)

/-- A value gets a version that is larger than those before it. -/
def set (k : Key) (v : Value) (version : ℕ) : Option (Provider Key Value) :=
  if p.last k < version then
    some ⟨Function.update p.data k (some (v, version)), Function.update p.last k version⟩
  else none

def delete (k : Key) : Provider Key Value := { p with data := Function.update p.data k none }

/-- Every value has the last version of its key. -/
def Versioned : Prop := ∀ k v version, p.data k = some (v, version) → version = p.last k

variable {p} {p' : Provider Key Value} {k : Key} {v : Value} {version : ℕ}

theorem set_eq_some (h : p.set k v version = some p') :
    p.last k < version ∧
      p' = ⟨Function.update p.data k (some (v, version)), Function.update p.last k version⟩ := by
  unfold set at h
  split_ifs at h with hlt
  exact ⟨hlt, (Option.some.inj h).symm⟩

omit [DecidableEq Key] in
theorem versioned_new : (⟨fun _ => none, fun _ => 0⟩ : Provider Key Value).Versioned :=
  fun _ _ _ h => by cases h

theorem Versioned.set (h : p.Versioned) (hs : p.set k v version = some p') : p'.Versioned := by
  obtain ⟨-, rfl⟩ := set_eq_some hs
  intro k' v' version' hd
  by_cases hk : k' = k
  · subst hk
    simp only [Function.update_self] at hd ⊢
    cases hd
    rfl
  · simp only [Function.update_of_ne hk] at hd ⊢
    exact h k' v' version' hd

theorem Versioned.delete (h : p.Versioned) (k : Key) : (p.delete k).Versioned := by
  intro k' v' version' hd
  by_cases hk : k' = k
  · subst hk
    simp only [Provider.delete, Function.update_self] at hd
    cases hd
  · simp only [Provider.delete, Function.update_of_ne hk] at hd
    exact h k' v' version' hd

end Provider

/-! ### The provider in memory -/

/-- The values of `MemoryProvider`, with the version counter of all keys. -/
structure MemoryProvider (Key Value : Type*) where
  data : Key → Option (Value × ℕ) := fun _ => none
  version : ℕ := 0

namespace MemoryProvider

variable (m : MemoryProvider Key Value)

/-- `Get`; `none` is `ErrNotFound`. -/
def get (k : Key) : Option (Value × ℕ) := m.data k

/-- `Set`, with the version that it returns. -/
def set (k : Key) (v : Value) : MemoryProvider Key Value × ℕ :=
  (⟨Function.update m.data k (some (v, m.version + 1)), m.version + 1⟩, m.version + 1)

/-- `Delete`; `none` is `ErrNotFound`. -/
def delete (k : Key) : Option (MemoryProvider Key Value) :=
  if (m.data k).isSome then some { m with data := Function.update m.data k none } else none

/-- The store that the provider implements: its versions are those of the counter. -/
structure Refines (m : MemoryProvider Key Value) (p : Provider Key Value) : Prop where
  data : m.data = p.data
  last : ∀ k, p.last k ≤ m.version

variable {m} {p : Provider Key Value}

omit [DecidableEq Key] in
theorem Refines.get (h : m.Refines p) (k : Key) : m.get k = p.data k := congrFun h.data k

/-- The version of `Set` is larger than those before. -/
theorem Refines.set (h : m.Refines p) (k : Key) (v : Value) :
    ∃ p', p.set k v (m.set k v).2 = some p' ∧ (m.set k v).1.Refines p' := by
  have hlt : p.last k < m.version + 1 := Nat.lt_succ_of_le (h.last k)
  refine ⟨_, if_pos hlt, ?_, fun k' => ?_⟩
  · simp only [MemoryProvider.set, h.data]
  · by_cases hk : k' = k
    · subst hk
      simp only [Function.update_self]
      exact le_refl _
    · simp only [Function.update_of_ne hk]
      exact Nat.le_succ_of_le (h.last k')

theorem Refines.delete {m' : MemoryProvider Key Value} (h : m.Refines p) (k : Key)
    (hd : m.delete k = some m') : m'.Refines (p.delete k) := by
  unfold MemoryProvider.delete at hd
  split_ifs at hd
  cases hd
  exact ⟨by simp only [Provider.delete, h.data], h.last⟩

end MemoryProvider

end ConfigCenter

end GinRpc
