import Mathlib.Data.Int.Basic
import Mathlib.Data.List.Basic

/-!
# Checks of arguments

A check is a computation in `Except` without a result.  A list of checks passes if all of them do.

A size that is not positive is often replaced by a default.
-/

namespace GinRpc

universe u v

theorem mapError_eq_ok {α : Type u} {ε : Type v} {x : Except ε α} {g : ε → ε} {a : α}
    (h : x.mapError g = .ok a) : x = .ok a := by
  cases x with
  | error e => cases h
  | ok b => exact h

theorem forM_eq_ok_iff {α ε : Type*} {f : α → Except ε Unit} {l : List α} :
    l.forM f = .ok () ↔ ∀ a ∈ l, f a = .ok () := by
  induction l with
  | nil => simp [pure, Except.pure]
  | cons a l ih =>
    change (f a >>= fun _ => l.forM f) = .ok () ↔ _
    rw [List.forall_mem_cons, ← ih]
    cases f a with
    | error e => simp [bind, Except.bind]
    | ok u => simp [bind, Except.bind]

theorem toNat_default_pos (n : ℤ) {m : ℤ} (hm : 0 < m) : 0 < (if n ≤ 0 then m else n).toNat := by
  split_ifs with h
  · exact Int.pos_iff_toNat_pos.1 hm
  · exact Int.pos_iff_toNat_pos.1 (Int.not_le.1 h)

end GinRpc
