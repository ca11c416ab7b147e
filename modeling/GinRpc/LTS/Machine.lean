import Mathlib.Data.List.Infix

/-!
# Machines that answer every input

A sequential component is a function from a state and an input to a new state and an answer.  Its
behaviour on a list of inputs is the list of the inputs with their answers.

* `Machine.log`, `Machine.after` : the answers to a list of inputs, and the state they lead to.
* `Machine.invariant` : what holds initially and is kept by every step holds of every log; the
  steps may assume that the inputs so far are the beginning of the whole list.
* `Machine.log_eq_of_simulation` : two machines related by a simulation answer alike.
* `Machine.log_filter` : a machine with a part for every key answers, at each key, as its part.
-/

namespace GinRpc

/-- A machine with states `S` that answers an input in `I` by an output in `O`. -/
structure Machine (S I O : Type*) where
  step : S → I → S × O

namespace Machine

variable {S T I O : Type*} (M : Machine S I O)

/-- The state after a list of inputs. -/
def after (s : S) (inputs : List I) : S := inputs.foldl (fun s i => (M.step s i).1) s

/-- The inputs with their answers. -/
def log : S → List I → List (I × O)
  | _, [] => []
  | s, i :: inputs => (i, (M.step s i).2) :: log (M.step s i).1 inputs

variable {M} {s : S} {inputs : List I}

@[simp] theorem after_nil : M.after s [] = s := rfl

@[simp] theorem log_nil : M.log s [] = [] := rfl

theorem after_append (past : List I) :
    M.after s (past ++ inputs) = M.after (M.after s past) inputs := List.foldl_append ..

theorem after_concat (i : I) : M.after s (inputs ++ [i]) = (M.step (M.after s inputs) i).1 := by
  simp [after]

theorem log_concat (i : I) :
    M.log s (inputs ++ [i]) = M.log s inputs ++ [(i, (M.step (M.after s inputs) i).2)] := by
  induction inputs generalizing s with
  | nil => rfl
  | cons j inputs ih => simp [log, ih, after]

@[simp] theorem map_fst_log : (M.log s inputs).map Prod.fst = inputs := by
  induction inputs generalizing s with
  | nil => rfl
  | cons i inputs ih => simp [log, ih]

/-- Invariant rule for logs. -/
theorem invariant {P : List (I × O) → S → Prop} (h₀ : P [] s)
    (hstep : ∀ l s i, l.map Prod.fst ++ [i] <+: inputs → P l s →
      P (l ++ [(i, (M.step s i).2)]) (M.step s i).1) :
    P (M.log s inputs) (M.after s inputs) := by
  -- by induction on the inputs read so far, a prefix of all inputs
  suffices h : ∀ past, past <+: inputs → P (M.log s past) (M.after s past) from
    h inputs (List.prefix_refl _)
  intro past
  induction past using List.reverseRecOn with
  | nil => exact fun _ => h₀
  | append_singleton past i ih =>
    intro hpre
    rw [log_concat, after_concat]
    refine hstep _ _ i ?_ (ih ((List.prefix_append _ _).trans hpre))
    rwa [map_fst_log]

/-- Simulation rule: related machines give the same answers. -/
theorem log_eq_of_simulation {N : Machine T I O} {t : T} {R : List I → S → T → Prop}
    (h₀ : R [] s t)
    (hstep : ∀ past s t i, past ++ [i] <+: inputs → R past s t →
      (M.step s i).2 = (N.step t i).2 ∧ R (past ++ [i]) (M.step s i).1 (N.step t i).1) :
    M.log s inputs = N.log t inputs := by
  suffices h : ∀ past, past <+: inputs →
      M.log s past = N.log t past ∧ R past (M.after s past) (N.after t past) from
    (h inputs (List.prefix_refl _)).1
  intro past
  induction past using List.reverseRecOn with
  | nil => exact fun _ => ⟨rfl, h₀⟩
  | append_singleton past i ih =>
    intro hpre
    obtain ⟨hlog, hR⟩ := ih ((List.prefix_append _ _).trans hpre)
    obtain ⟨hout, hR⟩ := hstep past _ _ i hpre hR
    rw [log_concat, log_concat, after_concat, after_concat, hlog, hout]
    exact ⟨rfl, hR⟩

/-- A machine whose inputs each act on the part `v s k` under their key `f i`: the answers at a key
are those of a machine for the part alone. -/
theorem log_filter {K J : Type*} [DecidableEq K] {N : Machine T J O} {f : I → K} {g : I → J}
    {v : S → K → T} {P : S → Prop} (h₀ : P s) (hinv : ∀ s i, P s → P (M.step s i).1)
    (hout : ∀ s i, P s → (M.step s i).2 = (N.step (v s (f i)) (g i)).2)
    (hview : ∀ s i k, P s →
      v (M.step s i).1 k = if f i = k then (N.step (v s k) (g i)).1 else v s k) (k : K) :
    ((M.log s inputs).filter fun p => decide (f p.1 = k)).map (fun p => (g p.1, p.2)) =
      N.log (v s k) ((inputs.filter fun i => decide (f i = k)).map g) := by
  induction inputs generalizing s with
  | nil => rfl
  | cons i inputs ih =>
    have htail := ih (hinv s i h₀)
    rw [hview s i k h₀] at htail
    by_cases hk : f i = k
    · rw [if_pos hk] at htail
      simp [log, hk, htail, hout s i h₀]
    · rw [if_neg hk] at htail
      simp [log, hk, htail]

/-- What relates the members of a list in order relates those read before to the next one. -/
theorem rel_of_prefix {r : I → I → Prop} {past : List I} {i : I} (h : inputs.Pairwise r)
    (hpre : past ++ [i] <+: inputs) : ∀ j ∈ past, r j i := by
  have h' := h.sublist hpre.sublist
  exact fun j hj => (List.pairwise_append.1 h').2.2 j hj i (List.mem_singleton_self i)

theorem rel_of_mem_log {r : I → I → Prop} {past : List I} {i : I} (h : inputs.Pairwise r)
    (hpre : past ++ [i] <+: inputs) : ∀ p ∈ M.log s past, r p.1 i := by
  intro p hp
  refine rel_of_prefix h hpre p.1 ?_
  have hmem : p.1 ∈ (M.log s past).map Prod.fst := List.mem_map_of_mem hp
  rwa [map_fst_log] at hmem

theorem mem_of_prefix {past : List I} {i : I} (hpre : past ++ [i] <+: inputs) : i ∈ inputs :=
  hpre.subset (List.mem_append_right _ (List.mem_singleton_self i))

end Machine

end GinRpc
