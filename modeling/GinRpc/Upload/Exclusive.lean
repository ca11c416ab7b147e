import GinRpc.LTS.Basic
import GinRpc.Text.Basic

/-!
# Uploads that must not overwrite

Model of `Upload` and `UploadFromBytes` in `plugins/upload/upload.go` with `EnableOverwrite` off,
from where a call has found its path.  Both look whether the file exists.  `Upload` then opens the
source, creates the file exclusively and copies; `UploadFromBytes` calls `os.WriteFile`, which
creates the file or truncates it.  The bytes are written in pieces of any size, each at the offset
that the call has reached, and everything may fail.

A call that fails before it has a path writes nothing, and the type that is detected at the end
changes nothing; both are left out.  Ghost fields record whether the file existed when a call began,
and which call created a file.

* `Fresh` : no file appears between the two steps of `UploadFromBytes`.
* `State.exclusive` : then no call changes what it should not, and one call succeeds for each path;
  if no transfer fails halfway, a call that fails has created nothing.
* `State.overwritten` : both conditions are needed.
-/

namespace GinRpc

namespace Upload

/-- Where a call is -/
inductive Pc where
  /-- before `os.Stat` -/
  | stat
  /-- `Upload`, before `fileHeader.Open()` -/
  | openSource
  /-- before the file is opened for writing -/
  | create
  /-- a number of bytes is written -/
  | writing (k : ℕ)
  | failed (message : Text)
  | succeeded
  deriving DecidableEq, Repr

/-- A call of `Upload` or of `UploadFromBytes` -/
structure Job where
  /-- The call is `Upload`. -/
  stream : Bool
  path : Text
  /-- what the source holds -/
  data : List UInt8
  pc : Pc := .stat
  existed : Bool := false
  deriving DecidableEq, Repr

/-- What a call does when `os.Stat` has not found the file -/
def Job.afterStat (job : Job) : Pc := if job.stream then .openSource else .create

/-- The bytes of the file that the call has written, if the file is open or complete -/
def Job.written (job : Job) : Option ℕ :=
  match job.pc with
  | .writing k => some k
  | .succeeded => some job.data.length
  | _ => none

structure State where
  files : Text → Option (List UInt8)
  jobs : List Job := []
  creator : Text → Option ℕ := fun _ => none

inductive Act where
  | call (stream : Bool) (path : Text) (data : List UInt8)
  /-- the next operation of a call, which succeeds or finds the file -/
  | step (i : ℕ)
  /-- the next bytes are written -/
  | write (i n : ℕ)
  /-- the next operation of a call fails -/
  | fail (i : ℕ) (err : Text)
  deriving DecidableEq, Repr

/-- The call that takes the step -/
def Act.caller : Act → Option ℕ
  | .call _ _ _ => none
  | .step i | .write i _ | .fail i _ => some i

/-- A write at an offset, with zeros where the file ends before it -/
def splice (content : List UInt8) (k : ℕ) (piece : List UInt8) : List UInt8 :=
  (content.take k).rightpad k 0 ++ (piece ++ content.drop (k + piece.length))

namespace State

variable (s : State)

def goto (i : ℕ) (job : Job) (pc : Pc) : State :=
  { s with jobs := s.jobs.set i { job with pc := pc } }

/-- The file is opened for writing: exclusively, or with `O_TRUNC`. -/
def create (i : ℕ) (job : Job) : State :=
  if job.stream ∧ (s.files job.path).isSome then
    s.goto i job (.failed
      ("failed to create destination file: open " ++ job.path ++ ": file exists"))
  else
    { s.goto i job (.writing 0) with
      files := Function.update s.files job.path (some [])
      creator := if s.files job.path = none then Function.update s.creator job.path (some i)
        else s.creator }

/-- The next operation of a call -/
def next (i : ℕ) (job : Job) : Option State :=
  match job.pc with
  | .stat =>
    if (s.files job.path).isSome then
      some (s.goto i job (.failed ("file already exists: " ++ job.path)))
    else some (s.goto i job job.afterStat)
  | .openSource => some (s.goto i job .create)
  | .create => some (s.create i job)
  | .writing k => if k = job.data.length then some (s.goto i job .succeeded) else none
  | _ => none

def write (i : ℕ) (job : Job) (n : ℕ) : Option State :=
  match job.pc with
  | .writing k =>
    if k + n ≤ job.data.length then
      some { s.goto i job (.writing (k + n)) with
        files := Function.update s.files job.path (some
          (splice ((s.files job.path).getD []) k ((job.data.drop k).take n))) }
    else none
  | _ => none

/-- An error of `os.Stat` counts as a file that does not exist. -/
def fail (i : ℕ) (job : Job) (err : Text) : Option State :=
  match job.pc with
  | .stat => some (s.goto i job job.afterStat)
  | .openSource => some (s.goto i job (.failed ("failed to open uploaded file: " ++ err)))
  | .create => some (s.goto i job (.failed
      ((if job.stream then "failed to create destination file: " else "failed to write file: ") ++
        err)))
  | .writing _ => some (s.goto i job (.failed
      ((if job.stream then "failed to copy file content: " else "failed to write file: ") ++ err)))
  | _ => none

def step : Act → Option State
  | .call stream path data =>
    some { s with jobs := s.jobs ++ [⟨stream, path, data, .stat, (s.files path).isSome⟩] }
  | .step i => s.jobs[i]?.bind (s.next i)
  | .write i n => s.jobs[i]?.bind fun job => s.write i job n
  | .fail i err => s.jobs[i]?.bind fun job => s.fail i job err

end State

/-- Any files, and no call yet -/
def lts : LTS State Act where
  init s := s.jobs = [] ∧ s.creator = fun _ => none
  step s a s' := s.step a = some s'

/-- `os.WriteFile` finds no file. -/
def Fresh (s : State) : Act → Prop
  | .step i => ∀ job ∈ s.jobs[i]?, job.stream = false → job.pc = .create → s.files job.path = none
  | _ => True

/-- Nothing fails once the file is open. -/
def Reliable (s : State) : Act → Prop
  | .fail i _ => ∀ job ∈ s.jobs[i]?, job.written = none
  | _ => True

/-! ### Steps -/

namespace State

variable {s s' : State} {a : Act} {i : ℕ} {job : Job}

/-- What a step does to the files and to the call that takes it -/
inductive Effect (s : State) : Act → State → Prop
  | called (stream : Bool) (path : Text) (data : List UInt8) :
      Effect s (.call stream path data)
        { s with jobs := s.jobs ++ [⟨stream, path, data, .stat, (s.files path).isSome⟩] }
  | moved {a : Act} {i : ℕ} {job : Job} {pc : Pc} (ha : a.caller = some i)
      (hjob : s.jobs[i]? = some job)
      (hpc : ∀ k, ({ job with pc := pc } : Job).written = some k → job.written = some k)
      (hkeep : Reliable s a → job.written.isSome → ({ job with pc := pc } : Job).written.isSome) :
      Effect s a (s.goto i job pc)
  | created {i : ℕ} {job : Job} (hjob : s.jobs[i]? = some job) (hfile : s.files job.path = none) :
      Effect s (.step i) { s.goto i job (.writing 0) with
        files := Function.update s.files job.path (some [])
        creator := Function.update s.creator job.path (some i) }
  | truncated {i : ℕ} {job : Job} (hjob : s.jobs[i]? = some job) (hfresh : ¬ Fresh s (.step i)) :
      Effect s (.step i) { s.goto i job (.writing 0) with
        files := Function.update s.files job.path (some []) }
  | wrote {i k n : ℕ} {job : Job} (hjob : s.jobs[i]? = some job) (hpc : job.pc = .writing k)
      (hn : k + n ≤ job.data.length) :
      Effect s (.write i n) { s.goto i job (.writing (k + n)) with
        files := Function.update s.files job.path (some
          (splice ((s.files job.path).getD []) k ((job.data.drop k).take n))) }

/-- A call that has not opened its file goes on without it, or fails. -/
theorem Effect.unopened {pc : Pc} (ha : a.caller = some i) (hjob : s.jobs[i]? = some job)
    (hold : job.written = none) (hnew : ({ job with pc := pc } : Job).written = none) :
    s.Effect a (s.goto i job pc) := by
  refine .moved ha hjob (fun k hk => ?_) fun _ hsome => ?_
  · rw [hnew] at hk
    cases hk
  · rw [hold] at hsome
    cases hsome

theorem written_afterStat (job : Job) :
    ({ job with pc := job.afterStat } : Job).written = none := by
  unfold Job.afterStat
  split_ifs <;> rfl

theorem effect_of_create (hjob : s.jobs[i]? = some job) (hpc : job.pc = .create) :
    s.Effect (.step i) (s.create i job) := by
  unfold create
  split_ifs with hexcl hnone
  · exact .unopened rfl hjob (by rw [Job.written, hpc]) rfl
  · exact .created hjob hnone
  · refine .truncated hjob fun hfresh => hnone ?_
    rw [not_and, Bool.not_eq_true, Option.isSome_eq_false_iff, Option.isNone_iff_eq_none] at hexcl
    cases hstream : job.stream with
    | true => exact hexcl hstream
    | false => exact hfresh job hjob hstream hpc

theorem effect_of_next (hjob : s.jobs[i]? = some job) (h : s.next i job = some s') :
    s.Effect (.step i) s' := by
  unfold next at h
  split at h
  · rename_i hpc
    have hold : job.written = none := by rw [Job.written, hpc]
    split_ifs at h
    · cases h
      exact .unopened rfl hjob hold rfl
    · cases h
      exact .unopened rfl hjob hold (written_afterStat job)
  · rename_i hpc
    cases h
    exact .unopened rfl hjob (by rw [Job.written, hpc]) rfl
  · rename_i hpc
    cases h
    exact effect_of_create hjob hpc
  · rename_i k hpc
    split_ifs at h with hk
    cases h
    refine .moved rfl hjob (fun k' hk' => ?_) fun _ _ => rfl
    cases hk'
    rw [Job.written, hpc, hk]
  · cases h

theorem effect_of_fail {err : Text} (hjob : s.jobs[i]? = some job)
    (h : s.fail i job err = some s') : s.Effect (.fail i err) s' := by
  unfold fail at h
  split at h
  · rename_i hpc
    cases h
    exact .unopened rfl hjob (by rw [Job.written, hpc]) (written_afterStat job)
  · rename_i hpc
    cases h
    exact .unopened rfl hjob (by rw [Job.written, hpc]) rfl
  · rename_i hpc
    cases h
    exact .unopened rfl hjob (by rw [Job.written, hpc]) rfl
  · cases h
    refine .moved rfl hjob (fun k hk => by cases hk) fun hok hsome => ?_
    rw [hok job hjob] at hsome
    cases hsome
  · cases h

theorem effect_of_step (h : s.step a = some s') : s.Effect a s' := by
  cases a with
  | call stream path data =>
    cases h
    exact .called stream path data
  | step i =>
    obtain ⟨job, hjob, h⟩ := Option.bind_eq_some_iff.1 h
    exact effect_of_next hjob h
  | write i n =>
    obtain ⟨job, hjob, h⟩ := Option.bind_eq_some_iff.1 h
    unfold write at h
    split at h
    · rename_i k hpc
      split_ifs at h with hn
      cases h
      exact .wrote hjob hpc hn
    · cases h
  | fail i err =>
    obtain ⟨job, hjob, h⟩ := Option.bind_eq_some_iff.1 h
    exact effect_of_fail hjob h

/-! ### The invariant -/

theorem splice_take {data : List UInt8} {k n : ℕ} (h : k + n ≤ data.length) :
    splice (data.take k) k ((data.drop k).take n) = data.take (k + n) := by
  have hk : (data.take k).length = k := List.length_take_of_le (by omega)
  have hn : ((data.drop k).take n).length = n :=
    List.length_take_of_le (by rw [List.length_drop]; omega)
  rw [splice, List.take_take, Nat.min_self, List.rightpad, hk, Nat.sub_self, List.replicate_zero,
    List.append_nil, hn, List.drop_of_length_le (l := data.take k) (by rw [hk]; omega),
    List.append_nil, List.take_add]

/-- A file that a call has open or has completed is its own. -/
structure Owned (s : State) : Prop where
  existed : ∀ (i : ℕ) (job : Job), s.jobs[i]? = some job → job.existed = true →
    (s.files job.path).isSome
  written : ∀ (i : ℕ) (job : Job), s.jobs[i]? = some job → ∀ k, job.written = some k →
    s.creator job.path = some i ∧ job.existed = false ∧ s.files job.path = some (job.data.take k)

theorem job_of_set {l : List Job} {j : ℕ} {new job' : Job}
    (h : (l.set i new)[j]? = some job') : j = i ∧ job' = new ∨ j ≠ i ∧ l[j]? = some job' := by
  rw [List.getElem?_set] at h
  split_ifs at h with hj hlen
  · cases h
    exact .inl ⟨hj.symm, rfl⟩
  · exact .inr ⟨Ne.symm hj, h⟩

theorem job_of_append {l : List Job} {j : ℕ} {new job' : Job} (h : (l ++ [new])[j]? = some job') :
    job' = new ∨ l[j]? = some job' := by
  obtain hj | hj := lt_or_ge j l.length
  · exact .inr ((List.getElem?_append_left hj).symm.trans h)
  · rw [List.getElem?_append_right hj, List.getElem?_singleton] at h
    split_ifs at h
    cases h
    exact .inl rfl

theorem Owned.init (h : lts.init s) : s.Owned := by
  refine ⟨fun i job hjob => ?_, fun i job hjob => ?_⟩ <;>
    · rw [h.1] at hjob
      cases hjob

theorem Owned.not_existed (h : s.Owned) (hjob : s.jobs[i]? = some job)
    (hfile : s.files job.path = none) : job.existed = false := by
  rw [← Bool.not_eq_true]
  intro hex
  have hsome := h.existed i job hjob hex
  rw [hfile] at hsome
  cases hsome

/-- A file that is opened or written to stays. -/
theorem Owned.existed_update (h : s.Owned) {pc : Pc} (content : List UInt8) (j : ℕ)
    (job' : Job) (hjob' : (s.jobs.set i { job with pc := pc })[j]? = some job')
    (hex : job'.existed = true) :
    (Function.update s.files job.path (some content) job'.path).isSome := by
  by_cases hpath : job'.path = job.path
  · rw [hpath, Function.update_self]
    rfl
  · rw [Function.update_of_ne hpath]
    obtain ⟨-, rfl⟩ | ⟨-, hjob'⟩ := job_of_set hjob'
    · exact absurd rfl hpath
    · exact h.existed j job' hjob' hex

theorem Owned.step (h : s.Owned) (hok : Fresh s a) (he : s.Effect a s') : s'.Owned := by
  cases he with
  | called stream path data =>
    refine ⟨fun j job hjob hex => ?_, fun j job hjob k hk => ?_⟩
    · obtain rfl | hjob := job_of_append hjob
      · exact hex
      · exact h.existed j job hjob hex
    · obtain rfl | hjob := job_of_append hjob
      · cases hk
      · exact h.written j job hjob k hk
  | @moved _ i job pc _ hjob hpc _ =>
    refine ⟨fun j job' hjob' hex => ?_, fun j job' hjob' k hk => ?_⟩
    · obtain ⟨-, rfl⟩ | ⟨-, hjob'⟩ := job_of_set hjob'
      · exact h.existed i job hjob hex
      · exact h.existed j job' hjob' hex
    · obtain ⟨rfl, rfl⟩ | ⟨-, hjob'⟩ := job_of_set hjob'
      · exact h.written j job hjob k (hpc k hk)
      · exact h.written j job' hjob' k hk
  | @created i job hjob hfile =>
    refine ⟨h.existed_update [], fun j job' hjob' k hk => ?_⟩
    obtain ⟨rfl, rfl⟩ | ⟨-, hjob'⟩ := job_of_set hjob'
    · cases hk
      have hex : job.existed = false := h.not_existed hjob hfile
      exact ⟨Function.update_self .., hex, Function.update_self ..⟩
    · -- the file of the other call exists
      obtain ⟨hcreator, hex, hcontent⟩ := h.written j job' hjob' k hk
      have hpath : job'.path ≠ job.path := fun hpath => by
        rw [hpath, hfile] at hcontent
        cases hcontent
      exact ⟨(Function.update_of_ne hpath ..).trans hcreator, hex,
        (Function.update_of_ne hpath ..).trans hcontent⟩
  | truncated _ hfresh => exact absurd hok hfresh
  | @wrote i k n job hjob hpc hn =>
    obtain ⟨hcreator, hex, hcontent⟩ := h.written i job hjob k (by rw [Job.written, hpc])
    refine ⟨h.existed_update _, fun j job' hjob' k' hk' => ?_⟩
    obtain ⟨rfl, rfl⟩ | ⟨hne, hjob'⟩ := job_of_set hjob'
    · cases hk'
      refine ⟨hcreator, hex, (Function.update_self ..).trans ?_⟩
      rw [hcontent, Option.getD_some, splice_take hn]
    · -- no file has two creators
      obtain ⟨hcreator', hex', hcontent'⟩ := h.written j job' hjob' k' hk'
      have hpath : job'.path ≠ job.path := fun hpath => by
        rw [hpath, hcreator] at hcreator'
        exact hne (Option.some.inj hcreator').symm
      exact ⟨hcreator', hex', (Function.update_of_ne hpath ..).trans hcontent'⟩

/-- The file of a call that has succeeded -/
theorem Owned.succeeded (h : s.Owned) (hjob : s.jobs[i]? = some job) (hpc : job.pc = .succeeded) :
    s.creator job.path = some i ∧ s.files job.path = some job.data := by
  have hwritten : job.written = some job.data.length := by rw [Job.written, hpc]
  obtain ⟨hcreator, -, hcontent⟩ := h.written i job hjob _ hwritten
  rw [List.take_length] at hcontent
  exact ⟨hcreator, hcontent⟩

/-- A step changes one file only, which is new and not complete. -/
theorem Owned.changed (h : s.Owned) (hok : Fresh s a) (he : s.Effect a s') {p : Text}
    (hp : s'.files p ≠ s.files p) : ∃ i job, a.caller = some i ∧ s.jobs[i]? = some job ∧
      job.path = p ∧ job.existed = false ∧
      ∀ other ∈ s.jobs, other.path = p → other.pc ≠ .succeeded := by
  cases he with
  | called _ _ _ => exact absurd rfl hp
  | moved _ _ _ _ => exact absurd rfl hp
  | @created i job hjob hfile =>
    have hpath : p = job.path := by
      by_contra hne
      exact hp (Function.update_of_ne hne ..)
    subst hpath
    refine ⟨i, job, rfl, hjob, rfl, h.not_existed hjob hfile, fun other hother hpath hpc => ?_⟩
    obtain ⟨j, hj⟩ := List.mem_iff_getElem?.1 hother
    have hcontent := (h.succeeded hj hpc).2
    rw [hpath, hfile] at hcontent
    cases hcontent
  | truncated _ hfresh => exact absurd hok hfresh
  | @wrote i k n job hjob hpc hn =>
    have hpath : p = job.path := by
      by_contra hne
      exact hp (Function.update_of_ne hne ..)
    subst hpath
    obtain ⟨hcreator, hex, -⟩ := h.written i job hjob k (by rw [Job.written, hpc])
    refine ⟨i, job, rfl, hjob, rfl, hex, fun other hother hpath hpc' => ?_⟩
    obtain ⟨j, hj⟩ := List.mem_iff_getElem?.1 hother
    have hcreator' := (h.succeeded hj hpc').1
    rw [hpath, hcreator] at hcreator'
    cases hcreator'
    rw [hjob] at hj
    cases hj
    rw [hpc] at hpc'
    cases hpc'

/-- Whoever has created a file has it open or has completed it. -/
def Tended (s : State) : Prop :=
  ∀ p i, s.creator p = some i → ∃ job, s.jobs[i]? = some job ∧ job.written.isSome

theorem Tended.set (h : s.Tended) {new : Job} (hi : s.jobs[i]? = some job)
    (hnew : job.written.isSome → new.written.isSome) (p : Text) (j : ℕ)
    (hp : s.creator p = some j) :
    ∃ job, (s.jobs.set i new)[j]? = some job ∧ job.written.isSome := by
  obtain ⟨job', hjob', hsome⟩ := h p j hp
  by_cases hj : j = i
  · subst hj
    rw [hi] at hjob'
    cases hjob'
    exact ⟨new, List.getElem?_set_self (List.getElem?_eq_some_iff.1 hi).1, hnew hsome⟩
  · exact ⟨job', (List.getElem?_set_ne (Ne.symm hj)).trans hjob', hsome⟩

theorem Tended.step (h : s.Tended) (hok : Reliable s a) (he : s.Effect a s') : s'.Tended := by
  cases he with
  | called stream path data =>
    intro p i hp
    obtain ⟨job, hjob, hsome⟩ := h p i hp
    exact ⟨job, (List.getElem?_append_left (List.getElem?_eq_some_iff.1 hjob).1).trans hjob, hsome⟩
  | moved _ hjob _ hkeep => exact h.set hjob (hkeep hok)
  | @created i job hjob _ =>
    intro p j hp
    by_cases hpath : p = job.path
    · rw [hpath] at hp
      have hself : Function.update s.creator job.path (some i) job.path = some i :=
        Function.update_self ..
      obtain rfl : i = j := Option.some.inj (hself.symm.trans hp)
      exact ⟨_, List.getElem?_set_self (List.getElem?_eq_some_iff.1 hjob).1, rfl⟩
    · exact h.set hjob (fun _ => rfl) p j ((Function.update_of_ne hpath ..).symm.trans hp)
  | truncated hjob _ => exact h.set hjob fun _ => rfl
  | wrote hjob _ _ => exact h.set hjob fun _ => rfl

/-- No call changes a file that existed before it or that is complete, one call succeeds for each
path, and a call that fails leaves nothing behind. -/
theorem exclusive {tr : List Act} {s : State} :
    (lts.Run Fresh tr s →
      (∀ a s', Fresh s a → lts.step s a s' → ∀ p, s'.files p ≠ s.files p →
        ∃ i job, a.caller = some i ∧ s.jobs[i]? = some job ∧ job.path = p ∧ job.existed = false ∧
          ∀ other ∈ s.jobs, other.path = p → other.pc ≠ .succeeded) ∧
      (∀ job ∈ s.jobs, job.pc = .succeeded → s.files job.path = some job.data) ∧
      ∀ (i j : ℕ) (job job' : Job), s.jobs[i]? = some job → s.jobs[j]? = some job' →
        job.path = job'.path → job.pc = .succeeded → job'.pc = .succeeded → i = j) ∧
    (lts.Run Reliable tr s → ∀ (i : ℕ) (job : Job) (message : Text), s.jobs[i]? = some job →
      job.pc = .failed message → ∀ p, s.creator p ≠ some i) := by
  refine ⟨fun h => ?_, fun h i job message hjob hpc p hp => ?_⟩
  · have howned : s.Owned := h.invariant (fun _ => Owned.init) fun _ _ _ hs hok hstep =>
      hs.step hok (effect_of_step hstep)
    refine ⟨fun a s' hok hstep p hp => howned.changed hok (effect_of_step hstep) hp,
      fun job hjob hpc => ?_, fun i j job job' hi hj hpath hpc hpc' => ?_⟩
    · obtain ⟨i, hi⟩ := List.mem_iff_getElem?.1 hjob
      exact (howned.succeeded hi hpc).2
    · have hcreator := (howned.succeeded hi hpc).1
      rw [hpath, (howned.succeeded hj hpc').1] at hcreator
      exact (Option.some.inj hcreator).symm
  · have htended : s.Tended := by
      refine h.invariant (I := Tended) (fun s hinit p i hp => ?_) fun _ _ _ hs hok hstep =>
        hs.step hok (effect_of_step hstep)
      rw [hinit.2] at hp
      cases hp
    obtain ⟨job', hjob', hsome⟩ := htended p i hp
    rw [hjob] at hjob'
    cases hjob'
    rw [Job.written, hpc] at hsome
    cases hsome

instance (s : State) (a : Act) : Decidable (Fresh s a ∧ Reliable s a) :=
  match a with
  | .step i => inferInstanceAs (Decidable ((∀ job ∈ s.jobs[i]?, _) ∧ True))
  | .fail i _ => inferInstanceAs (Decidable (True ∧ ∀ job ∈ s.jobs[i]?, _))
  | .call _ _ _ | .write _ _ => inferInstanceAs (Decidable (True ∧ True))

instance (s : State) (a : Act) : Decidable (Fresh s a) :=
  match a with
  | .step i => inferInstanceAs (Decidable (∀ job ∈ s.jobs[i]?, _))
  | .call _ _ _ | .write _ _ | .fail _ _ => inferInstanceAs (Decidable True)

/-- No files -/
def empty : State where
  files _ := none

/-- A second call for the path finds the file of the first. -/
theorem exclusive_second : ∃ s tr, lts.Run Fresh tr s ∧ lts.Run Reliable tr s ∧
    (∃ job ∈ s.jobs, job.pc = .succeeded ∧ s.files job.path = some job.data) ∧
    ∃ (job : Job) (message : Text), s.jobs[1]? = some job ∧ job.pc = .failed message ∧
      ∀ p, s.creator p ≠ some 1 := by
  obtain ⟨s, hrun, hjobs⟩ := LTS.exists_decided_run lts (fun s a => Fresh s a ∧ Reliable s a)
    (f := step) (fun _ _ _ h => h) empty ⟨rfl, rfl⟩
    [.call true "/up/a" [1, 2], .step 0, .call false "/up/a" [3], .step 0, .step 0, .write 0 1,
      .step 1, .write 0 1, .step 0]
    (P := fun s => s.jobs = [⟨true, "/up/a", [1, 2], .succeeded, false⟩,
      ⟨false, "/up/a", [3], .failed "file already exists: /up/a", false⟩]) (by decide)
    fun _ _ h => h
  have hfresh := hrun.mono fun _ _ h => h.1
  have hreliable := hrun.mono fun _ _ h => h.2
  refine ⟨s, _, hfresh, hreliable, ⟨⟨true, "/up/a", [1, 2], .succeeded, false⟩, ?_, rfl, ?_⟩, ?_⟩
  · rw [hjobs]
    exact List.mem_cons_self
  · refine (exclusive.1 hfresh).2.1 _ ?_ rfl
    rw [hjobs]
    exact List.mem_cons_self
  · have hsecond : s.jobs[1]? =
        some ⟨false, "/up/a", [3], .failed "file already exists: /up/a", false⟩ := by
      rw [hjobs]
      rfl
    exact ⟨_, _, hsecond, rfl, exclusive.2 hreliable 1 _ _ hsecond rfl⟩

/-- Two calls that have both looked before either writes succeed, and the second replaces what the
first has completed; a transfer that fails leaves its file. -/
theorem overwritten :
    (∃ s tr, lts.Run LTS.anyStep tr s ∧ s.jobs.map Job.pc = [.succeeded, .succeeded] ∧
      s.jobs.map Job.path = ["/up/a", "/up/a"] ∧ s.jobs.map Job.data = [[1], [2]] ∧
      s.files "/up/a" = some [2]) ∧
    ∃ s tr, lts.Run Fresh tr s ∧ s.creator "/up/a" = some 0 ∧
      s.jobs.map Job.pc = [.failed "failed to copy file content: disk full"] := by
  have hinit : lts.init empty := ⟨rfl, rfl⟩
  constructor
  · exact exists_comm.1 ⟨[.call false "/up/a" [1], .call false "/up/a" [2], .step 0, .step 1,
      .step 0, .write 0 1, .step 0, .step 1, .write 1 1, .step 1],
      LTS.exists_run_of_exec (f := step) (fun _ _ _ h => h) hinit _ (by decide) fun _ _ h => h⟩
  · exact exists_comm.1 ⟨[.call true "/up/a" [1, 2], .step 0, .step 0, .step 0, .write 0 1,
      .fail 0 "disk full"],
      LTS.exists_decided_run lts Fresh (f := step) (fun _ _ _ h => h) empty hinit _ (by decide)
        fun _ _ h => h⟩

end State

end Upload

end GinRpc
