import GinRpc.LTS.Fairness
import GinRpc.WebSocket.Rooms

/-!
# Eviction of empty rooms

A room remembers since when it is empty, and the janitor evicts it once that is long enough ago.
`Leave` and `RemoveConnection` set the time whenever the room is empty afterwards, also if the
connection was no member and the room was empty before.

* `Sys.Frame` : what a step can do to rooms that exist.
* `Sys.Stamped` : along every run, an empty room that no `Join` is about to enter has a time stamp
  that has passed.
* `Sys.evicted_of_undisturbed` : a room that stays empty, and that no connection is removed from in
  the meantime, is evicted by a sweep that begins when the time is over.
* `Sys.kept_by_others` : another connection that disconnects keeps the room.
-/

namespace GinRpc

namespace WebSocket

namespace Rooms

namespace Room

variable {room : Room} {conn : String} {now : ℤ}

theorem members_enter_ne : (room.enter conn).members ≠ ∅ :=
  Finset.insert_ne_empty conn room.members

theorem emptySince_drop (h : (room.drop conn now).members = ∅) :
    (room.drop conn now).emptySince = some now :=
  if_pos h

theorem members_ne_of_full {o : RoomOptions} (h : room.full o conn = true) :
    room.members ≠ ∅ := by
  intro hempty
  obtain ⟨hpos, hcard, -⟩ := of_decide_eq_true h
  rw [hempty, Finset.card_empty] at hcard
  omega

end Room

/-- The goroutine that takes the step -/
def Act.actor : Act → Option ℕ
  | .join i _ _ | .leave i _ _ | .removeConnection i _ | .evictEmptyRooms i | .step i
  | .visit i _ => some i
  | .tick _ => none

namespace Sys

variable {o : RoomOptions} {s s' : Sys} {a : Act} {i room : ℕ} {roomID : String}

/-- The step removes a connection from the room, whether or not it is a member. -/
def Drops (s : Sys) (room : ℕ) : Act → Prop
  | .step i => ∃ roomID conn, s.pc i = .leaveDrop roomID conn room
  | .visit i r => r = room ∧ ∃ conn rooms, s.pc i = .removing conn rooms
  | _ => False

/-- What a step can do to the clock, the rooms and the goroutines that are about to enter one. -/
structure Frame (s : Sys) (a : Act) (s' : Sys) : Prop where
  now : s.now ≤ s'.now
  fresh : s.fresh ≤ s'.fresh
  heap : ∀ room < s.fresh, s'.heap room = s.heap room ∨
    (∃ conn, s'.heap room = (s.heap room).enter conn) ∨
    (s.Drops room a ∧ ∃ conn, s'.heap room = (s.heap room).drop conn s.now)
  get : ∀ id room, s'.get id = some room →
    s.get id = some room ∨ (s.fresh ≤ room ∧ room < s'.fresh)
  created : ∀ room, s.fresh ≤ room → room < s'.fresh →
    ∃ j id conn, s'.pc j = .joinEnter id conn room
  joinEnter : ∀ j id conn room, s.pc j = .joinEnter id conn room →
    s'.pc j = .joinEnter id conn room ∨ (s'.heap room).members ≠ ∅
  others : ∀ j, a.actor ≠ some j → s'.pc j = s.pc j

namespace Frame

variable {pc : Pc}

theorem update_of_actor {j : ℕ} (ha : a.actor = some i) (hj : a.actor ≠ some j) :
    Function.update s.pc i pc j = s.pc j :=
  Function.update_of_ne (fun hij : j = i => hj (hij.symm ▸ ha)) ..

/-- A goroutine goes on that is not about to enter an empty room. -/
theorem goto (ha : a.actor = some i)
    (hpc : ∀ id conn room, s.pc i = .joinEnter id conn room → (s.heap room).members ≠ ∅) :
    Frame s a (s.goto i pc) where
  now := le_rfl
  fresh := le_rfl
  heap _ _ := .inl rfl
  get _ _ h := .inl h
  created _ h h' := absurd h' (not_lt.2 h)
  joinEnter j id conn room hj := by
    rw [pc_goto]
    split_ifs with hij
    · subst hij
      exact .inr (hpc id conn room hj)
    · exact .inl hj
  others j hj := update_of_actor ha hj

/-- Then it does something to the groups or to the lock of the manager as well. -/
theorem congr {t : Sys} (h : Frame s a t) (hnow : s'.now = t.now) (hfresh : s'.fresh = t.fresh)
    (hheap : s'.heap = t.heap) (hget : s'.get = t.get) (hpc : s'.pc = t.pc) : Frame s a s' where
  now := hnow ▸ h.now
  fresh := hfresh ▸ h.fresh
  heap := hheap ▸ h.heap
  get := by rw [hfresh, hget]; exact h.get
  created := by rw [hfresh, hpc]; exact h.created
  joinEnter := by rw [hheap, hpc]; exact h.joinEnter
  others := by rw [hpc]; exact h.others

theorem enter {conn : String} (ha : a.actor = some i)
    (hpc : s.pc i = .joinEnter roomID conn room) :
    Frame s a ((s.enter roomID conn room).goto i pc) where
  now := le_rfl
  fresh := le_rfl
  heap r _ := by
    have heq : (s.enter roomID conn room).heap r = _ := heap_enter
    by_cases hr : r = room
    · subst hr
      exact .inr (.inl ⟨conn, heq.trans (if_pos rfl)⟩)
    · exact .inl (heq.trans (if_neg hr))
  get _ _ h := .inl h
  created _ h h' := absurd h' (not_lt.2 h)
  joinEnter j id c r hj := by
    rw [pc_goto]
    split_ifs with hij
    · subst hij
      cases hpc.symm.trans hj
      refine .inr ?_
      change ((s.enter roomID conn room).heap room).members ≠ ∅
      rw [heap_enter, if_pos rfl]
      exact Room.members_enter_ne
    · exact .inl hj
  others j hj := update_of_actor ha hj

theorem drop {conn : String} (ha : a.actor = some i) (hdrops : s.Drops room a)
    (hpc : ∀ id conn room, s.pc i ≠ .joinEnter id conn room) :
    Frame s a ((s.drop conn room).goto i pc) where
  now := le_rfl
  fresh := le_rfl
  heap r _ := by
    by_cases hr : r = room
    · subst hr
      exact .inr (.inr ⟨hdrops, conn, heap_drop.trans (if_pos rfl)⟩)
    · exact .inl (heap_drop.trans (if_neg hr))
  get _ _ h := .inl h
  created _ h h' := absurd h' (not_lt.2 h)
  joinEnter j id c r hj := by
    rw [pc_goto]
    split_ifs with hij
    · exact absurd (hij ▸ hj) (hpc id c r)
    · exact .inl hj
  others j hj := update_of_actor ha hj

theorem evict (ha : a.actor = some i)
    (hpc : ∀ id conn room, s.pc i ≠ .joinEnter id conn room) :
    Frame s a { s with rooms := s.rooms.erase roomID, pc := Function.update s.pc i pc } where
  now := le_rfl
  fresh := le_rfl
  heap _ _ := .inl rfl
  get id r h := by
    by_cases hid : id = roomID
    · rw [hid] at h
      exact absurd ((AList.lookup_erase roomID s.rooms).symm.trans h) (Option.some_ne_none r).symm
    · exact .inl ((AList.lookup_erase_ne hid).symm.trans h)
  created _ h h' := absurd h' (not_lt.2 h)
  joinEnter j id c r hj := by
    refine .inl ?_
    have hij : j ≠ i := fun hij => hpc id c r (hij ▸ hj)
    exact (Function.update_of_ne hij ..).trans hj
  others j hj := update_of_actor ha hj

theorem joinLookup {conn : String} (ha : a.actor = some i) (hpc : s.pc i = .idle) :
    Frame s a (s.joinLookup i roomID conn) := by
  have hne : ∀ id c r, s.pc i ≠ .joinEnter id c r := fun id c r h => by cases hpc.symm.trans h
  unfold Sys.joinLookup
  split
  · exact goto ha fun id c r h => absurd h (hne id c r)
  · refine ⟨le_rfl, Nat.le_succ _, fun r hr => .inl ?_, fun id r h => ?_, fun r hr hlt => ?_,
      fun j id c r hj => .inl ?_, fun j hj => update_of_actor ha hj⟩
    · exact Function.update_of_ne hr.ne ..
    · by_cases hid : id = roomID
      · rw [hid] at h
        cases (AList.lookup_insert _).symm.trans h
        exact .inr ⟨le_rfl, Nat.lt_succ_self _⟩
      · exact .inl ((AList.lookup_insert_ne hid).symm.trans h)
    · obtain rfl : r = s.fresh := Nat.le_antisymm (Nat.lt_succ_iff.1 hlt) hr
      exact ⟨i, roomID, conn, Function.update_self ..⟩
    · have hij : j ≠ i := fun hij => hne id c r (hij ▸ hj)
      exact (Function.update_of_ne hij ..).trans hj

theorem next (h : s.next o i = some s') : Frame s (.step i) s' := by
  have hother : ∀ {pc'}, s.pc i = pc' → (∀ id c r, pc' ≠ .joinEnter id c r) →
      ∀ id c r, s.pc i = .joinEnter id c r → (s.heap r).members ≠ ∅ :=
    fun hpc hne id c r h => absurd (hpc.symm.trans h) (hne id c r)
  revert h
  fun_cases Sys.next o s i with
  | case1 roomID conn room hpc hfull =>
    rintro ⟨⟩
    refine goto rfl fun id c r h => ?_
    cases hpc.symm.trans h
    exact Room.members_ne_of_full hfull
  | case2 roomID conn room hpc hfull =>
    rintro ⟨⟩
    exact enter rfl hpc
  | case3 roomID conn room hpc =>
    rintro ⟨⟩
    exact (goto rfl (hother hpc (by simp))).congr rfl rfl rfl rfl rfl
  | case4 room hpc =>
    rintro ⟨⟩
    exact goto rfl (hother hpc (by simp))
  | case5 roomID conn room hpc =>
    rintro ⟨⟩
    exact drop rfl ⟨roomID, conn, hpc⟩ fun id c r h => by cases hpc.symm.trans h
  | case6 roomID conn hpc =>
    rintro ⟨⟩
    exact (goto rfl (hother hpc (by simp))).congr rfl rfl rfl rfl rfl
  | case7 conn hpc =>
    rintro ⟨⟩
    exact goto rfl (hother hpc (by simp))
  | case8 conn room rooms hpc =>
    rintro ⟨⟩
    exact (goto rfl (hother hpc (by simp))).congr rfl rfl rfl rfl rfl
  | case9 now hpc hfree =>
    rintro ⟨⟩
    exact (goto rfl (hother hpc (by simp))).congr rfl rfl rfl rfl rfl
  | case10 now hpc hfree => rintro ⟨⟩
  | case11 now evicted hpc =>
    rintro ⟨⟩
    exact (goto rfl (hother hpc (by simp))).congr rfl rfl rfl rfl rfl
  | case12 => rintro ⟨⟩

theorem visit (h : s.visit o i room = some s') : Frame s (.visit i room) s' := by
  revert h
  fun_cases Sys.visit o s i room with
  | case1 conn rooms hpc hmem =>
    rintro ⟨⟩
    exact drop rfl ⟨rfl, conn, rooms, hpc⟩ fun id c r h => by cases hpc.symm.trans h
  | case2 => rintro ⟨⟩
  | case3 => rintro ⟨⟩
  | case4 now rooms evicted hpc e hfind hexp =>
    rintro ⟨⟩
    exact evict rfl fun id c r h => by cases hpc.symm.trans h
  | case5 now rooms evicted hpc e hfind hexp =>
    rintro ⟨⟩
    exact goto rfl fun id c r h => by cases hpc.symm.trans h
  | case6 => rintro ⟨⟩

theorem call (ha : a.actor = some i) (hpc : s.pc i = .idle) (h : s.call i a = some s') :
    Frame s a s' := by
  revert h
  fun_cases Sys.call s i a with
  | case3 _ roomID conn hid hfree =>
    rintro ⟨⟩
    exact joinLookup ha hpc
  | _ =>
    first
      | rintro ⟨⟩; exact goto ha fun id c r h => by cases hpc.symm.trans h
      | rintro ⟨⟩

theorem step (h : s.step o a = some s') : Frame s a s' := by
  unfold Sys.step at h
  split at h
  · exact next h
  · exact visit h
  · cases h
    exact ⟨by simp, le_rfl, fun _ _ => .inl rfl, fun _ _ h => .inl h,
      fun _ h h' => absurd h' (not_lt.2 h), fun _ _ _ _ h => .inl h, fun _ _ => rfl⟩
  all_goals
    split_ifs at h with hpc
    exact call rfl hpc h

end Frame

/-- Addresses in the map are in use, and an empty room that no `Join` is about to enter knows a time
since when it is empty. -/
structure Stamped (s : Sys) : Prop where
  lt_fresh : ∀ id room, s.get id = some room → room < s.fresh
  since : ∀ room < s.fresh, (s.heap room).members = ∅ →
    (∃ t, (s.heap room).emptySince = some t ∧ t ≤ s.now) ∨
    ∃ j id conn, s.pc j = .joinEnter id conn room

theorem Stamped.step (h : s.Stamped) (hs : s.step o a = some s') : s'.Stamped := by
  have hframe := Frame.step hs
  refine ⟨fun id room hget => ?_, fun room hlt hempty => ?_⟩
  · obtain hold | ⟨-, hnew⟩ := hframe.get id room hget
    · exact (h.lt_fresh id room hold).trans_le hframe.fresh
    · exact hnew
  · by_cases hold : room < s.fresh
    · obtain heq | ⟨conn, heq⟩ | ⟨-, conn, heq⟩ := hframe.heap room hold
      · rw [heq] at hempty ⊢
        obtain ⟨t, ht, hle⟩ | ⟨j, id, conn, hj⟩ := h.since room hold hempty
        · exact .inl ⟨t, ht, hle.trans hframe.now⟩
        · obtain hj | hne := hframe.joinEnter j id conn room hj
          · exact .inr ⟨j, id, conn, hj⟩
          · rw [heq] at hne
            exact absurd hempty hne
      · rw [heq] at hempty
        exact absurd hempty Room.members_enter_ne
      · rw [heq] at hempty ⊢
        exact .inl ⟨s.now, Room.emptySince_drop hempty, hframe.now⟩
    · exact .inr (hframe.created room (not_lt.1 hold) hlt)

theorem stamped_of_run {ok : Sys → Act → Prop} {tr : List Act} (h : (lts o).Run ok tr s) :
    s.Stamped := by
  refine h.invariant (I := Stamped) ?_ fun s a s' hs _ hstep => hs.step hstep
  rintro s ⟨now, rfl⟩
  refine ⟨fun _ _ h => ?_, fun _ h => absurd h (Nat.not_lt_zero _)⟩
  cases h

/-- The room is empty, and the step removes no connection from it. -/
def Undisturbed (room : ℕ) (s : Sys) (a : Act) : Prop :=
  (s.heap room).members = ∅ ∧ ¬ s.Drops room a

/-- If the room is empty, it knows that it has been so at a given time. -/
structure EmptySince (room : ℕ) (since : ℤ) (s : Sys) : Prop where
  lt_fresh : room < s.fresh
  stamp : (s.heap room).members = ∅ → ∃ t, (s.heap room).emptySince = some t ∧ t ≤ since

theorem EmptySince.step {since : ℤ} (h : s.EmptySince room since) (hok : s.Undisturbed room a)
    (hs : s.step o a = some s') : s'.EmptySince room since := by
  have hframe := Frame.step hs
  refine ⟨h.lt_fresh.trans_le hframe.fresh, fun hempty => ?_⟩
  obtain heq | ⟨conn, heq⟩ | ⟨hdrops, -⟩ := hframe.heap room h.lt_fresh
  · rw [heq] at hempty ⊢
    exact h.stamp hempty
  · rw [heq] at hempty
    exact absurd hempty Room.members_enter_ne
  · exact absurd hdrops hok.2

/-- How far the sweep of a goroutine has come: the room is still to be visited, or out of the
map. -/
def Swept (roomID : String) (room : ℕ) (due : ℤ) (s : Sys) : Pc → Prop
  | .sweepLock now => due ≤ now
  | .sweeping now rooms _ => due ≤ now ∧ (s.get roomID = some room → (roomID, room) ∈ rooms)
  | .done => s.get roomID ≠ some room
  | _ => False

namespace Swept

variable {due since : ℤ} {pc : Pc}

theorem mono (h : s.Swept roomID room due pc)
    (hget : s'.get roomID = some room → s.get roomID = some room) :
    s'.Swept roomID room due pc := by
  cases pc with
  | sweepLock now => exact h
  | sweeping now rooms evicted => exact ⟨h.1, fun hr => h.2 (hget hr)⟩
  | done => exact fun hr => h (hget hr)
  | _ => exact h

/-- The sweep takes the lock of the manager, or gives it back. -/
theorem next (h : s.Swept roomID room due (s.pc i)) (hs : s.next o i = some s') :
    s'.Swept roomID room due (s'.pc i) := by
  unfold Sys.next at hs
  cases hpc : s.pc i with
  | sweepLock now =>
    rw [hpc] at h hs
    dsimp only at hs
    split_ifs at hs
    cases hs
    change Swept _ _ _ _ (Function.update s.pc i _ i)
    rw [Function.update_self]
    exact ⟨h, fun hget => List.mem_map.2 ⟨⟨roomID, room⟩, AList.mem_lookup_iff.1 hget, rfl⟩⟩
  | sweeping now rooms evicted =>
    rw [hpc] at h hs
    cases rooms with
    | nil =>
      cases hs
      change Swept _ _ _ _ (Function.update s.pc i _ i)
      rw [Function.update_self]
      exact fun hget => absurd (h.2 hget) List.not_mem_nil
    | cons e rooms => cases hs
  | done =>
    rw [hpc] at hs
    cases hs
  | _ =>
    rw [hpc] at h
    exact h.elim

/-- The sweep passes the room by only if it evicts it. -/
theorem visit {r : ℕ} (h : s.Swept roomID room (since + o.emptyTTL) (s.pc i))
    (ho : 0 < o.emptyTTL) (hempty : (s.heap room).members = ∅)
    (hsince : s.EmptySince room since) (hs : s.visit o i r = some s') :
    s'.Swept roomID room (since + o.emptyTTL) (s'.pc i) := by
  have hframe := Frame.step (a := .visit i r) hs
  have hget : s'.get roomID = some room → s.get roomID = some room := fun hr =>
    (hframe.get roomID room hr).resolve_right fun hnew => not_le.2 hsince.lt_fresh hnew.1
  unfold Sys.visit at hs
  cases hpc : s.pc i with
  | sweeping now rooms evicted =>
    rw [hpc] at h hs
    obtain ⟨hdue, hrooms⟩ := h
    dsimp only at hs
    split at hs
    · cases hs
    · rename_i e hfind
      have he : e.2 = r := by simpa using List.find?_some hfind
      -- every entry but the visited one is still to come
      have hrest : s.get roomID = some room → e ≠ (roomID, room) → (roomID, room) ∈ rooms.erase e :=
        fun hr hne => (List.mem_erase_of_ne hne.symm).2 (hrooms hr)
      split_ifs at hs with hexp
      · cases hs
        change Swept _ _ _ _ (Function.update s.pc i _ i)
        rw [Function.update_self]
        refine ⟨hdue, fun hr => hrest (hget hr) ?_⟩
        rintro rfl
        exact absurd ((AList.lookup_erase roomID s.rooms).symm.trans hr)
          (Option.some_ne_none room).symm
      · cases hs
        rw [pc_goto, if_pos rfl]
        refine ⟨hdue, fun hr => hrest hr ?_⟩
        rintro rfl
        obtain rfl : room = r := he
        obtain ⟨t, ht, hle⟩ := hsince.stamp hempty
        refine hexp ?_
        rw [Room.expired, ht, decide_eq_true ⟨hempty, ho⟩]
        exact decide_eq_true (by omega)
  | removing conn rooms =>
    rw [hpc] at h
    exact h.elim
  | _ =>
    rw [hpc] at hs
    cases hs

theorem step (h : s.Swept roomID room (since + o.emptyTTL) (s.pc i)) (ho : 0 < o.emptyTTL)
    (hsince : s.EmptySince room since) (hok : s.Undisturbed room a)
    (hs : s.step o a = some s') : s'.Swept roomID room (since + o.emptyTTL) (s'.pc i) := by
  have hframe := Frame.step hs
  have hget : s'.get roomID = some room → s.get roomID = some room := fun hr =>
    (hframe.get roomID room hr).resolve_right fun hnew => not_le.2 hsince.lt_fresh hnew.1
  by_cases ha : a.actor = some i
  · cases a with
    | step j =>
      cases ha
      exact h.next hs
    | visit j r =>
      cases ha
      exact h.visit ho hok.1 hsince hs
    | tick d => cases ha
    | _ =>
      -- a call begins only where there is none
      cases ha
      rw [Sys.step] at hs
      split_ifs at hs with hpc
      rw [hpc] at h
      exact h.elim
  · rw [hframe.others i ha]
    exact h.mono hget

end Swept

/-- A room of the map is empty and no `Join` is about to enter it.  If it stays empty and no
connection is removed from it, a sweep that begins `EmptyTTL` later evicts it. -/
theorem evicted_of_undisturbed (ho : 0 < o.emptyTTL) {tr : List Act} {s₀ s₁ s₂ s₃ : Sys}
    (hrun : (lts o).Run LTS.anyStep tr s₀) (hroom : s₀.get roomID = some room)
    (hempty : (s₀.heap room).members = ∅)
    (hjoin : ∀ j id conn, s₀.pc j ≠ .joinEnter id conn room)
    (hwait : (lts o).Leads (Undisturbed room) s₀ s₁)
    (hsweep : (lts o).step s₁ (.evictEmptyRooms i) s₂)
    (hdue : s₀.now + o.emptyTTL ≤ s₁.now)
    (hrest : (lts o).Leads (Undisturbed room) s₂ s₃) (hdone : s₃.pc i = .done) :
    s₃.get roomID ≠ some room := by
  have hnorm : o.normalize.emptyTTL = o.emptyTTL := if_neg ho.ne'
  have hstamped := stamped_of_run hrun
  have hlt := hstamped.lt_fresh roomID room hroom
  have h₀ : s₀.EmptySince room s₀.now := by
    refine ⟨hlt, fun _ => (hstamped.since room hlt hempty).resolve_right ?_⟩
    rintro ⟨j, id, conn, hj⟩
    exact hjoin j id conn hj
  have h₁ : s₁.EmptySince room s₀.now :=
    hwait.invariant h₀ fun s a s' hs hok hstep => hs.step hok hstep
  change s₁.step o.normalize _ = some s₂ at hsweep
  rw [Sys.step] at hsweep
  split_ifs at hsweep
  cases hsweep
  have h₂ : (s₁.goto i (.sweepLock s₁.now)).EmptySince room s₀.now := ⟨h₁.lt_fresh, h₁.stamp⟩
  have hswept : (s₁.goto i (.sweepLock s₁.now)).Swept roomID room
      (s₀.now + o.normalize.emptyTTL) ((s₁.goto i (.sweepLock s₁.now)).pc i) := by
    rw [pc_goto, if_pos rfl, hnorm]
    exact hdue
  have h₃ := hrest.invariant (I := fun s => s.EmptySince room s₀.now ∧
      s.Swept roomID room (s₀.now + o.normalize.emptyTTL) (s.pc i)) ⟨h₂, hswept⟩
    fun s a s' hs hok hstep =>
      ⟨hs.1.step hok hstep, hs.2.step (hnorm.symm ▸ ho) hs.1 hok hstep⟩
  rw [hdone] at h₃
  exact h₃.2

/-- The only member has entered the lobby and left it, at time 0. -/
def emptied : Sys :=
  (LTS.exec (fun s a => s.step small.normalize a) { now := 0 }
    [.join 0 "lobby" (some "a"), .step 0, .step 0, .step 0, .leave 1 "lobby" "a", .step 1,
      .step 1]).getD { now := 0 }

theorem run_emptied : ∃ tr, (lts small).Run LTS.anyStep tr emptied := by
  have hinit : (lts small).Run LTS.anyStep [] { now := 0 } := .nil ⟨0, rfl⟩
  have h := ((((((hinit.extend (.join 0 "lobby" (some "a")) trivial rfl).extend (.step 0) trivial
    rfl).extend (.step 0) trivial rfl).extend (.step 0) trivial rfl).extend
    (.leave 1 "lobby" "a") trivial rfl).extend (.step 1) trivial rfl).extend (.step 1) trivial rfl
  exact ⟨_, h⟩

/-- Ten nanoseconds later a sweep has begun. -/
def due : Sys := { emptied with now := 10 }

theorem evicted_of_undisturbed_small :
    ∃ s, (lts small).Leads (Undisturbed 0) (due.goto 3 (.sweepLock 10)) s ∧ s.pc 3 = .done ∧
      s.get "lobby" ≠ some 0 := by
  obtain ⟨tr, hrun⟩ := run_emptied
  have hempty : (emptied.heap 0).members = ∅ := by decide
  have hjoin : ∀ j id conn, emptied.pc j ≠ .joinEnter id conn 0 := by
    rintro (_ | _ | j) id conn h <;> cases h
  have hwait : (lts small).Leads (Undisturbed 0) emptied due :=
    .single (l := .tick 10) ⟨hempty, id⟩ rfl
  have hsweep : (lts small).step due (.evictEmptyRooms 3) (due.goto 3 (.sweepLock 10)) := rfl
  have h₁ : (lts small).Leads (Undisturbed 0) (due.goto 3 (.sweepLock 10)) _ :=
    .single (l := .step 3) ⟨hempty, by rintro ⟨_, _, h⟩; cases h⟩ rfl
  have h₂ := h₁.snoc (l := Act.visit 3 0) ⟨hempty, by rintro ⟨-, _, _, h⟩; cases h⟩ rfl
  have h₃ := h₂.snoc (l := Act.step 3) ⟨hempty, by rintro ⟨_, _, h⟩; cases h⟩ rfl
  exact ⟨_, h₃, rfl,
    evicted_of_undisturbed (by decide) hrun rfl hempty hjoin hwait hsweep (by decide) h₃ rfl⟩

/-- The lobby is empty from time 0 on.  At time 9 another connection disconnects, and the sweep at
time 10 keeps the room. -/
theorem kept_by_others :
    ∃ s, (lts small).Run LTS.anyStep
      [.join 0 "lobby" (some "a"), .step 0, .step 0, .step 0, .leave 1 "lobby" "a", .step 1,
        .step 1, .tick 9, .removeConnection 2 "b", .visit 2 0, .step 2, .tick 1,
        .evictEmptyRooms 3, .step 3, .visit 3 0, .step 3] s ∧
      decide (s.now = 10 ∧ s.pc 3 = .done ∧ s.get "lobby" = some 0 ∧
        (s.heap 0).members = ∅) = true :=
  LTS.exists_run_of_exec (A := lts small) (f := fun s a => s.step small.normalize a)
    (fun _ _ _ h => h) ⟨0, rfl⟩ _ (by decide) fun _ _ h => h

end Sys

end Rooms

end WebSocket

end GinRpc
