import GinRpc.LTS.Basic
import Mathlib.Data.List.AList
import Mathlib.Tactic

/-!
# Rooms of the websocket server

Model of `plugins/websocket/room.go`.  A `RoomManager` maps room ids to room objects.  The map is
guarded by the lock of the manager, the members of a room by the lock of the room, and `Join`,
`Leave` and `RemoveConnection` take the two locks one after the other, not together: between them
a goroutine holds a pointer to a room that may have left the map.

Each critical section is one step.  The janitor is the exception, it keeps the lock of the manager
while it takes the lock of one room after the other, so `Sys.sweeper` says who holds it.

* `Sys.step` : one critical section of one goroutine, or the passing of time.
* `Sys.Kept` : who has joined a room, and not left it, is found in it.
* `Sys.kept_of_settled` : this holds along every run in which the janitor does not evict a room
  that a `Join` has looked up and not yet entered.

A connection is its `ConnectionID`.  The timer of the janitor and `OnEmpty` are left out: a sweep
may begin at any time.
-/

namespace GinRpc

namespace WebSocket

namespace Rooms

/-- `RoomOptions`, durations in nanoseconds. -/
structure RoomOptions where
  maxMembers : ℤ
  emptyTTL : ℤ
  deriving DecidableEq, Repr

def defaultRoomEmptyTTL : ℤ := 30000000000

def RoomOptions.normalize (o : RoomOptions) : RoomOptions :=
  { o with emptyTTL := if o.emptyTTL = 0 then defaultRoomEmptyTTL else o.emptyTTL }

def roomGroupPrefix : String := "room:"

/-- A room object. -/
structure Room where
  id : String
  members : Finset String := ∅
  /-- The zero time is `none`. -/
  emptySince : Option ℤ := none
  deriving DecidableEq

namespace Room

variable (o : RoomOptions) (room : Room) (conn : String)

/-- `MaxMembers` is reached and the connection is not a member already. -/
def full : Bool :=
  decide (o.maxMembers > 0 ∧ (room.members.card : ℤ) ≥ o.maxMembers ∧ conn ∉ room.members)

/-- The insertion of `Join`. -/
def enter : Room :=
  { room with members := insert conn room.members, emptySince := none }

/-- The removal of `Leave` and `RemoveConnection`. -/
def drop (now : ℤ) : Room :=
  { room with
    members := room.members.erase conn
    emptySince := if room.members.erase conn = ∅ then some now else room.emptySince }

/-- The test of `evictEmptyRooms`. -/
def expired (now : ℤ) : Bool :=
  decide (room.members = ∅ ∧ o.emptyTTL > 0) &&
    room.emptySince.any fun since => decide (now - since ≥ o.emptyTTL)

variable {o room conn}

theorem members_of_expired {now : ℤ} (h : room.expired o now = true) : room.members = ∅ := by
  rw [expired, Bool.and_eq_true] at h
  exact (of_decide_eq_true h.1).1

end Room

/-- Where a goroutine is, between two critical sections. -/
inductive Pc where
  | idle
  /-- `Join`, before `room.mu.Lock()` -/
  | joinEnter (roomID conn : String) (room : ℕ)
  /-- `Join`, before `conn.AddGroups` -/
  | joinTag (roomID conn : String) (room : ℕ)
  /-- `Join`, before `room.Count()` -/
  | joinCount (room : ℕ)
  /-- `Join` has returned the number of members and no error -/
  | joined (count : ℕ)
  /-- `Join` has returned `errRoomFull` -/
  | refused (count : ℕ)
  /-- `Join` has returned `errEnvelopeNil` -/
  | rejected
  /-- `Leave`, before `room.mu.Lock()` -/
  | leaveDrop (roomID conn : String) (room : ℕ)
  /-- `Leave`, before `conn.RemoveGroups` -/
  | leaveUntag (roomID conn : String)
  /-- `Leave` has returned -/
  | left (existed : Bool)
  /-- `RemoveConnection`, the rooms of its snapshot still to visit -/
  | removing (conn : String) (rooms : List ℕ)
  /-- `RemoveConnection`, before `conn.RemoveGroups` -/
  | removeUntag (conn : String) (room : ℕ) (rooms : List ℕ)
  /-- `evictEmptyRooms` has read the clock -/
  | sweepLock (now : ℤ)
  /-- `evictEmptyRooms` holds the lock of the manager; the entries still to visit -/
  | sweeping (now : ℤ) (rooms : List (String × ℕ)) (evicted : List String)
  | done
  deriving DecidableEq

/-- The manager, the room objects and the goroutines. -/
structure Sys where
  rooms : AList (fun _ : String => ℕ) := ∅
  /-- The room objects by address. -/
  heap : ℕ → Room := fun _ => { id := "" }
  /-- The next address. -/
  fresh : ℕ := 0
  /-- Who holds the lock of the manager over several steps. -/
  sweeper : Option ℕ := none
  /-- The groups of a connection. -/
  groups : String → List String := fun _ => []
  now : ℤ
  pc : ℕ → Pc := fun _ => .idle
  /-- Room and connection of every `Join` that has entered the room since it was last left. -/
  entered : Finset (String × String) := ∅

/-- A step of the system. -/
inductive Act where
  | join (i : ℕ) (roomID : String) (conn : Option String)
  | leave (i : ℕ) (roomID conn : String)
  | removeConnection (i : ℕ) (conn : String)
  | evictEmptyRooms (i : ℕ)
  /-- the next critical section of a goroutine -/
  | step (i : ℕ)
  /-- the next room of a loop over rooms, in any order -/
  | visit (i room : ℕ)
  | tick (d : ℕ)
  deriving DecidableEq, Repr

namespace Sys

variable (o : RoomOptions) (s : Sys)

def goto (i : ℕ) (pc : Pc) : Sys :=
  { s with pc := Function.update s.pc i pc }

/-- `RoomManager.Get`. -/
def get (roomID : String) : Option ℕ := s.rooms.lookup roomID

/-- `rm.rooms[roomID]` in `Join`, with the room created if there is none. -/
def joinLookup (i : ℕ) (roomID conn : String) : Sys :=
  match s.get roomID with
  | some room => s.goto i (.joinEnter roomID conn room)
  | none =>
    { s with
      rooms := s.rooms.insert roomID s.fresh
      heap := Function.update s.heap s.fresh { id := roomID }
      fresh := s.fresh + 1
      pc := Function.update s.pc i (.joinEnter roomID conn s.fresh) }

/-- A connection enters a room object. -/
def enter (roomID conn : String) (room : ℕ) : Sys :=
  { s with
    heap := Function.update s.heap room ((s.heap room).enter conn)
    entered := insert (roomID, conn) s.entered }

/-- A connection is removed from a room object. -/
def drop (conn : String) (room : ℕ) : Sys :=
  { s with
    heap := Function.update s.heap room ((s.heap room).drop conn s.now)
    entered :=
      if conn ∈ (s.heap room).members then s.entered.erase ((s.heap room).id, conn)
      else s.entered }

/-- `Conn.AddGroups` with one group. -/
def addGroup (conn group : String) : Sys :=
  { s with
    groups := Function.update s.groups conn
      (if group ∈ s.groups conn then s.groups conn else s.groups conn ++ [group]) }

/-- `Conn.RemoveGroups` with one group. -/
def removeGroup (conn group : String) : Sys :=
  { s with
    groups := Function.update s.groups conn ((s.groups conn).filter fun g => decide (g ≠ group)) }

/-- The next critical section of goroutine `i`. -/
def next (i : ℕ) : Option Sys :=
  match s.pc i with
  | .joinEnter roomID conn room =>
    if (s.heap room).full o conn then some (s.goto i (.refused (s.heap room).members.card))
    else some ((s.enter roomID conn room).goto i (.joinTag roomID conn room))
  | .joinTag roomID conn room =>
    some ((s.addGroup conn (roomGroupPrefix ++ roomID)).goto i (.joinCount room))
  | .joinCount room => some (s.goto i (.joined (s.heap room).members.card))
  | .leaveDrop roomID conn room =>
    some ((s.drop conn room).goto i
      (if conn ∈ (s.heap room).members then .leaveUntag roomID conn else .left false))
  | .leaveUntag roomID conn =>
    some ((s.removeGroup conn (roomGroupPrefix ++ roomID)).goto i (.left true))
  | .removing _ [] => some (s.goto i .done)
  | .removeUntag conn room rooms =>
    some ((s.removeGroup conn (roomGroupPrefix ++ (s.heap room).id)).goto i (.removing conn rooms))
  | .sweepLock now =>
    if s.sweeper = none then
      some { s with
        sweeper := some i
        pc := Function.update s.pc i
          (.sweeping now (s.rooms.entries.map fun e => (e.1, e.2)) []) }
    else none
  | .sweeping _ [] _ => some { s with sweeper := none, pc := Function.update s.pc i .done }
  | _ => none

/-- The next room of the loop of goroutine `i`. -/
def visit (i room : ℕ) : Option Sys :=
  match s.pc i with
  | .removing conn rooms =>
    if room ∈ rooms then
      some ((s.drop conn room).goto i
        (if conn ∈ (s.heap room).members then .removeUntag conn room (rooms.erase room)
        else .removing conn (rooms.erase room)))
    else none
  | .sweeping now rooms evicted =>
    match rooms.find? fun e => decide (e.2 = room) with
    | none => none
    | some e =>
      if (s.heap room).expired o now then
        some { s with
          rooms := s.rooms.erase e.1
          pc := Function.update s.pc i (.sweeping now (rooms.erase e) (evicted ++ [e.1])) }
      else some (s.goto i (.sweeping now (rooms.erase e) evicted))
  | _ => none

/-- The first critical section of a call, or a return without any. -/
def call (i : ℕ) : Act → Option Sys
  | .join _ roomID conn =>
    match conn with
    | none => some (s.goto i .rejected)
    | some conn =>
      if roomID = "" then some (s.goto i .rejected)
      else if s.sweeper = none then some (s.joinLookup i roomID conn)
      else none
  | .leave _ roomID conn =>
    if s.sweeper = none then
      match s.get roomID with
      | none => some (s.goto i (.left false))
      | some room => some (s.goto i (.leaveDrop roomID conn room))
    else none
  | .removeConnection _ conn =>
    if conn = "" then some (s.goto i .done)
    else if s.sweeper = none then
      some (s.goto i (.removing conn (s.rooms.entries.map fun e => e.2)))
    else none
  | .evictEmptyRooms _ => some (s.goto i (.sweepLock s.now))
  | _ => none

/-- One step, if it is possible. -/
def step (a : Act) : Option Sys :=
  match a with
  | .step i => s.next o i
  | .visit i room => s.visit o i room
  | .tick d => some { s with now := s.now + d }
  | .join i _ _ | .leave i _ _ | .removeConnection i _ | .evictEmptyRooms i =>
    if s.pc i = .idle then s.call i a else none

/-- All interleavings on a new manager. -/
def lts : LTS Sys Act where
  init s := ∃ now, s = { now := now }
  step s a s' := s.step o.normalize a = some s'

/-- Who has entered a room, and not left it, is found in the room. -/
def Kept : Prop :=
  ∀ roomID conn, (roomID, conn) ∈ s.entered →
    ∃ room, s.get roomID = some room ∧ conn ∈ (s.heap room).members

/-- No room is evicted that a `Join` has looked up and not yet entered. -/
def Settled (s : Sys) : Act → Prop
  | .visit i room => ∀ now rooms evicted, s.pc i = .sweeping now rooms evicted →
      (s.heap room).expired o now = true → ∀ j roomID conn, s.pc j ≠ .joinEnter roomID conn room
  | _ => True

/-- A program counter that agrees with the map: a `Join` is about to enter a room of the map, and
the janitor visits entries of the map. -/
def Fits (i : ℕ) : Pc → Prop
  | .joinEnter roomID _ room => s.get roomID = some room
  | .sweeping _ rooms _ =>
    s.sweeper = some i ∧ (rooms.map Prod.fst).Nodup ∧ ∀ e ∈ rooms, s.get e.1 = some e.2
  | _ => True

/-- The invariant of settled runs. -/
structure Tidy : Prop where
  lt_fresh : ∀ roomID room, s.get roomID = some room → room < s.fresh
  id_eq : ∀ roomID room, s.get roomID = some room → (s.heap room).id = roomID
  fits : ∀ j, s.Fits j (s.pc j)
  kept : s.Kept

variable {o s}

theorem pc_goto {i j : ℕ} {pc : Pc} : (s.goto i pc).pc j = if j = i then pc else s.pc j :=
  Function.update_apply ..

theorem heap_enter {roomID conn : String} {room r : ℕ} :
    (s.enter roomID conn room).heap r =
      if r = room then (s.heap room).enter conn else s.heap r :=
  Function.update_apply ..

theorem heap_drop {conn : String} {room r : ℕ} :
    (s.drop conn room).heap r =
      if r = room then (s.heap room).drop conn s.now else s.heap r :=
  Function.update_apply ..

theorem fits_of_get {s' : Sys} {j : ℕ} {pc : Pc} (h : s.Fits j pc)
    (hsweeper : s'.sweeper = s.sweeper) (hget : s'.get = s.get) : s'.Fits j pc := by
  cases pc with
  | joinEnter roomID conn room => exact (congrFun hget roomID).trans h
  | sweeping now rooms evicted =>
    obtain ⟨h₁, h₂, h₃⟩ := h
    exact ⟨hsweeper.trans h₁, h₂, fun e he => (congrFun hget e.1).trans (h₃ e he)⟩
  | _ => trivial

theorem tidy_init {now : ℤ} : Tidy { now := now } where
  lt_fresh _ _ h := by cases h
  id_eq _ _ h := by cases h
  fits _ := trivial
  kept _ _ h := by cases h

namespace Tidy

variable {i : ℕ} {pc : Pc} {roomID conn : String} {room : ℕ}

theorem goto (h : s.Tidy) (hpc : s.Fits i pc) : (s.goto i pc).Tidy where
  lt_fresh := h.lt_fresh
  id_eq := h.id_eq
  fits j := by
    rw [pc_goto]
    split_ifs with hj
    · exact hj ▸ hpc
    · exact h.fits j
  kept := h.kept

theorem enter (h : s.Tidy) (hget : s.get roomID = some room) :
    (s.enter roomID conn room).Tidy where
  lt_fresh := h.lt_fresh
  id_eq id r hr := by
    rw [heap_enter]
    split_ifs with hrr
    · exact hrr ▸ h.id_eq id r hr
    · exact h.id_eq id r hr
  fits j := fits_of_get (h.fits j) rfl rfl
  kept id c hc := by
    obtain hc | hc := Finset.mem_insert.1 hc
    · cases hc
      refine ⟨room, hget, ?_⟩
      rw [heap_enter, if_pos rfl]
      exact Finset.mem_insert_self ..
    · obtain ⟨r, hr, hm⟩ := h.kept id c hc
      refine ⟨r, hr, ?_⟩
      rw [heap_enter]
      split_ifs with hrr
      · exact Finset.mem_insert_of_mem (hrr ▸ hm)
      · exact hm

/-- Whoever else has entered a room of that id is another connection. -/
theorem drop (h : s.Tidy) : (s.drop conn room).Tidy where
  lt_fresh := h.lt_fresh
  id_eq id r hr := by
    rw [heap_drop]
    split_ifs with hrr
    · exact hrr ▸ h.id_eq id r hr
    · exact h.id_eq id r hr
  fits j := fits_of_get (h.fits j) rfl rfl
  kept id c hc := by
    have hc' : (id, c) ∈ s.entered ∧
        (conn ∈ (s.heap room).members → (id, c) ≠ ((s.heap room).id, conn)) := by
      rw [Sys.drop] at hc
      split_ifs at hc with hm
      · exact ⟨Finset.mem_of_mem_erase hc, fun _ => Finset.ne_of_mem_erase hc⟩
      · exact ⟨hc, fun h => absurd h hm⟩
    obtain ⟨r, hr, hm⟩ := h.kept id c hc'.1
    refine ⟨r, hr, ?_⟩
    rw [heap_drop]
    split_ifs with hrr
    · subst hrr
      refine Finset.mem_erase.2 ⟨fun hcc => ?_, hm⟩
      subst hcc
      exact hc'.2 hm (by rw [h.id_eq id r hr])
    · exact hm

theorem addGroup {group : String} (h : s.Tidy) : (s.addGroup conn group).Tidy :=
  ⟨h.lt_fresh, h.id_eq, fun j => fits_of_get (h.fits j) rfl rfl, h.kept⟩

theorem removeGroup {group : String} (h : s.Tidy) : (s.removeGroup conn group).Tidy :=
  ⟨h.lt_fresh, h.id_eq, fun j => fits_of_get (h.fits j) rfl rfl, h.kept⟩

/-- While nobody holds the lock of the manager no goroutine is in the loop of the janitor. -/
theorem fits_of_le {s' : Sys} (h : s.Tidy) (hfree : s.sweeper = none)
    (hle : ∀ id r, s.get id = some r → s'.get id = some r) (j : ℕ) : s'.Fits j (s.pc j) := by
  have hj := h.fits j
  cases hpc : s.pc j with
  | joinEnter id c r =>
    rw [hpc] at hj
    exact hle id r hj
  | sweeping now rooms evicted =>
    rw [hpc] at hj
    exact absurd (hfree.symm.trans hj.1) nofun
  | _ => trivial

theorem joinLookup (h : s.Tidy) (hfree : s.sweeper = none) :
    (s.joinLookup i roomID conn).Tidy := by
  cases hget : s.get roomID with
  | some room =>
    rw [Sys.joinLookup, hget]
    exact h.goto hget
  | none =>
    -- the other entries of the map stay, and none of them has the new address
    have hnew : (s.rooms.insert roomID s.fresh).lookup roomID = some s.fresh :=
      AList.lookup_insert _
    have hold : ∀ id, id ≠ roomID → (s.rooms.insert roomID s.fresh).lookup id = s.get id :=
      fun id hid => AList.lookup_insert_ne hid
    have hne : ∀ id r, s.get id = some r → id ≠ roomID := by
      rintro id r hr rfl
      exact absurd (hget.symm.trans hr) nofun
    have hheap : ∀ id r, s.get id = some r →
        Function.update s.heap s.fresh { id := roomID } r = s.heap r :=
      fun id r hr => Function.update_of_ne (h.lt_fresh id r hr).ne ..
    rw [Sys.joinLookup, hget]
    refine ⟨fun id r hr => ?_, fun id r hr => ?_, fun j => ?_, fun id c hc => ?_⟩
    · by_cases hid : id = roomID
      · subst hid
        exact (Option.some.inj (hnew.symm.trans hr)) ▸ Nat.lt_succ_self _
      · exact Nat.lt_succ_of_lt (h.lt_fresh id r ((hold id hid).symm.trans hr))
    · by_cases hid : id = roomID
      · subst hid
        cases hnew.symm.trans hr
        change (Function.update s.heap s.fresh _ s.fresh).id = id
        rw [Function.update_self]
      · have hr' := (hold id hid).symm.trans hr
        exact (congrArg Room.id (hheap id r hr')).trans (h.id_eq id r hr')
    · change Fits _ j (Function.update s.pc i _ j)
      rw [Function.update_apply]
      split_ifs
      · exact hnew
      · refine h.fits_of_le hfree ?_ j
        exact fun id r hr => (hold id (hne id r hr)).trans hr
    · obtain ⟨r, hr, hm⟩ := h.kept id c hc
      exact ⟨r, (hold id (hne id r hr)).trans hr, (congrArg Room.members (hheap id r hr)).symm ▸ hm⟩

/-- The janitor takes the lock of the manager. -/
theorem lock {now : ℤ} (h : s.Tidy) (hfree : s.sweeper = none) :
    Tidy { s with
      sweeper := some i
      pc := Function.update s.pc i
        (.sweeping now (s.rooms.entries.map fun e => (e.1, e.2)) []) } where
  lt_fresh := h.lt_fresh
  id_eq := h.id_eq
  fits j := by
    change Fits _ j (Function.update s.pc i _ j)
    rw [Function.update_apply]
    split_ifs with hj
    · refine ⟨congrArg some hj.symm, ?_, fun e he => ?_⟩
      · rw [List.map_map]
        exact s.rooms.nodupKeys
      · obtain ⟨e', he', rfl⟩ := List.mem_map.1 he
        exact AList.mem_lookup_iff.2 he'
    · refine h.fits_of_le hfree ?_ j
      exact fun _ _ hr => hr
  kept := h.kept

theorem unlock {now : ℤ} {evicted : List String} (h : s.Tidy)
    (hi : s.pc i = .sweeping now [] evicted) :
    Tidy { s with sweeper := none, pc := Function.update s.pc i .done } where
  lt_fresh := h.lt_fresh
  id_eq := h.id_eq
  fits j := by
    have hold := h.fits i
    rw [hi] at hold
    have hj := h.fits j
    change Fits _ j (Function.update s.pc i _ j)
    rw [Function.update_apply]
    split_ifs with hij
    · trivial
    · cases hpc : s.pc j with
      | joinEnter id c r =>
        rw [hpc] at hj
        exact hj
      | sweeping now rooms evicted =>
        rw [hpc] at hj
        exact absurd (Option.some.inj (hj.1.symm.trans hold.1)) hij
      | _ => trivial
  kept := h.kept

theorem skip {now : ℤ} {rooms : List (String × ℕ)} {evicted evicted' : List String}
    {e : String × ℕ} (h : s.Tidy) (hi : s.pc i = .sweeping now rooms evicted) :
    s.Fits i (.sweeping now (rooms.erase e) evicted') := by
  have hold := h.fits i
  rw [hi] at hold
  obtain ⟨hlock, hnodup, hrooms⟩ := hold
  exact ⟨hlock, hnodup.sublist (List.erase_sublist.map _),
    fun e' he' => hrooms e' (List.mem_of_mem_erase he')⟩

/-- The janitor evicts a room that is empty and that no `Join` is about to enter. -/
theorem evict {now : ℤ} {rooms : List (String × ℕ)} {evicted evicted' : List String}
    {e : String × ℕ} (h : s.Tidy) (hi : s.pc i = .sweeping now rooms evicted) (he : e ∈ rooms)
    (hempty : (s.heap e.2).members = ∅)
    (hsettled : ∀ j id c, s.pc j ≠ .joinEnter id c e.2) :
    Tidy { s with
      rooms := s.rooms.erase e.1
      pc := Function.update s.pc i (.sweeping now (rooms.erase e) evicted') } := by
  have hold := h.fits i
  rw [hi] at hold
  obtain ⟨hlock, hnodup, hrooms⟩ := hold
  have hget : s.get e.1 = some e.2 := hrooms e he
  have hle : ∀ id r, (s.rooms.erase e.1).lookup id = some r → s.get id = some r := by
    intro id r hr
    by_cases hid : id = e.1
    · rw [hid, AList.lookup_erase] at hr
      cases hr
    · rwa [AList.lookup_erase_ne hid] at hr
  have hge : ∀ id r, s.get id = some r → r ≠ e.2 → (s.rooms.erase e.1).lookup id = some r := by
    intro id r hr hne
    have hid : id ≠ e.1 := by
      rintro rfl
      exact hne (Option.some.inj (hr.symm.trans hget))
    rwa [AList.lookup_erase_ne hid]
  refine ⟨fun id r hr => h.lt_fresh id r (hle id r hr), fun id r hr => h.id_eq id r (hle id r hr),
    fun j => ?_, fun id c hc => ?_⟩
  · have hj := h.fits j
    change Fits _ j (Function.update s.pc i _ j)
    rw [Function.update_apply]
    split_ifs with hij
    · subst hij
      refine ⟨hlock, hnodup.sublist (List.erase_sublist.map _), fun e' he' => ?_⟩
      have hmem := List.mem_of_mem_erase he'
      have hne : e'.1 ≠ e.1 := by
        intro heq
        have := List.inj_on_of_nodup_map hnodup hmem he heq
        subst this
        exact (List.Nodup.of_map _ hnodup).not_mem_erase he'
      exact (AList.lookup_erase_ne hne).trans (hrooms e' hmem)
    · cases hpc : s.pc j with
      | joinEnter id c r =>
        rw [hpc] at hj
        exact hge id r hj fun hr => hsettled j id c (hr ▸ hpc)
      | sweeping now rooms evicted =>
        rw [hpc] at hj
        exact absurd (Option.some.inj (hj.1.symm.trans hlock)) hij
      | _ => trivial
  · obtain ⟨r, hr, hm⟩ := h.kept id c hc
    refine ⟨r, hge id r hr fun hre => ?_, hm⟩
    rw [hre, hempty] at hm
    exact absurd hm (Finset.notMem_empty c)

theorem next {s' : Sys} (h : s.Tidy) (hs : s.next o i = some s') : s'.Tidy := by
  have hi := h.fits i
  revert hs
  fun_cases Sys.next o s i with
  | case1 roomID conn room hpc hfull =>
    rintro ⟨⟩
    exact h.goto trivial
  | case2 roomID conn room hpc hfull =>
    rintro ⟨⟩
    rw [hpc] at hi
    exact (h.enter hi).goto trivial
  | case3 roomID conn room hpc =>
    rintro ⟨⟩
    exact h.addGroup.goto trivial
  | case4 room hpc =>
    rintro ⟨⟩
    exact h.goto trivial
  | case5 roomID conn room hpc =>
    rintro ⟨⟩
    refine h.drop.goto ?_
    split_ifs <;> trivial
  | case6 roomID conn hpc =>
    rintro ⟨⟩
    exact h.removeGroup.goto trivial
  | case7 conn hpc =>
    rintro ⟨⟩
    exact h.goto trivial
  | case8 conn room rooms hpc =>
    rintro ⟨⟩
    exact h.removeGroup.goto trivial
  | case9 now hpc hfree =>
    rintro ⟨⟩
    exact h.lock hfree
  | case10 now hpc hfree => nofun
  | case11 now evicted hpc =>
    rintro ⟨⟩
    exact h.unlock hpc
  | case12 => nofun

theorem visit {s' : Sys} (h : s.Tidy) (hok : s.Settled o (.visit i room))
    (hs : s.visit o i room = some s') : s'.Tidy := by
  revert hs
  fun_cases Sys.visit o s i room with
  | case1 conn rooms hpc hmem =>
    rintro ⟨⟩
    refine h.drop.goto ?_
    split_ifs <;> trivial
  | case2 => nofun
  | case3 => nofun
  | case4 now rooms evicted hpc e hfind hexp =>
    rintro ⟨⟩
    have hroom : e.2 = room := by simpa using List.find?_some hfind
    subst hroom
    exact h.evict hpc (List.mem_of_find?_eq_some hfind) (Room.members_of_expired hexp)
      (hok now rooms evicted hpc hexp)
  | case5 now rooms evicted hpc e hfind hexp =>
    rintro ⟨⟩
    exact h.goto (h.skip hpc)
  | case6 => nofun

/-- The first critical section of a call keeps the invariant. -/
theorem call {s' : Sys} {a : Act} (h : s.Tidy) (hs : s.call i a = some s') : s'.Tidy := by
  revert hs
  fun_cases Sys.call s i a with
  | case3 _ roomID conn hid hfree =>
    rintro ⟨⟩
    exact h.joinLookup hfree
  | _ =>
    first
      | rintro ⟨⟩; exact h.goto trivial
      | nofun

end Tidy

/-- **Joining lasts**: along every run in which no room is evicted between the two locks of a
`Join`, everybody who has entered a room and not left it is found in it. -/
theorem kept_of_settled {tr : List Act} (hrun : (lts o).Run (Settled o.normalize) tr s) :
    s.Kept := by
  refine (hrun.invariant (I := Tidy) ?_ fun s a s' h hok hs => ?_).kept
  · rintro s ⟨now, rfl⟩
    exact tidy_init
  · change s.step o.normalize a = some s' at hs
    unfold step at hs
    split at hs
    · exact h.next hs
    · exact h.visit hok hs
    · cases hs
      exact ⟨h.lt_fresh, h.id_eq, fun j => fits_of_get (h.fits j) rfl rfl, h.kept⟩
    all_goals
      split_ifs at hs
      exact h.call hs

/-- A step that is no round of a loop. -/
def straight : Act → Bool
  | .visit _ _ => false
  | _ => true

theorem settled_of_straight {a : Act} (h : straight a = true) : s.Settled o a := by
  cases a with
  | visit => cases h
  | _ => trivial

/-- At most two members, empty rooms are kept for ten nanoseconds. -/
def small : RoomOptions := ⟨2, 10⟩

theorem kept_after_leave :
    ∃ s, (lts small).Run (Settled small.normalize)
      [.join 0 "lobby" (some "a"), .join 1 "lobby" (some "b"), .step 0, .step 1, .step 0,
        .leave 2 "lobby" "a", .step 2, .step 0] s ∧
      s.entered = {("lobby", "b")} ∧ s.Kept := by
  exact LTS.exists_checked_run (A := lts small) (fun _ _ _ h => h)
    (fun _ _ => settled_of_straight) ⟨0, rfl⟩ _
    (by decide) fun s hrun hs => ⟨hs, kept_of_settled hrun⟩

/-- A room is emptied at time 0.  At time 10 a `Join` looks it up, the janitor evicts it, and the
`Join` enters the evicted room and returns. -/
theorem joined_evicted_room :
    ∃ s, (lts small).Run LTS.anyStep
      [.join 0 "lobby" (some "a"), .step 0, .step 0, .step 0, .leave 1 "lobby" "a", .step 1,
        .step 1, .tick 10,
        .join 2 "lobby" (some "b"),
        .evictEmptyRooms 3, .step 3, .visit 3 0, .step 3,
        .step 2, .step 2, .step 2] s ∧
      s.pc 2 = .joined 1 ∧ s.get "lobby" = none ∧ ¬ s.Kept := by
  refine LTS.exists_run_of_exec (A := lts small) (f := fun s a => s.step small.normalize a)
    (fun _ _ _ h => h) ⟨0, rfl⟩ _
    (P := fun s => s.pc 2 = .joined 1 ∧ s.get "lobby" = none ∧ ("lobby", "b") ∈ s.entered)
    (by decide) fun s hrun hs => ?_
  obtain ⟨hpc, hget, hmem⟩ := hs
  refine ⟨hpc, hget, fun hkept => ?_⟩
  obtain ⟨room, hroom, -⟩ := hkept "lobby" "b" hmem
  cases hget.symm.trans hroom

end Sys

end Rooms

end WebSocket

end GinRpc
