/-
  AvMesh.LiveCache.Locks
  ──────────────────────
  **THE COMMIT LOCKS**, which are collected when their stream is retired.

  `canonical_commit_locks` maps a stream to a reference-counted mutex.  A
  commit and a retirement take a clone of the mutex from the table, wait for
  its guard, and drop the clone at the end:

      commit   obtain → acquire → release → leave
      retire   obtain → acquire → release → collect → leave

  A retirement removes the mutex from the table (`collect`) when it is still
  the one it has a clone of and its strong count is two: one for the table and
  one for that clone (`CommitLocks.Sound`).
-/
import AvMesh.Lib.StepSystem
import AvMesh.Lib.Table

namespace AvMesh.LiveCache

open AvMesh.Lib

/-! ## §1. Locks and tasks. -/

/-- An `Arc<AsyncMutex<()>>`: its strong count, and the task that holds the guard. -/
structure CommitLock where
  strongCount : Nat
  guard : Option Nat
  deriving Repr, DecidableEq

inductive LockPoint where
  /-- it has its clone and waits for the guard -/
  | waiting
  /-- it holds the guard -/
  | inside
  /-- it has retired its stream and goes to the table -/
  | checking
  /-- it has yet to drop its clone -/
  | leaving
  deriving Repr, DecidableEq

/-- A commit to a stream or a retirement of it, with the address of the lock it has a clone of. -/
structure LockTask where
  streamId : UInt64
  retires : Bool
  lock : Nat
  point : LockPoint
  deriving Repr, DecidableEq

/-- The table of the locks, the locks that are allocated, and the tasks. -/
structure CommitLocks where
  canonicalCommitLocks : Table UInt64 Nat
  heap : Table Nat CommitLock
  tasks : Table Nat LockTask

namespace CommitLocks

abbrev Heap := Table Nat CommitLock

/-- `Arc::clone` -/
def Heap.cloneArc (heap : Heap) (address : Nat) : Heap :=
  match heap.lookup address with
  | some lock => heap.replace address { lock with strongCount := lock.strongCount + 1 }
  | none => heap

/-- The last clone that is dropped frees the lock. -/
def Heap.dropArc (heap : Heap) (address : Nat) : Heap :=
  match heap.lookup address with
  | some lock =>
      if lock.strongCount ≤ 1 then heap.erase address
      else heap.replace address { lock with strongCount := lock.strongCount - 1 }
  | none => heap

def Heap.setGuard (heap : Heap) (address : Nat) (guard : Option Nat) : Heap :=
  match heap.lookup address with
  | some lock => heap.replace address { lock with guard }
  | none => heap

/-- `Arc::strong_count`, and zero for a lock that is freed. -/
def Heap.strongCount (heap : Heap) (address : Nat) : Nat :=
  (heap.lookup address).elim 0 (·.strongCount)

/-- The task that holds the guard of a lock. -/
def Heap.guard (heap : Heap) (address : Nat) : Option Nat :=
  (heap.lookup address).bind (·.guard)

/-- `canonical_commit_lock`: a clone of the lock of the stream, which is allocated at `address` when
the table has none.  The allocator gives out no address that is in use. -/
def canonicalCommitLock (sys : CommitLocks) (streamId : UInt64) (address : Nat) :
    Option (Nat × CommitLocks) :=
  match sys.canonicalCommitLocks.lookup streamId with
  | some stored => some (stored, { sys with heap := Heap.cloneArc sys.heap stored })
  | none =>
      if address ∈ sys.heap then none
      else some (address, { sys with
        canonicalCommitLocks := sys.canonicalCommitLocks.insert streamId address
        heap := sys.heap.insert address ⟨2, none⟩ })

end CommitLocks

/-! ## §2. Steps. -/

inductive LockEvent where
  | obtain (task : Nat) (streamId : UInt64) (retires : Bool) (address : Nat)
  | acquire (task : Nat)
  /-- `retired`: the stream was still idle -/
  | release (task : Nat) (retired : Bool)
  | collect (task : Nat)
  | leave (task : Nat)
  /-- the future is dropped while it waits -/
  | abandon (task : Nat)

namespace CommitLocks

def moveTo (sys : CommitLocks) (id : Nat) (task : LockTask) (point : LockPoint) : CommitLocks :=
  { sys with tasks := sys.tasks.replace id { task with point } }

def acquire (sys : CommitLocks) (id : Nat) (task : LockTask) : CommitLocks :=
  if task.point = .waiting ∧ Heap.guard sys.heap task.lock = none then
    { sys.moveTo id task .inside with heap := Heap.setGuard sys.heap task.lock (some id) }
  else sys

def release (sys : CommitLocks) (id : Nat) (task : LockTask) (retired : Bool) : CommitLocks :=
  if task.point = .inside then
    { sys.moveTo id task (if task.retires && retired then .checking else .leaving) with
      heap := Heap.setGuard sys.heap task.lock none }
  else sys

/-- The check under the mutex of the table. -/
def collect (sys : CommitLocks) (id : Nat) (task : LockTask) : CommitLocks :=
  if task.point = .checking then
    if sys.canonicalCommitLocks.lookup task.streamId = some task.lock ∧
        Heap.strongCount sys.heap task.lock = 2 then
      { sys.moveTo id task .leaving with
        canonicalCommitLocks := sys.canonicalCommitLocks.erase task.streamId
        heap := Heap.dropArc sys.heap task.lock }
    else sys.moveTo id task .leaving
  else sys

def leave (sys : CommitLocks) (id : Nat) (task : LockTask) : CommitLocks :=
  if task.point = .leaving then
    { sys with
      heap := Heap.dropArc sys.heap task.lock
      tasks := sys.tasks.erase id }
  else sys

def abandon (sys : CommitLocks) (id : Nat) (task : LockTask) : CommitLocks :=
  if task.point = .waiting then sys.moveTo id task .leaving else sys

/-- A step of the task, if it is there. -/
def withTask (sys : CommitLocks) (id : Nat) (act : LockTask → CommitLocks) : CommitLocks :=
  match sys.tasks.lookup id with
  | some task => act task
  | none => sys

def lockStep (sys : CommitLocks) : LockEvent → Unit × CommitLocks
  | .obtain id streamId retires address =>
      ((), if id ∈ sys.tasks then sys
        else match sys.canonicalCommitLock streamId address with
          | some (lock, sys) =>
              { sys with tasks := sys.tasks.insert id ⟨streamId, retires, lock, .waiting⟩ }
          | none => sys)
  | .acquire id => ((), sys.withTask id (sys.acquire id))
  | .release id retired => ((), sys.withTask id (sys.release id · retired))
  | .collect id => ((), sys.withTask id (sys.collect id))
  | .leave id => ((), sys.withTask id (sys.leave id))
  | .abandon id => ((), sys.withTask id (sys.abandon id))

/-- No lock is allocated. -/
def start : CommitLocks := ⟨∅, ∅, ∅⟩

/-! ## §3. The invariant. -/

/-- The clones of a lock: the entries of the table and the tasks that have it. -/
def references (sys : CommitLocks) (address : Nat) : Nat :=
  sys.canonicalCommitLocks.total (fun _ stored => if stored = address then 1 else 0) +
    sys.tasks.total (fun _ task => if task.lock = address then 1 else 0)

/-- The strong count of a lock is the number of its clones; the guard belongs to the task that is
inside; and the lock of a task is that of the table, until the task is leaving. -/
structure Sound (sys : CommitLocks) : Prop where
  counted : ∀ address, Heap.strongCount sys.heap address = sys.references address
  guarded : ∀ address id, Heap.guard sys.heap address = some id ↔
    ∃ task, sys.tasks.lookup id = some task ∧ task.lock = address ∧ task.point = .inside
  current : ∀ id task, sys.tasks.lookup id = some task → task.point ≠ .leaving →
    sys.canonicalCommitLocks.lookup task.streamId = some task.lock

section Heap

variable {heap : Heap} {address : Nat}

theorem exists_lock (h : 0 < Heap.strongCount heap address) :
    ∃ lock, heap.lookup address = some lock ∧ Heap.strongCount heap address = lock.strongCount := by
  rw [Heap.strongCount] at h ⊢
  cases hlock : heap.lookup address with
  | none =>
      rw [hlock] at h
      exact absurd h (Nat.lt_irrefl 0)
  | some lock => exact ⟨lock, rfl, rfl⟩

theorem strongCount_cloneArc (h : 0 < Heap.strongCount heap address) (other : Nat) :
    Heap.strongCount (Heap.cloneArc heap address) other =
      Heap.strongCount heap other + if address = other then 1 else 0 := by
  obtain ⟨lock, hlock, _⟩ := exists_lock h
  simp only [Heap.cloneArc, hlock, Heap.strongCount]
  by_cases hother : address = other
  · rw [← hother, AList.lookup_replace_self _ hlock, hlock, if_pos rfl]
    rfl
  · rw [AList.lookup_replace_ne _ _ (Ne.symm hother), if_neg hother, Nat.add_zero]

theorem guard_cloneArc (other : Nat) :
    Heap.guard (Heap.cloneArc heap address) other = Heap.guard heap other := by
  rw [Heap.cloneArc]
  cases hlock : heap.lookup address with
  | none => rfl
  | some lock =>
      rw [Heap.guard, Heap.guard]
      by_cases hother : other = address
      · rw [hother, AList.lookup_replace_self _ hlock, hlock]
        rfl
      · rw [AList.lookup_replace_ne _ _ hother]

theorem strongCount_dropArc (h : 0 < Heap.strongCount heap address) (other : Nat) :
    Heap.strongCount (Heap.dropArc heap address) other + (if address = other then 1 else 0) =
      Heap.strongCount heap other := by
  obtain ⟨lock, hlock, hcount⟩ := exists_lock h
  simp only [Heap.dropArc, hlock, Heap.strongCount]
  by_cases hother : address = other
  · rw [← hother, hlock, if_pos rfl]
    by_cases hlast : lock.strongCount ≤ 1
    · rw [if_pos hlast, AList.lookup_erase]
      show 0 + 1 = lock.strongCount
      omega
    · rw [if_neg hlast, AList.lookup_replace_self _ hlock]
      show lock.strongCount - 1 + 1 = lock.strongCount
      omega
  · rw [if_neg hother, Nat.add_zero]
    by_cases hlast : lock.strongCount ≤ 1
    · rw [if_pos hlast, AList.lookup_erase_ne (Ne.symm hother)]
    · rw [if_neg hlast, AList.lookup_replace_ne _ _ (Ne.symm hother)]

/-- A clone is dropped while there are others, or the guard is free. -/
theorem guard_dropArc (h : 1 < Heap.strongCount heap address ∨ Heap.guard heap address = none)
    (other : Nat) : Heap.guard (Heap.dropArc heap address) other = Heap.guard heap other := by
  rw [Heap.dropArc]
  cases hlock : heap.lookup address with
  | none => rfl
  | some lock =>
      simp only [Heap.guard, Heap.strongCount, hlock] at h ⊢
      by_cases hlast : lock.strongCount ≤ 1
      · have hfree : lock.guard = none := h.resolve_left fun hmore => by
          have : 1 < lock.strongCount := hmore
          omega
        rw [if_pos hlast]
        by_cases hother : other = address
        · rw [hother, AList.lookup_erase, hlock]
          exact hfree.symm
        · rw [AList.lookup_erase_ne hother]
      · rw [if_neg hlast]
        by_cases hother : other = address
        · rw [hother, AList.lookup_replace_self _ hlock, hlock]
          rfl
        · rw [AList.lookup_replace_ne _ _ hother]

theorem strongCount_setGuard (guard : Option Nat) (other : Nat) :
    Heap.strongCount (Heap.setGuard heap address guard) other = Heap.strongCount heap other := by
  rw [Heap.setGuard]
  cases hlock : heap.lookup address with
  | none => rfl
  | some lock =>
      rw [Heap.strongCount, Heap.strongCount]
      by_cases hother : other = address
      · rw [hother, AList.lookup_replace_self _ hlock, hlock]
        rfl
      · rw [AList.lookup_replace_ne _ _ hother]

theorem guard_setGuard (h : 0 < Heap.strongCount heap address) (guard : Option Nat)
    (other : Nat) : Heap.guard (Heap.setGuard heap address guard) other =
      if address = other then guard else Heap.guard heap other := by
  obtain ⟨lock, hlock, _⟩ := exists_lock h
  simp only [Heap.setGuard, hlock, Heap.guard]
  by_cases hother : address = other
  · rw [← hother, AList.lookup_replace_self _ hlock, if_pos rfl]
    rfl
  · rw [AList.lookup_replace_ne _ _ (Ne.symm hother), if_neg hother]

end Heap

section References

variable {sys : CommitLocks} {id : Nat} {task : LockTask}

/-- A task has a clone of its lock. -/
theorem references_pos (h : sys.tasks.lookup id = some task) : 0 < sys.references task.lock := by
  have hle := AList.le_total (fun _ task' => if task'.lock = task.lock then 1 else 0) h
  rw [references]
  simp only [if_true] at hle
  omega

/-- The table has a clone of each of its locks. -/
theorem references_pos_of_stored {streamId : UInt64} {address : Nat}
    (h : sys.canonicalCommitLocks.lookup streamId = some address) :
    0 < sys.references address := by
  have hle := AList.le_total (fun _ stored => if stored = address then 1 else 0) h
  rw [references]
  simp only [if_true] at hle
  omega

theorem two_le_tasks (htask : sys.tasks.lookup id = some task) {other : Nat} {task' : LockTask}
    (hother : sys.tasks.lookup other = some task') (hlock : task'.lock = task.lock)
    (hne : other ≠ id) :
    2 ≤ sys.tasks.total (fun _ holder => if holder.lock = task.lock then 1 else 0) := by
  have hle := AList.add_le_total (fun _ holder => if holder.lock = task.lock then 1 else 0) htask
    hother hne
  simp only [hlock, if_true] at hle
  exact hle

/-- With two clones, one of the table and one of a task, no other task has one. -/
theorem eq_of_references_eq_two {streamId : UInt64}
    (hstored : sys.canonicalCommitLocks.lookup streamId = some task.lock)
    (htask : sys.tasks.lookup id = some task) (htwo : sys.references task.lock = 2)
    {other : Nat} {task' : LockTask} (hother : sys.tasks.lookup other = some task')
    (hlock : task'.lock = task.lock) : other = id := by
  by_contra hne
  have htable := AList.le_total (fun _ stored => if stored = task.lock then 1 else 0) hstored
  have htasks := two_le_tasks htask hother hlock hne
  rw [references] at htwo
  simp only [if_true] at htable
  omega

theorem references_moveTo (h : sys.tasks.lookup id = some task) (point : LockPoint)
    (address : Nat) : (sys.moveTo id task point).references address = sys.references address := by
  have htasks : (sys.tasks.replace id { task with point }).total
      (fun _ task' => if task'.lock = address then 1 else 0) =
      sys.tasks.total (fun _ task' => if task'.lock = address then 1 else 0) :=
    AList.total_replace_of_eq _ h rfl
  rw [references, references, moveTo, htasks]

end References

/-! ## §4. Every step keeps it. -/

section Steps

variable {sys : CommitLocks} {id : Nat} {task : LockTask}

/-- The tasks after one has gone on to another point. -/
theorem lookup_moveTo (h : sys.tasks.lookup id = some task) (point : LockPoint) (other : Nat) :
    (sys.moveTo id task point).tasks.lookup other =
      if other = id then some { task with point } else sys.tasks.lookup other := by
  by_cases hother : other = id
  · rw [if_pos hother, hother]
    exact AList.lookup_replace_self _ h
  · rw [if_neg hother]
    exact AList.lookup_replace_ne _ _ hother

/-- A task that goes on does not bring the lock of its stream out of date. -/
theorem Sound.current_moveTo (h : sys.Sound) (htask : sys.tasks.lookup id = some task)
    {point : LockPoint} (hpoint : task.point ≠ .leaving ∨ point = .leaving) (other : Nat)
    (later : LockTask) (hlater : (sys.moveTo id task point).tasks.lookup other = some later)
    (hstays : later.point ≠ .leaving) :
    sys.canonicalCommitLocks.lookup later.streamId = some later.lock := by
  rw [lookup_moveTo htask] at hlater
  by_cases hother : other = id
  · rw [if_pos hother] at hlater
    cases hlater
    rcases hpoint with hstayed | hleaves
    · exact h.current id task htask hstayed
    · exact absurd hleaves hstays
  · rw [if_neg hother] at hlater
    exact h.current other later hlater hstays

/-- A task goes on that neither was inside nor is. -/
theorem Sound.pass (h : sys.Sound) (htask : sys.tasks.lookup id = some task)
    {point : LockPoint} (hoff : task.point ≠ .inside) (hon : point ≠ .inside)
    (hpoint : task.point ≠ .leaving ∨ point = .leaving) :
    (sys.moveTo id task point).Sound := by
  refine ⟨fun address => ?_, fun address other => ?_, h.current_moveTo htask hpoint⟩
  · rw [references_moveTo htask]
    exact h.counted address
  · rw [lookup_moveTo htask]
    by_cases hother : other = id
    · subst hother
      refine (h.guarded address other).trans ⟨?_, ?_⟩
      · rintro ⟨task', htask', _, hinside⟩
        rw [htask] at htask'
        cases htask'
        exact absurd hinside hoff
      · rintro ⟨task', htask', _, hinside⟩
        rw [if_pos rfl] at htask'
        cases htask'
        exact absurd hinside hon
    · rw [if_neg hother]
      exact h.guarded address other

/-- A task goes in or out, and takes the guard with it. -/
theorem Sound.turn (h : sys.Sound) (htask : sys.tasks.lookup id = some task)
    {point : LockPoint} (hpoint : task.point ≠ .leaving ∨ point = .leaving)
    (hguard : ∀ other, Heap.guard sys.heap task.lock = some other → other = id) :
    Sound { sys.moveTo id task point with
      heap := Heap.setGuard sys.heap task.lock (if point = .inside then some id else none) } := by
  have hpos : 0 < Heap.strongCount sys.heap task.lock := by
    rw [h.counted]
    exact references_pos htask
  refine ⟨fun address => ?_, fun address other => ?_, h.current_moveTo htask hpoint⟩
  · rw [strongCount_setGuard]
    exact (h.counted address).trans (references_moveTo htask point address).symm
  · show Heap.guard (Heap.setGuard sys.heap task.lock _) address = some other ↔
      ∃ later, (sys.moveTo id task point).tasks.lookup other = some later ∧ _
    rw [guard_setGuard hpos, lookup_moveTo htask]
    by_cases hother : other = id
    · subst hother
      rw [if_pos rfl]
      by_cases haddress : task.lock = address
      · rw [if_pos haddress]
        by_cases hinside : point = .inside
        · rw [if_pos hinside]
          exact ⟨fun _ => ⟨_, rfl, haddress, hinside⟩, fun _ => rfl⟩
        · rw [if_neg hinside]
          refine ⟨nofun, ?_⟩
          rintro ⟨later, hlater, _, hin⟩
          cases hlater
          exact absurd hin hinside
      · rw [if_neg haddress]
        refine ⟨fun hheld => ?_, ?_⟩
        · obtain ⟨task', htask', hlock, _⟩ := (h.guarded address other).1 hheld
          rw [htask] at htask'
          cases htask'
          exact absurd hlock haddress
        · rintro ⟨later, hlater, hlock, _⟩
          cases hlater
          exact absurd hlock haddress
    · rw [if_neg hother]
      by_cases haddress : task.lock = address
      · rw [if_pos haddress]
        -- nobody else holds the guard
        refine ⟨fun hheld => ?_, fun hheld => ?_⟩
        · split at hheld
          · exact absurd (Option.some.inj hheld).symm hother
          · cases hheld
        · rw [← haddress] at hheld
          exact absurd (hguard other ((h.guarded task.lock other).2 hheld)) hother
      · rw [if_neg haddress]
        exact h.guarded address other

theorem Sound.acquire (h : sys.Sound) (htask : sys.tasks.lookup id = some task) :
    (sys.acquire id task).Sound := by
  rw [CommitLocks.acquire]
  split
  · next hready =>
      refine h.turn htask (Or.inl ?_) fun other hheld => ?_
      · rw [hready.1]
        nofun
      · rw [hready.2] at hheld
        cases hheld
  · exact h

theorem Sound.release (h : sys.Sound) (htask : sys.tasks.lookup id = some task) (retired : Bool) :
    (sys.release id task retired).Sound := by
  rw [CommitLocks.release]
  split
  · next hinside =>
      have hown (other : Nat) (hheld : Heap.guard sys.heap task.lock = some other) : other = id := by
        have hmine := (h.guarded task.lock id).2 ⟨task, htask, rfl, hinside⟩
        rw [hmine] at hheld
        exact (Option.some.inj hheld).symm
      have hstayed : task.point ≠ .leaving := by
        rw [hinside]
        nofun
      cases task.retires && retired with
      | true => exact @Sound.turn sys id task h htask .checking (Or.inl hstayed) hown
      | false => exact @Sound.turn sys id task h htask .leaving (Or.inr rfl) hown
  · exact h

theorem Sound.abandon (h : sys.Sound) (htask : sys.tasks.lookup id = some task) :
    (sys.abandon id task).Sound := by
  rw [CommitLocks.abandon]
  split
  · next hwaits =>
      refine h.pass htask ?_ nofun (Or.inr rfl)
      rw [hwaits]
      nofun
  · exact h

/-- A task that begins to wait is not inside. -/
theorem inside_insert_iff {tasks : Table Nat LockTask} (hnew : id ∉ tasks)
    (hpoint : task.point = .waiting) (address other : Nat) :
    (∃ later, (tasks.insert id task).lookup other = some later ∧ later.lock = address ∧
      later.point = .inside) ↔
    ∃ later, tasks.lookup other = some later ∧ later.lock = address ∧ later.point = .inside := by
  by_cases hother : other = id
  · subst hother
    constructor
    · rintro ⟨later, hlater, _, hinside⟩
      rw [AList.lookup_insert] at hlater
      cases hlater
      rw [hpoint] at hinside
      cases hinside
    · rintro ⟨later, hlater, _⟩
      exact absurd (AList.mem_of_lookup hlater) hnew
  · rw [AList.lookup_insert_ne hother]

theorem Sound.obtain_stored (h : sys.Sound) {streamId : UInt64} {retires : Bool} {stored : Nat}
    (hstored : sys.canonicalCommitLocks.lookup streamId = some stored) (hnew : id ∉ sys.tasks) :
    Sound { sys with
      heap := Heap.cloneArc sys.heap stored
      tasks := sys.tasks.insert id ⟨streamId, retires, stored, .waiting⟩ } := by
  have hpos : 0 < Heap.strongCount sys.heap stored := by
    rw [h.counted]
    exact references_pos_of_stored hstored
  refine ⟨fun address => ?_, fun address other => ?_, fun other later hlater hstays => ?_⟩
  · have hcounted := h.counted address
    rw [references] at hcounted ⊢
    simp only
    rw [strongCount_cloneArc hpos, AList.total_insert_of_notMem _ _ hnew]
    show _ = _ + ((if stored = address then 1 else 0) + _)
    omega
  · rw [guard_cloneArc, inside_insert_iff hnew rfl]
    exact h.guarded address other
  · rcases AList.lookup_of_insert hlater with ⟨_, rfl⟩ | ⟨_, hold⟩
    · exact hstored
    · exact h.current other later hold hstays

theorem Sound.obtain_new (h : sys.Sound) {streamId : UInt64} {retires : Bool} {address : Nat}
    (hstored : sys.canonicalCommitLocks.lookup streamId = none) (hfree : address ∉ sys.heap)
    (hnew : id ∉ sys.tasks) :
    Sound {
      canonicalCommitLocks := sys.canonicalCommitLocks.insert streamId address
      heap := sys.heap.insert address ⟨2, none⟩
      tasks := sys.tasks.insert id ⟨streamId, retires, address, .waiting⟩ } := by
  have hunused : sys.references address = 0 := by
    rw [← h.counted, Heap.strongCount, AList.lookup_eq_none.2 hfree]
    rfl
  refine ⟨fun other => ?_, fun other other' => ?_, fun other later hlater hstays => ?_⟩
  · have hcounted := h.counted other
    rw [references] at hcounted ⊢
    simp only
    rw [AList.total_insert_of_notMem _ _ hnew,
      AList.total_insert_of_notMem _ _ (AList.lookup_eq_none.1 hstored), Heap.strongCount]
    by_cases hother : other = address
    · subst hother
      rw [references] at hunused
      rw [AList.lookup_insert, if_pos rfl]
      show 2 = 1 + _ + (1 + _)
      omega
    · rw [AList.lookup_insert_ne hother, if_neg (Ne.symm hother)]
      rw [Heap.strongCount] at hcounted
      omega
  · rw [inside_insert_iff hnew rfl, ← h.guarded other other', Heap.guard, Heap.guard]
    by_cases hother : other = address
    · rw [hother, AList.lookup_insert, AList.lookup_eq_none.2 hfree]
      rfl
    · rw [AList.lookup_insert_ne hother]
  · rcases AList.lookup_of_insert hlater with ⟨_, rfl⟩ | ⟨_, hold⟩
    · exact AList.lookup_insert _
    · have hcurrent := h.current other later hold hstays
      have hstream : later.streamId ≠ streamId := fun heq => by
        rw [heq, hstored] at hcurrent
        cases hcurrent
      rw [AList.lookup_insert_ne hstream]
      exact hcurrent

/-- **The check under the mutex of the table**: a lock is removed that no other task has. -/
theorem Sound.collect (h : sys.Sound) (htask : sys.tasks.lookup id = some task) :
    (sys.collect id task).Sound := by
  rw [CommitLocks.collect]
  split
  · next hchecks =>
      split
      · next hlast =>
          obtain ⟨hstored, htwo⟩ := hlast
          have hmore : 1 < Heap.strongCount sys.heap task.lock := by omega
          have hpass : (sys.moveTo id task .leaving).Sound :=
            h.pass htask (by rw [hchecks]; nofun) nofun (Or.inr rfl)
          refine ⟨fun address => ?_, fun address other => ?_, fun other later hlater hstays => ?_⟩
          · have hdropped := strongCount_dropArc (Nat.zero_lt_of_lt hmore) address
            have herased := AList.total_erase (fun _ stored => if stored = address then 1 else 0)
              hstored
            have hcounted := hpass.counted address
            rw [references] at hcounted ⊢
            simp only [moveTo] at hcounted ⊢
            omega
          · rw [guard_dropArc (Or.inl hmore)]
            exact hpass.guarded address other
          · have hcurrent := hpass.current other later hlater hstays
            -- a lock of the same stream would be a third clone
            have hstream : later.streamId ≠ task.streamId := by
              intro heq
              rw [lookup_moveTo htask] at hlater
              by_cases hother : other = id
              · rw [if_pos hother] at hlater
                cases hlater
                exact hstays rfl
              · rw [if_neg hother] at hlater
                rw [heq, moveTo, hstored] at hcurrent
                exact hother (eq_of_references_eq_two hstored htask ((h.counted _).symm.trans htwo)
                  hlater (Option.some.inj hcurrent).symm)
            rw [AList.lookup_erase_ne hstream]
            exact hcurrent
      · exact h.pass htask (by rw [hchecks]; nofun) nofun (Or.inr rfl)
  · exact h

/-- A task drops its clone. -/
theorem Sound.leave (h : sys.Sound) (htask : sys.tasks.lookup id = some task) :
    (sys.leave id task).Sound := by
  rw [CommitLocks.leave]
  split
  · next hleaves =>
      have hpos : 0 < Heap.strongCount sys.heap task.lock := by
        rw [h.counted]
        exact references_pos htask
      have hdrop : 1 < Heap.strongCount sys.heap task.lock ∨
          Heap.guard sys.heap task.lock = none := by
        cases hheld : Heap.guard sys.heap task.lock with
        | none => exact Or.inr rfl
        | some other =>
            -- who is inside has a clone as well
            obtain ⟨task', htask', hlock, hinside⟩ := (h.guarded task.lock other).1 hheld
            have hne : other ≠ id := by
              intro heq
              subst heq
              rw [htask] at htask'
              cases htask'
              rw [hleaves] at hinside
              cases hinside
            have htwo := two_le_tasks htask htask' hlock hne
            rw [h.counted, references]
            left
            omega
      refine ⟨fun address => ?_, fun address other => ?_, fun other later hlater hstays => ?_⟩
      · have hdropped := strongCount_dropArc hpos address
        have herased := AList.total_erase (fun _ holder => if holder.lock = address then 1 else 0)
          htask
        have hcounted := h.counted address
        rw [references] at hcounted ⊢
        simp only
        omega
      · rw [guard_dropArc hdrop]
        refine (h.guarded address other).trans ?_
        by_cases hother : other = id
        · subst hother
          rw [AList.lookup_erase, htask]
          refine ⟨?_, nofun⟩
          rintro ⟨later, hlater, _, hinside⟩
          cases hlater
          rw [hleaves] at hinside
          cases hinside
        · rw [AList.lookup_erase_ne hother]
      · exact h.current other later (AList.lookup_of_erase hlater).2 hstays
  · exact h

/-- **Every step keeps the locks sound.** -/
theorem Sound.step (h : sys.Sound) (event : LockEvent) : (lockStep sys event).2.Sound := by
  have hwith {id : Nat} {act : LockTask → CommitLocks}
      (hact : ∀ task, sys.tasks.lookup id = some task → (act task).Sound) :
      (sys.withTask id act).Sound := by
    rw [withTask]
    cases htask : sys.tasks.lookup id with
    | none => exact h
    | some task => exact hact task htask
  cases event with
  | obtain id streamId retires address =>
      rw [lockStep, canonicalCommitLock]
      by_cases hid : id ∈ sys.tasks
      · rw [if_pos hid]
        exact h
      · rw [if_neg hid]
        cases hstored : sys.canonicalCommitLocks.lookup streamId with
        | some stored => exact h.obtain_stored hstored hid
        | none =>
            by_cases hfree : address ∈ sys.heap
            · simp only [if_pos hfree]
              exact h
            · simp only [if_neg hfree]
              exact h.obtain_new hstored hfree hid
  | acquire id => exact hwith fun _ htask => h.acquire htask
  | release id retired => exact hwith fun _ htask => h.release htask retired
  | collect id => exact hwith fun _ htask => h.collect htask
  | leave id => exact hwith fun _ htask => h.leave htask
  | abandon id => exact hwith fun _ htask => h.abandon htask

/-! ## §5. Mutual exclusion. -/

/-- Two tasks of one stream are not inside together. -/
theorem Sound.exclusive (h : sys.Sound) (htask : sys.tasks.lookup id = some task) {other : Nat}
    {task' : LockTask} (hother : sys.tasks.lookup other = some task')
    (hstream : task.streamId = task'.streamId) (hinside : task.point = .inside)
    (hinside' : task'.point = .inside) : id = other := by
  have hlock : some task.lock = some task'.lock := by
    rw [← h.current id task htask (by rw [hinside]; nofun),
      ← h.current other task' hother (by rw [hinside']; nofun), hstream]
  have hguard := (h.guarded task.lock id).2 ⟨task, htask, rfl, hinside⟩
  have hguard' := (h.guarded task.lock other).2
    ⟨task', hother, (Option.some.inj hlock).symm, hinside'⟩
  rw [hguard] at hguard'
  exact Option.some.inj hguard'

/-- Only the check of a retirement takes a lock from the table, and only when no other task has a
clone of it. -/
theorem Sound.removed (h : sys.Sound) {event : LockEvent} {streamId : UInt64} {address : Nat}
    (hstored : sys.canonicalCommitLocks.lookup streamId = some address)
    (hremoved : (lockStep sys event).2.canonicalCommitLocks.lookup streamId ≠ some address) :
    ∃ id, event = .collect id ∧
      ∀ other task, sys.tasks.lookup other = some task → task.lock = address → other = id := by
  have hwith {id : Nat} {act : LockTask → CommitLocks}
      (hact : ∀ task, (act task).canonicalCommitLocks = sys.canonicalCommitLocks) :
      (sys.withTask id act).canonicalCommitLocks = sys.canonicalCommitLocks := by
    rw [withTask]
    cases sys.tasks.lookup id with
    | none => rfl
    | some task => exact hact task
  have hkept (hsame : (lockStep sys event).2.canonicalCommitLocks = sys.canonicalCommitLocks) :
      ∃ id, event = .collect id ∧
        ∀ other task, sys.tasks.lookup other = some task → task.lock = address → other = id := by
    rw [hsame] at hremoved
    exact absurd hstored hremoved
  cases event with
  | obtain id other retires fresh =>
      rw [lockStep, canonicalCommitLock] at hremoved
      by_cases hid : id ∈ sys.tasks
      · rw [if_pos hid] at hremoved
        exact absurd hstored hremoved
      · rw [if_neg hid] at hremoved
        cases hother : sys.canonicalCommitLocks.lookup other with
        | some stored =>
            rw [hother] at hremoved
            exact absurd hstored hremoved
        | none =>
            have hne : streamId ≠ other := fun heq => by
              rw [heq, hother] at hstored
              cases hstored
            rw [hother] at hremoved
            by_cases hfree : fresh ∈ sys.heap
            · simp only [if_pos hfree] at hremoved
              exact absurd hstored hremoved
            · simp only [if_neg hfree, AList.lookup_insert_ne hne] at hremoved
              exact absurd hstored hremoved
  | acquire id =>
      refine hkept (hwith fun task => ?_)
      rw [CommitLocks.acquire]
      split <;> rfl
  | release id retired =>
      refine hkept (hwith fun task => ?_)
      rw [CommitLocks.release]
      split <;> rfl
  | leave id =>
      refine hkept (hwith fun task => ?_)
      rw [CommitLocks.leave]
      split <;> rfl
  | abandon id =>
      refine hkept (hwith fun task => ?_)
      rw [CommitLocks.abandon]
      split <;> rfl
  | collect id =>
      refine ⟨id, rfl, ?_⟩
      rw [lockStep, withTask] at hremoved
      cases htask : sys.tasks.lookup id with
      | none =>
          rw [htask] at hremoved
          exact absurd hstored hremoved
      | some task =>
          simp only [htask, CommitLocks.collect] at hremoved
          split at hremoved
          · split at hremoved
            · next hlast =>
                obtain ⟨hmine, htwo⟩ := hlast
                have hstream : streamId = task.streamId := by
                  by_contra hne
                  rw [AList.lookup_erase_ne hne] at hremoved
                  exact hremoved hstored
                have hlock : task.lock = address := by
                  rw [hstream, hmine] at hstored
                  exact Option.some.inj hstored
                intro other task' hother hlock'
                exact eq_of_references_eq_two hmine htask ((h.counted _).symm.trans htwo) hother
                  (hlock'.trans hlock.symm)
            · exact absurd hstored hremoved
          · exact absurd hstored hremoved

end Steps

theorem sound_start : start.Sound where
  counted := fun _ => rfl
  guarded := fun _ _ => ⟨nofun, fun ⟨_, hlookup, _⟩ => nomatch hlookup⟩
  current := nofun

/-- **Collecting the locks keeps mutual exclusion.**  After every run of commits and retirements no
two tasks of a stream hold its lock together; and a lock leaves the table only by the check of a
retirement, when no other task holds it or waits for it. -/
theorem commit_locks_exclude (events : List LockEvent) :
    let sys := exec lockStep start events
    (∀ id id' task task', sys.tasks.lookup id = some task → sys.tasks.lookup id' = some task' →
      task.streamId = task'.streamId → task.point = .inside → task'.point = .inside → id = id') ∧
    ∀ event streamId address, sys.canonicalCommitLocks.lookup streamId = some address →
      (lockStep sys event).2.canonicalCommitLocks.lookup streamId ≠ some address →
      ∃ id, event = .collect id ∧
        ∀ other task, sys.tasks.lookup other = some task → task.lock = address → other = id := by
  intro sys
  have hsound : sys.Sound :=
    exec_invariant lockStep Sound (fun _ event h => h.step event) events sound_start
  exact ⟨fun id id' task task' htask htask' hstream hinside hinside' =>
      hsound.exclusive htask htask' hstream hinside hinside',
    fun event streamId address hstored hremoved => hsound.removed hstored hremoved⟩

/-- A retirement removes the lock of stream 3; a commit brings a new one and gets in. -/
def recreateRun : List LockEvent :=
  [.obtain 0 3 true 7, .acquire 0, .release 0 true, .collect 0, .obtain 1 3 false 8, .acquire 1,
    .obtain 2 3 false 9, .acquire 2]

/-- Then nobody else is inside. -/
theorem commit_locks_exclude_recreated :
    let sys := exec lockStep start recreateRun
    sys.canonicalCommitLocks.lookup 3 = some 8 ∧
      ∀ id task, sys.tasks.lookup id = some task → task.streamId = 3 → task.point = .inside →
        id = 1 := by
  refine ⟨rfl, fun id task htask hstream hinside => ?_⟩
  exact (commit_locks_exclude recreateRun).1 id 1 task ⟨3, false, 8, .inside⟩ htask rfl hstream
    hinside rfl

end CommitLocks

end AvMesh.LiveCache
