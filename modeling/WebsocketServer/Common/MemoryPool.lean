import WebsocketServer.Library.Run

/- The buffer pool of the TLS read path and the users that borrow blocks from it. An address is
   whatever new[] returns; every call of the pool is atomic under its lock. -/

structure MemoryPool (α : Type*) where
  blockSize_ : Nat
  ownedBlocks_ : List α
  freeList_ : List α
  heap_fallback_total_ : UInt64

namespace MemoryPool
variable {α : Type*} [DecidableEq α]

/-- The constructor: the loop pushes every block that new[] returned on both lists. -/
def create (blockSize : Nat) (blocks : List α) : MemoryPool α :=
  blocks.foldl
    (fun pool block => { pool with
      ownedBlocks_ := pool.ownedBlocks_ ++ [block]
      freeList_ := pool.freeList_ ++ [block] })
    { blockSize_ := blockSize, ownedBlocks_ := [], freeList_ := [], heap_fallback_total_ := 0 }

def isOwnedPointer (pool : MemoryPool α) (p : α) : Bool := pool.ownedBlocks_.any (· == p)

inductive HeapCall (α : Type*) where
  | new (p : α)
  | delete (p : α)
  deriving DecidableEq

def HeapCall.isNew {α : Type*} : HeapCall α → Bool
  | .new _ => true
  | .delete _ => false

/-- The pointer lent out, the pool behind it and the call of new[], which returned `fresh`. -/
def acquire (pool : MemoryPool α) (fresh : α) : α × MemoryPool α × List (HeapCall α) :=
  match pool.freeList_.getLast? with
  | some p => (p, { pool with freeList_ := pool.freeList_.dropLast }, [])
  | none =>
      (fresh, { pool with heap_fallback_total_ := pool.heap_fallback_total_ + 1 }, [.new fresh])

def release (pool : MemoryPool α) : Option α → MemoryPool α × List (HeapCall α)
  | none => (pool, [])
  | some p =>
      if pool.isOwnedPointer p then ({ pool with freeList_ := pool.freeList_ ++ [p] }, [])
      else (pool, [.delete p])

def preallocatedCount (pool : MemoryPool α) : Nat := pool.ownedBlocks_.length

def freeCount (pool : MemoryPool α) : Nat := pool.freeList_.length

def heapFallbackTotal (pool : MemoryPool α) : UInt64 := pool.heap_fallback_total_

@[simp] theorem isOwnedPointer_iff {pool : MemoryPool α} {p : α} :
    pool.isOwnedPointer p = true ↔ p ∈ pool.ownedBlocks_ := by
  simp [isOwnedPointer]

omit [DecidableEq α] in
theorem create_fields (blockSize : Nat) (blocks : List α) :
    (create blockSize blocks).ownedBlocks_ = blocks ∧
      (create blockSize blocks).freeList_ = blocks ∧
        (create blockSize blocks).heapFallbackTotal = 0 := by
  unfold create
  induction blocks using List.reverseRecOn with
  | nil => exact ⟨rfl, rfl, rfl⟩
  | append_singleton blocks block ih =>
    rw [List.foldl_append]
    exact ⟨congrArg (· ++ [block]) ih.1, congrArg (· ++ [block]) ih.2.1, ih.2.2⟩

/-- The pool with its users: the pointers they hold, one entry for each acquire whose pointer
    did not come back yet, and the blocks acquire took from the heap that still live. -/
structure Users (α : Type*) where
  pool : MemoryPool α
  held : List α
  heap : List α

/-- A call by any user; acquire carries the address new[] would return. -/
inductive Call (α : Type*) where
  | acquire (fresh : α)
  | release (p : Option α)

def onHeap (heap : List α) : HeapCall α → List α
  | .new p => heap ++ [p]
  | .delete p => heap.erase p

def step (users : Users α) : Call α → Users α × List (HeapCall α)
  | .acquire fresh =>
      let (p, pool, calls) := users.pool.acquire fresh
      ({ pool, held := users.held ++ [p], heap := calls.foldl onHeap users.heap }, calls)
  | .release p =>
      let (pool, calls) := users.pool.release p
      ({ pool, held := p.elim users.held users.held.erase
         heap := calls.foldl onHeap users.heap }, calls)

def start (blockSize : Nat) (blocks : List α) : Users α where
  pool := create blockSize blocks
  held := []
  heap := []

/-- new[] returns no live block, and only a held pointer is released, or none. -/
def Allowed (users : Users α) : Call α → Prop
  | .acquire fresh => fresh ∉ users.pool.ownedBlocks_ ∧ fresh ∉ users.heap
  | .release none => True
  | .release (some p) => p ∈ users.held

instance (users : Users α) : (call : Call α) → Decidable (Allowed users call)
  | .acquire _ => inferInstanceAs (Decidable (_ ∧ _))
  | .release none => .isTrue trivial
  | .release (some p) => inferInstanceAs (Decidable (p ∈ users.held))

def Users.owned (users : Users α) : List α := users.held.filter (· ∈ users.pool.ownedBlocks_)

def Users.fallback (users : Users α) : List α := users.held.filter (· ∉ users.pool.ownedBlocks_)

/-- Every block of the pool is free or lent once; the other pointers are the heap's. -/
structure Accounted (users : Users α) : Prop where
  distinct : users.pool.ownedBlocks_.Nodup
  blocks : (users.pool.freeList_ ++ users.owned).Perm users.pool.ownedBlocks_
  fallback : users.fallback.Perm users.heap
  live : users.heap.Nodup

inductive Moved (users : Users α) : Call α → Users α → List (HeapCall α) → Prop where
  | lends {fresh p : α} {rest : List α} (back : users.pool.freeList_ = rest ++ [p]) :
      Moved users (.acquire fresh)
        { users with pool := { users.pool with freeList_ := rest }, held := users.held ++ [p] } []
  | falls {fresh : α} (empty : users.pool.freeList_ = []) :
      Moved users (.acquire fresh)
        { pool := { users.pool with
            heap_fallback_total_ := users.pool.heap_fallback_total_ + 1 }
          held := users.held ++ [fresh]
          heap := users.heap ++ [fresh] } [.new fresh]
  | ignores : Moved users (.release none) users []
  | returns {p : α} (owned : p ∈ users.pool.ownedBlocks_) :
      Moved users (.release (some p))
        { users with
          pool := { users.pool with freeList_ := users.pool.freeList_ ++ [p] }
          held := users.held.erase p } []
  | deletes {p : α} (foreign : p ∉ users.pool.ownedBlocks_) :
      Moved users (.release (some p))
        { users with held := users.held.erase p, heap := users.heap.erase p } [.delete p]

theorem step_moved (users : Users α) (call : Call α) :
    Moved users call (step users call).1 (step users call).2 := by
  cases call with
  | acquire fresh =>
    unfold step acquire
    cases back : users.pool.freeList_.getLast? with
    | none => exact .falls (List.getLast?_eq_none_iff.mp back)
    | some p =>
      obtain ⟨rest, same⟩ := List.getLast?_eq_some_iff.mp back
      simp only [same, List.dropLast_concat, List.foldl_nil]
      exact .lends same
  | release p =>
    cases p with
    | none => exact .ignores
    | some p =>
      unfold step release
      by_cases owned : p ∈ users.pool.ownedBlocks_
      · simp only [isOwnedPointer_iff.mpr owned, if_true]
        exact .returns owned
      · have foreign : ¬ users.pool.isOwnedPointer p = true := fun yes =>
          owned (isOwnedPointer_iff.mp yes)
        simp only [if_neg foreign]
        exact .deletes owned

theorem erased_filter {held : List α} {p : α} (mem : p ∈ held) (keep : α → Bool) :
    (held.filter keep).Perm ([p].filter keep ++ (held.erase p).filter keep) := by
  rw [← List.filter_append]
  exact (List.perm_cons_erase mem).filter keep

theorem step_accounted {users users' : Users α} {call : Call α} {calls : List (HeapCall α)}
    (move : Moved users call users' calls) (sound : Accounted users)
    (allowed : Allowed users call) : Accounted users' := by
  obtain ⟨distinct, blocks, fallback, live⟩ := sound
  cases move with
  | @lends fresh p rest back =>
    have owned : p ∈ users.pool.ownedBlocks_ := by
      apply blocks.subset
      simp [back]
    refine ⟨distinct, ?_, ?_, live⟩
    · have lent : (rest ++ (users.owned ++ [p])).Perm (users.pool.freeList_ ++ users.owned) := by
        rw [back, List.append_assoc]
        exact List.perm_append_comm.append_left rest
      simpa [Users.owned, owned] using lent.trans blocks
    · simpa [Users.fallback, owned] using fallback
  | @falls fresh empty =>
    obtain ⟨foreign, new⟩ := allowed
    refine ⟨distinct, ?_, ?_, ?_⟩
    · simpa [Users.owned, foreign] using blocks
    · simpa [Users.fallback, foreign] using fallback.append_right [fresh]
    · apply List.nodup_append.mpr
      refine ⟨live, List.nodup_singleton _, ?_⟩
      rintro p old _ last rfl
      exact new (List.mem_singleton.mp last ▸ old)
  | ignores => exact ⟨distinct, blocks, fallback, live⟩
  | @returns p owned =>
    have mem : p ∈ users.held := allowed
    refine ⟨distinct, ?_, ?_, live⟩
    · have split := erased_filter mem (· ∈ users.pool.ownedBlocks_)
      simp only [List.filter_singleton, owned, decide_true, cond_true] at split
      have back := (split.append_left users.pool.freeList_).symm.trans blocks
      simpa [Users.owned] using back
    · have split := erased_filter mem (· ∉ users.pool.ownedBlocks_)
      simp only [List.filter_singleton, owned, not_true, decide_false, cond_false,
        List.nil_append] at split
      exact split.symm.trans fallback
  | @deletes p foreign =>
    have mem : p ∈ users.held := allowed
    refine ⟨distinct, ?_, ?_, live.erase p⟩
    · have split := erased_filter mem (· ∈ users.pool.ownedBlocks_)
      simp only [List.filter_singleton, foreign, decide_false, cond_false,
        List.nil_append] at split
      exact (split.append_left users.pool.freeList_).symm.trans blocks
    · have split := erased_filter mem (· ∉ users.pool.ownedBlocks_)
      simp only [List.filter_singleton, foreign, not_false_eq_true, decide_true,
        cond_true] at split
      have rest := (split.symm.trans fallback).erase p
      simpa [Users.fallback] using rest

theorem heap_counted {past : List (HeapCall α)} {users users' : Users α} {call : Call α}
    {calls : List (HeapCall α)} (move : Moved users call users' calls) (sound : Accounted users)
    (allowed : Allowed users call)
    (counted : ∀ p, past.count (.new p) = past.count (.delete p) + users.heap.count p) (p : α) :
    (past ++ calls).count (.new p) = (past ++ calls).count (.delete p) + users'.heap.count p := by
  have before := counted p
  simp only [List.count_append]
  cases move with
  | lends back => simpa using before
  | @falls fresh empty =>
    by_cases same : fresh = p
    · subst same
      simp [List.count_append]
      omega
    · simp [List.count_append, same]
      omega
  | ignores => simpa using before
  | returns owned => simpa using before
  | @deletes q foreign =>
    have mem : q ∈ users.held := allowed
    have fell : q ∈ users.heap := by
      apply sound.fallback.subset
      simp [Users.fallback, mem, foreign]
    have one := List.count_pos_iff.mpr fell
    by_cases same : q = p
    · subst same
      simp
      omega
    · simp [same, List.count_erase_of_ne (Ne.symm same)]
      omega

/-- What holds of the pool whenever nobody is inside a call. -/
structure Exclusive (users : Users α) : Prop where
  single : users.held.Nodup
  lent : ∀ p ∈ users.held, p ∉ users.pool.freeList_
  free : users.pool.freeList_.Nodup
  own : ∀ p ∈ users.pool.freeList_, users.pool.isOwnedPointer p
  counted : users.pool.freeCount + users.owned.length = users.pool.preallocatedCount
  returned : users.held = [] → users.pool.freeCount = users.pool.preallocatedCount

theorem accounted_exclusive {users : Users α} (sound : Accounted users) : Exclusive users := by
  have spread := (sound.blocks.nodup_iff).mpr sound.distinct
  obtain ⟨free, owned, apart⟩ := List.nodup_append.mp spread
  have fallback := (sound.fallback.nodup_iff).mpr sound.live
  have counted : users.pool.freeCount + users.owned.length = users.pool.preallocatedCount := by
    have length := sound.blocks.length_eq
    rwa [List.length_append] at length
  have own : ∀ p ∈ users.pool.freeList_, users.pool.isOwnedPointer p := by
    intro p mem
    exact isOwnedPointer_iff.mpr (sound.blocks.subset (List.mem_append_left _ mem))
  refine ⟨?_, ?_, free, own, counted, ?_⟩
  · have split := List.filter_append_perm (· ∈ users.pool.ownedBlocks_) users.held
    apply split.nodup_iff.mp
    apply List.nodup_append.mpr
    refine ⟨owned, by simpa [Users.fallback] using fallback, ?_⟩
    rintro p inside _ outside rfl
    simp [(List.mem_filter.mp inside).2] at outside
  · intro p held free
    have mine := sound.blocks.subset (List.mem_append_left _ free)
    exact apart p free p (by simp [Users.owned, held, mine]) rfl
  · intro none
    simp only [Users.owned, none, List.filter_nil, List.length_nil] at counted
    exact counted

theorem start_accounted {blockSize : Nat} {blocks : List α} (distinct : blocks.Nodup) :
    Accounted (start blockSize blocks) := by
  obtain ⟨owned, free, _⟩ := create_fields blockSize blocks
  refine ⟨?_, ?_, List.Perm.refl _, List.nodup_nil⟩
  · rw [start, owned]
    exact distinct
  · simp only [start, Users.owned, List.filter_nil, List.append_nil, owned, free]
    exact List.Perm.refl _

/- The counter of fallbacks counts the blocks taken from the heap, modulo 2^64. -/
theorem fallbacks_counted {past : List (HeapCall α)} {users users' : Users α} {call : Call α}
    {calls : List (HeapCall α)} (move : Moved users call users' calls)
    (counted : users.pool.heapFallbackTotal = UInt64.ofNat (past.countP HeapCall.isNew)) :
    users'.pool.heapFallbackTotal = UInt64.ofNat ((past ++ calls).countP HeapCall.isNew) := by
  unfold heapFallbackTotal at counted ⊢
  rw [List.countP_append]
  cases move with
  | lends back => exact counted
  | falls empty =>
    simp only [List.countP_singleton, HeapCall.isNew, if_true, UInt64.ofNat_add]
    exact congrArg (· + 1) counted
  | ignores => exact counted
  | returns owned => exact counted
  | deletes foreign => exact counted

structure Kept (past : List (HeapCall α)) (users : Users α) : Prop where
  accounted : Accounted users
  heap : ∀ p, past.count (.new p) = past.count (.delete p) + users.heap.count p
  fallbacks : users.pool.heapFallbackTotal = UInt64.ofNat (past.countP HeapCall.isNew)

theorem step_kept (past : List (HeapCall α)) (users : Users α) (call : Call α)
    (kept : Kept past users) (allowed : Allowed users call) :
    Kept (past ++ (step users call).2) (step users call).1 := by
  have move := step_moved users call
  exact ⟨step_accounted move kept.accounted allowed,
    heap_counted move kept.accounted allowed kept.heap, fallbacks_counted move kept.fallbacks⟩

/- A call takes a heap block only when no block is free, and deletes what it is given exactly if
   that is no block of the pool. -/
theorem moved_calls {users users' : Users α} {call : Call α} {calls : List (HeapCall α)}
    (move : Moved users call users' calls) :
    (∀ p, .new p ∈ calls → users.pool.freeList_ = []) ∧
      (∀ p, .delete p ∈ calls → call = .release (some p)) ∧
      ∀ p, call = .release (some p) →
        calls = if p ∈ users.pool.ownedBlocks_ then [] else [.delete p] := by
  cases move with
  | lends back => simp
  | falls empty => simp [empty]
  | ignores => simp
  | returns owned => simp_all
  | deletes foreign => simp_all

section
variable (blockSize : Nat) (blocks : List α) (calls : List (Call α))

theorem run_kept (distinct : blocks.Nodup)
    (allowed : ∀ t ∈ Run.steps step (start blockSize blocks) calls, Allowed t.before t.input) :
    Kept (Run.trace step (start blockSize blocks) calls)
      (Run.final step (start blockSize blocks) calls) := by
  have begins : Kept [] (start blockSize blocks) :=
    ⟨start_accounted distinct, fun p => rfl, (create_fields blockSize blocks).2.2⟩
  have kept := Run.invariant_trace Kept Allowed step_kept begins allowed
  exact kept

/- Whatever users do, as long as they only give back what they hold. -/
theorem blocks_exclusive (distinct : blocks.Nodup)
    (allowed : ∀ t ∈ Run.steps step (start blockSize blocks) calls, Allowed t.before t.input) :
    Exclusive (Run.final step (start blockSize blocks) calls) ∧
      (∀ t ∈ Run.steps step (start blockSize blocks) calls,
        (∀ p, .new p ∈ t.output → t.before.pool.freeList_ = []) ∧
          (∀ p, .delete p ∈ t.output → t.input = .release (some p)) ∧
          ∀ p, t.input = .release (some p) →
            t.output = if p ∈ t.before.pool.ownedBlocks_ then [] else [.delete p]) ∧
      ∀ p, (Run.trace step (start blockSize blocks) calls).count (.new p) =
        (Run.trace step (start blockSize blocks) calls).count (.delete p) +
          (Run.final step (start blockSize blocks) calls).fallback.count p := by
  have kept := run_kept blockSize blocks calls distinct allowed
  refine ⟨accounted_exclusive kept.accounted, ?_, ?_⟩
  · intro t mem
    obtain ⟨after, output⟩ := Run.steps_taken step mem
    rw [output]
    exact moved_calls (step_moved t.before t.input)
  · intro p
    rw [kept.accounted.fallback.count_eq p]
    exact kept.heap p

end

/-- Five blocks from a pool of four, given back in another order. -/
def fiveBlocks : List (Call Nat) :=
  [.acquire 5, .acquire 5, .acquire 5, .acquire 5, .acquire 5,
    .release (some 5), .release (some 4), .release (some 3), .release (some 2), .release (some 1)]

theorem blocks_exclusive_five :
    (Run.final step (start 64 [1, 2, 3, 4]) fiveBlocks).pool.freeCount = 4 := by
  have exclusive := (blocks_exclusive 64 [1, 2, 3, 4] fiveBlocks (by decide) (by decide)).1
  exact exclusive.returned (by decide)

/-- The guard of one SSL_read: its constructor acquires, its destructor releases. -/
structure TlsReadBufferGuard (α : Type*) where
  ptr_ : Option α
  size_ : Nat

def TlsReadBufferGuard.enter (users : Users α) (fresh : α) : TlsReadBufferGuard α × Users α :=
  ({ ptr_ := some (users.pool.acquire fresh).1, size_ := users.pool.blockSize_ },
    (step users (.acquire fresh)).1)

def TlsReadBufferGuard.leave (guard : TlsReadBufferGuard α) : Call α := .release guard.ptr_

theorem moved_held {users users' : Users α} {call : Call α} {calls : List (HeapCall α)} {p : α}
    (move : Moved users call users' calls) (other : call ≠ .release (some p))
    (held : p ∈ users.held) : p ∈ users'.held := by
  cases move with
  | lends back => exact List.mem_append_left _ held
  | falls empty => exact List.mem_append_left _ held
  | ignores => exact held
  | @returns q owned =>
    have apart : p ≠ q := by
      rintro rfl
      exact other rfl
    exact (List.mem_erase_of_ne apart).mpr held
  | @deletes q foreign =>
    have apart : p ≠ q := by
      rintro rfl
      exact other rfl
    exact (List.mem_erase_of_ne apart).mpr held

/- What a guard gives back at the end of its scope is held, whatever others did meanwhile. -/
theorem guard_allowed (users : Users α) (fresh : α) (calls : List (Call α))
    (others : ∀ call ∈ calls, call ≠ (TlsReadBufferGuard.enter users fresh).1.leave) :
    Allowed (Run.final step (TlsReadBufferGuard.enter users fresh).2 calls)
      (TlsReadBufferGuard.enter users fresh).1.leave := by
  have enters : (users.pool.acquire fresh).1 ∈ (TlsReadBufferGuard.enter users fresh).2.held :=
    List.mem_append_right _ (List.mem_singleton_self _)
  have foreign : ∀ t ∈ Run.steps step (TlsReadBufferGuard.enter users fresh).2 calls,
      t.input ≠ (TlsReadBufferGuard.enter users fresh).1.leave := by
    intro t mem
    apply others
    rw [← Run.steps_inputs step (TlsReadBufferGuard.enter users fresh).2 calls]
    exact List.mem_map_of_mem mem
  have kept := Run.invariant_steps (fun now => (users.pool.acquire fresh).1 ∈ now.held)
    (fun _ call => call ≠ (TlsReadBufferGuard.enter users fresh).1.leave)
    (fun now call held other => moved_held (step_moved now call) other held) enters foreign
  exact kept.2

end MemoryPool
