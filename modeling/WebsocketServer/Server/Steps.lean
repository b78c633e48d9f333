import WebsocketServer.Server.EventLoop

/- The updates of the server state, field by field. -/
namespace WssServer

namespace Server

section
variable (s : Server) (c : ConnRef) (f : Connection → Connection) (io : IoState) (w : Nat)
  (state : Worker)

theorem modify_objects (other : ConnRef) :
    (s.modify c f).objects other = if other = c then f (s.objects c) else s.objects other :=
  Function.update_apply s.objects c (f (s.objects c)) other

@[simp] theorem modify_self : (s.modify c f).objects c = f (s.objects c) := Function.update_self ..

theorem modify_workers : (s.modify c f).workers = s.workers := rfl

@[simp] theorem goto_objects : (s.goto io).objects = s.objects := rfl
@[simp] theorem goto_io : (s.goto io).io = io := rfl

theorem setWorker_workers (other : Nat) :
    (s.setWorker w state).workers other = if other = w then state else s.workers other :=
  Function.update_apply s.workers w state other

end

theorem objects_update {R : ConnRef → Connection → Connection → Prop} {s s' : Server}
    {ref : ConnRef} {conn : Connection} (refl : ∀ c, R c (s.objects c) (s.objects c))
    (objects : s'.objects = Function.update s.objects ref conn) (here : R ref (s.objects ref) conn)
    (c : ConnRef) : R c (s.objects c) (s'.objects c) := by
  rw [objects, Function.update_apply]
  by_cases same : c = ref
  · rw [if_pos same, same]
    exact here
  · rw [if_neg same]
    exact refl c

theorem modify_keeps (s : Server) (c : ConnRef) (f : Connection → Connection) {α : Type*}
    (field : Connection → α) (keeps : field (f (s.objects c)) = field (s.objects c))
    (other : ConnRef) : field ((s.modify c f).objects other) = field (s.objects other) :=
  objects_update (R := fun _ conn conn' => field conn' = field conn) (fun _ => rfl) rfl keeps other

theorem whenUnlocked_cases (s : Server) (c : ConnRef) (r : Stepped) :
    ((s.objects c).outbound_mu = none ∧ s.whenUnlocked c r = r) ∨
      ((s.objects c).outbound_mu ≠ none ∧ s.whenUnlocked c r = (s, [])) := by
  by_cases unlocked : (s.objects c).outbound_mu = none
  · left
    exact ⟨unlocked, if_pos unlocked⟩
  · right
    exact ⟨unlocked, if_neg unlocked⟩

theorem whenUnlocked_either {P : Stepped → Prop} {s : Server} {c : ConnRef} {r : Stepped}
    (blocked : P (s, [])) (taken : P r) : P (s.whenUnlocked c r) := by
  rcases s.whenUnlocked_cases c r with ⟨_, run⟩ | ⟨_, run⟩
  · rw [run]
    exact taken
  · rw [run]
    exact blocked

theorem closeConnection_cases (s : Server) (fd : Nat) :
    (s.conns.lookup fd = none ∧ s.closeConnection fd = s) ∨
      ∃ c, s.conns.lookup fd = some c ∧
        s.closeConnection fd = { s.modify c Connection.close with conns := s.conns.erase fd } := by
  unfold closeConnection
  cases found : s.conns.lookup fd with
  | none => exact Or.inl ⟨rfl, rfl⟩
  | some c => exact Or.inr ⟨c, rfl, rfl⟩

theorem objects_close {R : ConnRef → Connection → Connection → Prop} {s : Server}
    (refl : ∀ c, R c (s.objects c) (s.objects c))
    (closes : ∀ c, R c (s.objects c) (s.objects c).close) (fd : Nat) (c : ConnRef) :
    R c (s.objects c) ((s.closeConnection fd).objects c) := by
  rcases s.closeConnection_cases fd with ⟨_, run⟩ | ⟨ref, _, run⟩
  · rw [run]
    exact refl c
  · rw [run]
    exact objects_update refl rfl (closes ref) c

theorem close_keeps (s : Server) (fd : Nat) {α : Type*} (field : Connection → α)
    (keeps : ∀ conn : Connection, field conn.close = field conn) (c : ConnRef) :
    field ((s.closeConnection fd).objects c) = field (s.objects c) :=
  objects_close (R := fun _ conn conn' => field conn' = field conn) (fun _ => rfl)
    (fun _ => keeps _) fd c

theorem lookup_closed {s : Server} {fd fd' : Nat} {c : ConnRef}
    (found : (s.closeConnection fd).conns.lookup fd' = some c) :
    fd' ≠ fd ∧ s.conns.lookup fd' = some c := by
  rcases s.closeConnection_cases fd with ⟨absent, run⟩ | ⟨ref, _, run⟩
  · rw [run] at found
    refine ⟨?_, found⟩
    rintro rfl
    rw [absent] at found
    contradiction
  · rw [run] at found
    have other : fd' ≠ fd := by
      rintro rfl
      rw [AList.lookup_erase] at found
      contradiction
    exact ⟨other, (AList.lookup_erase_ne other).symm.trans found⟩

end Server

theorem addConnection_other {config : Config} {s : Server} {cfd : Nat} {now : TimePoint}
    {c : ConnRef} (other : c ≠ s.allocated) :
    (addConnection config s cfd now).objects c = s.objects c :=
  Function.update_of_ne other ..

end WssServer
