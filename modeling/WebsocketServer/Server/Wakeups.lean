import WebsocketServer.Server.Interest
import WebsocketServer.Server.TlsCalls

/- No output is forgotten: whenever the IO thread goes back to epoll_wait, something is on its way
   that makes it look at every queue that is not empty. -/
namespace WssServer

section
variable {config : Config} {sys : Answers} {wantWrite : Bool} {s : Server} {c : ConnRef} {fd : Nat}

theorem loopEnd_drained {results : List WriteResult} {outbound : List OutboundItem} {tx : UInt64}
    (drained : loopEnd results outbound = .drained) :
    (flushLoop results outbound tx).outbound = [] := by
  induction results generalizing outbound tx with
  | nil =>
    rw [loopEnd.eq_def] at drained
    rw [flushLoop.eq_def]
    cases front : popSent outbound with
    | nil => rfl
    | cons item rest => simp [front] at drained
  | cons result results ih =>
    rw [loopEnd.eq_def] at drained
    rw [flushLoop.eq_def]
    cases front : popSent outbound with
    | nil => rfl
    | cons item rest =>
      rw [front] at drained
      cases result with
      | wrote ret => exact ih drained
      | wantWrite | wantRead | fatal => contradiction

theorem loopEnd_called (results : List WriteResult) (outbound : List OutboundItem) :
    loopEnd results outbound ≠ .skipped := by
  induction results generalizing outbound with
  | nil =>
    rw [loopEnd.eq_def]
    split <;> simp
  | cons result results ih =>
    rw [loopEnd.eq_def]
    split
    · simp
    · cases result with
      | wrote ret => exact ih _
      | wantWrite | wantRead | fatal => simp

theorem flushEnd_drained {writes : List WriteResult} {conn : Connection} {tx : UInt64}
    (drained : flushEnd writes conn = .drained) :
    (flushOutbound writes conn tx).outbound = [] := by
  unfold flushEnd at drained
  unfold flushOutbound
  split at drained
  · contradiction
  · rename_i live
    rw [if_neg live]
    split at drained
    · rename_i empty
      rw [if_pos empty]
      exact List.isEmpty_iff.mp empty
    · rename_i queued
      rw [if_neg queued]
      exact loopEnd_drained drained

theorem flushEnd_called {writes : List WriteResult} {conn : Connection} (live : conn.Live) :
    flushEnd writes conn ≠ .skipped := by
  unfold flushEnd
  obtain ⟨fd, ssl⟩ := live
  rw [if_neg (by simp [fd, ssl])]
  split
  · simp
  · exact loopEnd_called writes conn.outbound

/-- The pass over an event does not end before it has flushed the connection. -/
def Due (io : IoState) (c : ConnRef) : Prop :=
  ∃ v, io.visit = some v ∧ v.c = c ∧ (v.e.EPOLLOUT = true ∨ io = .handshakeDone v)

/-- The IO thread flushes the connection next, or in the round it is on. -/
def Awaited (io : IoState) (fd : Nat) (c : ConnRef) : Prop :=
  match io with
  | .handshakeDone v | .flushIfDone v _ _ => v.c = c
  | .timerPing _ all _ => fd ∈ all
  | .flushEach todo _ => fd ∈ todo
  | _ => False

def Listed (s : Server) : Prop :=
  ∀ now all todo, s.io = .timerPing now all todo → ∀ fd c, s.conns.lookup fd = some c → fd ∈ all

theorem flushes_some {ending : FlushEnd} (flushes : s.flushes sys = some (c, ending)) :
    s.flushing = some c ∧ (s.objects c).outbound_mu = none ∧
      ending = flushEnd sys.writes (s.objects c) := by
  unfold Server.flushes at flushes
  cases flushing : s.flushing with
  | none => simp [flushing] at flushes
  | some ref =>
    rw [flushing, Option.bind_some] at flushes
    split at flushes
    · obtain ⟨rfl, rfl⟩ := Prod.mk.inj (Option.some.inj flushes)
      exact ⟨rfl, by assumption, rfl⟩
    · contradiction

theorem flushes_unlocked (flushing : s.flushing = some c)
    (unlocked : (s.objects c).outbound_mu = none) :
    s.flushes sys = some (c, flushEnd sys.writes (s.objects c)) := by
  simp [Server.flushes, flushing, unlocked]

theorem ioMove_pushed {r : Stepped} (move : IoMove config sys s r) :
    r.2.findSome? Observation.pushed = none ∧ (∀ o ∈ r.2, ∀ c, o.items c = []) ∨
      ∃ s' c kind item io, Pushes sys s s.io s' c kind item io ∧ r = sendItem s' c kind item io ∧
        (s.objects c).outbound_mu = none := by
  have writes (ref : ConnRef) (f : Flushed) :
      (s.sslWrites ref f).findSome? Observation.pushed = none ∧
      ∀ o ∈ s.sslWrites ref f, ∀ c, o.items c = [] := by
    refine ⟨?_, sslWrites_items s ref f⟩
    rw [List.findSome?_eq_none_iff]
    intro o mem
    rw [List.eq_of_mem_replicate mem]
    rfl
  cases move with
  | pushes site unlocked => exact Or.inr ⟨_, _, _, _, _, site, rfl, unlocked⟩
  | flushes site unlocked => exact Or.inl (writes _ _)
  | drains site out closing => exact Or.inl (writes _ _)
  | peerCloses => exact Or.inl ⟨rfl, by simp [Observation.items]⟩
  | submits => exact Or.inl ⟨rfl, by simp [submitTask, Observation.items]⟩
  | _ => exact Or.inl ⟨rfl, by simp⟩

theorem ioStep_flushed (config : Config) {ending : FlushEnd}
    (flushes : s.flushes sys = some (c, ending)) :
    ((ioStep config sys s).1.objects c).outbound = (s.flush sys c).outbound := by
  obtain ⟨flushing, unlocked, _⟩ := flushes_some flushes
  obtain ⟨after, flushed, run⟩ := ioStep_flushes config sys flushing
  rw [run, Server.whenUnlocked, if_pos unlocked]
  exact (flushed.queues c).trans (if_pos rfl)

theorem ioStep_unflushed (config : Config)
    (unflushed : ∀ ending, s.flushes sys ≠ some (c, ending)) :
    (ioStep config sys s).2.findSome? Observation.pushed = some c ∨
      unsent ((ioStep config sys s).1.objects c).outbound = unsent (s.objects c).outbound := by
  cases flushing : s.flushing with
  | none =>
    have move := ioStep_move config sys s
    have queues := (ioMove_unflushed move flushing).queues c
    rcases ioMove_pushed move with ⟨_, silent⟩ | ⟨s', ref, kind, item, io, _, run, _⟩
    · right
      rw [wire_silent fun o mem => silent o mem c, List.flatten_nil, List.append_nil] at queues
      exact queues.symm
    · by_cases same : ref = c
      · left
        rw [run, ← same]
        rfl
      · right
        have other : wire c (ioStep config sys s).2 = [] := by
          rw [run]
          exact wire_silent fun o mem => by
            rw [List.mem_singleton.mp mem]
            exact if_neg same
        rw [other, List.flatten_nil, List.append_nil] at queues
        exact queues.symm
  | some ref =>
    right
    obtain ⟨after, flushed, run⟩ := ioStep_flushes config sys flushing
    rcases s.whenUnlocked_cases ref (after, s.sslWrites ref (s.flush sys ref)) with
      ⟨unlocked, taken⟩ | ⟨_, blocked⟩
    · have other : c ≠ ref := by
        rintro rfl
        exact unflushed _ (flushes_unlocked flushing unlocked)
      rw [run, taken]
      dsimp only
      rw [flushed.queues c, if_neg other]
    · rw [run, blocked]

theorem ioStep_blocked (config : Config) (flushing : s.flushing = some c)
    (unflushed : ∀ ending, s.flushes sys ≠ some (c, ending)) : ioStep config sys s = (s, []) := by
  obtain ⟨after, _, run⟩ := ioStep_flushes config sys flushing
  rcases s.whenUnlocked_cases c (after, s.sslWrites c (s.flush sys c)) with ⟨unlocked, _⟩ |
    ⟨_, blocked⟩
  · exact absurd (flushes_unlocked flushing unlocked) (unflushed _)
  · exact run.trans blocked

/- A registration loses EPOLLOUT before the handshake is done, or by the flush of its connection. -/
theorem interestCall_cases {fd' : Option Nat} {want : Bool}
    (call : interestCall config sys wantWrite s = some (fd', want)) :
    want = true ∨
      (∃ v, (s.io = .driveTlsEarlyRead v ∨ s.io = .driveTlsAccept v) ∧
        fd' = (s.objects v.c).fd) ∨
      ∃ c ending, s.flushes sys = some (c, ending) ∧ fd' = (s.objects c).fd := by
  have behind (fd : Nat) (pushed : Option ConnRef)
      (call : pushed.map (fun _ => (some fd, true)) = some (fd', want)) : want = true := by
    cases pushed with
    | none => contradiction
    | some c => exact (Prod.mk.inj (Option.some.inj call)).2.symm
  have flush (call : ((s.flushes sys).bind fun t =>
      t.2.want_write.map ((s.objects t.1).fd, ·)) = some (fd', want)) :
      ∃ c ending, s.flushes sys = some (c, ending) ∧ fd' = (s.objects c).fd := by
    obtain ⟨⟨c, ending⟩, flushes, ended⟩ := Option.bind_eq_some_iff.mp call
    obtain ⟨_, _, same⟩ := Option.map_eq_some_iff.mp ended
    exact ⟨c, ending, flushes, (Prod.mk.inj same).1.symm⟩
  unfold interestCall at call
  cases here : s.io with
  | driveTlsEarlyRead v =>
    simp only [here] at call
    cases early : sys.early with
    | want =>
      simp only [early, Option.some.injEq, Prod.mk.injEq] at call
      exact Or.inr (Or.inl ⟨v, Or.inl rfl, call.1.symm⟩)
    | _ => simp [early] at call
  | driveTlsAccept v =>
    simp only [here] at call
    cases accept : sys.accept with
    | done | want =>
      simp only [accept, Option.some.injEq, Prod.mk.injEq] at call
      exact Or.inr (Or.inl ⟨v, Or.inr rfl, call.1.symm⟩)
    | error => simp [accept] at call
  | readLoop v =>
    simp only [here] at call
    cases read : sys.read with
    | want =>
      simp only [read] at call
      split at call
      · exact Or.inl (Prod.mk.inj (Option.some.inj call)).2.symm
      · contradiction
    | _ => simp [read] at call
  | sendUpgrade | nextFrame | sendClose =>
    simp only [here] at call
    exact Or.inl (behind _ _ call)
  | timerPing now all todo =>
    cases todo with
    | nil =>
      simp only [here] at call
      exact Or.inr (Or.inr (flush call))
    | cons fd todo =>
      simp only [here] at call
      exact Or.inl (behind _ _ call)
  | _ =>
    simp only [here] at call
    exact Or.inr (Or.inr (flush call))

theorem interestCall_pushed (wantWrite : Bool)
    (pushed : (ioStep config sys s).2.findSome? Observation.pushed = some c) :
    ∃ fd, interestCall config sys wantWrite s = some (some fd, true) ∧
      ((∃ v, s.io.visit = some v ∧ v.c = c ∧ v.fd = fd) ∨ s.conns.lookup fd = some c) := by
  rcases ioMove_pushed (ioStep_move config sys s) with ⟨none, _⟩ |
    ⟨s', ref, kind, item, io, site, run, _⟩
  · rw [none] at pushed
    contradiction
  have same : ref = c := by
    rw [run] at pushed
    exact Option.some.inj pushed
  subst same
  unfold interestCall
  rw [pushed]
  generalize here : s.io = at' at site
  cases site with
  | @upgrade v | @pong v | @unsupported v | @closeReply v =>
    exact ⟨v.fd, rfl, Or.inl ⟨v, rfl, rfl, rfl⟩⟩
  | @ping now all fd todo ref found => exact ⟨fd, rfl, Or.inr found⟩

theorem interestCall_flush {ending : FlushEnd} (flushes : s.flushes sys = some (c, ending)) :
    interestCall config sys wantWrite s = ending.want_write.map ((s.objects c).fd, ·) := by
  obtain ⟨flushing, _, _⟩ := flushes_some flushes
  unfold Server.flushing at flushing
  unfold interestCall
  rw [flushes]
  cases here : s.io with
  | handshakePending | writable | handshakeDone | flushIfDone => rfl
  | flushEach todo timer => rfl
  | _ => simp [here] at flushing

theorem flushing_made (refs : RefInv s) (flushing : s.flushing = some c) : c < s.allocated := by
  have held := refs.io
  unfold Server.flushing at flushing
  cases here : s.io with
  | handshakePending v | writable v =>
    simp only [here] at flushing held
    split at flushing
    · exact held c flushing
    · contradiction
  | handshakeDone v =>
    simp only [here] at flushing held
    exact held c flushing
  | flushIfDone v caller frames =>
    simp only [here] at flushing held
    split at flushing
    · exact held c flushing
    · contradiction
  | flushEach todo timer =>
    cases todo with
    | nil => simp [here] at flushing
    | cons fd todo =>
      simp only [here, Option.filter_eq_some_iff] at flushing
      exact refs.conns fd c flushing.1
  | _ => simp [here] at flushing

theorem Next.due {at' io : IoState} (next : Next config s at' io) (due : Due at' c) : Due io c := by
  obtain ⟨v, visits, same, why⟩ := due
  have out : v.e.EPOLLOUT = true := by
    rcases why with out | done
    · exact out
    · rw [done] at next
      cases next
  cases next with
  | pending unwritable | unwritable unwritable =>
    obtain rfl := Option.some.inj visits
    rw [out] at unwritable
    contradiction
  | skipsPing | pinged | skipsFlush | flushed | flushedTimer | sweeps | skipsClose => cases visits
  | _ => exact ⟨v, visits, same, Or.inl out⟩

theorem Pushes.due {s' : Server} {at' io : IoState} {ref : ConnRef} {kind : ItemKind} {item : Bytes}
    (site : Pushes sys s at' s' ref kind item io) (due : Due at' c) : Due io c := by
  obtain ⟨v, visits, same, why⟩ := due
  have out : v.e.EPOLLOUT = true := by
    rcases why with out | done
    · exact out
    · rw [done] at site
      cases site
  cases site with
  | ping => cases visits
  | _ => exact ⟨v, visits, same, Or.inl out⟩

/- A pass that owes a flush goes on until it has flushed or closed the connection. -/
theorem due_stays (own : VisitsOwn s) (due : Due s.io c)
    (unflushed : ∀ ending, s.flushes sys ≠ some (c, ending))
    (found : (ioStep config sys s).1.conns.lookup fd = some c) :
    Due (ioStep config sys s).1.io c := by
  have move := ioStep_move config sys s
  have before := (ioStep_only config sys s).conns fd c found
  have flushed {ref : ConnRef} {io : IoState} (site : Flushes s s.io ref io)
      (unlocked : (s.objects ref).outbound_mu = none) : ref ≠ c := by
    rintro rfl
    exact unflushed _ (flushes_unlocked site.flushing unlocked)
  generalize ioStep config sys s = r at move found ⊢
  obtain ⟨v, visits, rfl, why⟩ := due
  have here : fd = v.fd := (own v visits fd v.c before).mpr rfl
  have closed {s' : Server} {io : IoState}
      (gone : ((s'.closeConnection v.fd).goto io).conns.lookup fd = some v.c) : Due io v.c := by
    rw [here] at gone
    exact absurd (gone.symm.trans (close_absent s' v.fd)) (by simp)
  cases move with
  | stays => exact ⟨v, visits, rfl, why⟩
  | goes next => exact next.due ⟨v, visits, rfl, why⟩
  | pushes site unlocked => exact site.due ⟨v, visits, rfl, why⟩
  | closes site =>
    generalize s.io = at' at site visits why
    cases site with
    | idle => cases visits
    | _ =>
      obtain rfl := Option.some.inj visits
      exact closed found
  | flushes site unlocked =>
    have other := flushed site unlocked
    generalize s.io = at' at site visits why
    cases site with
    | each => cases visits
    | _ =>
      obtain rfl := Option.some.inj visits
      exact absurd rfl other
  | drains site out closing =>
    rw [site] at visits
    obtain rfl := Option.some.inj visits
    exact closed found
  | throws site left thrown =>
    rw [site] at visits
    obtain rfl := Option.some.inj visits
    exact closed found
  | earlyDone site =>
    rcases site with site | site
    · rw [site] at visits why
      exact ⟨v, visits, rfl, Or.inl (why.resolve_right (by simp))⟩
    · rw [site] at visits why
      exact ⟨v, visits, rfl, Or.inl (why.resolve_right (by simp))⟩
  | accepted site | delivers site | upgrades site | ponged site | peerCloses site | submits site =>
    rw [site] at visits why
    exact ⟨v, visits, rfl, Or.inl (why.resolve_right (by simp))⟩
  | cleans site =>
    rw [site] at visits
    contradiction

theorem awaited_stays (awaited : Awaited s.io fd c) (before : s.conns.lookup fd = some c)
    (done : (s.objects c).tls_done = true) (open' : (s.objects c).closing = false)
    (unflushed : ∀ ending, s.flushes sys ≠ some (c, ending)) :
    Awaited (ioStep config sys s).1.io fd c := by
  have blocked (flushing : s.flushing = some c) : Awaited (ioStep config sys s).1.io fd c := by
    rw [ioStep_blocked config flushing unflushed]
    exact awaited
  cases here : s.io with
  | handshakeDone v =>
    rw [here] at awaited
    exact blocked (by simp only [Server.flushing, here, show v.c = c from awaited])
  | flushIfDone v caller frames =>
    rw [here] at awaited
    obtain rfl : v.c = c := awaited
    exact blocked (by simp only [Server.flushing, here, done, ↓reduceIte])
  | timerPing now all todo =>
    rw [here] at awaited
    have listed : fd ∈ all := awaited
    cases todo with
    | nil =>
      unfold ioStep
      simp only [here, Server.goto_io]
      exact listed
    | cons first todo =>
      unfold ioStep
      simp only [here]
      rcases timerPing_cases config s now all first todo with ⟨_, run⟩ | ⟨ref, _, _, _, _, run⟩
      · rw [run]
        exact listed
      · rw [run]
        apply Server.whenUnlocked_either (P := fun r => Awaited r.1.io fd c)
        · rw [here]
          exact listed
        · exact listed
  | flushEach todo timer =>
    rw [here] at awaited
    have listed : fd ∈ todo := awaited
    cases todo with
    | nil => contradiction
    | cons first todo =>
      by_cases same : fd = first
      · subst same
        exact blocked (by simp [Server.flushing, here, before, done, open', Option.filter])
      · have later : fd ∈ todo := (List.mem_cons.mp listed).resolve_left same
        unfold ioStep
        simp only [here]
        unfold flushEach
        cases s.conns.lookup first with
        | none => exact later
        | some ref =>
          dsimp only
          split
          · exact later
          · apply Server.whenUnlocked_either (P := fun r => Awaited r.1.io fd c)
            · rw [here]
              exact listed
            · exact later
  | _ =>
    rw [here] at awaited
    contradiction

theorem pushed_awaited (listed : Listed s) (before : s.conns.lookup fd = some c)
    (pushed : (ioStep config sys s).2.findSome? Observation.pushed = some c) :
    Awaited (ioStep config sys s).1.io fd c := by
  rcases ioMove_pushed (ioStep_move config sys s) with ⟨none, _⟩ |
    ⟨s', ref, kind, item, io, site, run, _⟩
  · rw [none] at pushed
    contradiction
  rw [run] at pushed ⊢
  obtain rfl : ref = c := Option.some.inj pushed
  generalize here : s.io = at' at site
  cases site with
  | ping => exact listed _ _ _ here fd ref before
  | _ => rfl

theorem ioStep_listed (listed : Listed s) : Listed (ioStep config sys s).1 := by
  have only := ioStep_only config sys s
  have move := ioStep_move config sys s
  intro now all todo at' fd c found
  have before := only.conns fd c found
  have older {todo : List Nat} (here : s.io = .timerPing now all todo) : fd ∈ all :=
    listed now all todo here fd c before
  generalize ioStep config sys s = r at move at'
  cases move with
  | stays => exact older at'
  | goes next =>
    generalize here : s.io = io' at next older
    obtain rfl : _ = IoState.timerPing now all todo := at'
    cases next with
    | skipsPing => exact older rfl
  | pushes site unlocked =>
    generalize here : s.io = io' at site older
    obtain rfl : _ = IoState.timerPing now all todo := at'
    cases site with
    | ping => exact older rfl
  | flushes site unlocked =>
    generalize here : s.io = io' at site
    obtain rfl : _ = IoState.timerPing now all todo := at'
    cases site
  | closes site =>
    generalize here : s.io = io' at site
    obtain rfl : _ = IoState.timerPing now all todo := at'
    cases site
  | throws site left thrown =>
    obtain rfl : _ = IoState.timerPing now all todo := at'
    cases left
  | _ => cases at'

/- Only SSL_accept finishes a handshake, and a flush follows. -/
theorem ioStep_done (done : ((ioStep config sys s).1.objects c).tls_done = true) :
    (s.objects c).tls_done = true ∨ ∃ v, (ioStep config sys s).1.io = .handshakeDone v ∧
      v.c = c := by
  have move := ioStep_move config sys s
  generalize ioStep config sys s = r at move done ⊢
  have kept {s' : Server} (same : SameTls s s') (done : (s'.objects c).tls_done = true) :
      (s.objects c).tls_done = true :=
    (tls_fields (same.tls c)).1.symm.trans done
  cases move with
  | stays | goes | cleans => exact Or.inl done
  | closes site => exact Or.inl ((close_tls_done s _ c).symm.trans done)
  | flushes site unlocked => exact Or.inl (kept (same_sent s _ _) done)
  | drains site out closing =>
    exact Or.inl (kept (same_sent s _ _) ((close_tls_done _ _ c).symm.trans done))
  | @accepted v site =>
    by_cases same : v.c = c
    · exact Or.inr ⟨v, rfl, same⟩
    · left
      rw [Server.goto_objects, s.modify_objects, if_neg (Ne.symm same)] at done
      exact done
  | throws site left thrown =>
    exact Or.inl (kept (same_takeParser s _ _) ((close_tls_done _ _ c).symm.trans done))
  | delivers site returns response => exact Or.inl (kept (same_takeParser s _ _) done)
  | @upgrades v caller buf site returns response =>
    left
    rw [Server.goto_objects,
      (takeParser s v.c _).modify_keeps v.c _ Connection.tls_done rfl c] at done
    exact kept (same_takeParser s _ _) done
  | @pushes s' ref kind item io site unlocked =>
    left
    have pushed := (same_modify s' ref (·.enqueue [item]) rfl).tls c
    exact kept site.same ((tls_fields pushed).1.symm.trans done)
  | earlyDone | ponged | peerCloses =>
    rw [Server.goto_objects] at done
    exact Or.inl (kept (same_modify s _ _ rfl) done)
  | submits =>
    dsimp only [submitTask] at done
    exact Or.inl (kept (same_modify s _ _ rfl) done)

/-- Something makes the IO thread look at the queue of a connection. The registration waits for
    EPOLLOUT or a worker is about to see to it, unless the last write asked for a read or failed;
    and behind a flush that emptied the queue the eventfd is set or about to be. -/
structure Covered (p : Watched) (fd : Nat) (c : ConnRef) : Prop where
  armed : Due p.server.io c ∨ p.armed fd = true ∨ (∃ w, p.owed w = some (.updateInterest c)) ∨
    p.ended c = .wantRead ∨ p.ended c = .fatal
  signalled : (p.server.objects c).closing = false → p.ended c = .drained →
    Awaited p.server.io fd c ∨ 0 < p.wakeups ∨ ∃ w, p.owed w ≠ none

structure WatchInv (p : Watched) : Prop where
  settled : Settled p.server
  sockets : SocketInv p.server
  listed : Listed p.server
  covered : ∀ fd c, p.server.conns.lookup fd = some c → (p.server.objects c).tls_done = true →
    unsent (p.server.objects c).outbound ≠ [] → Covered p fd c

theorem updateInterest_true (armed : Nat → Bool) (fd' : Option Nat) (set : armed fd = true) :
    updateInterest armed fd' true fd = true := by
  unfold updateInterest
  split
  · exact set
  · rw [Function.update_apply]
    split
    · rfl
    · exact set

theorem updateInterest_other (armed : Nat → Bool) {fd' : Option Nat} (want_write : Bool)
    (other : fd' ≠ some fd) : updateInterest armed fd' want_write fd = armed fd := by
  unfold updateInterest
  split
  · rfl
  · rename_i number
    exact Function.update_of_ne (by rintro rfl; exact other rfl) ..

section
variable {p : Watched}

theorem armed_stays (inv : WatchInv p) (found : p.server.conns.lookup fd = some c)
    (done : (p.server.objects c).tls_done = true)
    (unflushed : ∀ ending, p.server.flushes sys ≠ some (c, ending)) (set : p.armed fd = true) :
    (watchIo config sys wantWrite p).armed fd = true := by
  unfold watchIo
  dsimp only
  cases call : interestCall config sys wantWrite p.server with
  | none => exact set
  | some t =>
    obtain ⟨fd', want⟩ := t
    dsimp only
    rcases interestCall_cases call with rfl | ⟨v, here, same⟩ | ⟨ref, ending, flushes, same⟩
    · exact updateInterest_true p.armed fd' set
    · rw [updateInterest_other p.armed want, set]
      intro hit
      have made : v.c < p.server.allocated := by
        apply inv.settled.refs.io
        rcases here with here | here <;> rw [here] <;> rfl
      have shaking : Shaking (p.server.objects v.c) := by
        have known := inv.settled.tls.io
        rcases here with here | here <;> rw [here] at known <;> exact known
      have own := inv.sockets.table v.c made fd (same.symm.trans hit)
      obtain rfl : c = v.c := Option.some.inj (found.symm.trans own)
      rw [shaking.1] at done
      contradiction
    · rw [updateInterest_other p.armed want, set]
      intro hit
      have made := flushing_made inv.settled.refs (flushes_some flushes).1
      have own := inv.sockets.table ref made fd (same.symm.trans hit)
      obtain rfl : c = ref := Option.some.inj (found.symm.trans own)
      exact unflushed ending flushes

/- After a flush the queue is empty, or EPOLLOUT is asked for unless the write was refused
   otherwise. -/
theorem flushed_covered (inv : WatchInv p) (found : p.server.conns.lookup fd = some c)
    {ending : FlushEnd} (flushes : p.server.flushes sys = some (c, ending))
    (queued : unsent ((watchIo config sys wantWrite p).server.objects c).outbound ≠ []) :
    Covered (watchIo config sys wantWrite p) fd c := by
  obtain ⟨_, _, ends⟩ := flushes_some flushes
  obtain ⟨here, ssl⟩ := inv.settled.tls.live fd c found
  have live : (p.server.objects c).Live := ⟨by simp [here], ssl⟩
  have left : ((watchIo config sys wantWrite p).server.objects c).outbound =
      (p.server.flush sys c).outbound := ioStep_flushed config flushes
  have recorded : (watchIo config sys wantWrite p).ended c = ending := by
    simp only [watchIo, flushes, Function.update_self]
  have unfinished : ending ≠ .drained := by
    intro drained
    apply queued
    rw [left, Server.flush, flushEnd_drained (ends.symm.trans drained)]
    rfl
  constructor
  · right
    cases ending with
    | skipped => exact absurd ends.symm (flushEnd_called live)
    | drained => contradiction
    | wantWrite =>
      left
      simp only [watchIo, interestCall_flush flushes, FlushEnd.want_write, Option.map_some, here,
        updateInterest, Function.update_self]
    | wantRead => exact Or.inr (Or.inr (Or.inl recorded))
    | fatal => exact Or.inr (Or.inr (Or.inr recorded))
  · intro _ drained
    exact absurd (recorded.symm.trans drained) unfinished

theorem unflushed_covered (inv : WatchInv p)
    (found : (watchIo config sys wantWrite p).server.conns.lookup fd = some c)
    (done : ((watchIo config sys wantWrite p).server.objects c).tls_done = true)
    (queued : unsent ((watchIo config sys wantWrite p).server.objects c).outbound ≠ [])
    (unflushed : ∀ ending, p.server.flushes sys ≠ some (c, ending)) :
    Covered (watchIo config sys wantWrite p) fd c := by
  have before := (ioStep_only config sys p.server).conns fd c found
  have recorded : (watchIo config sys wantWrite p).ended c = p.ended c := by
    unfold watchIo
    dsimp only
    cases flushes : p.server.flushes sys with
    | none => rfl
    | some t =>
      have other : c ≠ t.1 := by
        rintro rfl
        exact unflushed t.2 flushes
      exact Function.update_of_ne other ..
  rcases ioStep_unflushed config unflushed with pushed | same
  · constructor
    · right
      left
      obtain ⟨fd', call, who⟩ := interestCall_pushed wantWrite pushed
      have own : fd' = fd := by
        rcases who with ⟨v, visits, mine, number⟩ | listed
        · exact number.symm.trans ((inv.settled.visits v visits fd c before).mpr mine.symm).symm
        · have other := (inv.settled.tls.live fd' c listed).1
          have here := (inv.settled.tls.live fd c before).1
          exact Option.some.inj (other.symm.trans here)
      simp only [watchIo, call, updateInterest, own, Function.update_self]
    · intro _ _
      exact Or.inl (pushed_awaited inv.listed before pushed)
  have waiting : unsent (p.server.objects c).outbound ≠ [] := by
    rw [← same]
    exact queued
  rcases ioStep_done done with already | ⟨v, now, rfl⟩
  · obtain ⟨armed, signalled⟩ := inv.covered fd c before already waiting
    constructor
    · rcases armed with due | set | owed | refused
      · exact Or.inl (due_stays inv.settled.visits due unflushed found)
      · exact Or.inr (Or.inl (armed_stays inv before already unflushed set))
      · exact Or.inr (Or.inr (Or.inl owed))
      · right
        right
        right
        rw [recorded]
        exact refused
    · intro open' drained
      have kept := ioMove_kept (ioStep_move config sys p.server) c
      have before_open : (p.server.objects c).closing = false := by
        by_contra closing
        have stays := kept.closing (by simpa using closing)
        exact absurd (stays.symm.trans open') (by simp)
      rw [recorded] at drained
      rcases signalled before_open drained with awaited | rest
      · exact Or.inl (awaited_stays awaited before already before_open unflushed)
      · exact Or.inr rest
  · have shaken : (watchIo config sys wantWrite p).server.io = .handshakeDone v := now
    constructor
    · exact Or.inl ⟨v, by rw [shaken]; rfl, rfl, Or.inr shaken⟩
    · intro _ _
      left
      rw [shaken]
      exact rfl

theorem watchIo_inv (inv : WatchInv p) : WatchInv (watchIo config sys wantWrite p) where
  settled := step_settled inv.settled (.io sys)
  sockets := step_socketInv inv.settled.tls inv.sockets (.io sys)
  listed := ioStep_listed inv.listed
  covered := by
    intro fd c found done queued
    by_cases flushed : ∃ ending, p.server.flushes sys = some (c, ending)
    · obtain ⟨ending, flushes⟩ := flushed
      have before := (ioStep_only config sys p.server).conns fd c found
      exact flushed_covered inv before flushes queued
    · exact unflushed_covered inv found done queued (not_exists.mp flushed)

theorem payOwed_inv (inv : WatchInv p) (w : Nat) : WatchInv (payOwed p w) := by
  unfold payOwed
  cases owed : p.owed w with
  | none => exact inv
  | some debt =>
    cases debt with
    | updateInterest conn =>
      refine ⟨inv.settled, inv.sockets, inv.listed, ?_⟩
      intro fd c found done queued
      obtain ⟨armed, signalled⟩ := inv.covered fd c found done queued
      constructor
      · rcases armed with due | set | ⟨w', waits⟩ | refused
        · exact Or.inl due
        · exact Or.inr (Or.inl (updateInterest_true p.armed _ set))
        · by_cases same : w' = w
          · subst same
            rw [owed] at waits
            obtain rfl := Owed.updateInterest.inj (Option.some.inj waits)
            right
            left
            simp only [(inv.settled.tls.live fd conn found).1, updateInterest, Function.update_self]
          · exact Or.inr (Or.inr (Or.inl ⟨w', (Function.update_of_ne same ..).trans waits⟩))
        · exact Or.inr (Or.inr (Or.inr refused))
      · intro open' drained
        rcases signalled open' drained with awaited | set | _
        · exact Or.inl awaited
        · exact Or.inr (Or.inl set)
        · exact Or.inr (Or.inr ⟨w, by simp⟩)
    | notifyIoThreadOutbound =>
      refine ⟨inv.settled, inv.sockets, inv.listed, ?_⟩
      intro fd c found done queued
      obtain ⟨armed, _⟩ := inv.covered fd c found done queued
      constructor
      · rcases armed with due | set | ⟨w', waits⟩ | refused
        · exact Or.inl due
        · exact Or.inr (Or.inl set)
        · have other : w' ≠ w := by
            rintro rfl
            rw [owed] at waits
            exact Owed.noConfusion (Option.some.inj waits)
          exact Or.inr (Or.inr (Or.inl ⟨w', (Function.update_of_ne other ..).trans waits⟩))
        · exact Or.inr (Or.inr (Or.inr refused))
      · intro _ _
        right
        left
        dsimp only [notifyIoThreadOutbound]
        split <;> omega

theorem workerMove_closing {w : Nat} {r : Stepped} (move : WorkerMove config s w r) (c : ConnRef) :
    (r.1.objects c).closing = (s.objects c).closing := by
  cases move with
  | @enters ticket conn frames ready unlocked open' =>
    exact s.modify_keeps conn (fun c => { c with outbound_mu := some w }) Connection.closing rfl c
  | @pushes ticket conn frames inside =>
    exact s.modify_keeps conn (fun c => { c.enqueue frames with outbound_mu := none })
      Connection.closing rfl c
  | _ => rfl

theorem workerMove_pushed {w : Nat} {r : Stepped} (move : WorkerMove config s w r) (c : ConnRef) :
    r.2.findSome? Observation.pushed = some c ∨
      (r.1.objects c).outbound = (s.objects c).outbound := by
  cases move with
  | @enters ticket conn frames ready unlocked open' =>
    exact Or.inr
      (s.modify_keeps conn (fun c => { c with outbound_mu := some w }) Connection.outbound rfl c)
  | @pushes ticket conn frames inside =>
    by_cases same : conn = c
    · left
      rw [← same]
      rfl
    · right
      dsimp only [pushReplies, Server.setWorker]
      rw [s.modify_objects, if_neg (Ne.symm same)]
  | _ => exact Or.inr rfl

/- What a worker pushes it owes the IO thread word of. -/
theorem worker_inv (inv : WatchInv p) {w : Nat} (sys : FileTransferManager.SysResults)
    (idle : p.owed w = none) :
    WatchInv (watchStep config p (.server (.worker w sys) wantWrite)).1 := by
  have settled : Settled (step config p.server (.worker w sys)).1 := step_settled inv.settled _
  have sockets : SocketInv (step config p.server (.worker w sys)).1 :=
    step_socketInv inv.settled.tls inv.sockets _
  have others {w' : Nat} {debt : Owed} (new : Option Owed) (waits : p.owed w' = some debt) :
      Function.update p.owed w new w' = some debt := by
    have other : w' ≠ w := by
      rintro rfl
      rw [idle] at waits
      contradiction
    exact (Function.update_of_ne other ..).trans waits
  have move : step config p.server (.worker w sys) = (p.server, []) ∨
      WorkerMove config p.server w (step config p.server (.worker w sys)) := by
    unfold step
    dsimp only
    split
    · exact Or.inr (workerStep_move config sys p.server w)
    · exact Or.inl rfl
  simp only [watchStep, idle, Option.isSome_none, Bool.false_eq_true, ↓reduceIte]
  generalize step config p.server (.worker w sys) = r at move settled sockets ⊢
  have moved : r.1.conns = p.server.conns ∧ r.1.io = p.server.io ∧
      ∀ c, (r.1.objects c).tls_done = (p.server.objects c).tls_done ∧
        (r.1.objects c).closing = (p.server.objects c).closing ∧
        (r.2.findSome? Observation.pushed = some c ∨
          (r.1.objects c).outbound = (p.server.objects c).outbound) := by
    rcases move with rfl | move
    · exact ⟨rfl, rfl, fun c => ⟨rfl, rfl, Or.inr rfl⟩⟩
    · obtain ⟨conns, io, _⟩ := workerMove_table move
      have same := (workerMove_same move).1
      exact ⟨conns, io, fun c => ⟨(tls_fields (same.tls c)).1, workerMove_closing move c,
        workerMove_pushed move c⟩⟩
  obtain ⟨conns, io, objects⟩ := moved
  refine ⟨settled, sockets, ?_, ?_⟩
  · intro now all todo here fd c found
    dsimp only at here found
    rw [io] at here
    rw [conns] at found
    exact inv.listed now all todo here fd c found
  · intro fd c found done queued
    dsimp only at found done queued ⊢
    obtain ⟨tls, closing, pushed | same⟩ := objects c
    · constructor
      · exact Or.inr (Or.inr (Or.inl ⟨w, by simp [pushed]⟩))
      · intro _ _
        exact Or.inr (Or.inr ⟨w, by simp [pushed]⟩)
    · rw [conns] at found
      rw [tls] at done
      rw [same] at queued
      obtain ⟨armed, signalled⟩ := inv.covered fd c found done queued
      constructor
      · dsimp only
        rw [io]
        rcases armed with due | set | ⟨w', waits⟩ | refused
        · exact Or.inl due
        · exact Or.inr (Or.inl set)
        · exact Or.inr (Or.inr (Or.inl ⟨w', others _ waits⟩))
        · exact Or.inr (Or.inr (Or.inr refused))
      · dsimp only
        rw [io, closing]
        intro open' drained
        rcases signalled open' drained with awaited | set | ⟨w', waits⟩
        · exact Or.inl awaited
        · exact Or.inr (Or.inl set)
        · obtain ⟨debt, here⟩ := Option.ne_none_iff_exists'.mp waits
          exact Or.inr (Or.inr ⟨w', by rw [others _ here]; simp⟩)

theorem arrival_keeps {i : Input} {r : Stepped} (tls : TlsInv s) (move : Move config s i r)
    (io : ∀ sys, i ≠ .io sys) (worker : ∀ w sys, i ≠ .worker w sys)
    (found : r.1.conns.lookup fd = some c) (queued : unsent (r.1.objects c).outbound ≠ []) :
    s.conns.lookup fd = some c ∧ (r.1.objects c).outbound = (s.objects c).outbound ∧
      (r.1.objects c).tls_done = (s.objects c).tls_done ∧
      ((r.1.objects c).closing = false → (s.objects c).closing = false) := by
  have closed (s' : Server) (fd' : Nat) :
      ((s'.closeConnection fd').objects c).outbound = (s'.objects c).outbound ∧
      ((s'.closeConnection fd').objects c).tls_done = (s'.objects c).tls_done ∧
      (((s'.closeConnection fd').objects c).closing = false → (s'.objects c).closing = false) := by
    refine ⟨s'.close_keeps fd' Connection.outbound (fun _ => rfl) c, close_tls_done s' fd' c, ?_⟩
    intro open'
    by_contra closing
    have stays := (kept_close s' fd' c).closing (by simpa using closing)
    exact absurd (stays.symm.trans open') (by simp)
  have added {cfd : Nat} {now : TimePoint}
      (found : (addConnection config s cfd now).conns.lookup fd = some c)
      (queued : unsent ((addConnection config s cfd now).objects c).outbound ≠ []) :
      s.conns.lookup fd = some c ∧
        (addConnection config s cfd now).objects c = s.objects c := by
    by_cases same : fd = cfd
    · rw [same] at found
      obtain rfl := Option.some.inj ((AList.lookup_insert _).symm.trans found)
      simp [addConnection, Connection.construct, unsent] at queued
    · have old := (AList.lookup_insert_ne same).symm.trans found
      exact ⟨old, addConnection_other (Nat.ne_of_lt (tls.allocated fd c old))⟩
  cases move with
  | io sys => exact absurd rfl (io sys)
  | worker real sys => exact absurd rfl (worker _ sys)
  | stays | shakes | reads | timer | wake => exact ⟨found, rfl, rfl, id⟩
  | hangup fd' e => exact ⟨(Server.lookup_closed found).2, closed s fd'⟩
  | accepts now waits fresh =>
    obtain ⟨old, same⟩ := added found queued
    rw [same]
    exact ⟨old, rfl, rfl, id⟩
  | @refuses cfd now waits fresh =>
    obtain ⟨outbound, done, closing⟩ := closed (addConnection config s cfd now) cfd
    rw [Server.goto_objects, outbound] at queued
    obtain ⟨old, same⟩ := added (Server.lookup_closed found).2 queued
    rw [Server.goto_objects, outbound, done, same]
    rw [same] at closing
    exact ⟨old, rfl, rfl, closing⟩

/- What arrives at a waiting IO thread takes no announcement away but for the one it brings. -/
theorem arrival_inv (config : Config) {q : Watched} (inv : WatchInv p) (i : Input)
    (io : ∀ sys, i ≠ .io sys)
    (worker : ∀ w sys, i ≠ .worker w sys) (server : q.server = (step config p.server i).1)
    (owed : q.owed = p.owed) (ended : q.ended = p.ended) (listed : Listed q.server)
    (armed : ∀ fd c, p.server.conns.lookup fd = some c → p.armed fd = true →
      q.armed fd = true ∨ Due q.server.io c)
    (wakeups : 0 < p.wakeups → 0 < q.wakeups ∨
      ∀ fd c, p.server.conns.lookup fd = some c → Awaited q.server.io fd c) : WatchInv q := by
  have settled : Settled (step config p.server i).1 := step_settled inv.settled i
  have sockets : SocketInv (step config p.server i).1 :=
    step_socketInv inv.settled.tls inv.sockets i
  refine ⟨server ▸ settled, server ▸ sockets, listed, ?_⟩
  intro fd c found done queued
  rw [server] at found done queued
  obtain ⟨before, outbound, tls, closing⟩ :=
    arrival_keeps inv.settled.tls (step_move config p.server i) io worker found queued
  rw [tls] at done
  rw [outbound] at queued
  obtain ⟨waiting, signalled⟩ := inv.covered fd c before done queued
  have same : p.server.io = .epollWait ∨ q.server.io = p.server.io := by
    rcases arrival_waits config p.server io worker with waits | still
    · exact Or.inl waits
    · right
      rw [server, still]
  constructor
  · rw [owed, ended]
    rcases waiting with due | set | rest
    · left
      rcases same with waits | same
      · rw [waits] at due
        obtain ⟨v, visits, _⟩ := due
        contradiction
      · rw [same]
        exact due
    · rcases armed fd c before set with set | due
      · exact Or.inr (Or.inl set)
      · exact Or.inl due
    · exact Or.inr (Or.inr rest)
  · rw [owed, ended, server]
    intro open' drained
    rcases signalled (closing open') drained with awaited | set | rest
    · left
      rw [← server]
      rcases same with waits | same
      · rw [waits] at awaited
        contradiction
      · rw [same]
        exact awaited
    · rcases wakeups set with set | all
      · exact Or.inr (Or.inl set)
      · left
        rw [← server]
        exact all fd c before
    · exact Or.inr (Or.inr rest)

theorem listed_other {s' : Server} (other : ∀ now all todo, s'.io ≠ .timerPing now all todo) :
    Listed s' :=
  fun now all todo here => absurd here (other now all todo)

theorem epoll_inv (inv : WatchInv p) (fd : Nat) (e : Events) :
    WatchInv (watchStep config p (.server (.epoll fd e) wantWrite)).1 := by
  have move := step_move config p.server (.epoll fd e)
  refine arrival_inv config inv (.epoll fd e) (by simp) (by simp) rfl rfl rfl ?_ ?_ ?_
  · dsimp only [watchStep]
    generalize step config p.server (.epoll fd e) = r at move ⊢
    cases move with
    | stays => exact inv.listed
    | hangup | shakes | reads => exact listed_other (by simp)
  · intro fd' c found set
    dsimp only [watchStep]
    by_cases reported : (e.EPOLLOUT && p.server.io.waits &&
        !(step config p.server (.epoll fd e)).1.io.waits) = true
    · rw [if_pos reported]
      by_cases same : fd' = fd
      · right
        subst same
        simp only [Bool.and_eq_true, Bool.not_eq_true'] at reported
        obtain ⟨⟨out, waits⟩, leaves⟩ := reported
        generalize step config p.server (.epoll fd' e) = r at move leaves ⊢
        cases move with
        | stays => simp [waits] at leaves
        | hangup => simp [IoState.waits] at leaves
        | shakes e here undone =>
          obtain rfl := Option.some.inj (here.symm.trans found)
          exact ⟨_, rfl, rfl, Or.inl out⟩
        | reads e here done =>
          obtain rfl := Option.some.inj (here.symm.trans found)
          exact ⟨_, rfl, rfl, Or.inl out⟩
      · left
        rw [updateInterest_other p.armed false (by simpa using Ne.symm same)]
        exact set
    · rw [if_neg reported]
      exact Or.inl set
  · exact fun set => Or.inl set

theorem listen_inv (inv : WatchInv p) (cfd : Nat) (now : TimePoint) (added : Bool) :
    WatchInv (watchStep config p (.server (.listen cfd now added) wantWrite)).1 := by
  have move := step_move config p.server (.listen cfd now added)
  refine arrival_inv config inv (.listen cfd now added) (by simp) (by simp) rfl rfl rfl ?_ ?_ ?_
  · dsimp only [watchStep]
    generalize step config p.server (.listen cfd now added) = r at move ⊢
    cases move with
    | stays => exact inv.listed
    | accepts now waits fresh => exact listed_other (by simp [addConnection, waits])
    | refuses => exact listed_other (by simp)
  · intro fd c found set
    left
    dsimp only [watchStep]
    by_cases taken : cfd ∈ p.server.conns
    · rw [if_pos taken]
      exact set
    · rw [if_neg taken, updateInterest_other p.armed false]
      · exact set
      · intro same
        obtain rfl := Option.some.inj same
        exact taken (AList.lookup_isSome.mp (by rw [found]; rfl))
  · exact fun set => Or.inl set

theorem table_listed {s : Server} {order : List Nat} (all : order.Perm s.conns.keys)
    (found : s.conns.lookup fd = some c) : fd ∈ order := by
  have mem : fd ∈ s.conns := AList.lookup_isSome.mp (by rw [found]; rfl)
  exact all.mem_iff.mpr (AList.mem_keys.mp mem)

theorem wake_inv (inv : WatchInv p) (order : List Nat) :
    WatchInv (watchStep config p (.server (.wake order) wantWrite)).1 := by
  by_cases unset : p.wakeups = 0
  · simp only [watchStep, unset, ↓reduceIte]
    exact inv
  have round : step config p.server (.wake order) = (p.server, []) ∨
      order.Perm p.server.conns.keys ∧
        step config p.server (.wake order) = (p.server.goto (.flushEach order none), []) := by
    unfold step
    dsimp only
    split
    · split
      · exact Or.inr ⟨by assumption, rfl⟩
      · exact Or.inl rfl
    · exact Or.inl rfl
  simp only [watchStep, unset, ↓reduceIte]
  refine arrival_inv config inv (.wake order) (by simp) (by simp) rfl rfl rfl ?_ ?_ ?_
  · dsimp only
    rcases round with still | ⟨_, begins⟩
    · rw [still]
      exact inv.listed
    · rw [begins]
      exact listed_other (by simp)
  · exact fun fd c _ set => Or.inl set
  · intro set
    dsimp only
    rcases round with still | ⟨all, begins⟩
    · left
      rw [still]
      simpa using set
    · right
      intro fd c found
      rw [begins]
      exact table_listed all found

theorem timer_inv (inv : WatchInv p) (now : TimePoint) (order : List Nat) :
    WatchInv (watchStep config p (.server (.timer now order) wantWrite)).1 := by
  refine arrival_inv config inv (.timer now order) (by simp) (by simp) rfl rfl rfl ?_ ?_ ?_
  · dsimp only [watchStep, step]
    split
    · split
      · rename_i all
        intro now' all' todo here fd c found
        obtain ⟨_, rfl, _⟩ := IoState.timerPing.inj here
        exact table_listed all found
      · exact inv.listed
    · exact inv.listed
  · exact fun fd c _ set => Or.inl set
  · exact fun set => Or.inl set

theorem watchStep_inv (p : Watched) (i : WatchInput) (inv : WatchInv p) :
    WatchInv (watchStep config p i).1 := by
  cases i with
  | owed w => exact payOwed_inv inv w
  | server i wantWrite =>
    cases i with
    | io sys => exact watchIo_inv inv
    | worker w sys =>
      cases idle : p.owed w with
      | none => exact worker_inv inv sys idle
      | some debt =>
        simp only [watchStep, idle, Option.isSome_some, ↓reduceIte]
        exact inv
    | epoll fd e => exact epoll_inv inv fd e
    | listen cfd now added => exact listen_inv inv cfd now added
    | wake order => exact wake_inv inv order
    | timer now order => exact timer_inv inv now order

end

end

/-- Behind the handshake no connection is left with output that nothing will make the IO thread
    send. -/
def NoneStranded (p : Watched) : Prop :=
  p.server.io = .epollWait → ∀ fd c, p.server.conns.lookup fd = some c →
    (p.server.objects c).tls_done = true → unsent (p.server.objects c).outbound ≠ [] →
    (p.armed fd = true ∨ (∃ w, p.owed w = some (.updateInterest c)) ∨
      p.ended c = .wantRead ∨ p.ended c = .fatal) ∧
    ((p.server.objects c).closing = false → p.ended c = .drained →
      0 < p.wakeups ∨ ∃ w, p.owed w ≠ none)

/-- However the workers' pushes and notifications fall between the flushes of the IO thread: when
    it waits for events, every connection with output and a complete handshake is registered for
    EPOLLOUT or about to be by the worker that pushed last, unless its last SSL_write asked for a
    read or failed; and unless it is closing, output pushed since the queue was last drained has
    the eventfd set as well. -/
theorem no_wakeup_lost (config : Config) (disk : FileSystem Bytes) (inputs : List WatchInput) :
    let p := Run.final (watchStep config) (startWatched disk) inputs
    p.server = Run.final (step config) (start disk)
      (Run.passed (watchStep config) served (startWatched disk) inputs) ∧ NoneStranded p := by
  have begins : WatchInv (startWatched disk) := by
    refine ⟨(start_wire disk).settled, start_sockets disk,
      listed_other (by simp [startWatched, start]), ?_⟩
    intro fd c found
    simp [startWatched, start] at found
  have allowed : ∀ t ∈ Run.steps (watchStep config) (startWatched disk) inputs, True :=
    fun _ _ => trivial
  have keeps (p : Watched) (i : WatchInput) (inv : WatchInv p) (_ : True) :
      WatchInv (watchStep config p i).1 := watchStep_inv p i inv
  have inv := (Run.invariant_steps WatchInv (fun _ _ => True) keeps begins allowed).2
  refine ⟨(watched_contains config).final (startWatched disk) inputs, ?_⟩
  intro waits fd c found done queued
  obtain ⟨armed, signalled⟩ := inv.covered fd c found done queued
  rw [waits] at armed signalled
  constructor
  · rcases armed with ⟨v, visits, _⟩ | rest
    · contradiction
    · exact rest
  · intro open' drained
    exact (signalled open' drained).resolve_left id

end WssServer
