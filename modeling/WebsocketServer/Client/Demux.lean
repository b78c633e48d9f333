import WebsocketServer.Library.Run
import WebsocketServer.Client.UploadHandler

/- The uploads of a page share one queue and one waiter. As long as no connection is closed while a
   file is being read, there is never more than one upload that uses them. -/
namespace WebPage

theorem waiting_live {handler : Handler} (waiting : handler.waiting = true) :
    handler.live = true := by
  cases handler with
  | awaits => rfl
  | _ => contradiction

theorem live_done {handler : Handler} (live : handler.live = true) : handler.done = false := by
  cases handler with
  | ended => contradiction
  | _ => rfl

theorem drain_waits (ready : Option ReadyState) (handler : Handler) (binQueue : List Bytes)
    (waiting : (drain ready handler binQueue).1.waiting = true) :
    (drain ready handler binQueue).2.1 = [] := by
  induction binQueue generalizing handler with
  | nil => cases handler <;> rfl
  | cons u8 binQueue ih =>
    cases handler with
    | awaits u answer => exact ih _ waiting
    | _ => contradiction

theorem drain_order (ready : Option ReadyState) (handler : Handler) (binQueue : List Bytes) :
    (drain ready handler binQueue).2.2.2 ++ (drain ready handler binQueue).2.1 = binQueue := by
  induction binQueue generalizing handler with
  | nil => cases handler <;> rfl
  | cons u8 binQueue ih =>
    cases handler with
    | awaits u answer => exact congrArg (u8 :: ·) (ih _)
    | _ => rfl

namespace Page
variable {p : Page} {k : Nat} {handler : Handler}

/-- Nothing lies in the queue while the waiter is set. -/
def Attended (p : Page) : Prop := p.binWaiter ≠ none → p.binQueue = []

/-- No two uploads are under way, uploadInProgress knows of the one that is, and the waiter is
    this upload's own. -/
structure Exclusive (p : Page) : Prop where
  alone : ∀ (k k' : Nat) (handler handler' : Handler), p.handlers[k]? = some handler →
    handler.live = true → p.handlers[k']? = some handler' → handler'.live = true → k' = k
  busy : ∀ (k : Nat) (handler : Handler), p.handlers[k]? = some handler → handler.live = true →
    p.uploadInProgress = true
  waiter : ∀ k : Nat, p.binWaiter = some k ↔ ∃ handler, p.handlers[k]? = some handler ∧
    handler.waiting = true

def Only (p : Page) (k : Nat) : Prop :=
  ∀ (k' : Nat) (handler : Handler), p.handlers[k']? = some handler → handler.live = true → k' = k

def NoneReading (p : Page) : Prop :=
  ∀ handler ∈ p.handlers, handler.live = true → handler.waiting = true

theorem settle_handlers {k' : Nat} {h : Handler}
    (found : (p.settle k handler).handlers[k']? = some h) :
    (k' = k ∧ h = handler) ∨ (k' ≠ k ∧ p.handlers[k']? = some h) := by
  simp only [settle, List.getElem?_set] at found
  split at found
  · rename_i same
    split at found
    · exact .inl ⟨same.symm, (Option.some.inj found).symm⟩
    · contradiction
  · rename_i apart
    exact .inr ⟨Ne.symm apart, found⟩

theorem settle_exclusive (only : p.Only k) (inside : k < p.handlers.length)
    (free : p.binWaiter = none) (busy : handler.live = true → p.uploadInProgress = true) :
    (p.settle k handler).Exclusive := by
  have here {k' : Nat} {h : Handler} (found : (p.settle k handler).handlers[k']? = some h)
      (live : h.live = true) : k' = k ∧ h = handler := by
    rcases settle_handlers found with same | ⟨apart, before⟩
    · exact same
    · exact absurd (only k' h before live) apart
  constructor
  · intro k₁ k₂ h₁ h₂ found₁ live₁ found₂ live₂
    rw [(here found₁ live₁).1, (here found₂ live₂).1]
  · intro k' h found live
    obtain ⟨-, rfl⟩ := here found live
    simp only [settle, live_done live, Bool.false_eq_true, ↓reduceIte]
    exact busy live
  · intro k'
    constructor
    · intro waits
      by_cases waiting : handler.waiting = true
      · simp only [settle, waiting, ↓reduceIte, Option.some.injEq] at waits
        subst waits
        exact ⟨handler, by simp [settle, inside], waiting⟩
      · simp only [settle, waiting, Bool.false_eq_true, ↓reduceIte, free] at waits
        contradiction
    · intro ⟨h, found, waiting⟩
      obtain ⟨rfl, rfl⟩ := here found (waiting_live waiting)
      simp only [settle, waiting, ↓reduceIte]

theorem proceed_exclusive (only : p.Only k) (inside : k < p.handlers.length)
    (free : p.binWaiter = none) (busy : p.uploadInProgress = true) (messages : List Bytes) :
    (p.proceed k handler messages).1.Exclusive := by
  unfold proceed
  apply settle_exclusive
  · exact only
  · exact inside
  · exact free
  · exact fun _ => busy

namespace Exclusive

theorem only (exclusive : p.Exclusive) (found : p.handlers[k]? = some handler)
    (live : handler.live = true) : p.Only k := by
  intro k' h found' live'
  exact exclusive.alone k k' handler h found live found' live'

theorem waits (exclusive : p.Exclusive) (waiter : p.binWaiter = some k) :
    ∃ handler, p.handlers[k]? = some handler ∧ handler.live = true ∧
      p.handlers.getD k .returned = handler := by
  obtain ⟨handler, found, waiting⟩ := (exclusive.waiter k).mp waiter
  refine ⟨handler, found, waiting_live waiting, ?_⟩
  rw [List.getD_eq_getElem?_getD, found, Option.getD_some]

theorem unawaited (exclusive : p.Exclusive) (found : p.handlers[k]? = some handler)
    (live : handler.live = true) (reads : handler.waiting = false) : p.binWaiter = none := by
  by_contra waiter
  obtain ⟨k', some⟩ := Option.ne_none_iff_exists'.mp waiter
  obtain ⟨other, found', waiting⟩ := (exclusive.waiter k').mp some
  obtain rfl := exclusive.only found live k' other found' (waiting_live waiting)
  rw [found] at found'
  obtain rfl := Option.some.inj found'
  rw [reads] at waiting
  contradiction

theorem idle (exclusive : p.Exclusive) (free : p.uploadInProgress = false) :
    (∀ handler ∈ p.handlers, handler.live = false) ∧ p.binWaiter = none := by
  have none : ∀ handler ∈ p.handlers, handler.live = false := by
    intro handler mem
    obtain ⟨k, found⟩ := List.getElem?_of_mem mem
    by_contra live
    have busy := exclusive.busy k handler found (Bool.not_eq_false _ ▸ live)
    rw [free] at busy
    contradiction
  refine ⟨none, ?_⟩
  by_contra waiter
  obtain ⟨k, some⟩ := Option.ne_none_iff_exists'.mp waiter
  obtain ⟨handler, found, live, -⟩ := exclusive.waits some
  rw [none handler (List.mem_of_getElem? found)] at live
  contradiction

theorem reset (exclusive : p.Exclusive) (read : p.NoneReading) (uploadInProgress : Bool) :
    ({ p with uploadInProgress }.resetBinaryDemux.1).Exclusive := by
  unfold resetBinaryDemux rejectBinaryWaiter
  cases waiter : p.binWaiter with
  | none =>
    have quiet (k : Nat) (handler : Handler) (found : p.handlers[k]? = some handler)
        (live : handler.live = true) : False := by
      have waiting := read handler (List.mem_of_getElem? found) live
      have here := (exclusive.waiter k).mpr ⟨handler, found, waiting⟩
      rw [waiter] at here
      contradiction
    constructor
    · intro k k' handler handler' found live
      exact (quiet k handler found live).elim
    · intro k handler found live
      exact (quiet k handler found live).elim
    · intro k
      rw [← exclusive.waiter k, waiter]
  | some k =>
    obtain ⟨handler, found, live, -⟩ := exclusive.waits waiter
    apply settle_exclusive
    · exact exclusive.only found live
    · exact (List.getElem?_eq_some_iff.mp found).1
    · rfl
    · intro contra
      contradiction

theorem push (exclusive : p.Exclusive) (u8 : Bytes) : (p.pushBinary u8).1.Exclusive := by
  unfold pushBinary
  split
  · rename_i waiter
    exact ⟨exclusive.alone, exclusive.busy, exclusive.waiter⟩
  · rename_i k waiter
    obtain ⟨handler, found, live, -⟩ := exclusive.waits waiter
    apply proceed_exclusive
    · exact exclusive.only found live
    · exact (List.getElem?_eq_some_iff.mp found).1
    · rfl
    · exact exclusive.busy k handler found live

theorem load (exclusive : p.Exclusive) (k : Nat)
    (data : Option { data : Bytes // data.length < 2 ^ 53 }) : (p.loaded k data).1.Exclusive := by
  have ends (found : ∃ handler, p.handlers[k]? = some handler ∧ handler.live = true ∧
      handler.waiting = false) (error : Thrown) : (p.settle k (.ended (some error))).Exclusive := by
    obtain ⟨handler, found, live, reads⟩ := found
    apply settle_exclusive
    · exact exclusive.only found live
    · exact (List.getElem?_eq_some_iff.mp found).1
    · exact exclusive.unawaited found live reads
    · intro contra
      contradiction
  unfold loaded
  split
  · rename_i found
    exact ends ⟨_, found, rfl, rfl⟩ _
  · rename_i found
    unfold announce
    split
    · exact ends ⟨_, found, rfl, rfl⟩ _
    · split
      · exact ends ⟨_, found, rfl, rfl⟩ _
      · apply proceed_exclusive
        · exact exclusive.only found rfl
        · exact (List.getElem?_eq_some_iff.mp found).1
        · exact exclusive.unawaited found rfl rfl
        · exact exclusive.busy k _ found rfl
  · exact exclusive

theorem expire (exclusive : p.Exclusive) (k : Nat) : (p.timeout k).1.Exclusive := by
  unfold timeout
  split
  · rename_i found waiter
    apply settle_exclusive
    · exact exclusive.only found rfl
    · exact (List.getElem?_eq_some_iff.mp found).1
    · rfl
    · intro contra
      contradiction
  · exact exclusive

theorem begin (exclusive : p.Exclusive) (name : List UInt16) (size : Nat) (parsed : Option Int) :
    (p.click name size parsed).1.Exclusive := by
  unfold click
  split
  · exact exclusive
  · rename_i accepted
    simp only [not_or, Bool.not_eq_true] at accepted
    obtain ⟨none, free⟩ := exclusive.idle accepted.2
    have quiet (k : Nat) (handler : Handler) (found : p.handlers[k]? = some handler)
        (live : handler.live = true) : False := by
      rw [none handler (List.mem_of_getElem? found)] at live
      contradiction
    have refused (uploadInProgress : Bool) :
        ({ p with binQueue := [], binWaiter := Option.none, uploadInProgress } :
          Page).Exclusive := by
      constructor
      · intro k k' handler handler' found live
        exact (quiet k handler found live).elim
      · intro k handler found live
        exact (quiet k handler found live).elim
      · rw [← free]
        exact exclusive.waiter
    simp only [resetBinaryDemux, rejectBinaryWaiter, free]
    split
    · exact refused false
    · split
      · exact refused false
      · have last {k : Nat} {h h' : Handler} (found : (p.handlers ++ [h'])[k]? = some h)
            (live : h.live = true) : k = p.handlers.length ∧ h = h' := by
          rw [List.getElem?_append] at found
          split at found
          · exact (quiet k h found live).elim
          · rename_i beyond
            obtain ⟨here, same⟩ := List.getElem?_eq_some_iff.mp found
            simp only [List.length_singleton] at here
            have first : k - p.handlers.length = 0 := by omega
            simp only [first, List.getElem_cons_zero] at same
            exact ⟨by omega, same.symm⟩
        constructor
        · intro k k' handler handler' found live found' live'
          rw [(last found live).1, (last found' live').1]
        · intro k handler found live
          rfl
        · intro k
          constructor
          · intro waits
            contradiction
          · intro ⟨handler, found, waiting⟩
            obtain ⟨-, rfl⟩ := last found (waiting_live waiting)
            contradiction

end Exclusive

theorem start_exclusive : Page.Exclusive {} := ⟨by simp, by simp, by simp⟩

theorem step_exclusive (exclusive : p.Exclusive) (event : Event)
    (read : ∀ i, event = .closed i → p.NoneReading) : (p.step event).1.Exclusive := by
  have sockets (sockets : List ReadyState) (ws : Option Nat) :
      ({ p with sockets, ws } : Page).Exclusive :=
    ⟨exclusive.alone, exclusive.busy, exclusive.waiter⟩
  cases event with
  | connect => exact sockets _ _
  | opened i =>
    simp only [step]
    split
    · exact sockets _ _
    · exact exclusive
  | disconnect =>
    simp only [step]
    split
    · exact exclusive
    · split
      · exact exclusive
      · exact sockets _ _
  | closed i =>
    simp only [step]
    split
    · exact exclusive
    · exact exclusive
    · have ended := exclusive.reset (read i rfl) false
      exact ⟨ended.alone, ended.busy, ended.waiter⟩
  | message i u8 =>
    simp only [step]
    split
    · exact exclusive.push u8
    · exact exclusive
  | click name size parsed => exact exclusive.begin name size parsed
  | loaded k data => exact exclusive.load k data
  | timeout k => exact exclusive.expire k

@[simp] theorem settle_binQueue (p : Page) (k : Nat) (handler : Handler) :
    (p.settle k handler).binQueue = p.binQueue := rfl

theorem reset_binQueue (p : Page) :
    p.resetBinaryDemux.1.binQueue = [] ∧ p.resetBinaryDemux.2 = { dropped := p.binQueue } := by
  unfold resetBinaryDemux rejectBinaryWaiter
  split <;> exact ⟨rfl, rfl⟩

theorem proceed_binQueue (p : Page) (k : Nat) (handler : Handler) (messages : List Bytes) :
    (p.proceed k handler messages).2.handed.map (·.2) ++
        (p.proceed k handler messages).1.binQueue = messages ∧
      (p.proceed k handler messages).2.dropped = [] ∧
      (p.proceed k handler messages).2.received = [] := by
  simp [proceed, drain_order]

theorem settle_attended (attended : p.Attended) (empty : handler.waiting = true → p.binQueue = []) :
    (p.settle k handler).Attended := by
  intro waits
  by_cases waiting : handler.waiting = true
  · exact empty waiting
  · simp only [settle, waiting, Bool.false_eq_true, ↓reduceIte] at waits
    exact attended waits

theorem proceed_attended {messages : List Bytes}
    (attended : p.binWaiter ≠ none → messages = []) :
    (p.proceed k handler messages).1.Attended := by
  apply settle_attended
  · intro waits
    have order := drain_order p.readyState handler messages
    rw [attended waits] at order ⊢
    exact (List.append_eq_nil_iff.mp order).2
  · exact drain_waits p.readyState handler messages

/- The queue stays in order because it is empty whenever a message goes past it. -/
theorem step_attended (attended : p.Attended) (event : Event) : (p.step event).1.Attended := by
  cases event with
  | connect => exact attended
  | opened i =>
    simp only [step]
    split <;> exact attended
  | disconnect =>
    simp only [step]
    split
    · exact attended
    · split <;> exact attended
  | closed i =>
    simp only [step]
    split
    · exact attended
    · exact attended
    · intro _
      exact (reset_binQueue { p with uploadInProgress := false }).1
  | message i u8 =>
    simp only [step]
    split
    · unfold pushBinary
      split
      · rename_i waiter
        intro waits
        exact absurd waiter waits
      · apply proceed_attended
        intro contra
        contradiction
    · exact attended
  | click name size parsed =>
    have empty := (reset_binQueue { p with uploadInProgress := true }).1
    simp only [step, click]
    split
    · exact attended
    · split
      · exact fun _ => empty
      · split <;> exact fun _ => empty
  | loaded k data =>
    simp only [step, loaded]
    split
    · exact settle_attended attended (by intro contra; contradiction)
    · unfold announce
      split
      · exact settle_attended attended (by intro contra; contradiction)
      · split
        · exact settle_attended attended (by intro contra; contradiction)
        · exact proceed_attended attended
    · exact attended
  | timeout k =>
    simp only [step, timeout]
    split
    · apply settle_attended
      · intro contra
        contradiction
      · intro contra
        contradiction
    · exact attended

theorem step_conserves (attended : p.Attended) (event : Event) :
    p.binQueue ++ (p.step event).2.received =
      ((p.step event).2.handed.map (·.2) ++ (p.step event).2.dropped) ++
        (p.step event).1.binQueue := by
  cases event with
  | connect => simp [step]
  | opened i =>
    simp only [step]
    split <;> simp
  | disconnect =>
    simp only [step]
    split
    · simp
    · split <;> simp
  | closed i =>
    simp only [step]
    split
    · simp
    · simp
    · obtain ⟨empty, effect⟩ := reset_binQueue { p with uploadInProgress := false }
      simp [onclose, empty, effect]
  | message i u8 =>
    simp only [step]
    split
    · unfold pushBinary
      split
      · simp
      · rename_i k waiter
        have empty := attended (by rw [waiter]; exact Option.some_ne_none k)
        obtain ⟨order, dropped, -⟩ := proceed_binQueue { p with binWaiter := none } k
          (p.handlers.getD k .returned) [u8]
        simp only [empty] at order dropped ⊢
        simp only [dropped, List.append_nil, List.nil_append]
        exact order.symm
    · simp
  | click name size parsed =>
    obtain ⟨empty, effect⟩ := reset_binQueue { p with uploadInProgress := true }
    simp only [step, click]
    split
    · simp
    · split
      · simp [empty, effect]
      · split <;> simp [empty, effect]
  | loaded k data =>
    simp only [step, loaded]
    split
    · simp
    · rename_i name chunkSize chunkSize_ge data found
      unfold announce
      split
      · simp
      · split
        · simp
        · rename_i out _
          obtain ⟨order, dropped, received⟩ := proceed_binQueue p k (transmit p.readyState
            (.awaits ⟨name, chunkSize, data, chunkSize_ge, data.property⟩ .start, [out])).1
            p.binQueue
          simp only [dropped, received, List.append_nil]
          exact order.symm
    · simp
  | timeout k =>
    simp only [step, timeout]
    split <;> simp

theorem step_handed (exclusive : p.Exclusive) (event : Event) :
    ∀ e ∈ (p.step event).2.handed,
      ∃ handler, p.handlers[e.1]? = some handler ∧ handler.live = true := by
  have none (effect : Effect) (silent : effect.handed = []) :
      ∀ e ∈ effect.handed, ∃ handler, p.handlers[e.1]? = some handler ∧ handler.live = true := by
    rw [silent]
    simp
  cases event with
  | connect => exact none _ rfl
  | opened i =>
    simp only [step]
    split <;> exact none _ rfl
  | disconnect =>
    simp only [step]
    split
    · exact none _ rfl
    · split <;> exact none _ rfl
  | closed i =>
    simp only [step]
    split
    · exact none _ rfl
    · exact none _ rfl
    · apply none
      simp only [onclose, (reset_binQueue { p with uploadInProgress := false }).2]
  | message i u8 =>
    simp only [step]
    split
    · unfold pushBinary
      split
      · exact none _ rfl
      · rename_i k waiter
        obtain ⟨handler, found, live, -⟩ := exclusive.waits waiter
        intro e mem
        obtain ⟨taken, -, rfl⟩ := List.mem_map.mp mem
        exact ⟨handler, found, live⟩
    · exact none _ rfl
  | click name size parsed =>
    have effect := (reset_binQueue { p with uploadInProgress := true }).2
    simp only [step, click]
    split
    · exact none _ rfl
    · split
      · exact none _ (by simp only [effect])
      · split <;> exact none _ (by simp only [effect])
  | loaded k data =>
    simp only [step, loaded]
    split
    · exact none _ rfl
    · rename_i found
      unfold announce
      split
      · exact none _ rfl
      · split
        · exact none _ rfl
        · intro e mem
          obtain ⟨taken, -, rfl⟩ := List.mem_map.mp mem
          exact ⟨_, found, rfl⟩
    · exact none _ rfl
  | timeout k =>
    simp only [step, timeout]
    split <;> exact none _ rfl

end Page

/-- Every message that came was handed on, was thrown away or is in the queue. -/
def Accounted (past : List (Run.Taken Page Event Effect)) (page : Page) : Prop :=
  past.flatMap (·.output.received) =
      past.flatMap (fun t => t.output.handed.map (·.2) ++ t.output.dropped) ++ page.binQueue ∧
    page.Attended

theorem step_accounted (past : List (Run.Taken Page Event Effect)) (page : Page) (event : Event)
    (holds : Accounted past page) :
    Accounted (past ++ [⟨page, event, (page.step event).1, (page.step event).2⟩])
      (page.step event).1 := by
  obtain ⟨ordered, attended⟩ := holds
  refine ⟨?_, Page.step_attended attended event⟩
  simp only [List.flatMap_append, List.flatMap_singleton]
  rw [ordered, List.append_assoc, Page.step_conserves attended event]
  simp only [List.append_assoc]

/-- In every run of the page, with any number of sockets, the binary messages that came are, in
    order and each once, those that uploads went on with, those that a reset threw away and those
    that are still in the queue, and the queue is empty whenever the waiter is set. -/
theorem binary_messages_conserved (events : List Event) :
    let steps := Run.steps Page.step {} events
    let page := Run.final Page.step {} events
    steps.flatMap (·.output.received) =
        steps.flatMap (fun t => t.output.handed.map (·.2) ++ t.output.dropped) ++ page.binQueue ∧
      (page.binWaiter ≠ none → page.binQueue = []) := by
  have begins : Accounted [] {} := ⟨rfl, fun waits => absurd rfl waits⟩
  exact Run.invariant_history Accounted step_accounted events begins

/-- As long as no connection is closed while a file is being read, the page never has two uploads
    under way, the waiter belongs to the one there is, and every binary message that is taken is
    taken by it. -/
theorem one_upload_at_a_time (events : List Event)
    (read : ∀ t ∈ Run.steps Page.step {} events, ∀ i, t.input = .closed i →
      t.before.NoneReading) :
    (Run.final Page.step {} events).Exclusive ∧
      ∀ t ∈ Run.steps Page.step {} events, ∀ e ∈ t.output.handed,
        ∃ handler, t.before.handlers[e.1]? = some handler ∧ handler.live = true := by
  obtain ⟨before, last⟩ := Run.invariant_steps Page.Exclusive
    (fun page event => ∀ i, event = .closed i → page.NoneReading)
    (fun page event exclusive read => Page.step_exclusive exclusive event read)
    Page.start_exclusive read
  refine ⟨last, ?_⟩
  intro t mem
  rw [(Run.steps_taken Page.step mem).2]
  exact Page.step_handed (before t mem) t.input

/-- Two clicks on connect, an upload over the second socket, and the first one fails while the
    answer to FILE_START is awaited. -/
def lostConnection : List Event :=
  [.connect, .connect, .opened 1, .click [97] 3 none, .loaded 0 (some ⟨[1, 2, 3], by decide⟩),
    .closed 0]

theorem lostConnection_exclusive : (Run.final Page.step {} lostConnection).Exclusive := by
  refine (one_upload_at_a_time lostConnection ?_).1
  intro t mem i closes
  have quiet : ∀ t ∈ Run.steps Page.step {} lostConnection,
      t.input = .closed 0 → ∀ handler ∈ t.before.handlers,
        handler.live = true → handler.waiting = true := by decide +kernel
  have others : ∀ t ∈ Run.steps Page.step {} lostConnection, ∀ i, t.input = .closed i → i = 0 := by
    simp [lostConnection, Run.steps]
  obtain rfl := others t mem i closes
  exact quiet t mem closes

/- Closed while the file is being read, the connection comes back to a second upload. -/
example : (Run.final Page.step {} [.connect, .opened 0, .click [97] 3 none, .closed 0, .connect,
    .opened 1, .click [98] 3 none]).handlers.map Handler.live = [true, true] := by decide +kernel

end WebPage
