import WebsocketServer.Client.PageMessages

/- An upload from the page, played through against the server, with messages in flight both ways
   and with others at the server. -/
namespace WebPage
open FileTransferManager

inductive Stage {u : Upload} (sendable : u.Sendable) (k : Nat) :
    Conversation Page → Nat → Prop where
  | opening {p : Page} {m : Manager} {payload : Bytes} (waits : p.Waits k u .start)
      (ready : Ready (u.announced sendable) m) (start : checkStart payload = .ok u.request) :
      Stage sendable k ⟨p, [MSG_FILE_START :: payload], m, []⟩
        (2 * u.request.total_chunks.toNat + 5)
  | opened {p : Page} {m : Manager} {done : Finset Nat} {bitmap : Bytes}
      (waits : p.Waits k u .start) (unfinished : Unfinished (u.announced sendable) m done)
      (marks : Marks (u.announced sendable) bitmap done) :
      Stage sendable k ⟨p, [], m, [queryResponse u.request.file_id u.request.total_chunks bitmap]⟩
        (2 * u.request.total_chunks.toNat + 4)
  | asking {p : Page} {m : Manager} {done : Finset Nat} (waits : p.Waits k u .query)
      (unfinished : Unfinished (u.announced sendable) m done) :
      Stage sendable k ⟨p, [MSG_FILE_QUERY :: writeU64BE u.request.file_id], m, []⟩
        (2 * u.request.total_chunks.toNat + 3)
  | told {p : Page} {m : Manager} {done : Finset Nat} {bitmap : Bytes}
      (waits : p.Waits k u .query) (unfinished : Unfinished (u.announced sendable) m done)
      (marks : Marks (u.announced sendable) bitmap done) :
      Stage sendable k ⟨p, [], m, [queryResponse u.request.file_id u.request.total_chunks bitmap]⟩
        (2 * u.request.total_chunks.toNat + 2)
  | sending {p : Page} {m : Manager} {done : Finset Nat} {i : Nat} {later : List Nat}
      (waits : p.Waits k u (.ack i later)) (unfinished : Unfinished (u.announced sendable) m done)
      (order : todo u.request.total_chunks.toNat done = i :: later) :
      Stage sendable k ⟨p, [(u.announced sendable).message (UInt32.ofNat i)], m, []⟩
        (2 * later.length + 3)
  | acknowledged {p : Page} {m : Manager} {done : Finset Nat} {i : Nat} {later : List Nat}
      (waits : p.Waits k u (.ack i later)) (unfinished : Unfinished (u.announced sendable) m done)
      (range : i < u.request.total_chunks.toNat)
      (order : todo u.request.total_chunks.toNat done = later) :
      Stage sendable k ⟨p, [], m, [chunkAck u.request.file_id (UInt32.ofNat i) 1]⟩
        (2 * later.length + 2)
  | finishing {p : Page} {m : Manager} {i : Nat} (waits : p.Waits k u (.ack i []))
      (completed : Completed (u.announced sendable) m) (range : i < u.request.total_chunks.toNat) :
      Stage sendable k ⟨p, [], m, [chunkAck u.request.file_id (UInt32.ofNat i) 1,
        finishAck u.request.file_id 1]⟩ 2
  | finished {p : Page} {m : Manager} (waits : p.Waits k u .finish)
      (completed : Completed (u.announced sendable) m) :
      Stage sendable k ⟨p, [], m, [finishAck u.request.file_id 1]⟩ 1
  | ended {p : Page} {m : Manager} (handler : p.handlers[k]? = some (.ended none))
      (completed : Completed (u.announced sendable) m) :
      Stage sendable k ⟨p, [], m, []⟩ 0

section
variable {u : Upload} {sendable : u.Sendable} {k n : Nat} {s : Conversation Page}

theorem stage_disturb (stage : Stage sendable k s n) {call : Call}
    (elsewhere : Elsewhere (u.announced sendable).id s.server call) :
    Stage sendable k { s with server := (perform s.server call).1 } n := by
  cases stage with
  | opening waits ready start =>
    obtain ⟨sound, keeps⟩ := elsewhere_keeps ready.1 elsewhere
    exact .opening waits (ready_kept ready sound keeps) start
  | opened waits unfinished marks =>
    obtain ⟨sound, keeps⟩ := elsewhere_keeps unfinished.1.sound elsewhere
    exact .opened waits (unfinished_kept unfinished sound keeps) marks
  | asking waits unfinished =>
    obtain ⟨sound, keeps⟩ := elsewhere_keeps unfinished.1.sound elsewhere
    exact .asking waits (unfinished_kept unfinished sound keeps)
  | told waits unfinished marks =>
    obtain ⟨sound, keeps⟩ := elsewhere_keeps unfinished.1.sound elsewhere
    exact .told waits (unfinished_kept unfinished sound keeps) marks
  | sending waits unfinished order =>
    obtain ⟨sound, keeps⟩ := elsewhere_keeps unfinished.1.sound elsewhere
    exact .sending waits (unfinished_kept unfinished sound keeps) order
  | acknowledged waits unfinished range order =>
    obtain ⟨sound, keeps⟩ := elsewhere_keeps unfinished.1.sound elsewhere
    exact .acknowledged waits (unfinished_kept unfinished sound keeps) range order
  | finishing waits completed range =>
    obtain ⟨sound, keeps⟩ := elsewhere_keeps completed.sound elsewhere
    exact .finishing waits (completed_kept completed sound keeps) range
  | finished waits completed =>
    obtain ⟨sound, keeps⟩ := elsewhere_keeps completed.sound elsewhere
    exact .finished waits (completed_kept completed sound keeps)
  | ended handler completed =>
    obtain ⟨sound, keeps⟩ := elsewhere_keeps completed.sound elsewhere
    exact .ended handler (completed_kept completed sound keeps)

def Onward (sendable : u.Sendable) (k n : Nat) (next : Conversation Page × Bool) : Prop :=
  ∃ left, Stage sendable k next.1 left ∧ left + next.2.toNat ≤ n

theorem serve_alone (p : Page) (m : Manager) (payload : Bytes) (sys : SysResults) :
    Dialogue.step (roles Page.receive) ⟨p, [payload], m, []⟩ (.serve sys) =
      (⟨p, [], (handleClientMessage sys payload m).1, (handleClientMessage sys payload m).2⟩,
        true) :=
  rfl

theorem deliver_first (p : Page) (m : Manager) (reply : Bytes) (replies : List Bytes) :
    Dialogue.step (roles Page.receive) ⟨p, [], m, reply :: replies⟩ .deliver =
      (⟨(p.receive reply).1, (p.receive reply).2, m, replies⟩, true) :=
  rfl

theorem stage_serve (stage : Stage sendable k s n) {sys : SysResults}
    (undisturbed : Undisturbed (u.announced sendable) s (.serve sys)) :
    Onward sendable k n (Dialogue.step (roles Page.receive) s (.serve sys)) := by
  obtain ⟨creates, stores⟩ := undisturbed
  cases stage with
  | @opening p m payload waits ready start =>
    obtain ⟨done, told⟩ := start_told ready start (creates payload rfl)
    obtain ⟨bitmap, replies, marks⟩ := told.reply
    rw [serve_alone, replies]
    exact ⟨_, .opened waits told.unfinished marks, Nat.le_refl _⟩
  | opened waits unfinished marks => exact ⟨_, .opened waits unfinished marks, Nat.le_refl _⟩
  | @asking p m done waits unfinished =>
    have told : Told (u.announced sendable)
        (handleClientMessage sys (MSG_FILE_QUERY :: writeU64BE u.request.file_id) m).1 done
        (handleClientMessage sys (MSG_FILE_QUERY :: writeU64BE u.request.file_id) m).2 :=
      query_told sys unfinished
    obtain ⟨bitmap, replies, marks⟩ := told.reply
    rw [serve_alone, replies]
    exact ⟨_, .told waits told.unfinished marks, Nat.le_refl _⟩
  | told waits unfinished marks => exact ⟨_, .told waits unfinished marks, Nat.le_refl _⟩
  | @sending p m done i later waits unfinished order =>
    have range := (todo_next order).1
    rw [serve_alone]
    rcases next_told unfinished order (stores _ (index_below range).2 rfl) with
      ⟨done', unfinished', rest, replies⟩ | ⟨rfl, completed, replies⟩
    · rw [replies]
      exact ⟨_, .acknowledged waits unfinished' range rest, Nat.le_refl _⟩
    · rw [replies]
      exact ⟨_, .finishing waits completed range, Nat.le_refl _⟩
  | acknowledged waits unfinished range order =>
    exact ⟨_, .acknowledged waits unfinished range order, Nat.le_refl _⟩
  | finishing waits completed range => exact ⟨_, .finishing waits completed range, Nat.le_refl _⟩
  | finished waits completed => exact ⟨_, .finished waits completed, Nat.le_refl _⟩
  | ended handler completed => exact ⟨_, .ended handler completed, Nat.le_refl _⟩

theorem stage_deliver (stage : Stage sendable k s n) :
    Onward sendable k n (Dialogue.step (roles Page.receive) s .deliver) := by
  have sends {p : Page} {m : Manager} {done : Finset Nat} {answer : Answer} {reply : Bytes}
      {later : List Nat} (waits : p.Waits k u answer)
      (unfinished : Unfinished (u.announced sendable) m done)
      (order : todo u.request.total_chunks.toNat done = later)
      (resumed : u.resume answer reply = u.sendChunk later) :
      Onward sendable k (2 * later.length + 2)
        (⟨(p.receive reply).1, (p.receive reply).2, m, []⟩, true) := by
    obtain ⟨i, rest, shape⟩ := unfinished_todo unfinished
    change todo u.request.total_chunks.toNat done = i :: rest at shape
    rw [order] at shape
    subst shape
    obtain ⟨sent, -, next⟩ := waits.receive reply
    rw [resumed, Upload.sendChunk_eq sendable (todo_next order).1] at sent next
    rw [sent]
    refine ⟨_, .sending (next _ rfl) unfinished order, ?_⟩
    simp only [List.length_cons, Bool.toNat_true]
    omega
  cases stage with
  | opening waits ready start => exact ⟨_, .opening waits ready start, Nat.le_refl _⟩
  | @opened p m done bitmap waits unfinished marks =>
    have resumed := (u.resume_response u.request.file_id marks.1).1
    obtain ⟨sent, -, next⟩ :=
      waits.receive (queryResponse u.request.file_id u.request.total_chunks bitmap)
    rw [deliver_first]
    change u.resume .start (queryResponse _ u.request.total_chunks bitmap) = _ at resumed
    rw [resumed] at sent next
    rw [sent, Upload.queryMessage_eq sendable]
    exact ⟨_, .asking (next _ rfl) unfinished, Nat.le_refl _⟩
  | asking waits unfinished => exact ⟨_, .asking waits unfinished, Nat.le_refl _⟩
  | @told p m done bitmap waits unfinished marks =>
    have resumed := (u.resume_response u.request.file_id marks.1).2
    rw [Upload.missing_eq sendable marks] at resumed
    obtain ⟨left, next, uses⟩ := sends waits unfinished rfl resumed
    refine ⟨left, next, uses.trans ?_⟩
    have few := todo_length u.request.total_chunks.toNat done
    omega
  | sending waits unfinished order => exact ⟨_, .sending waits unfinished order, Nat.le_refl _⟩
  | @acknowledged p m done i later waits unfinished range order =>
    exact sends waits unfinished order (Upload.resume_ack range later _ _)
  | @finishing p m i waits completed range =>
    have resumed := Upload.resume_ack range [] u.request.file_id 1
    obtain ⟨sent, -, next⟩ := waits.receive (chunkAck u.request.file_id (UInt32.ofNat i) 1)
    rw [deliver_first]
    rw [resumed] at sent next
    rw [sent]
    exact ⟨_, .finished (next _ rfl) completed, Nat.le_refl _⟩
  | @finished p m waits completed =>
    obtain ⟨sent, handler, -⟩ := waits.receive (finishAck u.request.file_id 1)
    rw [deliver_first]
    rw [Upload.resume_finish] at sent handler
    rw [sent]
    exact ⟨_, .ended handler completed, Nat.le_refl _⟩
  | ended handler completed => exact ⟨_, .ended handler completed, Nat.le_refl _⟩

theorem stage_step (stage : Stage sendable k s n) {input : Dialogue.Input SysResults Call}
    (undisturbed : Undisturbed (u.announced sendable) s input) :
    Onward sendable k n (Dialogue.step (roles Page.receive) s input) := by
  cases input with
  | serve sys => exact stage_serve stage undisturbed
  | deliver => exact stage_deliver stage
  | disturb call => exact ⟨n, stage_disturb stage undisturbed, Nat.le_refl _⟩

theorem stage_handler (stage : Stage sendable k s n) :
    (∃ answer, s.client.Waits k u answer) ∧ (s.requests ≠ [] ∨ s.replies ≠ []) ∨
      s.client.handlers[k]? = some (.ended none) ∧ Completed (u.announced sendable) s.server := by
  cases stage with
  | opening waits => exact .inl ⟨⟨_, waits⟩, .inl (List.cons_ne_nil _ _)⟩
  | opened waits => exact .inl ⟨⟨_, waits⟩, .inr (List.cons_ne_nil _ _)⟩
  | asking waits => exact .inl ⟨⟨_, waits⟩, .inl (List.cons_ne_nil _ _)⟩
  | told waits => exact .inl ⟨⟨_, waits⟩, .inr (List.cons_ne_nil _ _)⟩
  | sending waits => exact .inl ⟨⟨_, waits⟩, .inl (List.cons_ne_nil _ _)⟩
  | acknowledged waits => exact .inl ⟨⟨_, waits⟩, .inr (List.cons_ne_nil _ _)⟩
  | finishing waits => exact .inl ⟨⟨_, waits⟩, .inr (List.cons_ne_nil _ _)⟩
  | finished waits => exact .inl ⟨⟨_, waits⟩, .inr (List.cons_ne_nil _ _)⟩
  | ended handler completed => exact .inr ⟨handler, completed⟩

/-- The page has read the file and announced the upload; nothing has reached the server. -/
def announcing (p : Page) (k : Nat) (u : Upload) (m : Manager) : Conversation Page :=
  let loaded := p.step (.loaded k (some ⟨u.data, u.size⟩))
  ⟨loaded.1, loaded.2.sent, m, []⟩

theorem loaded_waits {p : Page}
    (reads : p.handlers[k]? = some (.reading u.name u.chunkSize u.chunkSize_ge))
    (connected : p.readyState = some .open) (exclusive : p.Exclusive) (empty : p.binQueue = [])
    (sendable : u.Sendable) :
    ∃ payload, (p.step (.loaded k (some ⟨u.data, u.size⟩))).2.sent = [MSG_FILE_START :: payload] ∧
      checkStart payload = .ok u.request ∧
      (p.step (.loaded k (some ⟨u.data, u.size⟩))).1.Waits k u .start := by
  obtain ⟨payload, built, checked⟩ := Upload.startMessage_eq sendable
  have free := exclusive.unawaited reads rfl rfl
  have inside := (List.getElem?_eq_some_iff.mp reads).1
  have run : p.step (.loaded k (some ⟨u.data, u.size⟩)) =
      (p.settle k (.awaits u .start), { sent := [MSG_FILE_START :: payload] }) := by
    obtain ⟨i, socket, _⟩ := Option.bind_eq_some_iff.mp connected
    simp only [Page.step, Page.loaded, reads, Page.announce, socket, reduceCtorEq, ↓reduceIte,
      built, connected, Page.transmit_open, empty, Page.proceed, Page.drain_nil]
    simp [Page.settle, empty, socket]
  rw [run]
  exact ⟨payload, rfl, checked, connected, Page.settle_self inside, rfl, empty⟩

theorem stage_ready (stage : Stage sendable k s n) : Ready (u.announced sendable) s.server := by
  cases stage with
  | opening waits ready => exact ready
  | opened waits unfinished => exact unfinished_ready unfinished
  | asking waits unfinished => exact unfinished_ready unfinished
  | told waits unfinished => exact unfinished_ready unfinished
  | sending waits unfinished => exact unfinished_ready unfinished
  | acknowledged waits unfinished => exact unfinished_ready unfinished
  | finishing waits completed => exact completed_ready completed
  | finished waits completed => exact completed_ready completed
  | ended handler completed => exact completed_ready completed

end

/-- An upload that the page announces, to a server that has no session for it or one of the same
    parameters with some chunks missing, comes to its end: as long as its system calls succeed and
    nobody else touches it, it waits with a message in flight or has ended well with the file
    stored, and it takes no more than five messages and two for each chunk. At every moment the
    server is ready for the same upload to be begun again. -/
theorem page_upload_completes {u : Upload} (sendable : u.Sendable) {p : Page} {k : Nat}
    {m : Manager} (reads : p.handlers[k]? = some (.reading u.name u.chunkSize u.chunkSize_ge))
    (connected : p.readyState = some .open) (exclusive : p.Exclusive) (empty : p.binQueue = [])
    (ready : Ready (u.announced sendable) m) :
    ∀ inputs : List (Dialogue.Input SysResults Call),
      (∀ t ∈ Run.steps (Dialogue.step (roles Page.receive)) (announcing p k u m) inputs,
        Undisturbed (u.announced sendable) t.before t.input) →
      let s := Run.final (Dialogue.step (roles Page.receive)) (announcing p k u m) inputs
      Dialogue.exchanged (roles Page.receive) (announcing p k u m) inputs ≤
          2 * (u.data.length ⌈/⌉ u.chunkSize) + 5 ∧
        Ready (u.announced sendable) s.server ∧
        ((∃ answer, s.client.Waits k u answer) ∧ (s.requests ≠ [] ∨ s.replies ≠ []) ∨
          s.client.handlers[k]? = some (.ended none) ∧
            Completed (u.announced sendable) s.server) := by
  intro inputs undisturbed s
  obtain ⟨payload, sent, checked, waits⟩ := loaded_waits reads connected exclusive empty sendable
  have begins : Stage sendable k (announcing p k u m) (2 * u.request.total_chunks.toNat + 5) := by
    simp only [announcing, sent]
    exact .opening waits ready checked
  obtain ⟨left, last, few⟩ := Dialogue.run_bounded (Stage sendable k)
    (Undisturbed (u.announced sendable))
    (fun s n i stage undisturbed => stage_step stage undisturbed) begins undisturbed
  rw [← Upload.chunks_word sendable]
  exact ⟨by omega, stage_ready last, stage_handler last⟩

def chosenPage : Page := Run.final Page.step {} [.connect, .opened 0, .click [97] 2 none]

def twoBytes : Upload := ⟨[97], 16384, [1, 2], by decide, by decide⟩

theorem twoBytes_sendable : twoBytes.Sendable := ⟨by decide, by decide, by decide⟩

def inTurn : List (Dialogue.Input SysResults Call) :=
  [.serve willing, .deliver, .serve willing, .deliver, .serve willing, .deliver, .deliver]

def playedThrough :=
  Run.final (Dialogue.step (roles Page.receive))
    (announcing chosenPage 0 twoBytes (start .empty)) inTurn

theorem twoBytes_completes :
    playedThrough.client.handlers[0]? = some (.ended none) ∧
      Completed (twoBytes.announced twoBytes_sendable) playedThrough.server := by
  have exclusive : chosenPage.Exclusive :=
    Page.step_exclusive (Page.step_exclusive (Page.step_exclusive Page.start_exclusive .connect
      (by simp)) (.opened 0) (by simp)) (.click [97] 2 none) (by simp)
  have reads : chosenPage.handlers[0]? =
      some (.reading twoBytes.name twoBytes.chunkSize twoBytes.chunkSize_ge) := by decide +kernel
  have ready : Ready (twoBytes.announced twoBytes_sendable) (start .empty) := by
    refine ⟨start_sound .empty, .inl ?_⟩
    intro ex found
    contradiction
  have creates : Creates willing (replaced (start .empty)
      (twoBytes.announced twoBytes_sendable).id).disk := by
    rw [replaced_start]
    exact ⟨⟨3, rfl, rfl⟩, rfl⟩
  have undisturbed := willing_undisturbed (f := Page.receive)
    (u := twoBytes.announced twoBytes_sendable)
    (s := announcing chosenPage 0 twoBytes (start .empty)) inTurn (by simp [inTurn])
    (Nat.le_refl 2) creates (by decide +kernel)
  have completes := (page_upload_completes twoBytes_sendable reads (by decide) exclusive
    (by decide) ready inTurn undisturbed).2.2
  rcases completes with ⟨-, flight⟩ | ended
  · have silent : playedThrough.requests = [] ∧ playedThrough.replies = [] := by decide +kernel
    exact (flight.elim (fun some => some silent.1) fun some => some silent.2).elim
  · unfold playedThrough
    exact ended

end WebPage
