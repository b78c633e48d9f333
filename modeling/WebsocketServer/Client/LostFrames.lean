import WebsocketServer.Client.WaitLoops
import WebsocketServer.Client.PayloadSizes

/- Which bytes and frames of the server reach the client's loops. A read that runs over the head
   of the response, or over the frame that ends a loop, loses what is behind it. -/
namespace MainClient
open FileTransferManager WebSocketCodec Upgrade StreamParser

section
variable {body : WsFrame → Exit}

theorem waitLoop_continues {frames : List WsFrame} (all : ∀ f ∈ frames, body f = .continues) :
    waitLoop body frames = (frames, .continues) := by
  induction frames with
  | nil => rfl
  | cons f frames ih =>
    have first := all f List.mem_cons_self
    have rest := ih fun g mem => all g (List.mem_cons_of_mem f mem)
    simp only [waitLoop, first, rest]

theorem waitLoop_ends {front back : List WsFrame} {f : WsFrame}
    (all : ∀ g ∈ front, body g = .continues) (ends : body f ≠ .continues) :
    waitLoop body (front ++ f :: back) = (front ++ [f], body f) := by
  induction front with
  | nil =>
    rw [List.nil_append]
    unfold waitLoop
    split
    · rename_i continues
      exact absurd continues ends
    · rfl
  | cons g front ih =>
    have first := all g List.mem_cons_self
    have rest := ih fun h mem => all h (List.mem_cons_of_mem g mem)
    simp only [List.cons_append, waitLoop, first, rest]

theorem first_ending (body : WsFrame → Exit) (frames : List WsFrame) :
    (∀ f ∈ frames, body f = .continues) ∨
    ∃ front f back, frames = front ++ f :: back ∧ (∀ g ∈ front, body g = .continues) ∧
      body f ≠ .continues := by
  induction frames with
  | nil => exact .inl (by simp)
  | cons f frames ih =>
    by_cases first : body f = .continues
    · rcases ih with all | ⟨front, g, back, rfl, all, ends⟩
      · exact .inl (List.forall_mem_cons.mpr ⟨first, all⟩)
      · exact .inr ⟨f :: front, g, back, rfl, List.forall_mem_cons.mpr ⟨first, all⟩, ends⟩
    · exact .inr ⟨[], f, frames, rfl, by simp, first⟩

theorem first_ending_unique {front front' back back' : List WsFrame} {f f' : WsFrame}
    (same : front ++ f :: back = front' ++ f' :: back')
    (all : ∀ g ∈ front, body g = .continues) (ends : body f ≠ .continues)
    (all' : ∀ g ∈ front', body g = .continues) (ends' : body f' ≠ .continues) :
    front = front' ∧ f = f' := by
  induction front generalizing front' with
  | nil =>
    cases front' with
    | nil => exact ⟨rfl, (List.cons.inj same).1⟩
    | cons g front' =>
      obtain ⟨rfl, _⟩ := List.cons.inj same
      exact absurd (all' f List.mem_cons_self) ends
  | cons g front ih =>
    cases front' with
    | nil =>
      obtain ⟨rfl, _⟩ := List.cons.inj same
      exact absurd (all g List.mem_cons_self) ends'
    | cons g' front' =>
      obtain ⟨rfl, rest⟩ := List.cons.inj same
      obtain ⟨rfl, last⟩ := ih rest (fun h mem => all h (List.mem_cons_of_mem g mem))
        (fun h mem => all' h (List.mem_cons_of_mem g mem))
      exact ⟨rfl, last⟩

def EndsLast (body : WsFrame → Exit) (frames : List WsFrame) : Prop :=
  ∀ front f back, frames = front ++ f :: back → body f ≠ .continues → back = []

/- A loop looks at the whole batch exactly when nothing is behind the frame that ends it. -/
theorem waitLoop_whole (frames : List WsFrame) :
    (waitLoop body frames).1 = frames ↔ EndsLast body frames := by
  rcases first_ending body frames with all | ⟨front, f, back, rfl, all, ends⟩
  · rw [waitLoop_continues all]
    simp only [true_iff]
    rintro front f back rfl leaves
    exact absurd (all f (by simp)) leaves
  · rw [waitLoop_ends all ends]
    constructor
    · intro whole
      have none : back = [] := by
        have same := congrArg List.length whole
        simp only [List.length_append, List.length_cons, List.length_nil] at same
        exact List.length_eq_zero_iff.mp (by omega)
      subst none
      intro front' g back' shape leaves
      rcases List.eq_nil_or_concat back' with rfl | ⟨rest, last, rfl⟩
      · rfl
      · rw [List.concat_eq_append, ← List.cons_append, ← List.append_assoc] at shape
        have inside := (List.append_inj' shape rfl).1
        exact absurd (all g (inside ▸ by simp)) leaves
    · intro spare
      rw [spare front f back rfl ends]

end

inductive StepMove (ssl : OpenSsl) (wsKey : Bytes) (u : Upload) (c : Client) :
    SslRead → Client × Reading → Prop where
  | idle (r : SslRead) (quiet : ∀ resp buf, c.phase = .upgrade resp → r ≠ .bytes buf) :
      StepMove ssl wsKey u c r (c, {})
  | refused {resp : Bytes} (waiting : c.phase = .upgrade resp) (what : String) :
      StepMove ssl wsKey u c .failed ({ c with phase := .thrown what }, {})
  | gathers {resp buf : Bytes} (waiting : c.phase = .upgrade resp)
      (open' : headEnd (resp ++ buf) = none) :
      StepMove ssl wsKey u c (.bytes buf)
        ({ c with phase := .upgrade (resp ++ buf) }, { read := buf })
  | heads {resp buf : Bytes} (waiting : c.phase = .upgrade resp)
      (closed : headEnd (resp ++ buf) ≠ none) :
      StepMove ssl wsKey u c (.bytes buf)
        ({ c with phase := checkUpgrade ssl wsKey (resp ++ buf) }, { read := buf })
  | breaks {buf : Bytes} (awaits : c.phase.awaitsFrames = true) (what : String)
      (p : WebSocketStreamParser) :
      StepMove ssl wsKey u c (.bytes buf) (⟨.thrown what, p⟩, { read := buf, fed := buf })
  | batch {buf : Bytes} (awaits : c.phase.awaitsFrames = true) (frames : List WsFrame)
      (p : WebSocketStreamParser) :
      StepMove ssl wsKey u c (.bytes buf)
        (⟨u.afterLoop c.phase (waitLoop c.phase.body frames).1 (waitLoop c.phase.body frames).2, p⟩,
          { read := buf, fed := buf, returned := frames
            examined := (waitLoop c.phase.body frames).1 })

section
variable (ssl : OpenSsl) (env : Environment) (wsKey : Bytes) (u : Upload)

theorem step_move (c : Client) (r : SslRead) :
    StepMove ssl wsKey u c r (step ssl env wsKey u c r) := by
  unfold step
  split
  · rename_i resp buf waiting
    by_cases closed : headEnd (resp ++ buf) = none
    · simp only [closed, ↓reduceIte]
      exact .gathers waiting closed
    · simp only [closed, ↓reduceIte]
      exact .heads waiting closed
  · rename_i resp waiting
    exact .refused waiting _
  · rename_i phase buf other
    split
    · rename_i awaits
      dsimp only
      split
      · exact .breaks awaits _ _
      · exact .batch awaits _ _
    · exact .idle _ fun resp buf' waiting => absurd waiting (other resp)
  · rename_i no_bytes _ _
    exact .idle _ fun resp buf _ => no_bytes buf

variable {ssl env wsKey u}

theorem sendChunk_phase (chunks : List UInt32) (resp : Bytes) :
    u.sendChunk chunks ≠ .upgrade resp := by
  unfold Upload.sendChunk
  split
  · simp
  · split <;> simp

theorem afterLoop_phase {phase : Phase} (awaits : phase.awaitsFrames = true)
    (examined : List WsFrame) (exit : Exit) (resp : Bytes) :
    u.afterLoop phase examined exit ≠ .upgrade resp := by
  cases phase <;> try contradiction
  all_goals
    cases exit <;> simp only [Upload.afterLoop, ne_eq, reduceCtorEq, not_false_eq_true]
  · split
    · split <;> simp
    · simp
  · split
    · simp
    · exact sendChunk_phase _ resp
  · exact sendChunk_phase _ resp

theorem checkUpgrade_phase (buf resp : Bytes) : checkUpgrade ssl wsKey buf ≠ .upgrade resp := by
  unfold checkUpgrade
  dsimp only
  split
  · simp
  · split <;> simp

end

abbrev Readings := List (Run.Taken Client SslRead Reading)

def readBytes (history : Readings) : Bytes := history.flatMap fun t => t.output.read
def fedBytes (history : Readings) : Bytes := history.flatMap fun t => t.output.fed

section
variable (ssl : OpenSsl) (env : Environment) (wsKey : Bytes) (u : Upload)

/-- The read that completes a head the client accepts; resp is all that was read by then. -/
def Completes (t : Run.Taken Client SslRead Reading) (resp : Bytes) : Prop :=
  ∃ before buf, t.before.phase = .upgrade before ∧ t.input = .bytes buf ∧ resp = before ++ buf ∧
    headEnd resp ≠ none ∧ checkUpgrade ssl wsKey resp = .text

/-- Bytes are read into the head, and behind it they are read and fed alike. -/
structure Accounted (past : Readings) (c : Client) : Prop where
  gathering : ∀ resp, c.phase = .upgrade resp → readBytes past = resp ∧ fedBytes past = [] ∧
    headEnd resp = none ∧ ∀ t ∈ past, ∀ whole, ¬ Completes ssl wsKey t whole
  upgraded : ∀ t ∈ past, ∀ resp, Completes ssl wsKey t resp →
    readBytes past = resp ++ fedBytes past

variable {ssl env wsKey u}

theorem Accounted.later {past : Readings} {c : Client} {t : Run.Taken Client SslRead Reading}
    (accounted : Accounted ssl wsKey past c) (other : ∀ resp, ¬ Completes ssl wsKey t resp)
    (same : t.output.read = t.output.fed) :
    ∀ t' ∈ past ++ [t], ∀ resp, Completes ssl wsKey t' resp →
      readBytes (past ++ [t]) = resp ++ fedBytes (past ++ [t]) := by
  intro t' mem resp completes
  rcases List.mem_append.mp mem with before | here
  · have split := accounted.upgraded t' before resp completes
    simp only [readBytes, fedBytes, List.flatMap_append, List.flatMap_singleton, same] at split ⊢
    rw [split, List.append_assoc]
  · rw [List.mem_singleton.mp here] at completes
    exact absurd completes (other resp)

/- A step that does not complete a head and leaves the upgrade behind, reading what it feeds. -/
theorem Accounted.onward {past : Readings} {c : Client}
    {t : Run.Taken Client SslRead Reading} (accounted : Accounted ssl wsKey past c)
    (other : ∀ resp, ¬ Completes ssl wsKey t resp) (same : t.output.read = t.output.fed)
    (left : ∀ resp, t.after.phase ≠ .upgrade resp) :
    Accounted ssl wsKey (past ++ [t]) t.after where
  gathering := fun resp waiting => absurd waiting (left resp)
  upgraded := accounted.later other same

theorem Accounted.waits {past : Readings} {c : Client} {t : Run.Taken Client SslRead Reading}
    {before : Bytes} (accounted : Accounted ssl wsKey past c) (waiting : c.phase = .upgrade before)
    (other : ∀ resp, ¬ Completes ssl wsKey t resp) (unfed : t.output.fed = [])
    (after : t.after.phase = .upgrade (before ++ t.output.read))
    (open' : headEnd (before ++ t.output.read) = none) :
    Accounted ssl wsKey (past ++ [t]) t.after := by
  obtain ⟨read, fed, _, none⟩ := accounted.gathering before waiting
  have quiet : ∀ t' ∈ past ++ [t], ∀ resp, ¬ Completes ssl wsKey t' resp := by
    intro t' mem
    rcases List.mem_append.mp mem with before | here
    · exact none t' before
    · rw [List.mem_singleton.mp here]
      exact other
  constructor
  · intro resp now
    rw [after] at now
    obtain rfl := Phase.upgrade.inj now
    refine ⟨?_, ?_, open', quiet⟩
    · simp only [readBytes] at read
      simp only [readBytes, List.flatMap_append, List.flatMap_singleton, read]
    · simp only [fedBytes] at fed
      simp only [fedBytes, List.flatMap_append, List.flatMap_singleton, fed, unfed, List.append_nil]
  · exact fun t' mem resp completes => absurd completes (quiet t' mem resp)

theorem step_accounted (past : Readings) (c : Client) (r : SslRead)
    (accounted : Accounted ssl wsKey past c) :
    Accounted ssl wsKey (past ++ [⟨c, r, (step ssl env wsKey u c r).1,
      (step ssl env wsKey u c r).2⟩]) (step ssl env wsKey u c r).1 := by
  have move := step_move ssl env wsKey u c r
  generalize step ssl env wsKey u c r = next at move ⊢
  cases move with
  | idle _ quiet =>
    have other (resp : Bytes) : ¬ Completes ssl wsKey ⟨c, r, c, {}⟩ resp := by
      rintro ⟨before, buf, waiting, same, _⟩
      exact quiet before buf waiting same
    cases now : c.phase with
    | upgrade resp =>
      apply accounted.waits now other (by rfl)
      · exact now.trans (by rw [List.append_nil])
      · rw [List.append_nil]
        exact (accounted.gathering resp now).2.2.1
    | _ =>
      apply accounted.onward other (by rfl)
      simp [now]
  | refused waiting what =>
    apply accounted.onward
    · rintro resp ⟨_, _, _, same, _⟩
      contradiction
    · rfl
    · simp
  | @gathers resp buf waiting open' =>
    refine accounted.waits waiting ?_ rfl rfl open'
    rintro whole ⟨before, buf', waiting', same, rfl, closed, _⟩
    rw [waiting] at waiting'
    obtain rfl := Phase.upgrade.inj waiting'
    obtain rfl := SslRead.bytes.inj same
    exact closed open'
  | @heads resp buf waiting closed =>
    obtain ⟨read, fed, _, none⟩ := accounted.gathering resp waiting
    constructor
    · intro resp' waiting'
      exact absurd waiting' (checkUpgrade_phase _ resp')
    · intro t mem whole completes
      rcases List.mem_append.mp mem with before | here
      · exact absurd completes (none t before whole)
      · rw [List.mem_singleton.mp here] at completes
        obtain ⟨before, buf', waiting', same, rfl, _⟩ := completes
        rw [waiting] at waiting'
        obtain rfl := Phase.upgrade.inj waiting'
        obtain rfl := SslRead.bytes.inj same
        simp only [readBytes] at read
        simp only [fedBytes] at fed
        simp only [readBytes, fedBytes, List.flatMap_append, List.flatMap_singleton, read, fed,
          List.append_nil]
  | breaks awaits what p =>
    apply accounted.onward
    · rintro resp ⟨before, _, waiting, _⟩
      rw [waiting] at awaits
      contradiction
    · rfl
    · simp
  | batch awaits frames p =>
    apply accounted.onward
    · rintro resp ⟨before, _, waiting, _⟩
      rw [waiting] at awaits
      contradiction
    · rfl
    · exact afterLoop_phase awaits _ _

theorem run_accounted (ssl : OpenSsl) (env : Environment) (wsKey : Bytes) (u : Upload)
    (reads : List SslRead) :
    Accounted ssl wsKey (Run.steps (step ssl env wsKey u) connected reads)
      (Run.final (step ssl env wsKey u) connected reads) := by
  have begins : Accounted ssl wsKey [] connected := by
    constructor
    · intro resp waiting
      obtain rfl := Phase.upgrade.inj waiting
      exact ⟨rfl, rfl, rfl, by simp⟩
    · simp
  exact Run.invariant_history _ step_accounted reads begins

theorem ended_silent {c : Client} (ended : ∀ r, step ssl env wsKey u c r = (c, {}))
    (reads : List SslRead) :
    (Run.steps (step ssl env wsKey u) c reads).flatMap (fun t => t.output.returned) = [] ∧
      Run.final (step ssl env wsKey u) c reads = c := by
  induction reads with
  | nil => exact ⟨rfl, rfl⟩
  | cons r reads ih =>
    simp only [Run.steps, Run.final, List.flatMap_cons, List.foldl_cons, ended r] at ih ⊢
    exact ih

theorem thrown_ended (what : String) (p : WebSocketStreamParser) (r : SslRead) :
    step ssl env wsKey u ⟨.thrown what, p⟩ r = (⟨.thrown what, p⟩, {}) := by
  cases r <;> rfl

theorem gotFinish_ended (p : WebSocketStreamParser) (r : SslRead) :
    step ssl env wsKey u ⟨.gotFinish, p⟩ r = (⟨.gotFinish, p⟩, {}) := by
  cases r <;> rfl

theorem finish_found {c : Client} {reads : List SslRead} {front back : List WsFrame} {f : WsFrame}
    (waiting : c.phase = .finish)
    (comes : (Run.steps (step ssl env wsKey u) c reads).flatMap (fun t => t.output.returned) =
      front ++ f :: back)
    (all : ∀ g ∈ front, finishFrame g = .continues) (ends : finishFrame f = .breaks) :
    (Run.final (step ssl env wsKey u) c reads).phase = .gotFinish := by
  have leaves : finishFrame f ≠ .continues := by simp [ends]
  induction reads generalizing c front with
  | nil => simp [Run.steps] at comes
  | cons r reads ih =>
    have move := step_move ssl env wsKey u c r
    simp only [Run.steps, Run.final, List.flatMap_cons, List.foldl_cons] at comes ⊢
    generalize step ssl env wsKey u c r = next at move comes ⊢
    cases move with
    | idle => exact ih waiting comes all
    | refused waiting' | gathers waiting' | heads waiting' =>
      rw [waiting] at waiting'
      contradiction
    | breaks awaits what p =>
      dsimp only at comes
      rw [(ended_silent (thrown_ended what p) reads).1] at comes
      simp at comes
    | batch awaits frames p =>
      simp only [waiting, Phase.body] at comes ⊢
      rcases first_ending finishFrame frames with inside | ⟨before, g, after, rfl, inside, last⟩
      · simp only [waitLoop_continues inside, Upload.afterLoop] at comes ⊢
        rcases List.append_eq_append_iff.mp comes with ⟨rest, rfl, shape⟩ | ⟨rest, rfl, shape⟩
        · exact ih rfl shape fun g mem => all g (List.mem_append_right _ mem)
        · cases rest with
          | nil => exact ih rfl (show _ = [] ++ f :: back from shape.symm) (by simp)
          | cons g rest =>
            obtain ⟨rfl, _⟩ := List.cons.inj shape
            exact absurd (inside f (by simp)) leaves
      · rw [List.append_assoc, List.cons_append] at comes
        obtain ⟨rfl, rfl⟩ := first_ending_unique comes inside last all leaves
        simp only [waitLoop_ends inside last, ends, Upload.afterLoop]
        exact congrArg Client.phase (ended_silent (gotFinish_ended p) reads).2

/-- Behind the frame that ends a loop, FILE_FINISH_ACK comes before any FILE_ERROR. -/
def FinishFollows (t : Run.Taken Client SslRead Reading) (later : Readings) : Prop :=
  ∃ front f back, t.output.returned.drop t.output.examined.length ++
      later.flatMap (fun t => t.output.returned) = front ++ f :: back ∧
    (∀ g ∈ front, finishFrame g = .continues) ∧ finishFrame f = .breaks

variable (ssl wsKey)

/-- Nothing the server sent behind its head is lost: all of it is fed, every frame that feed
    returns is looked at, and a FILE_FINISH_ACK behind the last acknowledgement is found. -/
structure Lossless (history : Readings) (last : Client) : Prop where
  bytes : ∀ t ∈ history, ∀ resp, Completes ssl wsKey t resp → ∀ n,
    headEnd (readBytes history) = some n → fedBytes history = (readBytes history).drop n
  frames : ∀ t ∈ history, t.output.examined = t.output.returned
  finish : ∀ earlier t later, history = earlier ++ t :: later →
    (∃ chunkIndex, t.before.phase = .ack chunkIndex []) → t.after.phase = .finish →
    FinishFollows t later → last.phase = .gotFinish

/-- No read goes on behind the head, and none brings a frame behind the one that ends a loop. -/
structure CutsSpare (history : Readings) : Prop where
  head : ∀ t ∈ history, ∀ resp, Completes ssl wsKey t resp → headEnd resp = some resp.length
  loops : ∀ t ∈ history, EndsLast t.before.phase.body t.output.returned

variable {ssl wsKey}

theorem step_frames (c : Client) (r : SslRead) :
    (step ssl env wsKey u c r).2.examined = (step ssl env wsKey u c r).2.returned ↔
      EndsLast c.phase.body (step ssl env wsKey u c r).2.returned := by
  have move := step_move ssl env wsKey u c r
  generalize step ssl env wsKey u c r = next at move ⊢
  have empty : EndsLast c.phase.body [] := by
    intro front f back shape
    simp at shape
  cases move with
  | batch awaits frames p => exact waitLoop_whole frames
  | idle | refused | gathers | heads | breaks => exact iff_of_true rfl empty

/-- Over every file, every response and every way to cut the server's bytes: the client loses
    nothing exactly when no read runs over the head or over the frame that ends a loop. -/
theorem lossless_exact (ssl : OpenSsl) (env : Environment) (wsKey : Bytes) (u : Upload)
    (reads : List SslRead) :
    Lossless ssl wsKey (Run.steps (step ssl env wsKey u) connected reads)
        (Run.final (step ssl env wsKey u) connected reads) ↔
      CutsSpare ssl wsKey (Run.steps (step ssl env wsKey u) connected reads) := by
  have accounted := run_accounted ssl env wsKey u reads
  have taken {t : Run.Taken Client SslRead Reading}
      (mem : t ∈ Run.steps (step ssl env wsKey u) connected reads) :
      t.output.examined = t.output.returned ↔ EndsLast t.before.phase.body t.output.returned := by
    rw [(Run.steps_taken _ mem).2]
    exact step_frames t.before t.input
  constructor
  · intro lossless
    constructor
    · intro t mem resp completes
      have read := accounted.upgraded t mem resp completes
      have closed : headEnd resp ≠ none := by
        obtain ⟨_, _, _, _, _, closed, _⟩ := completes
        exact closed
      obtain ⟨n, found⟩ := Option.ne_none_iff_exists'.mp closed
      have bound := headEnd_bounds found
      have whole := headEnd_grow (fedBytes (Run.steps (step ssl env wsKey u) connected reads)) found
      rw [← read] at whole
      have fed := lossless.bytes t mem resp completes n whole
      rw [read, List.drop_append_of_le_length bound.2] at fed
      have rest := congrArg List.length fed
      simp only [List.length_append, List.length_drop] at rest
      rw [found, Option.some.injEq]
      omega
    · exact fun t mem => (taken mem).mp (lossless.frames t mem)
  · intro spare
    refine ⟨?_, fun t mem => (taken mem).mpr (spare.loops t mem), ?_⟩
    · intro t mem resp completes n found
      have read := accounted.upgraded t mem resp completes
      have ends := headEnd_grow (fedBytes (Run.steps (step ssl env wsKey u) connected reads))
        (spare.head t mem resp completes)
      rw [← read, found, Option.some.injEq] at ends
      rw [ends, read, List.drop_left]
    · rintro earlier t later split _ left ⟨front, f, back, comes, all, ends⟩
      have mem : t ∈ Run.steps (step ssl env wsKey u) connected reads := by
        rw [split]
        simp
      rw [(taken mem).mpr (spare.loops t mem), List.drop_length, List.nil_append] at comes
      obtain ⟨rest, rfl, last⟩ := Run.steps_behind _ split
      rw [last]
      exact finish_found left comes all ends

end

def oneByteFile : Upload where
  filePath := CString.bytes "f"
  content := [1]
  off_t_size := by decide
  divisible := defaultChunk_nonzero

/-- The acknowledgement of the only chunk and FILE_FINISH_ACK come out of one SSL_read. -/
def finishTogether : List SslRead :=
  [.bytes (acceptResponse (computeAccept someSsl (CString.bytes "key"))),
    .bytes (buildTextFrame (CString.bytes "hello")),
    .bytes (buildBinaryFrame (queryResponse oneByteFile.fileId 1 [0])),
    .bytes (buildBinaryFrame (chunkAck oneByteFile.fileId 0 1) ++
      buildBinaryFrame (finishAck oneByteFile.fileId 1))]

theorem finish_lost :
    ¬ ∀ (ssl : OpenSsl) (env : Environment) (wsKey : Bytes) (u : Upload) (reads : List SslRead),
      Lossless ssl wsKey (Run.steps (step ssl env wsKey u) connected reads)
        (Run.final (step ssl env wsKey u) connected reads) := by
  intro claimed
  have lossless := claimed someSsl ⟨none, none⟩ (CString.bytes "key") oneByteFile finishTogether
  have lost : ∃ t ∈ Run.steps (step someSsl ⟨none, none⟩ (CString.bytes "key") oneByteFile)
      connected finishTogether, t.output.examined ≠ t.output.returned := by
    decide +kernel
  obtain ⟨t, mem, differs⟩ := lost
  exact differs (lossless.frames t mem)

/- The client goes on waiting for a frame that it has already dropped. -/
example : (Run.final (step someSsl ⟨none, none⟩ (CString.bytes "key") oneByteFile) connected
    finishTogether).phase = .finish := by decide +kernel

end MainClient
