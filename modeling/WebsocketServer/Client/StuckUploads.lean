import WebsocketServer.Client.Resume
import WebsocketServer.File.LastChunk

/- Sessions that have every chunk and are still in the table. The whole-file CRC is computed
   after the last chunk was recorded, and an exception from there leaves the session behind. -/
namespace FileTransferManager
open FileSystem

/-- The chunk that nothing but it was missing is written, and the file cannot be read back. -/
def StrandsLast (m : Manager) : Call → Prop
  | .message sys payload => ∃ p r, payload = MSG_FILE_CHUNK :: p ∧ checkChunk m p = .ok r ∧
      r.chunkData.length ≤ writableBytes sys r ∧ missing r.st ⊆ {r.chunk_index.toNat} ∧
      Unreadable sys m r
  | .cleanup .. => False

def AllMissing (m : Manager) : Prop :=
  ∀ id st, m.g_states.lookup id = some st → missing st ≠ ∅

section
variable {m : Manager} {call : Call}

theorem strands_stuck (sound : Sound m) (strands : StrandsLast m call) :
    ¬ AllMissing (perform m call).1 := by
  intro all
  cases call with
  | message sys payload =>
    obtain ⟨p, r, rfl, checked, whole, last, unreadable⟩ := strands
    have accepted := checkChunk_ok checked
    have outcome := stored_outcome sound accepted whole
    rw [← chunk_run sys checked] at outcome
    rcases outcome with ⟨_, left⟩ | ⟨_, readable, _⟩
    · apply all _ _ left
      rw [missing_recorded (sound _ _ accepted.session) accepted.range,
        Finset.erase_eq_empty_iff]
      exact Finset.subset_singleton_iff.mp last
    · exact readable unreadable
  | cleanup => exact strands

/- A session gets its last chunk and stays: the file could not be read. -/
theorem marked_strands {sys : SysResults} {payload : Bytes} {r : ChunkRequest}
    {now_seconds : UInt64} {id : UInt64} (sound : Sound m)
    (here : m.g_states.lookup id = some r.st)
    (stores : StoresChunk m id r.chunk_index (.message sys payload))
    (found : (handleClientMessage sys payload m).1.g_states.lookup id =
      some (markReceived r.st r.chunk_index now_seconds))
    (full : missing (markReceived r.st r.chunk_index now_seconds) = ∅) :
    StrandsLast m (.message sys payload) := by
  obtain ⟨p, r', rfl, checked, rfl, index, written⟩ := stores
  have accepted := checkChunk_ok checked
  have whole := (accepted_whole sys sound accepted).mp written
  have outcome := stored_outcome sound accepted whole
  rw [← chunk_run sys checked] at outcome
  rcases outcome with ⟨reason, left⟩ | ⟨_, _, none, _⟩
  · have same := left.symm.trans found
    have left_over := missing_recorded (sound _ _ accepted.session) accepted.range sys
    rw [Option.some.inj same, full] at left_over
    have last : missing r'.st ⊆ {r'.chunk_index.toNat} :=
      Finset.subset_singleton_iff.mpr (Finset.erase_eq_empty_iff _ _ |>.mp left_over.symm)
    exact ⟨p, r', rfl, checked, whole, last, reason.resolve_left (not_not.mpr last)⟩
  · rw [none] at found
    contradiction

theorem perform_missing (sound : Sound m) (all : AllMissing m) (avoids : ¬ StrandsLast m call) :
    AllMissing (perform m call).1 := by
  intro id st found
  have session := perform_sound call sound id st found
  cases perform_session sound found with
  | @stays st now_seconds here same settled =>
    have before := all id st here
    exact before
  | @created r fd now_seconds starts own =>
    intro none
    have full := (missing_empty session).mp none
    exact session.total_chunks full.symm
  | @marked r now_seconds here same range unmarked stored =>
    intro none
    cases call with
    | message sys payload =>
      exact avoids (marked_strands sound here ((stored _).mpr rfl) found none)
    | cleanup => exact ((stored r.chunk_index).mpr rfl).elim

/-- A chunk that a client which asks again still has to send; storing it ends the upload or
    brings it nearer to its end. -/
structure Resumable (m : Manager) (id : UInt64) (st : FileState) (i : UInt32) : Prop where
  range : i < st.total_chunks
  cli : MainClient.bitmapMissing st.bitmap i = true
  web : WebPage.bitmapMissing st.bitmap i.toNat = true
  leads : ∀ sys p r, checkChunk m p = .ok r → r.file_id = id → r.chunk_index = i →
    r.chunkData.length ≤ writableBytes sys r → ¬ Unreadable sys m r →
    let stored := handleClientMessage sys (MSG_FILE_CHUNK :: p) m
    (∃ reply ∈ stored.2, IsFinishAck id reply) ∨
      ∃ st', stored.1.g_states.lookup id = some st' ∧ missing st' ≠ ∅ ∧ missing st' ⊂ missing st

theorem missing_resumable (sound : Sound m) {id : UInt64} {st : FileState}
    (found : m.g_states.lookup id = some st) {i : Nat} (mem : i ∈ missing st) :
    Resumable m id st (UInt32.ofNat i) := by
  obtain ⟨small, unmarked⟩ := mem_missing.mp mem
  have session := sound id st found
  obtain ⟨index, range⟩ := index_below small
  obtain ⟨cli, web⟩ := clients_missing (bitmap_inside session range)
  refine ⟨range, by rw [cli, unmarked]; rfl, by rw [web, unmarked]; rfl, ?_⟩
  intro sys p r checked own same whole readable stored
  have accepted := checkChunk_ok checked
  subst own
  obtain rfl : r.st = st := Option.some.inj (accepted.session.symm.trans found)
  have outcome := stored_outcome sound accepted whole
  rw [← chunk_run sys checked] at outcome
  rcases outcome with ⟨reason, left⟩ | ⟨_, _, _, ok, finish⟩
  · right
    have fewer := missing_recorded session accepted.range sys
    refine ⟨_, left, ?_, ?_⟩
    · rw [fewer, Ne, Finset.erase_eq_empty_iff, ← Finset.subset_singleton_iff]
      exact reason.resolve_right readable
    · rw [fewer, same, index]
      exact Finset.erase_ssubset mem
  · exact .inl ⟨_, finish, ok, rfl⟩

end

theorem resumable_missing {disk : FileSystem Bytes} {m : Manager} {id : UInt64} {st : FileState}
    {i : UInt32} (session : Session disk id st) (resumable : Resumable m id st i) :
    i.toNat ∈ missing st := by
  have cli := resumable.cli
  rw [(clients_missing (bitmap_inside session resumable.range)).1, Bool.not_eq_true'] at cli
  exact mem_missing.mpr ⟨resumable.range, by rw [UInt32.ofNat_toNat, cli]⟩

/-- No session of a run is ever stuck exactly when no call stores the last chunk of a file that
    cannot be read back. -/
theorem never_stuck_exact (disk : FileSystem Bytes) (calls : List Call) :
    (∀ t ∈ Run.steps perform (start disk) calls, ∀ id st,
      t.after.g_states.lookup id = some st → ∃ i, Resumable t.after id st i) ↔
    ∀ t ∈ Run.steps perform (start disk) calls, ¬ StrandsLast t.before t.input := by
  have free : ∀ t ∈ Run.steps perform (start disk) calls, True := fun _ _ => trivial
  have sound := (Run.invariant_steps Sound (fun _ _ => True)
    (fun m call sound _ => perform_sound call sound) (start_sound disk) free).1
  constructor
  · intro resumable t mem strands
    obtain ⟨after, _⟩ := Run.steps_taken perform mem
    apply strands_stuck (sound t mem) strands
    have later := perform_sound t.input (sound t mem)
    rw [← after] at later ⊢
    intro id st found none
    obtain ⟨i, still⟩ := resumable t mem id st found
    have left := resumable_missing (later id st found) still
    rw [none] at left
    exact Finset.notMem_empty _ left
  · intro avoids t mem id st found
    have both := (Run.invariant_steps (fun m => Sound m ∧ AllMissing m)
      (fun m call => ¬ StrandsLast m call)
      (fun m call holds avoid =>
        ⟨perform_sound call holds.1, perform_missing holds.1 holds.2 avoid⟩)
      ⟨start_sound disk, start_empty disk⟩ avoids).1 t mem
    obtain ⟨after, _⟩ := Run.steps_taken perform mem
    have later := perform_missing both.1 both.2 (avoids t mem)
    rw [← after] at later
    obtain ⟨i, left⟩ := Finset.nonempty_iff_ne_empty.mpr (later id st found)
    have sound' : Sound t.after := after ▸ perform_sound t.input both.1
    exact ⟨UInt32.ofNat i, missing_resumable sound' found left⟩

/-- One byte in one chunk; lseek fails when it has arrived. -/
def strandedCalls : List Call :=
  [.message willing (startPayload 7 1 1 1 (CRC32.checksum [1]) []),
    .message { willing with lseekOk := false } (chunkPayload 7 0 [1])]

theorem session_stuck :
    ¬ ∀ (disk : FileSystem Bytes) (calls : List Call),
      ∀ t ∈ Run.steps perform (start disk) calls, ∀ id st,
        t.after.g_states.lookup id = some st → ∃ i, Resumable t.after id st i := by
  intro claimed
  have resumable := claimed .empty strandedCalls
  simp only [strandedCalls, Run.steps, List.forall_mem_cons] at resumable
  have last := resumable.2.1 7
  have sound : Sound (Run.final perform (start .empty) strandedCalls) :=
    reachable_sound ⟨start .empty, strandedCalls, ⟨.empty, rfl⟩, rfl⟩
  have counts : ((Run.final perform (start .empty) strandedCalls).g_states.lookup 7).map
      (fun st => (st.received_count, st.total_chunks)) = some (1, 1) := by decide +kernel
  cases found : (Run.final perform (start .empty) strandedCalls).g_states.lookup 7 with
  | none =>
    rw [found] at counts
    contradiction
  | some st =>
    rw [found] at counts
    simp only [Option.map_some, Option.some.injEq, Prod.mk.injEq] at counts
    obtain ⟨i, still⟩ := last st found
    have left := resumable_missing (sound 7 st found) still
    rw [(missing_empty (sound 7 st found)).mpr (counts.1.trans counts.2.symm)] at left
    exact Finset.notMem_empty _ left

end FileTransferManager
