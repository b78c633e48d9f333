import WebsocketServer.Client.Upload
import WebsocketServer.Client.WebPage
import WebsocketServer.File.Representation

/- Resuming an upload. The bitmap of a session is compared with the chunks that were accepted
   since the session was created, and with what both clients make of it. -/
namespace FileTransferManager

abbrev History := List (Run.Taken Manager Call (List Bytes))

/-- A FILE_CHUNK for this chunk was accepted, and no session of this id was created later. -/
def AcceptedSince (history : History) (id : UInt64) (i : UInt32) : Prop :=
  ∃ earlier t later, history = earlier ++ t :: later ∧ StoresChunk t.before id i t.input ∧
    ∀ s ∈ later, ¬ StartsAnew s.before id s.input

theorem acceptedSince_step {history : History} {t : Run.Taken Manager Call (List Bytes)}
    {id : UInt64} {i : UInt32} :
    AcceptedSince (history ++ [t]) id i ↔
      StoresChunk t.before id i t.input ∨
        (AcceptedSince history id i ∧ ¬ StartsAnew t.before id t.input) := by
  constructor
  · rintro ⟨earlier, s, later, shape, stores, quiet⟩
    rcases List.eq_nil_or_concat later with rfl | ⟨later, last, rfl⟩
    · have same := List.append_inj_right' shape rfl
      obtain rfl := List.singleton_injective same
      exact .inl stores
    · rw [List.concat_eq_append, ← List.cons_append, ← List.append_assoc] at shape
      obtain ⟨before, same⟩ := List.append_inj' shape rfl
      obtain rfl := List.singleton_injective same
      simp only [List.concat_eq_append, List.mem_append, List.mem_singleton] at quiet
      exact .inr ⟨⟨earlier, s, later, before, stores, fun x mem => quiet x (.inl mem)⟩,
        quiet t (.inr rfl)⟩
  · rintro (stores | ⟨⟨earlier, s, later, rfl, stores, quiet⟩, same⟩)
    · exact ⟨history, t, [], rfl, stores, by simp⟩
    · refine ⟨earlier, s, later ++ [t], by simp, stores, ?_⟩
      intro x mem
      rcases List.mem_append.mp mem with before | last
      · exact quiet x before
      · rw [List.mem_singleton.mp last]
        exact same

/-- A bitmap remembers exactly the chunks accepted since its session was created. -/
def Remembered (history : History) (m : Manager) : Prop :=
  ∀ id st, m.g_states.lookup id = some st →
    ∀ i, bitmapGet st.bitmap i = true ↔ AcceptedSince history id i

theorem perform_remembered {history : History} {m : Manager} (sound : Sound m)
    (remembered : Remembered history m) (call : Call) :
    Remembered (history ++ [⟨m, call, (perform m call).1, (perform m call).2⟩])
      (perform m call).1 := by
  intro id st found i
  rw [acceptedSince_step]
  cases perform_session sound found with
  | @stays st now_seconds here same settled =>
    have before := remembered id st here i
    constructor
    · exact fun bit => .inr ⟨before.mp bit, same⟩
    · rintro (stores | ⟨accepted, _⟩)
      · exact settled i stores
      · exact before.mpr accepted
  | created now_seconds starts =>
    have clear : ∀ n, bitmapGet (List.replicate n 0) i = false := fun n => by
      rw [bitmapGet_eq, bitAt_fresh]
    simp only [newSession, clear, Bool.false_eq_true, false_iff]
    rintro (stores | ⟨_, same⟩)
    · exact startsAnew_stores starts stores
    · exact same starts
  | marked now_seconds here same range unmarked stored =>
    have before := remembered id _ here i
    have inside := bitmap_inside (sound id _ here) range
    simp only [markReceived, bitmapGet_set inside, Bool.or_eq_true, decide_eq_true_eq, before,
      stored, same, not_false_iff, and_true]
    rw [eq_comm]

theorem run_remembered (disk : FileSystem Bytes) (calls : List Call) :
    Remembered (Run.steps perform (start disk) calls)
      (Run.final perform (start disk) calls) := by
  have begins : Sound (start disk) ∧ Remembered [] (start disk) := by
    refine ⟨start_sound disk, ?_⟩
    intro id st found
    simp only [start, AList.lookup_empty] at found
    contradiction
  have both := Run.invariant_history (fun past m => Sound m ∧ Remembered past m)
    (fun past m call holds =>
      ⟨perform_sound call holds.1, perform_remembered holds.1 holds.2 call⟩) calls begins
  exact both.2

/-- A FILE_QUERY for this session, or a FILE_START that repeats its parameters. -/
def AsksAgain (id : UInt64) (st : FileState) (payload : Bytes) : Prop :=
  (∃ q, payload = MSG_FILE_QUERY :: q ∧ 8 ≤ q.length ∧ readU64BE q = id) ∨
    ∃ p r, payload = MSG_FILE_START :: p ∧ checkStart p = .ok r ∧ r.file_id = id ∧
      r.resumes st = true

section
variable {m : Manager} {id : UInt64} {st : FileState}

theorem resumes_total {r : StartRequest} (resumes : r.resumes st = true) :
    r.total_chunks = st.total_chunks := by
  simp only [StartRequest.resumes, Bool.and_eq_true, beq_iff_eq] at resumes
  exact resumes.1.2.symm

theorem asked_reply {payload : Bytes} (found : m.g_states.lookup id = some st)
    (asks : AsksAgain id st payload) (sys : SysResults) :
    handleClientMessage sys payload m =
      (touch m id st sys.now_seconds, [queryResponse id st.total_chunks st.bitmap]) := by
  rcases asks with ⟨q, rfl, long, rfl⟩ | ⟨p, r, rfl, checked, rfl, resumes⟩
  · have checked : checkQuery m q = .ok ⟨readU64BE q, st⟩ := by
      unfold checkQuery
      rw [if_neg (by omega)]
      simp only [found]
    simp only [handleClientMessage, handleFileQuery, checked]
    rfl
  · simp only [handleClientMessage, ↓reduceIte, handleFileStart, checked, found, resumes,
      resumes_total resumes]

theorem queryResponse_fields (id : UInt64) (total_chunks : UInt32) (bitmap : Bytes) :
    (queryResponse id total_chunks bitmap).drop 9 =
        writeU32BE total_chunks ++ (writeU32BE (UInt32.ofNat bitmap.length) ++ bitmap) ∧
      (queryResponse id total_chunks bitmap).drop 13 =
        writeU32BE (UInt32.ofNat bitmap.length) ++ bitmap ∧
      (queryResponse id total_chunks bitmap).drop 17 = bitmap := by
  have at9 : (queryResponse id total_chunks bitmap).drop 9 =
      writeU32BE total_chunks ++ (writeU32BE (UInt32.ofNat bitmap.length) ++ bitmap) := by
    simp only [queryResponse, List.cons_append, List.append_assoc, List.drop_succ_cons]
    exact List.drop_left' (length_writeU64BE id)
  have at13 := congrArg (List.drop 4) at9
  rw [List.drop_drop, List.drop_left' (length_writeU32BE _)] at at13
  have at17 := congrArg (List.drop 4) at13
  rw [List.drop_drop, List.drop_left' (length_writeU32BE _)] at at17
  exact ⟨at9, at13, at17⟩

theorem length_queryResponse (id : UInt64) (total_chunks : UInt32) (bitmap : Bytes) :
    (queryResponse id total_chunks bitmap).length = 17 + bitmap.length := by
  simp only [queryResponse, List.length_append, List.length_cons, length_writeU64BE,
    length_writeU32BE]

theorem response_decoded (id : UInt64) {total_chunks : UInt32} {bitmap : Bytes}
    (size : bitmap.length = (total_chunks.toNat + 7) / 8) :
    MainClient.parseQueryResponse (queryResponse id total_chunks bitmap) =
        some (total_chunks, bitmap) ∧
      WebPage.parseQueryResponse (queryResponse id total_chunks bitmap) =
        some (total_chunks.toNat, bitmap) := by
  obtain ⟨at9, at13, at17⟩ := queryResponse_fields id total_chunks bitmap
  have length := length_queryResponse id total_chunks bitmap
  have word := total_chunks.toNat_lt
  have bitmapLen : (UInt32.ofNat bitmap.length).toNat = bitmap.length := by
    rw [UInt32.toNat_ofNat']
    exact Nat.mod_eq_of_lt (by omega)
  have need : (1 + 8 + 4 + 4 + UInt32.ofNat bitmap.length).toNat = 17 + bitmap.length := by
    rw [UInt32.toNat_add, bitmapLen]
    exact Nat.mod_eq_of_lt (by simp; omega)
  have first : (queryResponse id total_chunks bitmap).head? = some MSG_FILE_QUERY_RESPONSE := rfl
  generalize queryResponse id total_chunks bitmap = reply at at9 at13 at17 length first ⊢
  constructor
  · cases reply with
    | nil => contradiction
    | cons msgType q =>
      obtain rfl := Option.some.inj first
      simp only [List.drop_succ_cons] at at9 at13
      simp only [MainClient.parseQueryResponse, ne_eq, not_true_eq_false, ↓reduceIte, at9, at13,
        at17, readU32BE_writeU32BE, need, bitmapLen, length]
      rw [if_neg (by omega), if_neg (by omega), List.take_length]
  · simp only [WebPage.parseQueryResponse, first, ne_eq, not_true_eq_false, ↓reduceIte, length,
      Nat.reduceAdd, at9, at13, readU32BE_writeU32BE, bitmapLen]
    rw [if_neg (by omega), if_neg (by omega), List.take_of_length_le (by omega), at17]

theorem index_below {total_chunks : UInt32} {i : Nat} (below : i < total_chunks.toNat) :
    (UInt32.ofNat i).toNat = i ∧ UInt32.ofNat i < total_chunks := by
  have word := total_chunks.toNat_lt
  have index : (UInt32.ofNat i).toNat = i := by
    rw [UInt32.toNat_ofNat', Nat.mod_eq_of_lt (by omega)]
  refine ⟨index, ?_⟩
  rw [UInt32.lt_iff_toNat_lt, index]
  exact below

theorem clients_missing {bitmap : Bytes} {i : UInt32} (inside : i.toNat / 8 < bitmap.length) :
    MainClient.bitmapMissing bitmap i = !bitmapGet bitmap i ∧
      WebPage.bitmapMissing bitmap i.toNat = !bitmapGet bitmap i := by
  have byte_index : (i / 8).toNat = i.toNat / 8 := rfl
  constructor
  · unfold MainClient.bitmapMissing bitmapGet
    simp only [byte_index, ge_iff_le]
    rw [if_neg (by omega)]
  · have word := i.toNat_lt
    have whole : WebPage.toInt32 (i.toNat / 8) = (i.toNat / 8 : Nat) := by
      unfold WebPage.toInt32
      apply Int.bmod_eq_of_le <;> omega
    have byte : WebPage.element bitmap (i.toNat / 8 : Nat) = bitmap.getD (i.toNat / 8) 0 := by
      unfold WebPage.element
      rw [if_neg (by omega), Int.toNat_natCast]
    unfold WebPage.bitmapMissing
    simp only [whole, byte, ge_iff_le]
    rw [if_neg (by omega), bitmapGet_eq, bitAt, Nat.testBit, Nat.and_comm, bne, Bool.not_not]

end

/-- In every state that calls can reach, asking again for a live session is answered by a bitmap
    in which either client finds a chunk missing exactly when it was not accepted since the
    session was created, and the received chunks and the disk stay as they are. -/
theorem resume_exact (disk : FileSystem Bytes) (calls : List Call) (id : UInt64) (st : FileState)
    (found : (Run.final perform (start disk) calls).g_states.lookup id = some st)
    (payload : Bytes) (asks : AsksAgain id st payload) (sys : SysResults) :
    (∃ reply bitmap,
      (handleClientMessage sys payload (Run.final perform (start disk) calls)).2 = [reply] ∧
      MainClient.parseQueryResponse reply = some (st.total_chunks, bitmap) ∧
      WebPage.parseQueryResponse reply = some (st.total_chunks.toNat, bitmap) ∧
      ∀ i, i < st.total_chunks →
        (MainClient.bitmapMissing bitmap i = true ↔
          ¬ AcceptedSince (Run.steps perform (start disk) calls) id i) ∧
        (WebPage.bitmapMissing bitmap i.toNat = true ↔
          ¬ AcceptedSince (Run.steps perform (start disk) calls) id i)) ∧
    (handleClientMessage sys payload (Run.final perform (start disk) calls)).1.disk =
      (Run.final perform (start disk) calls).disk ∧
    ∃ st', (handleClientMessage sys payload
        (Run.final perform (start disk) calls)).1.g_states.lookup id = some st' ∧
      st'.bitmap = st.bitmap ∧ st'.received_count = st.received_count := by
  have remembered := run_remembered disk calls id st found
  have session := reachable_sound ⟨start disk, calls, ⟨disk, rfl⟩, rfl⟩ id st found
  obtain ⟨cli, web⟩ := response_decoded id session.bitmap
  rw [asked_reply found asks sys]
  refine ⟨⟨_, st.bitmap, rfl, cli, web, ?_⟩, rfl, _, AList.lookup_insert _, rfl, rfl⟩
  intro i range
  obtain ⟨first, second⟩ := clients_missing (bitmap_inside session range)
  rw [first, second, ← remembered i, Bool.not_eq_true', Bool.not_eq_true]
  exact ⟨Iff.rfl, Iff.rfl⟩

def halfUpload : List Call :=
  [.message willing (MSG_FILE_START :: threeBytesStart), .message willing (threeBytes.message 1)]

theorem halfUpload_resumes :
    ∃ st, (Run.final perform (start .empty) halfUpload).g_states.lookup 7 = some st ∧
      ∃ reply bitmap,
        (handleClientMessage willing (MSG_FILE_QUERY :: writeU64BE 7)
          (Run.final perform (start .empty) halfUpload)).2 = [reply] ∧
        MainClient.parseQueryResponse reply = some (st.total_chunks, bitmap) ∧
        ∀ i, i < st.total_chunks → (MainClient.bitmapMissing bitmap i = true ↔
          ¬ AcceptedSince (Run.steps perform (start .empty) halfUpload) 7 i) := by
  have live : ((Run.final perform (start .empty) halfUpload).g_states.lookup 7).isSome = true := by
    decide +kernel
  obtain ⟨st, found⟩ := Option.isSome_iff_exists.mp live
  have asks : AsksAgain 7 st (MSG_FILE_QUERY :: writeU64BE 7) :=
    .inl ⟨writeU64BE 7, rfl, by decide, readU64BE_writeU64BE 7 []⟩
  obtain ⟨⟨reply, bitmap, answered, cli, _, missing⟩, _⟩ :=
    resume_exact .empty halfUpload 7 st found _ asks willing
  exact ⟨st, found, reply, bitmap, answered, cli, fun i range => (missing i range).1⟩

end FileTransferManager
