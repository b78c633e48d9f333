import WebsocketServer.File.FinishAck
import WebsocketServer.File.Representation

/- Where an accepted chunk is written. The checks compare a chunk with the chunk size of its
   session, never with the declared file size. -/
namespace FileTransferManager

/-- ftruncate took the declared size as an off_t. -/
def AllSmall (m : Manager) : Prop :=
  ∀ id st, m.g_states.lookup id = some st → st.file_size.toNat < 2 ^ 63

theorem startsAnew_created {sys : SysResults} {m : Manager} {payload : Bytes} {id : UInt64}
    (starts : StartsAnew m id (.message sys payload)) :
    ∃ r, r.file_id = id ∧
      handleClientMessage sys payload m = createSession sys r (replaced m id) := by
  have all := handled sys payload m
  generalize handleClientMessage sys payload m = outcome at all
  cases all with
  | refused rejected => exact absurd starts (rejected_starts rejected)
  | @resumed p r ex checked here resumes =>
    obtain ⟨p', r', same, checked', rfl, fresh⟩ := starts
    obtain rfl := (List.cons.inj same).2
    rw [checked] at checked'
    obtain rfl := Except.ok.inj checked'
    rw [fresh ex here] at resumes
    contradiction
  | @created p r checked fresh =>
    obtain rfl : id = r.file_id := (startsAnew_own starts).trans (checkStart_ok checked).2.1.symm
    exact ⟨r, rfl, rfl⟩
  | queried checked => exact absurd starts (startsAnew_type (by decide))
  | stored checked => exact absurd starts (startsAnew_type (by decide))

theorem created_small {sys : SysResults} {m : Manager} {payload : Bytes} {id : UInt64}
    {st : FileState} (starts : StartsAnew m id (.message sys payload))
    (found : (handleClientMessage sys payload m).1.g_states.lookup id = some st) :
    st.file_size.toNat < 2 ^ 63 := by
  obtain ⟨r, rfl, run⟩ := startsAnew_created starts
  have absent := replaced_absent m r.file_id
  rw [run] at found
  rcases createSession_cases sys r (replaced m r.file_id) with
    ⟨_, result⟩ | ⟨fd, _, _, ⟨_, result⟩ | ⟨nonneg, result⟩⟩ <;> rw [result] at found
  · rw [absent] at found
    contradiction
  · simp only [absent] at found
    contradiction
  · simp only [AList.lookup_insert, Option.some.injEq] at found
    rw [← found]
    exact off_t_nonneg nonneg

theorem perform_small {m : Manager} (call : Call) (sound : Sound m) (small : AllSmall m) :
    AllSmall (perform m call).1 := by
  intro id st found
  cases perform_session sound found with
  | @stays st now_seconds here same settled =>
    have before := small id st here
    exact before
  | created now_seconds starts own =>
    cases call with
    | message sys payload => exact created_small starts found
    | cleanup => exact starts.elim
  | @marked r now_seconds here same range unmarked stored =>
    have before := small id r.st here
    exact before

theorem reachable_small {m : Manager} (reachable : Reachable m) : AllSmall m :=
  reachable_keeps (fun disk => start_empty disk)
    (fun _ call sound small => perform_small call sound small) reachable

/-- The product of two 32-bit numbers is an off_t exactly below 2^63. -/
theorem chunkOffset_exact (i c : UInt32) :
    (chunkOffset i c).toInt = (i.toNat * c.toNat : Nat) ↔ i.toNat * c.toNat < 2 ^ 63 := by
  constructor
  · intro same
    have bound := Int64.toInt_lt (chunkOffset i c)
    rw [same] at bound
    exact_mod_cast bound
  · exact chunkOffset_toInt

/-- The write that follows the checks: its offset, as computed, is the product, and the chunk
    ends within the declared file. -/
structure WriteInside (r : ChunkRequest) : Prop where
  exact : (chunkOffset r.chunk_index r.st.chunk_size).toInt =
    (r.chunk_index.toNat * r.st.chunk_size.toNat : Nat)
  ends : (chunkOffset r.chunk_index r.st.chunk_size).toInt + r.chunkData.length ≤
    r.st.file_size.toNat

/-- The declared size has room for a whole chunk at every index but the last, and for the data
    that comes as the last one. -/
def HasRoom (r : ChunkRequest) : Prop :=
  if r.chunk_index.toNat + 1 < r.st.total_chunks.toNat then
    (r.chunk_index.toNat + 1) * r.st.chunk_size.toNat ≤ r.st.file_size.toNat
  else
    (r.st.total_chunks.toNat - 1) * r.st.chunk_size.toNat + r.chunkData.length ≤
      r.st.file_size.toNat

theorem hasRoom_iff {m : Manager} {p : Bytes} {r : ChunkRequest} (accepted : Accepted m p r) :
    HasRoom r ↔ InDeclared r := by
  have range : r.chunk_index.toNat < r.st.total_chunks.toNat := accepted.range
  have word := r.st.total_chunks.toNat_lt
  have next : (r.chunk_index + 1).toNat = r.chunk_index.toNat + 1 := by
    rw [UInt32.toNat_add]
    exact Nat.mod_eq_of_lt (by change _ + 1 < _; omega)
  unfold HasRoom InDeclared
  split
  · rename_i inner
    have differs : r.chunk_index + 1 ≠ r.st.total_chunks := by
      intro same
      rw [← same, next] at inner
      exact Nat.lt_irrefl _ inner
    rw [accepted.size differs, Nat.succ_mul]
  · rename_i outer
    have last : r.st.total_chunks.toNat - 1 = r.chunk_index.toNat := by omega
    rw [last]

/-- An accepted chunk is written inside the declared file, at the offset it names, exactly when
    the declared size has room for it. -/
theorem chunk_inside_exact {m : Manager} (reachable : Reachable m) {p : Bytes} {r : ChunkRequest}
    (checked : checkChunk m p = .ok r) : WriteInside r ↔ HasRoom r := by
  have accepted := checkChunk_ok checked
  have small := reachable_small reachable _ _ accepted.session
  rw [hasRoom_iff accepted]
  unfold InDeclared
  constructor
  · intro ⟨exact, ends⟩
    rw [exact] at ends
    exact_mod_cast ends
  · intro inside
    have exact := (chunkOffset_exact r.chunk_index r.st.chunk_size).mpr (by omega)
    refine ⟨exact, ?_⟩
    rw [exact]
    exact_mod_cast inside

def longChunk : Bytes := (chunkPayload 7 0 [1, 2]).tail

theorem long_chunk_outside :
    ¬ ∀ m, Reachable m → ∀ p r, checkChunk m p = .ok r → WriteInside r := by
  intro claimed
  have fields : (checkChunk oneByteSession longChunk).toOption.map
      (fun r => (r.chunkData.length, r.st.file_size.toNat)) = some (2, 1) := by decide +kernel
  cases checked : checkChunk oneByteSession longChunk with
  | error replies =>
    rw [checked] at fields
    contradiction
  | ok r =>
    obtain ⟨exact, ends⟩ := claimed _ oneByteSession_reachable longChunk r checked
    simp only [checked, Except.toOption, Option.map_some, Option.some.injEq,
      Prod.mk.injEq] at fields
    rw [exact, fields.1, fields.2] at ends
    omega

theorem one_byte_inside :
    ∃ r, checkChunk oneByteSession (chunkPayload 7 0 [1]).tail = .ok r ∧ WriteInside r := by
  have room : (checkChunk oneByteSession (chunkPayload 7 0 [1]).tail).toOption.map
      (fun r => (r.chunk_index, r.chunkData.length, r.st.total_chunks, r.st.file_size)) =
        some (0, 1, 1, 1) := by decide +kernel
  cases checked : checkChunk oneByteSession (chunkPayload 7 0 [1]).tail with
  | error replies =>
    rw [checked] at room
    contradiction
  | ok r =>
    simp only [checked, Except.toOption, Option.map_some, Option.some.injEq,
      Prod.mk.injEq] at room
    obtain ⟨index, length, total, size⟩ := room
    refine ⟨r, rfl, (chunk_inside_exact oneByteSession_reachable checked).mpr ?_⟩
    simp [HasRoom, index, length, total, size]

end FileTransferManager
