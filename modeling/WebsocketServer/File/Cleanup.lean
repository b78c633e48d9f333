import WebsocketServer.File.Closes

/- Whom a cleanup removes: the expired sessions, then as many of the oldest as are over the
   limit. -/
namespace FileTransferManager
open FileSystem

/-- Idle for longer than the limit; a time stamp in the future is not idle at all. -/
def Expired (now_seconds ttl_seconds : UInt64) (st : FileState) : Prop :=
  ttl_seconds.toNat < now_seconds.toNat - st.last_update_ts.toNat

instance (now_seconds ttl_seconds : UInt64) (st : FileState) :
    Decidable (Expired now_seconds ttl_seconds st) :=
  inferInstanceAs (Decidable (_ < _))

def CleanupCall.unlinks (path : Bytes) : CleanupCall → Bool
  | .close _ => false
  | .unlink other _ => other = path

structure CleanedUp (unlinkOk : UInt64 → Bool) (now_seconds ttl_seconds : UInt64)
    (max_sessions : Nat) (calls : List CleanupCall) (m m' : Manager) : Prop where
  fresh : ∀ id st, m'.g_states.lookup id = some st → ¬ Expired now_seconds ttl_seconds st
  number : m'.g_states.entries.length =
    min max_sessions (m.g_states.entries.countP fun kv => ¬ Expired now_seconds ttl_seconds kv.2)
  oldest : ∀ id st, m.g_states.lookup id = some st → ¬ Expired now_seconds ttl_seconds st →
    m'.g_states.lookup id = none → ∀ other st', m'.g_states.lookup other = some st' →
      st.last_update_ts ≤ st'.last_update_ts
  kept : ∀ id st, m'.g_states.lookup id = some st →
    m.g_states.lookup id = some st ∧ Spares id m.disk m'.disk
  ended : ∀ id st, m.g_states.lookup id = some st → m'.g_states.lookup id = none →
    ∃ fd, st.fd = some fd ∧ calls.count (.close fd) = 1 ∧
      calls.countP (·.unlinks st.temp_path) = 1 ∧ .unlink st.temp_path (unlinkOk id) ∈ calls
  effect : m'.disk = calls.foldl CleanupCall.apply m.disk

theorem expired_test (now_seconds ttl_seconds : UInt64) (st : FileState) :
    (now_seconds > st.last_update_ts && now_seconds - st.last_update_ts > ttl_seconds) =
      decide (Expired now_seconds ttl_seconds st) := by
  rw [Bool.eq_iff_iff, Bool.and_eq_true, decide_eq_true_eq, decide_eq_true_eq, decide_eq_true_eq,
    Expired, gt_iff_lt, gt_iff_lt, UInt64.lt_iff_toNat_lt, UInt64.lt_iff_toNat_lt]
  constructor
  · rintro ⟨later, idle⟩
    rwa [UInt64.toNat_sub_of_le _ _ (UInt64.le_iff_toNat_le.mpr later.le)] at idle
  · intro idle
    have later : st.last_update_ts.toNat < now_seconds.toNat := by omega
    refine ⟨later, ?_⟩
    rwa [UInt64.toNat_sub_of_le _ _ (UInt64.le_iff_toNat_le.mpr later.le)]

theorem cleanup_replay (order : OldestFirst) (unlinkOk : UInt64 → Bool)
    (now_seconds ttl_seconds : UInt64) (max_sessions : Nat) (m : Manager) :
    (cleanupSessions order unlinkOk now_seconds ttl_seconds max_sessions m).disk =
      (cleanupCalls order unlinkOk now_seconds ttl_seconds max_sessions m).foldl
        CleanupCall.apply m.disk := by
  rw [cleanupSessions, cleanupCalls, cleanup_removes]
  exact removals_replay unlinkOk m _

theorem kerase_filter {β : Type} {l : List (Sigma fun _ : UInt64 => β)} (distinct : l.NodupKeys)
    (id : UInt64) : l.kerase id = l.filter fun kv => kv.1 ≠ id := by
  induction l with
  | nil => rfl
  | cons kv l ih =>
    have later := List.nodupKeys_of_nodupKeys_cons distinct
    by_cases same : id = kv.1
    · have absent := List.notMem_keys_of_nodupKeys_cons distinct
      have kept : l.filter (fun kv => kv.1 ≠ id) = l := by
        rw [List.filter_eq_self]
        intro other member
        have apart : other.1 ≠ id := by
          rintro rfl
          exact absent (same ▸ List.mem_keys_of_mem member)
        simpa using apart
      rw [List.kerase_cons_eq same, List.filter_cons_of_neg (by simp [same]), kept]
    · rw [List.kerase_cons_ne same, List.filter_cons_of_pos (by simpa using Ne.symm same), ih later]

theorem removed_entries (unlinkOk : UInt64 → Bool) (ids : List UInt64) (m : Manager) :
    (ids.foldl (removeSession unlinkOk) m).g_states.entries =
      m.g_states.entries.filter fun kv => kv.1 ∉ ids := by
  induction ids generalizing m with
  | nil => simp
  | cons id ids ih =>
    have one : (removeSession unlinkOk m id).g_states.entries =
        m.g_states.entries.filter fun kv => kv.1 ≠ id := by
      rw [← kerase_filter m.g_states.nodupKeys]
      cases found : m.g_states.lookup id with
      | none =>
        have absent : id ∉ m.g_states.keys := AList.lookup_eq_none.mp found
        rw [removeSession_none unlinkOk found, List.kerase_of_notMem_keys absent]
      | some st =>
        rw [removeSession_some unlinkOk found]
        rfl
    rw [List.foldl_cons, ih, one, List.filter_filter]
    simp [Bool.and_comm]

theorem front_older {α : Type} {ts : α → UInt64} {sorted : List α} (k : Nat)
    (ordered : sorted.Pairwise fun a b => ts a ≤ ts b) :
    ∀ a ∈ sorted.take k, ∀ b ∈ sorted.drop k, ts a ≤ ts b := by
  rw [← List.take_append_drop k sorted, List.pairwise_append] at ordered
  exact ordered.2.2

theorem filter_behind {front back : List (UInt64 × UInt64)}
    (distinct : ((front ++ back).map (·.1)).Nodup) :
    (front ++ back).filter (fun p => p.1 ∉ front.map (·.1)) = back := by
  have gone : front.filter (fun p => p.1 ∉ front.map (·.1)) = [] := by
    rw [List.filter_eq_nil_iff]
    intro p member
    have listed : p.1 ∈ front.map (·.1) := List.mem_map_of_mem member
    simp [listed]
  have kept : back.filter (fun p => p.1 ∉ front.map (·.1)) = back := by
    rw [List.filter_eq_self]
    intro p member
    rw [List.map_append, List.nodup_append] at distinct
    rw [decide_eq_true_eq]
    intro taken
    exact distinct.2.2 p.1 taken p.1 (List.mem_map_of_mem member) rfl
  rw [List.filter_append, gone, kept, List.nil_append]

theorem count_once {ids : List UInt64} {f : UInt64 → List CleanupCall} {p : CleanupCall → Bool}
    {id : UInt64} (distinct : ids.Nodup) (listed : id ∈ ids) (own : (f id).countP p = 1)
    (others : ∀ other, other ≠ id → (f other).countP p = 0) : (ids.flatMap f).countP p = 1 := by
  obtain ⟨before, after, rfl⟩ := List.append_of_mem listed
  have unlisted : id ∉ before ∧ id ∉ after := by
    rw [List.nodup_middle, List.nodup_cons, List.mem_append, not_or] at distinct
    exact distinct.1
  have silent (some_ids : List UInt64) (absent : id ∉ some_ids) :
      (some_ids.flatMap f).countP p = 0 := by
    rw [List.countP_eq_zero]
    intro call member
    obtain ⟨other, inside, made⟩ := List.mem_flatMap.mp member
    have apart : other ≠ id := by
      rintro rfl
      exact absent inside
    exact List.countP_eq_zero.mp (others other apart) call made
  rw [List.flatMap_append, List.flatMap_cons, List.countP_append, List.countP_append, own,
    silent before unlisted.1, silent after unlisted.2]

section
variable {m : Manager} (order : OldestFirst) (unlinkOk : UInt64 → Bool)
  (now_seconds ttl_seconds : UInt64) (max_sessions : Nat)

theorem mem_expiredIds {id : UInt64} : id ∈ expiredIds now_seconds ttl_seconds m ↔
    ∃ st, m.g_states.lookup id = some st ∧ Expired now_seconds ttl_seconds st := by
  simp only [expiredIds, expired_test, List.mem_map, List.mem_filter, decide_eq_true_eq]
  constructor
  · rintro ⟨⟨_, st⟩, ⟨member, expired⟩, rfl⟩
    exact ⟨st, AList.mem_lookup_iff.mpr member, expired⟩
  · rintro ⟨st, found, expired⟩
    exact ⟨⟨id, st⟩, ⟨AList.mem_lookup_iff.mp found, expired⟩, rfl⟩

/-- The table behind the first pass. -/
def unexpired (m : Manager) : Manager :=
  (expiredIds now_seconds ttl_seconds m).foldl (removeSession unlinkOk) m

theorem unexpired_entries :
    (unexpired unlinkOk now_seconds ttl_seconds m).g_states.entries =
      m.g_states.entries.filter fun kv => ¬ Expired now_seconds ttl_seconds kv.2 := by
  rw [unexpired, removed_entries]
  refine List.filter_congr ?_
  intro kv member
  have found : m.g_states.lookup kv.1 = some kv.2 := AList.mem_lookup_iff.mpr member
  rw [decide_eq_decide, mem_expiredIds]
  constructor
  · exact fun none expired => none ⟨kv.2, found, expired⟩
  · rintro fresh ⟨st, here, expired⟩
    rw [found] at here
    exact fresh (Option.some.inj here ▸ expired)

def stamp (kv : Sigma fun _ : UInt64 => FileState) : UInt64 × UInt64 := (kv.1, kv.2.last_update_ts)

def sortable (m : Manager) : List (UInt64 × UInt64) := order.sort (m.g_states.entries.map stamp)

theorem sortable_distinct : ((sortable order m).map (·.1)).Nodup := by
  refine ((order.permutes (m.g_states.entries.map stamp)).map (·.1)).nodup_iff.mpr ?_
  rw [List.map_map]
  exact m.g_states.nodupKeys

theorem evictedIds_front : evictedIds order max_sessions m =
    ((sortable order m).take (m.g_states.entries.length - max_sessions)).map (·.1) := by
  unfold evictedIds
  dsimp only
  split
  · rename_i small
    have nothing : m.g_states.entries.length - max_sessions = 0 := by omega
    rw [nothing, List.take_zero, List.map_nil]
  · rfl

theorem evicted_rest :
    ((m.g_states.entries.filter fun kv => kv.1 ∉ evictedIds order max_sessions m).map stamp).Perm
      ((sortable order m).drop (m.g_states.entries.length - max_sessions)) := by
  have distinct := sortable_distinct (m := m) order
  have rest : (sortable order m).filter (fun p => p.1 ∉ evictedIds order max_sessions m) =
      (sortable order m).drop (m.g_states.entries.length - max_sessions) := by
    rw [evictedIds_front]
    generalize m.g_states.entries.length - max_sessions = k
    rw [← List.take_append_drop k (sortable order m)] at distinct
    have behind := filter_behind distinct
    rwa [List.take_append_drop] at behind
  rw [← rest]
  have pairs :
      (m.g_states.entries.filter fun kv => kv.1 ∉ evictedIds order max_sessions m).map stamp =
      (m.g_states.entries.map stamp).filter fun p => p.1 ∉ evictedIds order max_sessions m := by
    rw [List.filter_map]
    rfl
  rw [pairs]
  exact ((order.permutes _).filter _).symm

theorem removed_all : (removedIds order unlinkOk now_seconds ttl_seconds max_sessions m) =
    expiredIds now_seconds ttl_seconds m ++
      evictedIds order max_sessions (unexpired unlinkOk now_seconds ttl_seconds m) := rfl

theorem cleaned_entries :
    (cleanupSessions order unlinkOk now_seconds ttl_seconds max_sessions m).g_states.entries =
      (unexpired unlinkOk now_seconds ttl_seconds m).g_states.entries.filter fun kv =>
        kv.1 ∉ evictedIds order max_sessions (unexpired unlinkOk now_seconds ttl_seconds m) := by
  rw [cleanupSessions_removes, removed_all, List.foldl_append, removed_entries]
  rfl

theorem evicted_listed {id : UInt64} (listed : id ∈ evictedIds order max_sessions m) :
    id ∈ m.g_states.keys := by
  rw [evictedIds_front] at listed
  obtain ⟨p, front, rfl⟩ := List.mem_map.mp listed
  have member := (order.permutes _).mem_iff.mp (List.mem_of_mem_take front)
  obtain ⟨kv, inside, rfl⟩ := List.mem_map.mp member
  exact List.mem_keys_of_mem inside

theorem removedIds_distinct :
    (removedIds order unlinkOk now_seconds ttl_seconds max_sessions m).Nodup := by
  rw [removed_all, List.nodup_append]
  refine ⟨?_, ?_, ?_⟩
  · refine List.Nodup.sublist ?_ m.g_states.nodupKeys
    exact List.Sublist.map _ List.filter_sublist
  · rw [evictedIds_front]
    exact ((sortable_distinct order).sublist ((List.take_sublist _ _).map _))
  · rintro id expired other evicted rfl
    have here := evicted_listed order max_sessions evicted
    obtain ⟨kv, inside, same⟩ := List.mem_map.mp here
    rw [unexpired, removed_entries, List.mem_filter, decide_eq_true_eq] at inside
    exact inside.2 (same ▸ expired)

theorem removals_each {ids : List UInt64} (distinct : ids.Nodup) :
    (removals unlinkOk m ids).2 = ids.flatMap fun id => (removal unlinkOk m id).2 := by
  induction ids generalizing m with
  | nil => rfl
  | cons id ids ih =>
    rw [List.nodup_cons] at distinct
    have first : (removals unlinkOk m (id :: ids)).2 =
        (removal unlinkOk m id).2 ++ (removals unlinkOk (removeSession unlinkOk m id) ids).2 := rfl
    rw [first, ih distinct.2, List.flatMap_cons]
    congr 1
    refine List.flatMap_congr fun other inside => ?_
    have apart : other ≠ id := by
      rintro rfl
      exact distinct.1 inside
    have same : (removeSession unlinkOk m id).g_states.lookup other = m.g_states.lookup other := by
      cases found : m.g_states.lookup id with
      | none => rw [removeSession_none unlinkOk found]
      | some st =>
        rw [removeSession_some unlinkOk found]
        exact AList.lookup_erase_ne apart
    unfold removal
    rw [same]
    cases m.g_states.lookup other <;> rfl

theorem removal_calls {id : UInt64} {st : FileState} {fd : Nat}
    (found : m.g_states.lookup id = some st) (own : st.fd = some fd) :
    (removal unlinkOk m id).2 = [.close fd, .unlink st.temp_path (unlinkOk id)] := by
  simp only [removal, found, own]
  rfl

theorem others_calls {id other : UInt64} {st : FileState} {fd : Nat} (sound : Sound m)
    (found : m.g_states.lookup id = some st) (own : st.fd = some fd) (apart : other ≠ id) :
    (removal unlinkOk m other).2.countP (· == .close fd) = 0 ∧
      (removal unlinkOk m other).2.countP (·.unlinks st.temp_path) = 0 := by
  cases there : m.g_states.lookup other with
  | none => simp [removal, there]
  | some st' =>
    have session := sound other st' there
    obtain ⟨fd', own', _⟩ := session.opened
    have numbers : fd' ≠ fd := by
      rintro rfl
      exact apart (fd_unique sound there found own' own)
    have paths : st'.temp_path ≠ st.temp_path := by
      rw [session.path, (sound id st found).path]
      exact temp_apart apart
    simp [removal_calls unlinkOk there own', numbers, paths, CleanupCall.unlinks]

theorem removed_calls {id : UInt64} {st : FileState} (sound : Sound m)
    (found : m.g_states.lookup id = some st)
    (listed : id ∈ removedIds order unlinkOk now_seconds ttl_seconds max_sessions m) :
    ∃ fd, st.fd = some fd ∧
      (cleanupCalls order unlinkOk now_seconds ttl_seconds max_sessions m).count (.close fd) = 1 ∧
      (cleanupCalls order unlinkOk now_seconds ttl_seconds max_sessions m).countP
        (·.unlinks st.temp_path) = 1 ∧
      .unlink st.temp_path (unlinkOk id) ∈
        cleanupCalls order unlinkOk now_seconds ttl_seconds max_sessions m := by
  obtain ⟨fd, own, _⟩ := (sound id st found).opened
  have distinct := removedIds_distinct (m := m) order unlinkOk now_seconds ttl_seconds max_sessions
  have made := removal_calls unlinkOk found own
  have others (other : UInt64) (apart : other ≠ id) := others_calls unlinkOk sound found own apart
  rw [cleanupCalls, cleanup_removes, removals_each unlinkOk distinct]
  refine ⟨fd, own, ?_, ?_, ?_⟩
  · rw [List.count_eq_countP]
    exact count_once distinct listed (by simp [made]) fun other apart => (others other apart).1
  · exact count_once distinct listed (by simp [made, CleanupCall.unlinks])
      fun other apart => (others other apart).2
  · exact List.mem_flatMap.mpr ⟨id, listed, by simp [made]⟩

theorem sortable_length : (sortable order m).length = m.g_states.entries.length := by
  rw [sortable, (order.permutes _).length_eq, List.length_map]

theorem cleaned_fresh {id : UInt64} {st : FileState}
    (remains : (cleanupSessions order unlinkOk now_seconds ttl_seconds max_sessions
      m).g_states.lookup id = some st) : ¬ Expired now_seconds ttl_seconds st := by
  have member := AList.mem_lookup_iff.mp remains
  rw [cleaned_entries, unexpired_entries, List.mem_filter, List.mem_filter,
    decide_eq_true_eq] at member
  exact member.1.2

theorem cleaned_rest :
    ((cleanupSessions order unlinkOk now_seconds ttl_seconds max_sessions m).g_states.entries.map
      stamp).Perm
      ((sortable order (unexpired unlinkOk now_seconds ttl_seconds m)).drop
        ((unexpired unlinkOk now_seconds ttl_seconds m).g_states.entries.length -
          max_sessions)) := by
  rw [cleaned_entries]
  exact evicted_rest order max_sessions

theorem cleaned_number :
    (cleanupSessions order unlinkOk now_seconds ttl_seconds max_sessions
      m).g_states.entries.length =
      min max_sessions
        (m.g_states.entries.countP fun kv => ¬ Expired now_seconds ttl_seconds kv.2) := by
  have size := (cleaned_rest (m := m) order unlinkOk now_seconds ttl_seconds max_sessions).length_eq
  rw [List.length_map, List.length_drop, sortable_length, unexpired_entries,
    ← List.countP_eq_length_filter] at size
  omega

theorem cleaned_oldest {id other : UInt64} {st st' : FileState}
    (found : m.g_states.lookup id = some st) (fresh : ¬ Expired now_seconds ttl_seconds st)
    (removed : (cleanupSessions order unlinkOk now_seconds ttl_seconds max_sessions
      m).g_states.lookup id = none)
    (remains : (cleanupSessions order unlinkOk now_seconds ttl_seconds max_sessions
      m).g_states.lookup other = some st') : st.last_update_ts ≤ st'.last_update_ts := by
  have rest := cleaned_rest (m := m) order unlinkOk now_seconds ttl_seconds max_sessions
  revert rest
  generalize sorts : sortable order (unexpired unlinkOk now_seconds ttl_seconds m) = sorted
  generalize (unexpired unlinkOk now_seconds ttl_seconds m).g_states.entries.length -
    max_sessions = k
  intro rest
  have ordered : sorted.Pairwise fun a b => a.2 ≤ b.2 := by
    rw [← sorts]
    exact order.ordered _
  have listed : (id, st.last_update_ts) ∈ sorted := by
    have inside : (⟨id, st⟩ : Sigma fun _ => FileState) ∈
        (unexpired unlinkOk now_seconds ttl_seconds m).g_states.entries := by
      rw [unexpired_entries, List.mem_filter, decide_eq_true_eq]
      exact ⟨AList.mem_lookup_iff.mp found, fresh⟩
    rw [← sorts, sortable, (order.permutes _).mem_iff]
    exact List.mem_map_of_mem inside
  have front : (id, st.last_update_ts) ∈ sorted.take k := by
    rw [← List.take_append_drop k sorted, List.mem_append] at listed
    refine listed.resolve_right fun back => ?_
    obtain ⟨kv, inside, same⟩ := List.mem_map.mp (rest.mem_iff.mpr back)
    have here : kv.1 = id := congrArg (·.1) same
    have still : (cleanupSessions order unlinkOk now_seconds ttl_seconds max_sessions
        m).g_states.lookup kv.1 = some kv.2 := AList.mem_lookup_iff.mpr inside
    rw [here, removed] at still
    contradiction
  have back : (other, st'.last_update_ts) ∈ sorted.drop k :=
    rest.mem_iff.mp (List.mem_map_of_mem (f := stamp) (AList.mem_lookup_iff.mp remains))
  exact front_older k ordered _ front _ back

theorem cleanup_cleans (sound : Sound m) :
    CleanedUp unlinkOk now_seconds ttl_seconds max_sessions
      (cleanupCalls order unlinkOk now_seconds ttl_seconds max_sessions m) m
      (cleanupSessions order unlinkOk now_seconds ttl_seconds max_sessions m) := by
  refine ⟨fun id st remains => cleaned_fresh order unlinkOk _ _ _ remains,
    cleaned_number order unlinkOk _ _ _,
    fun id st found fresh removed other st' remains =>
      cleaned_oldest order unlinkOk _ _ _ found fresh removed remains, ?_, ?_,
    cleanup_replay order unlinkOk _ _ _ m⟩
  · intro id st remains
    have keeps := cleanupSessions_keeps sound (by rw [remains]; exact Option.some_ne_none st)
    exact ⟨keeps.session.symm.trans remains, keeps.disk⟩
  · intro id st found removed
    apply removed_calls order unlinkOk now_seconds ttl_seconds max_sessions sound found
    by_contra unlisted
    have keeps := ((removeSessions unlinkOk _ sound).2 id).2 unlisted
    rw [cleanupSessions_removes, keeps.session, found] at removed
    contradiction

end

/- In every state of every run, a cleanup removes the expired sessions and then the oldest. -/
theorem cleanup_exact (disk : FileSystem Bytes) (events : List Event) (order : OldestFirst)
    (unlinkOk : UInt64 → Bool) (now_seconds ttl_seconds : UInt64) (max_sessions : Nat) :
    let m := Run.final step (start disk) events
    CleanedUp unlinkOk now_seconds ttl_seconds max_sessions
      (cleanupCalls order unlinkOk now_seconds ttl_seconds max_sessions m) m
      (cleanupSessions order unlinkOk now_seconds ttl_seconds max_sessions m) := by
  have sound : Sound (Run.final step (start disk) events) :=
    (Run.invariant_steps Sound (fun _ _ => True) (fun m e sound _ => step_sound sound e)
      (start_sound disk) fun _ _ => trivial).2
  exact cleanup_cleans order unlinkOk now_seconds ttl_seconds max_sessions sound

end FileTransferManager
