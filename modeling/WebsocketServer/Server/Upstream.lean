import WebsocketServer.Server.Inbound
import WebsocketServer.Ws.RoundTrip

/- The way from a client's writes to the server's workers: what becomes of a request and the masked
   frames behind it, however the socket cuts them. -/
namespace StreamParser
open WebSocketCodec Upgrade StreamMachine

section
variable {ssl : OpenSsl} {env : Environment} {request tail fed : Bytes}

/- The head of a stream that begins with a request ends with the request. -/
theorem request_end (head : headEnd request = some request.length) {n : Nat}
    (begun : fed <+: request ++ tail) (found : headEnd fed = some n) : n = request.length := by
  obtain ⟨rest, whole⟩ := begun
  have longer := headEnd_grow rest found
  rw [whole, headEnd_grow tail head] at longer
  exact (Option.some.inj longer).symm

theorem drop_begun (begun : fed <+: request ++ tail) : fed.drop request.length <+: tail := by
  have behind := begun.drop request.length
  rw [List.drop_left] at behind
  exact behind

/- A server's parser accepts a request and whole frames behind it, whatever pieces they come in. -/
theorem Decoded.returns {p : WebSocketStreamParser} {delivered : List WsFrame} {buf : Bytes}
    {now : UInt64} {seen : NonceTable} (decoded : Decoded ssl env fed p delivered)
    (head : headEnd request = some request.length)
    (whole : (run (parserMachine ssl env) (freshParser true true) tail).error = none)
    (begun : fed ++ buf <+: request ++ tail)
    (accepted : p.state_ = .AwaitingHttpUpgrade →
      ∃ response, (checkHead ssl env now seen request).1 = .ok response) :
    (StreamParser.feed ssl env now seen p buf).thrown = none := by
  have clean {front : Bytes} (front' : front <+: tail) :
      (run (parserMachine ssl env) (freshParser true true) front).error = none := by
    obtain ⟨rest, complete⟩ := front'
    exact (run_begun _ (complete ▸ whole)).1
  have behind := drop_begun begun
  cases decoded with
  | @opened n found parsed =>
    have bound := (headEnd_bounds found).2
    have same := request_end head ((List.prefix_append _ _).trans begun) found
    rw [← same, List.drop_append_of_le_length bound] at behind
    rw [(parsed.feed now seen buf).1]
    exact clean behind
  | waiting headless parser nothing =>
    subst parser
    rw [feed_awaiting ssl env now seen rfl]
    have held : (holding (construct true) fed).buffer_ = fed := rfl
    simp only [held]
    cases found : headEnd (fed ++ buf) with
    | none => rfl
    | some endPos =>
      obtain rfl := request_end head begun found
      have front : (fed ++ buf).take request.length = request := by
        have bound := (headEnd_bounds found).2
        have taken := begun.take request.length
        rw [List.take_left] at taken
        exact taken.eq_of_length (by rw [List.length_take, Nat.min_eq_left bound])
      obtain ⟨response, ok⟩ := accepted rfl
      simp only [front]
      cases verdict : checkHead ssl env now seen request with
      | mk answer seen' =>
        rw [verdict] at ok
        obtain rfl : answer = .ok response := ok
        have agrees := parseFrames_refines ssl env seen'
          { holding (construct true) fed with
            buffer_ := (fed ++ buf).drop request.length, parse_offset_ := 0, state_ := .Open }
          rfl rfl true response
        exact agrees.thrown.trans (clean behind)

theorem decodedFrames_begun (head : headEnd request = some request.length)
    (whole : (run (parserMachine ssl env) (freshParser true true) tail).error = none)
    (begun : fed <+: request ++ tail) :
    decodedFrames ssl env fed <+:
      frames (run (parserMachine ssl env) (freshParser true true) tail).outs := by
  unfold decodedFrames
  cases found : headEnd fed with
  | none => exact List.nil_prefix
  | some n =>
    obtain rfl := request_end head begun found
    obtain ⟨rest, complete⟩ := drop_begun begun
    have outs := (run_begun (parserMachine ssl env) (complete.symm ▸ whole)).2
    rw [complete] at outs
    exact outs.filterMap _

theorem run_client_all (ssl : OpenSsl) (env : Environment)
    (sent : List (Option MaskKey × ClientSent (maxPayloadLimit env))) :
    run (parserMachine ssl env) (freshParser true true) (sent.flatMap clientWire) =
      ⟨freshParser true true, [], (sent.map fun x => x.2.frame).map .inr, none⟩ := by
  have through := run_client ssl (fresh_idle true) sent []
  rw [List.append_nil, run_more _ (fresh_waits ssl env true true)] at through
  rw [through]
  simp only [Outcome.prepend, List.append_nil]

theorem decodedFrames_client (head : headEnd request = some request.length)
    (sent : List (Option MaskKey × ClientSent (maxPayloadLimit env))) :
    decodedFrames ssl env (request ++ sent.flatMap clientWire) = sent.map fun x => x.2.frame := by
  unfold decodedFrames
  rw [headEnd_grow _ head]
  dsimp only
  rw [List.drop_left, run_client_all]
  simpa [frames] using frames_map_inr (sent.map fun x => x.2.frame) []

end

end StreamParser

namespace WssServer
open StreamParser WebSocketCodec Upgrade

structure Feeds (c : ConnRef) (t : ServerTaken) (v : Visit) (caller : Caller) (buf : Bytes)
    (sys : Answers) : Prop where
  input : t.input = .io sys
  site : t.before.io = .inbound v caller buf
  own : v.c = c

/-- From a client's writes to the server's workers: where a connection brings a request and whole
    masked frames within the limit, and the request is accepted at the moment its head is complete,
    no call of feed throws; the frames delivered are the first of those the client sent, all of
    them once all bytes were parsed; and the messages submitted are the client's, in order, up to a
    Close every one of the frames taken up. -/
theorem client_messages_submitted (config : Config) (disk : FileSystem Bytes) (inputs : List Input)
    (c : ConnRef) (request : Bytes)
    (sent : List (Option MaskKey × ClientSent (maxPayloadLimit config.env))) :
    let run := Run.steps (step config) (start disk) inputs
    let last := Run.final (step config) (start disk) inputs
    let frames := decodedFrames config.ssl config.env (parsed config c run)
    received c run <+: request ++ sent.flatMap clientWire →
      headEnd request = some request.length →
      (∀ t ∈ run, ∀ v caller buf sys, Feeds c t v caller buf sys →
        (t.before.objects c).ws.state_ = .AwaitingHttpUpgrade →
        ∃ response, (checkHead config.ssl config.env sys.now_seconds t.before.seen request).1 =
          .ok response) →
      (∀ t ∈ run, ∀ v caller buf sys, Feeds c t v caller buf sys →
        (t.before.fed config sys v buf).thrown = none) ∧
      frames <+: sent.map (fun x => x.2.frame) ∧
      (parsed config c run = request ++ sent.flatMap clientWire →
        frames = sent.map fun x => x.2.frame) ∧
      (submitted c run).Sublist (sent.filterMap fun x => asMessage x.2.frame) ∧
      ((∀ x ∈ sent, x.2.frame.opcode ≠ 0x8) →
        submitted c run ++ (last.io.waiting c).2.filterMap asMessage =
          frames.filterMap asMessage) := by
  intro run last frames begun head accepted
  have inv := run_inbound config disk inputs
  have through := run_client_all config.ssl config.env sent
  have whole : (StreamMachine.run (parserMachine config.ssl config.env) (freshParser true true)
      (sent.flatMap clientWire)).error = none := by rw [through]
  have delivered : frames <+: sent.map fun x => x.2.frame := by
    have first := decodedFrames_begun head whole ((inv.connections c).began.trans begun)
    rw [through] at first
    have collected : StreamParser.frames
        ((sent.map fun x => x.2.frame).map .inr : List Event) = sent.map fun x => x.2.frame := by
      simpa [StreamParser.frames] using frames_map_inr (sent.map fun x => x.2.frame) []
    exact collected ▸ first
  obtain ⟨handled, split, taken⟩ := (inv.connections c).messages
  have split' : handled ++ (last.io.waiting c).2 = frames := split
  refine ⟨?_, delivered, ?_, ?_, ?_⟩
  · intro t mem v caller buf sys feeds
    obtain ⟨earlier, later, cut⟩ := List.append_of_mem mem
    have before := Run.invariant_before (InboundInv config) step_inboundInv
      (start_inbound config disk) cut
    rw [List.nil_append] at before
    obtain ⟨input, site, rfl⟩ := feeds
    have open' := before.sockets.reads v (by rw [site]; rfl) (by rw [site]; rfl)
    have here := before.connections v.c
    have read := here.read open'
    rw [site] at read
    have held : (IoState.waiting v.c (.inbound v caller buf)).1 = buf := by
      simp [IoState.waiting]
    rw [held] at read
    have front : received v.c earlier <+: received v.c run := by
      rw [cut, received_append]
      exact List.prefix_append _ _
    rw [read] at front
    exact (here.parser open').returns head whole (front.trans begun)
      (accepted t mem v caller buf sys ⟨input, site, rfl⟩)
  · intro all
    simp only [frames, all]
    exact decodedFrames_client head sent
  · have messages : (sent.filterMap fun x => asMessage x.2.frame) =
        (sent.map fun x => x.2.frame).filterMap asMessage := by
      rw [List.filterMap_map]
      rfl
    rw [messages]
    apply taken.only.trans
    apply List.Sublist.filterMap
    exact ((split' ▸ List.prefix_append handled _).trans delivered).sublist
  · intro open'
    have calm : ∀ f ∈ handled, f.opcode ≠ 0x8 := by
      intro f mem
      have among : f ∈ sent.map fun x => x.2.frame :=
        delivered.subset (split' ▸ List.mem_append_left _ mem)
      obtain ⟨x, sends, rfl⟩ := List.mem_map.mp among
      exact open' x sends
    rw [taken.all (beforeClose_open calm), ← List.filterMap_append, split']

def startAndQuerySent : List (Option MaskKey × ClientSent (maxPayloadLimit plainConfig.env)) :=
  [(none, .data ⟨0x2, FileTransferManager.startPayload 7 1 1 1 0 [], .inr rfl,
      (show _ ≤ 1024 by decide).trans (maxPayloadLimit_lower _)⟩),
    (none, .data ⟨0x2, FileTransferManager.MSG_FILE_QUERY :: FileTransferManager.writeU64BE 7,
      .inr rfl, (show _ ≤ 1024 by decide).trans (maxPayloadLimit_lower _)⟩)]

theorem start_and_query_submitted :
    submitted 0 (Run.steps (step plainConfig) (start .empty) pipelinedRun) =
      startAndQuerySent.filterMap fun x => asMessage x.2.frame := by
  have bytes : parsed plainConfig 0 (Run.steps (step plainConfig) (start .empty) pipelinedRun) =
      upgradeRequest ++ startAndQuerySent.flatMap clientWire := by decide +kernel
  have read : received 0 (Run.steps (step plainConfig) (start .empty) pipelinedRun) =
      upgradeRequest ++ startAndQuerySent.flatMap clientWire := by decide +kernel
  have idle : ((Run.final (step plainConfig) (start .empty) pipelinedRun).io.waiting 0).2 = [] := by
    decide +kernel
  have accepts : (checkHead sampleOpenSsl plainConfig.env 0 [] upgradeRequest).1 =
      .ok (acceptResponse
        (computeAccept sampleOpenSsl (CString.bytes "dGhlIHNhbXBsZSBub25jZQ=="))) := by
    decide +kernel
  obtain ⟨_, _, all, _, messages⟩ := client_messages_submitted plainConfig .empty pipelinedRun 0
    upgradeRequest startAndQuerySent (read ▸ List.prefix_refl _) (by decide +kernel) (by
      intro t _ v caller buf sys _ _
      have off : shouldEnforceNonce plainConfig.env = false := by decide
      rw [checkHead_without_nonce plainConfig.ssl plainConfig.env off sys.now_seconds 0
        t.before.seen [] upgradeRequest]
      exact ⟨_, accepts⟩)
  have submitted := messages (by decide)
  rw [idle, List.filterMap_nil, List.append_nil, all bytes, List.filterMap_map] at submitted
  exact submitted

end WssServer
