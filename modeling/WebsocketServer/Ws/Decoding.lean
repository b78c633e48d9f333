import WebsocketServer.Ws.Segmentation

/- Where a parser is after some bytes, computed from the bytes alone: the calls of feed they came
   in do not show. -/
namespace StreamParser
open WebSocketCodec Upgrade StreamMachine

section
variable {ssl : OpenSsl} {env : Environment}

/-- A parser in Open mode after some bytes, and the frames it has delivered. -/
structure Parsed (ssl : OpenSsl) (env : Environment) (mask : Bool) (fed : Bytes)
    (p : WebSocketStreamParser) (delivered : List WsFrame) : Prop where
  opened : p.state_ = .Open
  live : (run (parserMachine ssl env) (freshParser mask true) fed).error = none
  parser : p = holding (run (parserMachine ssl env) (freshParser mask true) fed).state
    (run (parserMachine ssl env) (freshParser mask true) fed).rest
  frames : delivered = frames (run (parserMachine ssl env) (freshParser mask true) fed).outs

theorem parsed_nothing (ssl : OpenSsl) (env : Environment) (mask : Bool) :
    Parsed ssl env mask [] (freshParser mask true) [] := by
  have waits := run_more _ (fresh_waits ssl env mask true)
  refine ⟨rfl, ?_, ?_, ?_⟩
  · rw [waits]
  · rw [waits]
    rfl
  · rw [waits]
    rfl

theorem Parsed.feed {mask : Bool} {fed : Bytes} {p : WebSocketStreamParser}
    {delivered : List WsFrame} (parsed : Parsed ssl env mask fed p delivered) (now : UInt64)
    (seen : NonceTable) (buf : Bytes) :
    (StreamParser.feed ssl env now seen p buf).thrown =
        (run (parserMachine ssl env) (freshParser mask true) (fed ++ buf)).error ∧
      ((StreamParser.feed ssl env now seen p buf).thrown = none →
        Parsed ssl env mask (fed ++ buf) (StreamParser.feed ssl env now seen p buf).parser
          (delivered ++ (StreamParser.feed ssl env now seen p buf).outFrames)) := by
  obtain ⟨opened, before, parser, frames⟩ := parsed
  have clean := run_bare ssl env (freshParser mask true) fed rfl
  have longer := run_extend (parserMachine ssl env) (freshParser mask true) fed buf
  rw [feed_live _ before] at longer
  generalize run (parserMachine ssl env) (freshParser mask true) fed = q at *
  have agrees := parseFrames_refines ssl env seen { p with buffer_ := p.buffer_ ++ buf } opened
    (by rw [parser]; rfl) false []
  have core : bare { p with buffer_ := p.buffer_ ++ buf } = q.state := by
    rw [← clean, parser]
    rfl
  have held : p.buffer_ = q.rest := by
    rw [parser]
    rfl
  rw [core, held, if_pos rfl, prepend_nil, ← held, ← feed_open ssl env now seen opened] at agrees
  rw [held] at agrees
  have same : (StreamParser.feed ssl env now seen p buf).thrown =
      (run (parserMachine ssl env) (freshParser mask true) (fed ++ buf)).error :=
    agrees.thrown.trans longer.2.1.symm
  refine ⟨same, ?_⟩
  intro returns
  have live := same.symm.trans returns
  have whole := longer.2.2 live
  refine ⟨(feed_stays_open ssl env now seen opened buf).1, live, ?_, ?_⟩
  · rw [whole]
    exact agrees.state returns
  · rw [whole, frames, agrees.delivered]
    simp only [Outcome.prepend, StreamParser.frames, List.filterMap_append]

/-- The same of a parser that has to come to the end of a request first. -/
inductive Decoded (ssl : OpenSsl) (env : Environment) (fed : Bytes) (p : WebSocketStreamParser)
    (delivered : List WsFrame) : Prop where
  | waiting (headless : headEnd fed = none) (parser : p = holding (construct true) fed)
      (nothing : delivered = [])
  | opened {n : Nat} (head : headEnd fed = some n)
      (parsed : Parsed ssl env true (fed.drop n) p delivered)

def decodedFrames (ssl : OpenSsl) (env : Environment) (stream : Bytes) : List WsFrame :=
  match headEnd stream with
  | none => []
  | some n => frames (run (parserMachine ssl env) (freshParser true true) (stream.drop n)).outs

theorem Decoded.frames {fed : Bytes} {p : WebSocketStreamParser} {delivered : List WsFrame}
    (decoded : Decoded ssl env fed p delivered) : delivered = decodedFrames ssl env fed := by
  unfold decodedFrames
  cases decoded with
  | waiting headless parser nothing => rw [headless, nothing]
  | opened head parsed => rw [head, parsed.frames]

theorem decoded_nothing (ssl : OpenSsl) (env : Environment) :
    Decoded ssl env [] (construct true) [] :=
  .waiting rfl rfl rfl

/- Until the head is complete feed gathers, and the call that completes it parses what is behind. -/
theorem Decoded.feed {fed : Bytes} {p : WebSocketStreamParser} {delivered : List WsFrame}
    (decoded : Decoded ssl env fed p delivered) (now : UInt64) (seen : NonceTable) (buf : Bytes)
    (returns : (StreamParser.feed ssl env now seen p buf).thrown = none) :
    Decoded ssl env (fed ++ buf) (StreamParser.feed ssl env now seen p buf).parser
      (delivered ++ (StreamParser.feed ssl env now seen p buf).outFrames) := by
  cases decoded with
  | @opened n head parsed =>
    have bound := (headEnd_bounds head).2
    have later := (parsed.feed now seen buf).2 returns
    rw [← List.drop_append_of_le_length bound] at later
    exact .opened (headEnd_grow buf head) later
  | waiting headless parser nothing =>
    subst parser nothing
    rw [feed_awaiting ssl env now seen rfl] at returns ⊢
    have held : (holding (construct true) fed).buffer_ = fed := rfl
    simp only [held] at returns ⊢
    cases found : headEnd (fed ++ buf) with
    | none => exact .waiting found rfl rfl
    | some endPos =>
      simp only [found] at returns ⊢
      cases verdict : checkHead ssl env now seen ((fed ++ buf).take endPos) with
      | mk answer seen' =>
        cases answer with
        | error what => simp [verdict] at returns
        | ok response =>
          simp only [verdict] at returns ⊢
          have agrees := parseFrames_refines ssl env seen'
            { holding (construct true) fed with
              buffer_ := (fed ++ buf).drop endPos, parse_offset_ := 0, state_ := .Open }
            rfl rfl true response
          have begins : bare { holding (construct true) fed with
              buffer_ := (fed ++ buf).drop endPos, parse_offset_ := 0, state_ := .Open } =
              freshParser true true := rfl
          rw [begins] at agrees
          have live := agrees.thrown.symm.trans returns
          refine .opened found ⟨parseFrames_state env seen' _ true response, live, ?_, ?_⟩
          · exact agrees.state returns
          · rw [List.nil_append, agrees.delivered]
            by_cases empty : response = []
            · rw [if_pos empty, prepend_nil]
            · rw [if_neg empty]
              rfl

end

end StreamParser
