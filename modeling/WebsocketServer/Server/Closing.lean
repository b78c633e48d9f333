import WebsocketServer.Server.Workers
import WebsocketServer.Ws.Segmentation

/- What a step of the IO thread leaves alone in every connection. -/
namespace WssServer
open StreamParser WebSocketCodec

structure Kept (c c' : Connection) : Prop where
  closing : c.closing = true → c'.closing = true
  opened : c.ws.state_ = .Open → c'.ws.state_ = .Open
  outbound_mu : c'.outbound_mu = c.outbound_mu

theorem kept_refl (c : Connection) : Kept c c := ⟨id, id, rfl⟩

theorem Kept.trans {a b c : Connection} (first : Kept a b) (second : Kept b c) : Kept a c :=
  ⟨second.closing ∘ first.closing, second.opened ∘ first.opened,
    second.outbound_mu.trans first.outbound_mu⟩

def AllKept (s s' : Server) : Prop := ∀ c, Kept (s.objects c) (s'.objects c)

theorem AllKept.trans {a b c : Server} (first : AllKept a b) (second : AllKept b c) : AllKept a c :=
  fun ref => (first ref).trans (second ref)

theorem kept_update {s s' : Server} (c : ConnRef) {conn : Connection}
    (objects : s'.objects = Function.update s.objects c conn)
    (keeps : Kept (s.objects c) conn) : AllKept s s' :=
  Server.objects_update (R := fun _ => Kept) (fun _ => kept_refl _) objects keeps

theorem kept_close (s : Server) (fd : Nat) : AllKept s (s.closeConnection fd) :=
  Server.objects_close (R := fun _ => Kept) (fun _ => kept_refl _)
    (fun _ => ⟨fun _ => rfl, id, rfl⟩) fd

theorem kept_sent (s : Server) (c : ConnRef) (r : Flushed) : AllKept s (s.sent c r) :=
  kept_update c rfl ⟨id, id, rfl⟩

theorem sendItem_kept (s : Server) (c : ConnRef) (kind : ItemKind) (item : Bytes) (io : IoState) :
    AllKept s (sendItem s c kind item io).1 :=
  kept_update c rfl ⟨id, id, rfl⟩

theorem kept_takeParser {config : Config} {sys : Answers} {s : Server} {v : Visit} {buf : Bytes} :
    AllKept s (takeParser s v.c (s.fed config sys v buf)) := by
  apply kept_update v.c rfl
  exact ⟨id, fun opened => (feed_stays_open _ _ _ _ opened buf).1, rfl⟩

theorem Pushes.kept {sys : Answers} {s s' : Server} {at' io : IoState} {c : ConnRef}
    {kind : ItemKind} {item : Bytes} (site : Pushes sys s at' s' c kind item io) :
    AllKept s s' := by
  cases site with
  | upgrade | unsupported | closeReply => exact fun _ => kept_refl _
  | pong | ping => exact kept_update _ rfl ⟨id, id, rfl⟩

theorem ioMove_kept {config : Config} {sys : Answers} {s : Server} {r : Stepped}
    (move : IoMove config sys s r) : AllKept s r.1 := by
  cases move with
  | stays | goes | cleans => exact fun _ => kept_refl _
  | closes site => exact kept_close s _
  | flushes site unlocked => exact kept_sent s _ _
  | drains site out closing => exact (kept_sent s _ _).trans (kept_close _ _)
  | throws here left thrown => exact kept_takeParser.trans (kept_close _ _)
  | delivers here returns response => exact kept_takeParser
  | upgrades here returns response =>
    exact kept_takeParser.trans (kept_update _ rfl ⟨id, id, rfl⟩)
  | @pushes s' c kind item io site unlocked =>
    exact site.kept.trans (sendItem_kept s' c kind item io)
  | peerCloses here close => exact kept_update _ rfl ⟨fun _ => rfl, id, rfl⟩
  | earlyDone | accepted | ponged | submits => exact kept_update _ rfl ⟨id, id, rfl⟩

end WssServer
