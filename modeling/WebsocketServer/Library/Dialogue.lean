import WebsocketServer.Library.Run

/- A client and a server with a queue of messages each way. A step takes the oldest message of one
   queue, or something else happens at the server. -/
namespace Dialogue

section
variable {σ τ α β ι κ : Type*}

/-- What the client makes of a reply, what the server makes of a request in some circumstances, and
    what else may happen at the server. -/
structure Roles (σ τ α β ι κ : Type*) where
  react : σ → β → σ × List α
  serve : τ → ι → α → τ × List β
  disturb : τ → κ → τ

structure State (σ τ α β : Type*) where
  client : σ
  requests : List α
  server : τ
  replies : List β

inductive Input (ι κ : Type*) where
  | serve (i : ι)
  | deliver
  | disturb (k : κ)

def step (r : Roles σ τ α β ι κ) (s : State σ τ α β) : Input ι κ → State σ τ α β × Bool
  | .serve i =>
      match s.requests with
      | [] => (s, false)
      | request :: requests =>
          let (server, replies) := r.serve s.server i request
          ({ s with requests, server, replies := s.replies ++ replies }, true)
  | .deliver =>
      match s.replies with
      | [] => (s, false)
      | reply :: replies =>
          let (client, requests) := r.react s.client reply
          ({ s with client, requests := s.requests ++ requests, replies }, true)
  | .disturb k => ({ s with server := r.disturb s.server k }, false)

def exchanged (r : Roles σ τ α β ι κ) (s : State σ τ α β) (is : List (Input ι κ)) : Nat :=
  (Run.steps (step r) s is).countP fun t => t.output

variable {r : Roles σ τ α β ι κ} {s : State σ τ α β}

/- An invariant that counts down with every message taken bounds the messages of a run. -/
theorem run_bounded (Inv : State σ τ α β → Nat → Prop)
    (Allowed : State σ τ α β → Input ι κ → Prop)
    (keeps : ∀ s n i, Inv s n → Allowed s i →
      ∃ left, Inv (step r s i).1 left ∧ left + (step r s i).2.toNat ≤ n)
    {n : Nat} {is : List (Input ι κ)} (holds : Inv s n)
    (allowed : ∀ t ∈ Run.steps (step r) s is, Allowed t.before t.input) :
    ∃ left, Inv (Run.final (step r) s is) left ∧ exchanged r s is + left ≤ n := by
  induction is generalizing s n with
  | nil => exact ⟨n, holds, by simp [exchanged, Run.steps]⟩
  | cons i is ih =>
    simp only [Run.steps, List.forall_mem_cons] at allowed
    obtain ⟨next, holds', uses⟩ := keeps s n i holds allowed.1
    obtain ⟨left, last, later⟩ := ih holds' allowed.2
    refine ⟨left, last, ?_⟩
    have count : exchanged r s (i :: is) =
        exchanged r (step r s i).1 is + (step r s i).2.toNat := by
      simp only [exchanged, Run.steps, List.countP_cons]
      cases (step r s i).2 <;> rfl
    omega

end

end Dialogue
