import TransactionalServer.Library.Exec

/-! Packets on their way to a receiver. A sender that does not know whether the
first of them has arrived hands it over again; a receiver that takes a packet
twice as it takes it once ends in the same state. -/

namespace Outbox
open Exec

variable {σ ρ : Type}

/-- A receiver that is ready for the packets that fit stays so, and takes a
packet that comes again without effect. -/
structure Idempotent (take : σ → ρ → Exec σ) (ready : σ → Prop) (fits : ρ → Prop) : Prop where
  stays : ∀ {receiver packet next}, ready receiver → fits packet → take receiver packet = .ok next → ready next
  again : ∀ {receiver packet next}, ready receiver → fits packet → take receiver packet = .ok next → take next packet = .ok next

/-- The receiver settles in this state once it has taken the packets in order. -/
structure Pends (take : σ → ρ → Exec σ) (ready : σ → Prop) (fits : ρ → Prop) (packets : List ρ) (receiver settled : σ) : Prop where
  fit : ∀ packet ∈ packets, fits packet
  ready : ready receiver
  settles : packets.foldlM take receiver = .ok settled

variable {take : σ → ρ → Exec σ} {ready : σ → Prop} {fits : ρ → Prop} {packets more rest : List ρ} {packet : ρ}
  {receiver settled next : σ}

theorem Pends.nothing (start : ready receiver) : Pends take ready fits [] receiver receiver :=
  ⟨fun _ member => absurd member List.not_mem_nil, start, rfl⟩

theorem Pends.empty (pends : Pends take ready fits [] receiver settled) : receiver = settled := Except.ok.inj pends.settles

/-- Between the two states lies any state on the way. -/
theorem Pends.append (first : Pends take ready fits packets receiver settled) (second : Pends take ready fits more settled next) :
    Pends take ready fits (packets ++ more) receiver next := by
  refine ⟨?_, first.ready, ?_⟩
  · intro packet member
    rcases List.mem_append.mp member with earlier | later
    · exact first.fit packet earlier
    · exact second.fit packet later
  · rw [List.foldlM_append, first.settles, ok_bind, second.settles]

theorem Pends.head (pends : Pends take ready fits (packet :: rest) receiver settled) :
    fits packet ∧ ∃ next, take receiver packet = .ok next ∧ rest.foldlM take next = .ok settled := by
  refine ⟨pends.fit packet List.mem_cons_self, ?_⟩
  have settles := pends.settles
  rw [List.foldlM_cons, bind_eq_ok] at settles
  exact settles

section
variable (idempotent : Idempotent take ready fits)
include idempotent

/-- The first packet has been taken and is forgotten. -/
theorem Pends.pop (pends : Pends take ready fits (packet :: rest) receiver settled) (taken : take receiver packet = .ok next) :
    Pends take ready fits rest next settled := by
  obtain ⟨fit, other, again, settles⟩ := pends.head
  obtain rfl := Except.ok.inj (again.symm.trans taken)
  exact ⟨fun other member => pends.fit other (List.mem_cons_of_mem _ member), idempotent.stays pends.ready fit taken, settles⟩

/-- The first packet has been taken, and will be handed over again. -/
theorem Pends.retry (pends : Pends take ready fits (packet :: rest) receiver settled) (taken : take receiver packet = .ok next) :
    Pends take ready fits (packet :: rest) next settled := by
  have fit := pends.fit packet List.mem_cons_self
  have left := pends.pop idempotent taken
  refine ⟨pends.fit, left.ready, ?_⟩
  rw [List.foldlM_cons, idempotent.again pends.ready fit taken, ok_bind, left.settles]

theorem Pends.settled_ready (pends : Pends take ready fits packets receiver settled) : ready settled := by
  induction packets generalizing receiver with
  | nil => exact pends.empty ▸ pends.ready
  | cons packet rest ih =>
    obtain ⟨_, next, taken, _⟩ := pends.head
    exact ih (pends.pop idempotent taken)

/-- One packet more. -/
theorem Pends.put (pends : Pends take ready fits packets receiver settled) (fit : fits packet) (taken : take settled packet = .ok next) :
    Pends take ready fits (packets ++ [packet]) receiver next := by
  refine pends.append ⟨?_, pends.settled_ready idempotent, ?_⟩
  · intro other member
    exact List.mem_singleton.mp member ▸ fit
  · rw [List.foldlM_cons, taken]
    rfl

/-- A receiver that takes every packet that fits takes them all. -/
theorem pends_of_fit (total : ∀ {receiver packet}, ready receiver → fits packet → ∃ next, take receiver packet = .ok next)
    (fit : ∀ packet ∈ packets, fits packet) (start : ready receiver) : ∃ settled, Pends take ready fits packets receiver settled := by
  induction packets generalizing receiver with
  | nil => exact ⟨receiver, .nothing start⟩
  | cons packet rest ih =>
    have here := fit packet List.mem_cons_self
    obtain ⟨next, taken⟩ := total start here
    obtain ⟨settled, later⟩ := ih (fun other member => fit other (List.mem_cons_of_mem _ member)) (idempotent.stays start here taken)
    refine ⟨settled, fit, start, ?_⟩
    rw [List.foldlM_cons, taken, ok_bind, later.settles]

/-- What every packet does to the receiver, all of them do. -/
theorem Pends.relates {related : σ → σ → Prop} (refl : ∀ state, related state state)
    (trans : ∀ {first second third}, related first second → related second third → related first third)
    (each : ∀ {receiver packet next}, ready receiver → fits packet → take receiver packet = .ok next → related receiver next)
    (pends : Pends take ready fits packets receiver settled) : related receiver settled := by
  induction packets generalizing receiver with
  | nil => exact pends.empty ▸ refl receiver
  | cons packet rest ih =>
    obtain ⟨fit, next, taken, _⟩ := pends.head
    exact trans (each pends.ready fit taken) (ih (pends.pop idempotent taken))

/-- A view of the receiver that takes the packets in the same way. -/
theorem Pends.view {τ : Type} {view : σ → τ} {look : τ → ρ → Exec τ}
    (each : ∀ {receiver packet next}, ready receiver → fits packet → take receiver packet = .ok next → look (view receiver) packet = .ok (view next))
    (pends : Pends take ready fits packets receiver settled) : packets.foldlM look (view receiver) = .ok (view settled) := by
  induction packets generalizing receiver with
  | nil => exact pends.empty ▸ rfl
  | cons packet rest ih =>
    obtain ⟨fit, next, taken, _⟩ := pends.head
    rw [List.foldlM_cons, each pends.ready fit taken, ok_bind, ih (pends.pop idempotent taken)]

end

end Outbox
