import PdFleet.Lib.Guarded

/-!
# Activation tickets and associations

The local authority of the gateway: tickets are issued for an association, a consumed
ticket makes or replaces the association, and heartbeats and their absence move it on.
Times are of any type with the three operations that the code has for them.
-/

set_option autoImplicit false

namespace PdFleet.Auth

def ACTIVATION_INVALID : String := "activation_invalid"
def IDLE_TTL_S : ℕ := 90
def GRACE_S : ℕ := 60
def PURPOSE : String := "pd_observation"
def OWNERSHIP_MODE : String := "user_owned_session"

/-- What the code computes with times. -/
structure Timing (τ : Type) where
  plus : τ → ℤ → τ
  /-- `a > b`. -/
  after : τ → τ → Bool
  /-- `a - b > n`. -/
  exceeds : τ → τ → ℕ → Bool

inductive TicketStatus where
  | issued
  | consumed
  | expired
  | revoked
  deriving DecidableEq, Repr

inductive AssociationState where
  | pendingActivation
  | observing
  | reconnecting
  | stale
  | ended
  | detached
  | rejected
  deriving DecidableEq, Repr

namespace AssociationState

/-- `_TRANSITIONS`. -/
def transitions : AssociationState → List AssociationState
  | pendingActivation => [observing, rejected]
  | observing => [reconnecting, ended, detached]
  | reconnecting => [stale, detached]
  | stale => [pendingActivation]
  | ended => []
  | detached => []
  | rejected => []

def value : AssociationState → String
  | pendingActivation => "pending_activation"
  | observing => "observing"
  | reconnecting => "reconnecting"
  | stale => "stale"
  | ended => "ended"
  | detached => "detached"
  | rejected => "rejected"

end AssociationState

/-- What the server resolves of the parties of a ticket or of a presentation. -/
structure Parties where
  observerRef : String
  ownerRef : String
  profileRef : String
  workspaceRef : String
  sessionRef : String
  associationRef : String
  deriving DecidableEq

abbrev OpKey := String × String × String × String

structure Ticket (τ : Type) where
  activationRef : String
  parties : Parties
  provenanceRef : String
  issuedAt : τ
  expiresAt : τ
  nonceRef : String
  ownershipMode : String := OWNERSHIP_MODE
  purpose : String := PURPOSE
  status : TicketStatus := .issued
  consumedAt : Option τ := none
  revokedAt : Option τ := none
  consumedOpKey : Option OpKey := none

structure Presentation where
  activationRef : String
  parties : Parties
  purpose : String

structure BoundedResult where
  associationRef : String
  ownershipMode : String
  status : String

structure Association (τ : Type) where
  associationRef : String
  state : AssociationState
  createdAt : τ
  lastHeartbeatAt : τ

structure ConsumeResult where
  outcome : String
  auditReason : Option String := none
  result : Option BoundedResult := none
  delivered : Bool := false

/-- `SingleWriterTicketStore`. -/
structure Store (τ : Type) where
  tickets : AList (fun _ : String => Ticket τ) := ∅
  associations : AList (fun _ : String => Association τ) := ∅
  idempotency : AList (fun _ : OpKey => BoundedResult) := ∅
  audit : List (String × String) := []

variable {τ : Type} (C : Timing τ)

namespace Association

/-- `transition`; `none` is an `AssociationTransitionError`. -/
def transition (a : Association τ) (target : AssociationState) : Option (Association τ) :=
  if target ∈ a.state.transitions then some { a with state := target } else none

def touch (a : Association τ) (now : τ) : Association τ :=
  if a.state = .observing ∨ a.state = .reconnecting then { a with lastHeartbeatAt := now } else a

def evaluate (a : Association τ) (now : τ) : Association τ :=
  if a.state = .observing ∧ C.exceeds now a.lastHeartbeatAt IDLE_TTL_S then
    { a with state := .reconnecting }
  else if a.state = .reconnecting ∧ C.exceeds now a.lastHeartbeatAt (IDLE_TTL_S+GRACE_S) then
    { a with state := .stale }
  else a

end Association

namespace Store

variable (s : Store τ)

def revokeTicket (ref : String) (now : τ) : Bool × Store τ :=
  match s.tickets.lookup ref with
  | none => (false,s)
  | some t =>
    if t.status ≠ .issued then (false,s)
    else (true,{ s with
      tickets := s.tickets.insert ref { t with status := .revoked, revokedAt := some now } })

/-- What a method makes of an association that exists. -/
def update (ref : String) (f : Association τ → Association τ) :
    Option AssociationState × Store τ :=
  match s.associations.lookup ref with
  | none => (none,s)
  | some a => (some (f a).state,{ s with associations := s.associations.insert ref (f a) })

def touchAssociation (ref : String) (now : τ) : Option AssociationState × Store τ :=
  s.update ref (·.touch now)

def evaluateAssociation (ref : String) (now : τ) : Option AssociationState × Store τ :=
  s.update ref (·.evaluate C now)

/-- `reassociate`; the error is an `AssociationTransitionError`. -/
def reassociate (ref : String) : Except Unit (Option AssociationState) × Store τ :=
  match s.associations.lookup ref with
  | none => (.ok none,s)
  | some a =>
    match a.transition .pendingActivation with
    | none => (.error (),s)
    | some a' => (.ok (some a'.state),{ s with associations := s.associations.insert ref a' })

/-- `deny`. -/
def deny (t : Ticket τ) (reason : String) : ConsumeResult × Store τ :=
  ({ outcome := ACTIVATION_INVALID, auditReason := some reason },
    { s with audit := s.audit++[(t.activationRef,reason)] })

/-- The commit of a ticket that passed the checks. -/
def commit (t : Ticket τ) (ref : String) (key : OpKey) (now : τ) : ConsumeResult × Store τ :=
  let a : Association τ := ⟨t.parties.associationRef,.observing,now,now⟩
  let bounded : BoundedResult := ⟨a.associationRef,t.ownershipMode,a.state.value⟩
  ({ outcome := "activated", result := some bounded, delivered := true },
    { s with
      associations := s.associations.insert a.associationRef a
      tickets := s.tickets.insert ref
        { t with status := .consumed, consumedAt := some now, consumedOpKey := some key }
      idempotency := s.idempotency.insert key bounded })

def consumeTransaction (p : Presentation) (key : OpKey) (now : τ) : ConsumeResult × Store τ :=
  match s.tickets.lookup p.activationRef with
  | none => ({ outcome := ACTIVATION_INVALID },
      { s with audit := s.audit++[(p.activationRef,ACTIVATION_INVALID)] })
  | some t =>
    if t.purpose ≠ p.purpose then s.deny t "capability_denied"
    else if t.status = .revoked then s.deny t ACTIVATION_INVALID
    else if t.status = .expired then s.deny t "activation_expired"
    else if t.status = .issued ∧ C.after now t.expiresAt then
      { s with tickets := s.tickets.insert p.activationRef { t with status := .expired } }.deny t
        "activation_expired"
    else if t.parties.observerRef ≠ p.parties.observerRef then s.deny t "foreign_owner"
    else if t.parties ≠ p.parties then s.deny t "activation_binding_mismatch"
    else if t.status = .consumed then
      match if t.consumedOpKey = some key then s.idempotency.lookup key else none with
      | some stored => ({ outcome := "activated", result := some stored, delivered := true },s)
      | none => s.deny t "activation_replayed"
    else s.commit t p.activationRef key now

end Store

/-! ## The service -/

/-- The arguments of `issue_ticket`; the two secrets are what `secrets.token_hex` drew. -/
structure TicketRequest (τ : Type) where
  parties : Parties
  provenanceRef : String
  now : τ
  ttlS : ℤ
  activationSecret : String
  nonceSecret : String

def TicketRequest.activationRef (r : TicketRequest τ) : String := "act-" ++ r.activationSecret

/-- `issue_ticket`. -/
def issueTicket (s : Store τ) (r : TicketRequest τ) : Ticket τ × Store τ :=
  let t : Ticket τ :=
    { activationRef := r.activationRef, parties := r.parties, provenanceRef := r.provenanceRef,
      issuedAt := r.now, expiresAt := C.plus r.now r.ttlS, nonceRef := r.nonceSecret }
  (t,{ s with tickets := s.tickets.insert t.activationRef t })

/-- `consume`. -/
def consume (s : Store τ) (p : Presentation) (now : τ) : ConsumeResult × Store τ :=
  s.consumeTransaction C p
    (p.activationRef,p.parties.observerRef,p.parties.associationRef,p.purpose) now

inductive Call (τ : Type) where
  | issueTicket (r : TicketRequest τ)
  | consume (p : Presentation) (now : τ)
  | touch (ref : String) (now : τ)
  | evaluate (ref : String) (now : τ)
  | reassociate (ref : String)
  | revokeTicket (ref : String) (now : τ)

/-- The store after a call. -/
def perform (s : Store τ) : Call τ → Store τ
  | .issueTicket r => (issueTicket C s r).2
  | .consume p now => (consume C s p now).2
  | .touch ref now => (s.touchAssociation ref now).2
  | .evaluate ref now => (s.evaluateAssociation C ref now).2
  | .reassociate ref => (s.reassociate ref).2
  | .revokeTicket ref now => (s.revokeTicket ref now).2

end PdFleet.Auth
