import PdFleet.Lib.Dict
import PdFleet.Lib.Window

/-!
# Subscriptions to the event stream

The single-writer store of the gateway: a history of numbered events, subscriptions with
a cursor, an outbox for each subscriber, and tombstones. Clock values are of any type;
`since` is the seconds from one of them to another, as subtraction of floats yields them.
-/

set_option autoImplicit false

namespace PdFleet.Gateway

def IDLE_TTL_S : ℚ := 90
def GRACE_S : ℚ := 60
def CURSOR_TTL_S : ℚ := 900

/-- The canonical codes, and the outcome of a read that delivers. -/
inductive Code where
  | ok
  | invalidRequest
  | associationRequired
  | associationStale
  | cursorStale
  | cursorExpired
  | replayGap
  | noNewEvents
  | invalidProvenance
  deriving DecidableEq, Repr

inductive Lifecycle where
  | observing
  | reconnecting
  | stale
  | detached
  deriving DecidableEq, Repr

structure EventRecord where
  sequence : ℤ
  eventId : String
  deriving DecidableEq, Repr

structure Subscription (τ : Type) where
  subscriberRef : String
  associationRef : String
  streamEpoch : String
  boundaryRef : String
  snapshotSequence : ℤ
  cursorSeq : ℤ
  cursorIssuedAt : τ
  lastHeartbeatAt : τ
  lastHeartbeatSeq : ℤ := 0
  deliveredUpto : ℤ := 0
  state : Lifecycle := .observing
  deriving DecidableEq, Repr

structure ReadResult where
  outcome : Code
  events : List EventRecord := []
  resyncRequired : Bool := false
  deriving DecidableEq, Repr

structure SubscriptionStore (τ : Type) where
  history : List EventRecord := []
  eventIds : Dict String ℤ := ∅
  ingestionCursor : ℤ := 0
  retentionFloor : ℤ := 0
  subscriptions : Dict String (Subscription τ) := ∅
  outbox : Dict String (List ℤ) := ∅
  tombstones : List String := []
  audit : List (String × Code) := []

variable {τ : Type} (since : τ → τ → ℚ)

namespace SubscriptionStore

def note (s : SubscriptionStore τ) (who : String) (code : Code) : SubscriptionStore τ :=
  { s with audit := s.audit++[(who,code)] }

def update (s : SubscriptionStore τ) (ref : String) (sub : Subscription τ) : SubscriptionStore τ :=
  { s with subscriptions := s.subscriptions.insert ref sub }

def subscribe (s : SubscriptionStore τ) (subscriberRef associationRef streamEpoch boundaryRef : String)
    (snapshotSequence : ℤ) (now : τ) : Option (Subscription τ) × SubscriptionStore τ :=
  if subscriberRef = "" ∨ associationRef = "" ∨ streamEpoch = "" ∨ boundaryRef = "" then (none,s)
  else if subscriberRef ∈ s.tombstones then (none,s)
  else
    let subscription : Subscription τ :=
      { subscriberRef := subscriberRef, associationRef := associationRef,
        streamEpoch := streamEpoch, boundaryRef := boundaryRef,
        snapshotSequence := snapshotSequence, cursorSeq := snapshotSequence,
        cursorIssuedAt := now, lastHeartbeatAt := now }
    (some subscription,{ s with subscriptions := s.subscriptions.insert subscriberRef subscription
                                outbox := s.outbox.insert subscriberRef [] })

def append (s : SubscriptionStore τ) (sequence : ℤ) (eventId : String) : Bool × SubscriptionStore τ :=
  if sequence ≠ s.ingestionCursor+1 then (false,s)
  else if sequence ≤ s.retentionFloor then (false,s)
  else if eventId ∈ s.eventIds then (false,s.note eventId .invalidProvenance)
  else (true,{ s with history := s.history++[⟨sequence,eventId⟩]
                      eventIds := s.eventIds.insert eventId sequence
                      ingestionCursor := sequence })

def prune (s : SubscriptionStore τ) (upToSequence : ℤ) : SubscriptionStore τ :=
  let floor := max s.retentionFloor upToSequence
  { s with retentionFloor := floor
           history := s.history.filter (fun e => floor < e.sequence) }

end SubscriptionStore

/-- `_derive_state`, as the subscription it leaves. -/
def Subscription.deriveState (sub : Subscription τ) (now : τ) : Subscription τ :=
  let idle := since now sub.lastHeartbeatAt
  let sub := if sub.state = .observing ∧ IDLE_TTL_S < idle
    then { sub with state := .reconnecting } else sub
  if sub.state = .reconnecting ∧ IDLE_TTL_S+GRACE_S < idle
    then { sub with state := .stale } else sub

namespace SubscriptionStore

def heartbeat (s : SubscriptionStore τ) (ref : String) (heartbeatSequence : ℤ) (now : τ) :
    Bool × SubscriptionStore τ :=
  match s.subscriptions.lookup ref with
  | none => (false,s.note ref .associationRequired)
  | some sub =>
    if ref ∈ s.tombstones then (false,s.note ref .associationRequired)
    else
      let sub := sub.deriveState since now
      if sub.state ≠ .observing ∧ sub.state ≠ .reconnecting then
        (false,(s.update ref sub).note ref .associationStale)
      else if heartbeatSequence ≤ sub.lastHeartbeatSeq then
        (false,(s.update ref sub).note ref .invalidRequest)
      else
        let sub := { sub with lastHeartbeatSeq := heartbeatSequence, lastHeartbeatAt := now }
        (true,s.update ref
          (if sub.state = .reconnecting then { sub with state := .observing } else sub))

def evaluate (s : SubscriptionStore τ) (ref : String) (now : τ) :
    Option Lifecycle × SubscriptionStore τ :=
  match s.subscriptions.lookup ref with
  | none => (none,s)
  | some sub =>
    let sub := sub.deriveState since now
    (some sub.state,s.update ref sub)

def deny (s : SubscriptionStore τ) (ref : String) (code : Code) (resync : Bool) :
    ReadResult × SubscriptionStore τ :=
  ({ outcome := code, resyncRequired := resync },s.note ref code)

def read (s : SubscriptionStore τ) (ref streamEpoch : String) (now : τ) :
    ReadResult × SubscriptionStore τ :=
  match s.subscriptions.lookup ref with
  | none => s.deny ref .associationRequired false
  | some sub =>
    if ref ∈ s.tombstones then s.deny ref .associationRequired false
    else if streamEpoch ≠ sub.streamEpoch then s.deny ref .cursorStale true
    else
      let sub := sub.deriveState since now
      let s := s.update ref sub
      if sub.state = .stale then s.deny ref .associationStale false
      else if CURSOR_TTL_S < since now sub.cursorIssuedAt then s.deny ref .cursorExpired true
      else if sub.cursorSeq < s.retentionFloor then s.deny ref .replayGap true
      else
        let events := s.history.filter (fun e => sub.cursorSeq < e.sequence)
        match events.getLast? with
        | none => ({ outcome := .noNewEvents },s)
        | some last =>
          let outbox := (s.outbox.lookup ref).getD []
          ({ outcome := .ok, events := events },
            { s.update ref { sub with deliveredUpto := max sub.deliveredUpto last.sequence } with
              outbox := s.outbox.insert ref ((events.map (·.sequence)).foldl Window.enqueue outbox) })

def ack (s : SubscriptionStore τ) (ref : String) (sequence : ℤ) : Bool × SubscriptionStore τ :=
  match s.subscriptions.lookup ref, s.outbox.lookup ref with
  | some sub, some outbox =>
    if ref ∈ s.tombstones then (false,s.note ref .associationRequired)
    else if sequence ∉ outbox then (false,s.note ref .invalidRequest)
    else
      let outbox := outbox.erase sequence
      (true,{ s.update ref { sub with
                cursorSeq := Window.advance sub.deliveredUpto outbox sub.cursorSeq } with
              outbox := s.outbox.insert ref outbox })
  | _, _ => (false,s.note ref .associationRequired)

def pending (s : SubscriptionStore τ) (ref : String) : List ℤ := (s.outbox.lookup ref).getD []

def detach (s : SubscriptionStore τ) (ref : String) : Bool × SubscriptionStore τ :=
  match s.subscriptions.lookup ref with
  | none => (false,s)
  | some sub => (true,{ s.update ref { sub with state := .detached } with
                        tombstones := ref :: s.tombstones
                        outbox := s.outbox.insert ref [] })

end SubscriptionStore

/-! ## Calls and what was seen of them -/

inductive Call (τ : Type) where
  | subscribe (subscriberRef associationRef streamEpoch boundaryRef : String)
      (snapshotSequence : ℤ) (now : τ)
  | append (sequence : ℤ) (eventId : String)
  | prune (upToSequence : ℤ)
  | heartbeat (ref : String) (heartbeatSequence : ℤ) (now : τ)
  | evaluate (ref : String) (now : τ)
  | read (ref streamEpoch : String) (now : τ)
  | ack (ref : String) (sequence : ℤ)
  | detach (ref : String)

inductive Answer (τ : Type) where
  | subscription (sub : Option (Subscription τ))
  | flag (b : Bool)
  | state (st : Option Lifecycle)
  | result (r : ReadResult)
  | done

open SubscriptionStore in
def perform (s : SubscriptionStore τ) : Call τ → Answer τ × SubscriptionStore τ
  | .subscribe ref association epoch boundary snapshot now =>
    (s.subscribe ref association epoch boundary snapshot now).map .subscription id
  | .append n id' => (s.append n id').map .flag id
  | .prune n => (.done,s.prune n)
  | .heartbeat ref n now => (s.heartbeat since ref n now).map .flag id
  | .evaluate ref now => (s.evaluate since ref now).map .state id
  | .read ref epoch now => (s.read since ref epoch now).map .result id
  | .ack ref n => (s.ack ref n).map .flag id
  | .detach ref => (s.detach ref).map .flag id

/-- The calls that were made and their answers, the latest first. -/
abbrev Log (τ : Type) := List (Call τ × Answer τ)

def run : List (Call τ) → SubscriptionStore τ × Log τ → SubscriptionStore τ × Log τ
  | [], x => x
  | call :: calls, (s,log) =>
    run calls ((perform since s call).2,(call,(perform since s call).1) :: log)

def opens (ref : String) : Call τ × Answer τ → Bool
  | (.subscribe r _ _ _ _ _,.subscription (some _)) => r = ref
  | _ => false

/-- What was seen since the subscription in force was made. -/
def current (ref : String) (log : Log τ) : Log τ := log.takeWhile (fun e => !opens ref e)

def Ingested (log : Log τ) (n : ℤ) : Prop := ∃ eventId, (Call.append n eventId,Answer.flag true) ∈ log

def Delivered (ref : String) (log : Log τ) (n : ℤ) : Prop :=
  ∃ epoch now r, (Call.read ref epoch now,Answer.result r) ∈ current ref log ∧
    n ∈ r.events.map (·.sequence)

def Acknowledged (ref : String) (log : Log τ) (n : ℤ) : Prop :=
  (Call.ack ref n,Answer.flag true) ∈ current ref log

end PdFleet.Gateway
