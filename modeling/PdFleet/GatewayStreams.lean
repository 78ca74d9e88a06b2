import PdFleet.FakeGateway
import PdFleet.EventRoundTrip
import PdFleet.Lib.Ledger

/-!
# The streams of the gateway are logs

Each association that was ever made has a log of its events, one entry for each number that was
taken, empty where the event could not be made. The gateway keeps the end of the log only, and
what it hands over to a reader is a page of it.
-/

set_option autoImplicit false

namespace PdFleet.Bridge.Fake

open Ledger

variable {U : Nfc} {G : Settings}

/-! ## What is made of an association -/

theorem of_ref_text {s : String} {r : Ref} (h : ref (.str s) = .ok r) : r.val = s := by
  obtain ⟨⟨hs⟩,-,h⟩ := ok_of_bind (show (holds (refText s) >>= _) = _ from h)
  cases h
  rfl

theorem of_ref_optional {o : Option Ref} {r : Ref} (h : ref (optionalText o) = .ok r) :
    o = some r := by
  cases o with
  | none => cases h
  | some s =>
    rw [optionalText, Ref.read] at h
    cases h
    rfl

theorem of_integer_nat {lo hi m : ℕ} {n : Count lo hi} (h : integer lo hi (.int m) = .ok n) :
    n.val = m := by
  have he := of_integer h
  injection he with he
  exact Int.ofNat.inj he.symm

theorem of_listed_text {names : List String} {code : BridgeErrorCode} {reason : Option String}
    {s : String} {t : {s : String // s ∈ names}} (h : listed names code reason (.str s) = .ok t) :
    t.val = s := by
  obtain ⟨_,-,h⟩ := ok_of_bind (show (stringText false false s >>= _) = _ from h)
  split at h
  · cases h
    rfl
  · cases h

/-- An event of an association, with the number that it has given last. -/
structure IsEvent (a : Association U) (type : String) (e : BridgeEvent U) : Prop where
  association : a.ref.association_ref = some e.val.association_ref
  session : a.ref.session_ref = some e.val.session_ref
  epoch : e.val.stream_epoch.val = a.epoch
  number : e.val.sequence.val = a.sequence
  type : e.val.event_type.val = type

theorem isEvent_of_makeEvent {a : Association U} {type : String} {payload : Obj} {now : ℕ}
    {e : BridgeEvent U} (h : makeEvent G a type payload now = .ok e) : IsEvent a type e := by
  delta makeEvent at h
  obtain ⟨_,-,h⟩ := ok_of_bind h
  obtain ⟨_,-,h⟩ := ok_of_bind h
  obtain ⟨_,-,h⟩ := ok_of_bind h
  obtain ⟨s,hs,h⟩ := ok_of_bind h
  obtain ⟨r,hr,h⟩ := ok_of_bind h
  obtain ⟨p,hp,h⟩ := ok_of_bind h
  obtain ⟨_,-,h⟩ := ok_of_bind h
  obtain ⟨k,hk,h⟩ := ok_of_bind h
  obtain ⟨_,-,h⟩ := ok_of_bind h
  obtain ⟨m,-,h⟩ := ok_of_bind h
  obtain ⟨n,hn,h⟩ := ok_of_bind h
  obtain ⟨_,-,h⟩ := ok_of_bind h
  obtain ⟨_,-,h⟩ := ok_of_bind h
  obtain ⟨⟨_⟩,-,h⟩ := ok_of_bind h
  obtain ⟨⟨_⟩,-,h⟩ := ok_of_bind h
  obtain ⟨_,-,h⟩ := ok_of_bind h
  obtain ⟨⟨_⟩,-,h⟩ := ok_of_bind h
  by_cases hm : m = .fleetOwnedTask
  · simp only [hm, if_true] at h
    cases h
  · simp only [hm, if_false] at h
    obtain ⟨⟨_⟩,-,h⟩ := ok_of_bind h
    cases h
    exact ⟨of_ref_optional hr,of_ref_optional hs,of_ref_text hp,of_integer_nat hn,of_listed_text hk⟩

/-- A snapshot of an association. -/
structure IsSnapshot (a : Association U) (s : SessionSnapshot) : Prop where
  association : a.ref.association_ref = some s.association_ref
  session : a.ref.session_ref = some s.session_ref
  mode : s.ownership_mode = a.ref.ownership_mode
  epoch : s.stream_epoch.map (·.val) = some a.epoch
  number : s.sequence.val = a.sequence

theorem isSnapshot_of_snapshotOf {a : Association U} {s : SessionSnapshot}
    (h : snapshotOf a = .ok s) : IsSnapshot a s := by
  rw [snapshotOf] at h
  obtain ⟨i,hi,h⟩ := ok_of_bind h
  obtain ⟨r,hr,h⟩ := ok_of_bind h
  obtain ⟨m,hm,h⟩ := ok_of_bind h
  obtain ⟨_,-,h⟩ := ok_of_bind h
  obtain ⟨n,hn,h⟩ := ok_of_bind h
  obtain ⟨_,-,h⟩ := ok_of_bind h
  obtain ⟨p,hp,h⟩ := ok_of_bind h
  obtain ⟨q,hq,hp⟩ := ok_of_bind (show (ref (.str a.epoch) >>= _) = _ from hp)
  rw [ownershipMode_value] at hm
  cases hm
  cases hp
  cases h
  exact ⟨of_ref_optional hr,of_ref_optional hi,rfl,congrArg some (of_ref_text hq),of_integer_nat hn⟩

/-- A cursor of an association at a number. -/
structure IsCursor (a : Association U) (n : ℕ) (c : BridgeCursor) : Prop where
  association : a.ref.association_ref = some c.association_ref
  subscriber : a.binding.observerRef = some c.subscriber_ref
  epoch : c.stream_epoch.val = a.epoch
  number : c.last_sequence.val = n

theorem isCursor_of_cursorOf {a : Association U} {n now : ℕ} {c : BridgeCursor}
    (h : cursorOf G a n now = .ok c) : IsCursor a n c := by
  unfold cursorOf at h
  split at h
  · cases h
  · obtain ⟨_,-,h⟩ := ok_of_bind h
    obtain ⟨r,hr,h⟩ := ok_of_bind h
    obtain ⟨s,hs,h⟩ := ok_of_bind h
    obtain ⟨p,hp,h⟩ := ok_of_bind h
    obtain ⟨m,hm,h⟩ := ok_of_bind h
    obtain ⟨_,-,h⟩ := ok_of_bind h
    obtain ⟨_,-,h⟩ := ok_of_bind h
    obtain ⟨⟨_⟩,-,h⟩ := ok_of_bind h
    cases h
    exact ⟨of_ref_optional hr,of_ref_optional hs,of_ref_text hp,of_integer_nat hm⟩

/-! ## Logs -/

/-- The log of each epoch. -/
abbrev Logs (U : Nfc) := String → List (Option (BridgeEvent U))

def number (e : BridgeEvent U) : ℕ := e.val.sequence.val

/-- The event ends its association. -/
def isFinal (e : BridgeEvent U) : Bool :=
  e.val.event_type.val = "session.detached" || e.val.event_type.val = "session.ended"

/-- The log of one epoch: its events are numbered, are of one association and of the epoch, and
only the last of them can be final. -/
structure Sound (epoch : String) (log : List (Option (BridgeEvent U))) : Prop where
  numbered : Numbered number log
  epoch : ∀ e ∈ log.reduceOption, e.val.stream_epoch.val = epoch
  association : ∀ e ∈ log.reduceOption, ∀ e' ∈ log.reduceOption,
    e.val.association_ref = e'.val.association_ref ∧ e.val.session_ref = e'.val.session_ref
  final : ∀ e ∈ log.reduceOption, isFinal e = true → number e = log.length

/-- An association is the end of its log. -/
structure Follows (G : Settings) (key : String) (a : Association U)
    (log : List (Option (BridgeEvent U))) : Prop where
  key : keyOf a.ref.association_ref = key
  mode : a.ref.ownership_mode = .userOwnedSession
  sequence : a.sequence = log.length
  events : a.events = kept G.retention log
  own : ∀ e ∈ log.reduceOption, a.ref.association_ref = some e.val.association_ref ∧
    a.ref.session_ref = some e.val.session_ref
  unfinished : a.revoked = false → ∀ e ∈ log.reduceOption, isFinal e = false

theorem epochText_inj {m n : ℕ} (h : epochText m = epochText n) : m = n := by
  have hl := congrArg String.toList h
  rw [epochText, epochText, String.toList_append, String.toList_append,
    List.append_cancel_left_eq] at hl
  exact Nat.repr_injective (String.toList_inj.mp hl)

/-- The gateway keeps the ends of the logs; numbers that the counter has not reached are of no
epoch yet. -/
structure Serves (G : Settings) (g : Gateway U) (logs : Logs U) : Prop where
  sound : ∀ epoch, Sound epoch (logs epoch)
  fresh : ∀ n, g.counter < n → logs (epochText n) = []
  epoch : ∀ key a, g.associations key = some a → ∃ n ≤ g.counter, a.epoch = epochText n
  apart : ∀ key a key' a', g.associations key = some a → g.associations key' = some a' →
    a.epoch = a'.epoch → key = key'
  follows : ∀ key a, g.associations key = some a → Follows G key a (logs a.epoch)

/-- Logs only grow. -/
def Grown (logs logs' : Logs U) : Prop := ∀ epoch, logs epoch <+: logs' epoch

theorem Grown.refl (logs : Logs U) : Grown logs logs := fun _ => List.prefix_refl _

theorem Grown.trans {logs logs' logs'' : Logs U} (h : Grown logs logs') (h' : Grown logs' logs'') :
    Grown logs logs'' := fun epoch => (h epoch).trans (h' epoch)

theorem sound_nil (epoch : String) : Sound (U := U) epoch [] := by
  constructor
  · exact numbered_nil
  · intro e he
    cases he
  · intro e he
    cases he
  · intro e he
    cases he

variable {g : Gateway U} {logs : Logs U}

theorem serves_start : Serves G (Gateway.start (U := U)) (fun _ => []) where
  sound := sound_nil
  fresh _ _ := rfl
  epoch _ _ h := by cases h
  apart _ _ _ _ h := by cases h
  follows _ _ h := by cases h

/-- The tables of associations and the counter are what matters. -/
theorem Serves.of_same {g' : Gateway U} (h : Serves G g logs)
    (ha : g'.associations = g.associations) (hc : g.counter ≤ g'.counter) :
    Serves G g' logs := by
  constructor
  · exact h.sound
  · intro n hn
    exact h.fresh n (by omega)
  · intro key a hget
    rw [ha] at hget
    obtain ⟨n,hn,he⟩ := h.epoch key a hget
    exact ⟨n,by omega,he⟩
  · rw [ha]
    exact h.apart
  · rw [ha]
    exact h.follows

theorem Serves.forget {g' : Gateway U} (h : Serves G g logs)
    (ha : ∀ key, g'.associations key = none) (hc : g.counter ≤ g'.counter) : Serves G g' logs := by
  constructor
  · exact h.sound
  · intro n hn
    exact h.fresh n (by omega)
  · intro key a hget
    rw [ha] at hget
    cases hget
  · intro key a key' a' hget
    rw [ha] at hget
    cases hget
  · intro key a hget
    rw [ha] at hget
    cases hget

/-! ## Making an event -/

/-- The log after a number was taken. -/
def Logs.add (logs : Logs U) (epoch : String) (e : Option (BridgeEvent U)) : Logs U :=
  Function.update logs epoch (logs epoch++[e])

theorem grown_add (logs : Logs U) (epoch : String) (e : Option (BridgeEvent U)) :
    Grown logs (logs.add epoch e) := by
  intro other
  by_cases ho : other = epoch
  · rw [ho, Logs.add, Function.update_self]
    exact List.prefix_append _ _
  · rw [Logs.add, Function.update_of_ne ho]

/-- The association `b` differs from `a` in its status and heartbeat only. -/
structure Touched (a b : Association U) : Prop where
  ref : b.ref = a.ref
  epoch : b.epoch = a.epoch
  sequence : b.sequence = a.sequence
  events : b.events = a.events

/-- The event types that end an association. -/
def finalType (type : String) : Prop := type = "session.detached" ∨ type = "session.ended"

theorem isFinal_iff {e : BridgeEvent U} : isFinal e = true ↔ finalType e.val.event_type.val := by
  rw [isFinal, Bool.or_eq_true, decide_eq_true_eq, decide_eq_true_eq, finalType]

theorem append_fst (b : Association U) (type : String) (payload : Obj) (now : ℕ) :
    (append G b type payload now).1 = b.numbered.keep G (append G b type payload now).2 := by
  delta append
  generalize makeEvent G b.numbered type payload now = x
  rfl

theorem isEvent_of_append {b : Association U} {type : String} {payload : Obj} {now : ℕ}
    {e : BridgeEvent U} (h : (append G b type payload now).2 = .ok e) :
    IsEvent b.numbered type e := isEvent_of_makeEvent h

theorem keep_epoch (b : Association U) (x : Except Raised (BridgeEvent U)) :
    (b.keep G x).epoch = b.epoch := by
  cases x with
  | error e => rfl
  | ok e => rfl

/-- What an entry adds to a log without a final event. -/
theorem Follows.add {key : String} {a b : Association U} {log : List (Option (BridgeEvent U))}
    (hf : Follows G key a log) (hb : Touched a b) {type : String} {payload : Obj} {now : ℕ}
    (hopen : a.revoked = false) (htype : finalType type → b.revoked = true) :
    Follows G key (append G b type payload now).1
      (log++[(append G b type payload now).2.toOption]) := by
  have hevent : ∀ e, (append G b type payload now).2 = .ok e → IsEvent b.numbered type e :=
    fun e => isEvent_of_append
  rw [append_fst]
  cases hx : (append G b type payload now).2 with
  | error x =>
    rw [Except.toOption, Association.keep, Association.numbered]
    constructor
    · rw [hb.ref, hf.key]
    · rw [hb.ref, hf.mode]
    · rw [hb.sequence, hf.sequence, List.length_append, List.length_singleton]
    · rw [kept_none]
      exact hb.events.trans hf.events
    · rw [reduceOption_none, hb.ref]
      exact hf.own
    · rw [reduceOption_none]
      intro _
      exact hf.unfinished hopen
  | ok e =>
    have he := hevent e hx
    rw [Except.toOption, Association.keep, Association.numbered]
    constructor
    · rw [hb.ref, hf.key]
    · rw [hb.ref, hf.mode]
    · rw [hb.sequence, hf.sequence, List.length_append, List.length_singleton]
    · rw [kept_some G.retention_pos, hb.events, hf.events]
    · rw [reduceOption_some]
      intro e' he'
      rcases List.mem_append.mp he' with he' | he'
      · rw [hb.ref]
        exact hf.own e' he'
      · rw [List.mem_singleton.mp he']
        exact ⟨he.association,he.session⟩
    · rw [reduceOption_some]
      intro hr e' he'
      rcases List.mem_append.mp he' with he' | he'
      · exact hf.unfinished hopen e' he'
      · rw [List.mem_singleton.mp he', Bool.eq_false_iff]
        intro hfin
        rw [isFinal_iff, he.type] at hfin
        rw [htype hfin] at hr
        cases hr

theorem Sound.add {key epoch : String} {a b : Association U} {log : List (Option (BridgeEvent U))}
    (hs : Sound epoch log) (hf : Follows G key a log) (hb : Touched a b) (ha : a.epoch = epoch)
    {type : String} {payload : Obj} {now : ℕ} (hopen : a.revoked = false) :
    Sound epoch (log++[(append G b type payload now).2.toOption]) := by
  have hevent : ∀ e, (append G b type payload now).2 = .ok e → IsEvent b.numbered type e :=
    fun e => isEvent_of_append
  cases hx : (append G b type payload now).2 with
  | error x =>
    rw [Except.toOption]
    constructor
    · exact hs.numbered.snoc (by simp)
    · rw [reduceOption_none]
      exact hs.epoch
    · rw [reduceOption_none]
      exact hs.association
    · rw [reduceOption_none]
      intro e he hfin
      rw [hf.unfinished hopen e he] at hfin
      cases hfin
  | ok e =>
    have he := hevent e hx
    have hnum : number e = log.length+1 := by
      have hn : e.val.sequence.val = b.sequence+1 := he.number
      rw [number, hn, hb.sequence, hf.sequence]
    have hsame : ∀ e' ∈ log.reduceOption, e'.val.association_ref = e.val.association_ref ∧
        e'.val.session_ref = e.val.session_ref := by
      intro e' he'
      obtain ⟨h1,h2⟩ := hf.own e' he'
      have h3 : a.ref.association_ref = some e.val.association_ref := hb.ref ▸ he.association
      have h4 : a.ref.session_ref = some e.val.session_ref := hb.ref ▸ he.session
      rw [h1] at h3
      rw [h2] at h4
      exact ⟨Option.some.inj h3,Option.some.inj h4⟩
    rw [Except.toOption]
    constructor
    · apply hs.numbered.snoc
      intro x hx
      cases hx
      exact hnum
    · rw [reduceOption_some]
      intro e' he'
      rcases List.mem_append.mp he' with he' | he'
      · exact hs.epoch e' he'
      · rw [List.mem_singleton.mp he', ← ha, ← hb.epoch]
        exact he.epoch
    · rw [reduceOption_some]
      intro x hx y hy
      rcases List.mem_append.mp hx with hx | hx <;> rcases List.mem_append.mp hy with hy | hy
      · exact hs.association x hx y hy
      · rw [List.mem_singleton.mp hy]
        exact hsame x hx
      · rw [List.mem_singleton.mp hx]
        exact ⟨(hsame y hy).1.symm,(hsame y hy).2.symm⟩
      · rw [List.mem_singleton.mp hx, List.mem_singleton.mp hy]
        exact ⟨rfl,rfl⟩
    · rw [reduceOption_some]
      intro e' he' hfin
      rcases List.mem_append.mp he' with he' | he'
      · rw [hf.unfinished hopen e' he'] at hfin
        cases hfin
      · rw [List.mem_singleton.mp he', hnum, List.length_append, List.length_singleton]

@[simp] theorem put_associations (g : Gateway U) (key : String) (a : Association U) :
    (g.put key a).associations = Function.update g.associations key (some a) := rfl

/-- An event of an association that is not revoked goes to its log. -/
theorem Serves.append {key : String} {a b : Association U} (h : Serves G g logs)
    (hget : g.associations key = some a) (hb : Touched a b) (type : String) (payload : Obj)
    (now : ℕ) (hopen : a.revoked = false) (htype : finalType type → b.revoked = true) :
    Serves G (g.put key (append G b type payload now).1)
      (logs.add a.epoch (append G b type payload now).2.toOption) := by
  have hf := h.follows key a hget
  have hepoch : (Fake.append G b type payload now).1.epoch = a.epoch := by
    rw [append_fst, keep_epoch, ← hb.epoch]
    rfl
  constructor
  · intro epoch
    by_cases ho : epoch = a.epoch
    · rw [ho, Logs.add, Function.update_self]
      exact (h.sound a.epoch).add hf hb rfl hopen
    · rw [Logs.add, Function.update_of_ne ho]
      exact h.sound epoch
  · intro n hn
    obtain ⟨m,hm,he⟩ := h.epoch key a hget
    have hne : epochText n ≠ a.epoch := by
      intro heq
      rw [he] at heq
      have := epochText_inj heq
      have : g.counter < n := hn
      omega
    rw [Logs.add, Function.update_of_ne hne]
    exact h.fresh n hn
  · intro other c hc
    rw [put_associations] at hc
    by_cases ho : other = key
    · rw [ho, Function.update_self, Option.some.injEq] at hc
      rw [← hc, hepoch]
      exact h.epoch key a hget
    · rw [Function.update_of_ne ho] at hc
      exact h.epoch other c hc
  · intro k1 c1 k2 c2 h1 h2 heq
    rw [put_associations] at h1 h2
    by_cases e1 : k1 = key <;> by_cases e2 : k2 = key
    · rw [e1, e2]
    · rw [e1, Function.update_self, Option.some.injEq] at h1
      rw [Function.update_of_ne e2] at h2
      rw [e1]
      apply h.apart key a k2 c2 hget h2
      rw [← hepoch, h1, heq]
    · rw [e2, Function.update_self, Option.some.injEq] at h2
      rw [Function.update_of_ne e1] at h1
      rw [e2]
      apply h.apart k1 c1 key a h1 hget
      rw [heq, ← h2, hepoch]
    · rw [Function.update_of_ne e1] at h1
      rw [Function.update_of_ne e2] at h2
      exact h.apart k1 c1 k2 c2 h1 h2 heq
  · intro other c hc
    rw [put_associations] at hc
    by_cases ho : other = key
    · rw [ho, Function.update_self, Option.some.injEq] at hc
      rw [← hc, hepoch, Logs.add, Function.update_self, ho]
      exact hf.add hb hopen htype
    · rw [Function.update_of_ne ho] at hc
      have hne : c.epoch ≠ a.epoch := fun heq => ho (h.apart other c key a hc hget heq)
      rw [Logs.add, Function.update_of_ne hne]
      exact h.follows other c hc

/-! ## What a call does to the logs -/

/-- The event is in the log of its epoch. -/
def Logged (logs : Logs U) (e : BridgeEvent U) : Prop := some e ∈ logs e.val.stream_epoch.val

theorem Logged.grown {logs' : Logs U} {e : BridgeEvent U} (h : Logged logs e)
    (hg : Grown logs logs') : Logged logs' e := (hg _).subset h

theorem logged_append {a b : Association U} (hb : Touched a b) {type : String} {payload : Obj}
    {now : ℕ} {e : BridgeEvent U} (he : (append G b type payload now).2 = .ok e) :
    Logged (logs.add a.epoch (append G b type payload now).2.toOption) e := by
  have hepoch : e.val.stream_epoch.val = a.epoch := (isEvent_of_append he).epoch.trans hb.epoch
  rw [Logged, hepoch, Logs.add, Function.update_self, he]
  exact List.mem_append_right _ (List.mem_singleton_self _)

/-- From one gateway to another the logs grow. -/
def Advances (G : Settings) (g g' : Gateway U) : Prop :=
  ∀ logs, Serves G g logs → ∃ logs', Grown logs logs' ∧ Serves G g' logs'

theorem Advances.trans {g' g'' : Gateway U} (h : Advances G g g') (h' : Advances G g' g'') :
    Advances G g g'' := by
  intro logs hs
  obtain ⟨logs',hg,hs⟩ := h logs hs
  obtain ⟨logs'',hg',hs⟩ := h' logs' hs
  exact ⟨logs'',hg.trans hg',hs⟩

theorem advances_same {g' : Gateway U} (ha : g'.associations = g.associations)
    (hc : g.counter ≤ g'.counter) : Advances G g g' :=
  fun logs hs => ⟨logs,Grown.refl logs,hs.of_same ha hc⟩

theorem advances_append {key : String} {a b : Association U}
    (hget : g.associations key = some a) (hb : Touched a b) (type : String) (payload : Obj)
    (now : ℕ) (hopen : a.revoked = false) (htype : finalType type → b.revoked = true) :
    Advances G g (g.put key (append G b type payload now).1) :=
  fun logs hs => ⟨_,grown_add logs _ _,hs.append hget hb type payload now hopen htype⟩

theorem find_ok {o : ObserverIdentity} {key : String} {a : Association U}
    (h : find g o key = .ok a) : g.associations key = some a ∧ bound o a = true := by
  unfold find at h
  cases hg : g.associations key with
  | none =>
    rw [hg] at h
    cases h
  | some b =>
    rw [hg] at h
    dsimp only at h
    split at h
    · cases h
      exact ⟨rfl,‹_›⟩
    · cases h

theorem stateOf_ok {o : ObserverIdentity} {key : String} {a : Association U}
    (h : stateOf g o key = .ok a) :
    g.associations key = some a ∧ bound o a = true ∧ a.revoked = false := by
  obtain ⟨b,hb,h⟩ := ok_of_bind h
  obtain ⟨hget,hbound⟩ := find_ok hb
  split at h
  · cases h
  · cases h
    exact ⟨hget,hbound,Bool.eq_false_iff.mpr ‹_›⟩

/-- The association that a heartbeat beats. -/
theorem heartbeat_cases (g : Gateway U) (o : ObserverIdentity) (association : Target)
    (now later : ℕ) :
    (∃ e, heartbeat G g o association now later = (g,.error e)) ∨
    ∃ key a, g.associations key = some a ∧ bound o a = true ∧ a.revoked = false ∧
      ∃ p, p = append G (a.beaten now) "session.heartbeat"
        (heartbeatPayload G (a.beaten now) now) later ∧
      heartbeat G g o association now later = (g.put key p.1,
        contract (p.2 >>= fun e => (snapshotOf p.1).map (fun s => (s,e)))) := by
  unfold heartbeat
  cases hx : (ensureConnected g o none >>= fun _ => associationRef association >>= fun key =>
      (stateOf g o key).map (fun a => (key,a))) with
  | error e => exact .inl ⟨e,rfl⟩
  | ok p =>
    obtain ⟨key,a⟩ := p
    obtain ⟨_,-,hx⟩ := ok_of_bind hx
    obtain ⟨k,-,hx⟩ := ok_of_bind hx
    cases hs : stateOf g o k with
    | error e =>
      rw [hs] at hx
      cases hx
    | ok b =>
      rw [hs] at hx
      cases hx
      obtain ⟨hget,hbound,hopen⟩ := stateOf_ok hs
      exact .inr ⟨key,a,hget,hbound,hopen,_,rfl,rfl⟩

/-- A call of the first time that an association is revoked. -/
theorem revoke_cases (g : Gateway U) (o : ObserverIdentity) (association : Target) (now : ℕ) :
    (∃ x, revoke G g o association now = (g,x) ∧ ∀ e, x ≠ .ok (some e)) ∨
    ∃ key a, g.associations key = some a ∧ bound o a = true ∧ a.revoked = false ∧
      ∃ p, p = append G a.detached "session.detached" (detachedPayload a) now ∧
      revoke G g o association now = (g.put key p.1,contract (p.2.map some)) := by
  unfold revoke
  dsimp only
  cases hx : (ensureConnected g o none >>= fun _ => find g o _) with
  | error e =>
    left
    refine ⟨_,rfl,?_⟩
    intro e' h
    cases h
  | ok a =>
    obtain ⟨_,-,hx⟩ := ok_of_bind hx
    obtain ⟨hget,hbound⟩ := find_ok hx
    dsimp only
    split
    · left
      refine ⟨_,rfl,?_⟩
      intro e' h
      cases h
    · right
      exact ⟨_,a,hget,hbound,Bool.eq_false_iff.mpr ‹_›,_,rfl,rfl⟩

theorem not_final_heartbeat : ¬ finalType "session.heartbeat" := by
  simp [finalType]

theorem not_final_registered : ¬ finalType "session.registered" := by
  simp [finalType]

theorem contract_ok {α : Type} {x : Except Raised α} {y : α} (h : contract x = .ok y) :
    x = .ok y := by
  cases x with
  | error e => cases h
  | ok z =>
    cases h
    rfl

theorem touched_beaten (a : Association U) (now : ℕ) : Touched a (a.beaten now) :=
  ⟨rfl,rfl,rfl,rfl⟩

theorem touched_detached (a : Association U) : Touched a a.detached := ⟨rfl,rfl,rfl,rfl⟩

theorem touched_ended (a : Association U) : Touched a a.ended := ⟨rfl,rfl,rfl,rfl⟩

/-- A heartbeat's event is in the log. -/
theorem heartbeat_logs (hs : Serves G g logs) (o : ObserverIdentity) (association : Target)
    (now later : ℕ) : ∃ logs', Grown logs logs' ∧
      Serves G (heartbeat G g o association now later).1 logs' ∧
      ∀ s e, (heartbeat G g o association now later).2 = .ok (s,e) → Logged logs' e := by
  rcases heartbeat_cases (G := G) g o association now later with ⟨e,he⟩ |
    ⟨key,a,hget,-,hopen,p,hp,he⟩
  · rw [he]
    refine ⟨logs,Grown.refl logs,hs,?_⟩
    intro s x h
    cases h
  · have ht := touched_beaten a now
    rw [he]
    refine ⟨logs.add a.epoch p.2.toOption,grown_add logs _ _,?_,?_⟩
    · rw [hp]
      exact hs.append hget ht _ _ later hopen (fun h => absurd h not_final_heartbeat)
    · intro s e h
      obtain ⟨e',he',h⟩ := ok_of_bind (contract_ok h)
      cases hsnap : snapshotOf p.1 with
      | error x =>
        rw [hsnap] at h
        cases h
      | ok s' =>
        rw [hsnap] at h
        cases h
        rw [hp] at he' ⊢
        exact logged_append ht he'

/-- The event of a revocation is in the log. -/
theorem revoke_logs (hs : Serves G g logs) (o : ObserverIdentity) (association : Target)
    (now : ℕ) : ∃ logs', Grown logs logs' ∧ Serves G (revoke G g o association now).1 logs' ∧
      ∀ e, (revoke G g o association now).2 = .ok (some e) → Logged logs' e := by
  rcases revoke_cases (G := G) g o association now with ⟨x,hx,hno⟩ |
    ⟨key,a,hget,-,hopen,p,hp,he⟩
  · rw [hx]
    refine ⟨logs,Grown.refl logs,hs,?_⟩
    intro e h
    exact absurd h (hno e)
  · have ht := touched_detached a
    rw [he]
    refine ⟨logs.add a.epoch p.2.toOption,grown_add logs _ _,?_,?_⟩
    · rw [hp]
      exact hs.append hget ht _ _ now hopen (fun _ => rfl)
    · intro e h
      have hm := contract_ok h
      cases hx : p.2 with
      | error x =>
        rw [hx] at hm
        cases hm
      | ok e' =>
        rw [hx] at hm
        cases hm
        rw [← hx]
        rw [hp] at hx ⊢
        exact logged_append ht hx

theorem advances_expireFrom (now : ℕ) (later : String → ℕ) (keys : List String) :
    ∀ (g : Gateway U) (changed : ℕ), Advances G g (expireFrom G now later keys g changed).1 := by
  induction keys with
  | nil =>
    intro g changed
    exact advances_same rfl le_rfl
  | cons key keys ih =>
    intro g changed
    rw [expireFrom]
    cases hget : g.associations key with
    | none => exact ih g changed
    | some a =>
      dsimp only
      split
      · rename_i hstale
        have hopen : a.revoked = false := by
          rw [isStale, Bool.and_eq_true, Bool.not_eq_true'] at hstale
          exact hstale.1
        have hadv := advances_append (G := G) (g := g) hget (touched_ended a)
          "session.ended" (endedPayload a) (later key) hopen (fun _ => rfl)
        split
        · exact hadv
        · exact hadv.trans (ih _ _)
      · exact ih g changed

theorem advances_refl (g : Gateway U) : Advances G g g := advances_same rfl le_rfl

/-- An association that is made has an empty log. -/
theorem Serves.register {key : String} {a : Association U} (h : Serves G g logs)
    (hkey : keyOf a.ref.association_ref = key)
    (hmode : a.ref.ownership_mode = .userOwnedSession)
    (hepoch : a.epoch = epochText (g.counter+1)) (hsequence : a.sequence = 0)
    (hevents : a.events = []) {g' : Gateway U}
    (ha : g'.associations = Function.update g.associations key (some a))
    (hc : g'.counter = g.counter+1) : Serves G g' logs := by
  have hlog : logs a.epoch = [] := by
    rw [hepoch]
    exact h.fresh _ (Nat.lt_succ_self _)
  have hother : ∀ k c, g.associations k = some c → c.epoch ≠ a.epoch := by
    intro k c hget heq
    obtain ⟨n,hn,he⟩ := h.epoch k c hget
    rw [he, hepoch] at heq
    have := epochText_inj heq
    omega
  constructor
  · exact h.sound
  · intro n hn
    exact h.fresh n (by omega)
  · intro k c hget
    rw [ha] at hget
    by_cases hk : k = key
    · rw [hk, Function.update_self, Option.some.injEq] at hget
      exact ⟨g.counter+1,hc.ge,hget ▸ hepoch⟩
    · rw [Function.update_of_ne hk] at hget
      obtain ⟨n,hn,he⟩ := h.epoch k c hget
      exact ⟨n,by omega,he⟩
  · intro k1 c1 k2 c2 h1 h2 heq
    rw [ha] at h1 h2
    by_cases e1 : k1 = key <;> by_cases e2 : k2 = key
    · rw [e1, e2]
    · rw [e1, Function.update_self, Option.some.injEq] at h1
      rw [Function.update_of_ne e2] at h2
      rw [← h1] at heq
      exact absurd heq.symm (hother k2 c2 h2)
    · rw [e2, Function.update_self, Option.some.injEq] at h2
      rw [Function.update_of_ne e1] at h1
      rw [← h2] at heq
      exact absurd heq (hother k1 c1 h1)
    · rw [Function.update_of_ne e1] at h1
      rw [Function.update_of_ne e2] at h2
      exact h.apart k1 c1 k2 c2 h1 h2 heq
  · intro k c hget
    rw [ha] at hget
    by_cases hk : k = key
    · rw [hk, Function.update_self, Option.some.injEq] at hget
      rw [← hget, hlog, hk]
      constructor
      · exact hkey
      · exact hmode
      · exact hsequence
      · rw [hevents, kept]
        simp
      · intro e he
        cases he
      · intro _ e he
        cases he
    · rw [Function.update_of_ne hk] at hget
      exact h.follows k c hget

theorem advances_consumeFirst (g : Gateway U) (value key : String) (item : Ticket)
    {assoc : AssociationRef} (hmode : assoc.ownership_mode ≠ .fleetOwnedTask) (now later : ℕ) :
    Advances G g (consumeFirst G g value key item assoc now later).1 := by
  have hmode' : assoc.ownership_mode = .userOwnedSession := by
    cases hm : assoc.ownership_mode with
    | userOwnedSession => rfl
    | fleetOwnedTask => exact absurd hm hmode
  rw [consumeFirst]
  cases hget : g.associations (keyOf assoc.association_ref) with
  | some a =>
    dsimp only
    split
    · exact advances_refl g
    · exact advances_same rfl le_rfl
  | none =>
    intro logs hs
    dsimp only
    generalize ha : newAssociation (U := U) assoc item.binding (epochText (g.counter+1)) now = a
    -- first without its first event
    have hreg : Serves G (Gateway.put { { g with counter := g.counter+1 }.consume value item key
        assoc with order := g.order++[keyOf assoc.association_ref] }
          (keyOf assoc.association_ref) a) logs := by
      apply hs.register (a := a)
      · rw [← ha, newAssociation]
      · rw [← ha, newAssociation]
        exact hmode'
      · rw [← ha, newAssociation]
      · rw [← ha, newAssociation]
      · rw [← ha, newAssociation]
      · rfl
      · rfl
    have hself : Touched a a := ⟨rfl,rfl,rfl,rfl⟩
    have hopen : a.revoked = false := by rw [← ha, newAssociation]
    have happ := hreg.append (Function.update_self (keyOf assoc.association_ref) _ _) hself
      "session.registered" (registered a) later hopen
      (fun h => absurd h not_final_registered)
    refine ⟨_,grown_add logs _ _,happ.of_same ?_ le_rfl⟩
    exact (Function.update_idem _ _ _).symm

theorem advances_consumeActivation (g : Gateway U) (o : ObserverIdentity) (r : Consume)
    (now later : ℕ) : Advances G g (consumeActivation G g o r now later).1 := by
  unfold consumeActivation
  split
  · rename_i key
    split_ifs
    · exact advances_refl g
    · split
      · exact advances_refl g
      · rename_i value item
        unfold consumeTicket
        split_ifs
        · exact advances_refl g
        · exact advances_refl g
        · split
          · split
            · exact advances_refl g
            · exact advances_refl g
          · split
            · exact advances_refl g
            · split_ifs with hm
              · exact advances_refl g
              · exact advances_consumeFirst g _ _ _ hm now later
  · exact advances_refl g

theorem advances_issueActivation (g : Gateway U) (o : ObserverIdentity) (r : Issue) (now : ℕ) :
    Advances G g (issueActivation G g o r now).1 := by
  have hchosen : (chosenRef g r).1.associations = g.associations ∧
      g.counter ≤ (chosenRef g r).1.counter := by
    rw [chosenRef]
    split_ifs
    · exact ⟨rfl,le_rfl⟩
    · exact ⟨rfl,Nat.le_succ _⟩
  unfold issueActivation
  split_ifs
  · exact advances_refl g
  · split
    · exact advances_refl g
    · dsimp only
      split
      · exact advances_same hchosen.1 hchosen.2
      · rename_i requested _
        unfold issueTicket
        dsimp only
        split_ifs
        · exact advances_same hchosen.1 hchosen.2
        · exact advances_same hchosen.1 (hchosen.2.trans (Nat.le_succ _))
        · exact advances_same hchosen.1 (hchosen.2.trans (Nat.le_succ _))

end PdFleet.Bridge.Fake
