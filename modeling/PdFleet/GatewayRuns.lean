import PdFleet.GatewayPages

/-!
# Runs of the gateway

What one call does to the logs, over any sequence of calls, and when the bridge that asks the
gateway takes its answers.
-/

set_option autoImplicit false

namespace PdFleet.Bridge.Fake

open Ledger

variable {U : Nfc} {G : Settings} {g : Gateway U} {logs : Logs U}

/-! ## What an answer says of the logs -/

/-- A reader's next answer: it goes on after its cursor, in the same stream. -/
structure Continues (logs : Logs U) (c : BridgeCursor) (limit : ℕ) (r : StreamResult U) : Prop where
  new : r.events ≠ []
  association : r.cursor.association_ref = c.association_ref
  epoch : r.cursor.stream_epoch = c.stream_epoch
  subscriber : r.cursor.subscriber_ref = c.subscriber_ref
  served : Served logs c.last_sequence.val limit r

/-- An answer is of the kind of its request: streams are pages of the logs, lists of events too,
and an event that a call reports is in its log. -/
def Explained (logs : Logs U) : Request → Reply U → Prop
  | .issueActivation _ _, .ticket _ => True
  | .consumeActivation _ _ _, .association _ => True
  | .snapshot _, .snapshot _ => True
  | .replay window cursor _ _, .stream r =>
    Served logs window.after_sequence.val window.limit.val r ∧
      ∀ c, cursor = some c → Continues logs c window.limit.val r
  | .subscribe _ none limit _ _, .stream r => limitOf limit ≤ MAX_REPLAY_BATCH ∧
    ∃ after, Served logs after (limitOf limit) r
  | .subscribe _ (some c) limit _ _, .stream r => limitOf limit ≤ MAX_REPLAY_BATCH ∧
    Continues logs c (limitOf limit) r
  | .events _ limit, .events es => es.length ≤ limitOf limit ∧
    ∃ epoch a b, b ≤ (logs epoch).length ∧ es = page (logs epoch) a b
  | .heartbeat _ _ _, .heartbeat _ e => Logged logs e
  | .revoke _ _, .revoked none => True
  | .revoke _ _, .revoked (some e) => Logged logs e
  | _, _ => False

theorem Continues.grown {logs' : Logs U} {c : BridgeCursor} {limit : ℕ} {r : StreamResult U}
    (h : Continues logs c limit r) (hg : Grown logs logs') : Continues logs' c limit r where
  new := h.new
  association := h.association
  epoch := h.epoch
  subscriber := h.subscriber
  served := h.served.grown hg

theorem Explained.grown {logs' : Logs U} {req : Request} {reply : Reply U}
    (h : Explained logs req reply) (hg : Grown logs logs') : Explained logs' req reply := by
  cases req with
  | replay window cursor now later =>
    cases reply with
    | stream r => exact ⟨h.1.grown hg,fun c hc => (h.2 c hc).grown hg⟩
    | _ => exact h
  | subscribe association cursor limit now later =>
    cases reply with
    | stream r =>
      cases cursor with
      | none =>
        obtain ⟨hl,after,h⟩ := h
        exact ⟨hl,after,h.grown hg⟩
      | some c => exact ⟨h.1,h.2.grown hg⟩
    | _ => cases cursor <;> exact h
  | events association limit =>
    cases reply with
    | events es =>
      obtain ⟨hle,epoch,a,b,hb,he⟩ := h
      refine ⟨hle,epoch,a,b,hb.trans (hg epoch).length_le,?_⟩
      rw [page_grown (hg epoch) a hb]
      exact he
    | _ => exact h
  | heartbeat association now later =>
    cases reply with
    | heartbeat s e => exact Logged.grown h hg
    | _ => exact h
  | revoke association now =>
    cases reply with
    | revoked e =>
      cases e with
      | none => trivial
      | some e => exact Logged.grown h hg
    | _ => exact h
  | issueActivation r now =>
    cases reply <;> exact h
  | consumeActivation r now later =>
    cases reply <;> exact h
  | snapshot association =>
    cases reply <;> exact h

theorem replay_explained (hs : Serves G g logs) {o : ObserverIdentity} {window : ReplayWindow}
    {cursor : Option BridgeCursor} {now later : ℕ} {r : StreamResult U}
    (h : replay G g o window cursor now later = .ok r) :
    Served logs window.after_sequence.val window.limit.val r ∧
      ∀ c, cursor = some c → Continues logs c window.limit.val r := by
  obtain ⟨hnew,hepoch,hserved⟩ := replay_served hs h
  refine ⟨hserved,?_⟩
  intro c hc
  obtain ⟨_,-,h⟩ := ok_of_bind h
  obtain ⟨a,ha,h⟩ := ok_of_bind h
  obtain ⟨snapshot,hsnap,h⟩ := ok_of_bind h
  obtain ⟨events,hevents,h⟩ := ok_of_bind h
  obtain ⟨c',hc',hr⟩ := ok_of_bind h
  obtain ⟨hw,hcur,-⟩ := replayEvents_ok hevents
  obtain ⟨hc1,hc2,hc3,hc4⟩ := hcur c hc
  obtain ⟨hget,-,-⟩ := stateOf_ok ha
  have hcursor := isCursor_of_cursorOf (contract_ok hc')
  cases hr
  constructor
  · exact hnew
  · -- the association is found by the reference of the window
    have hkey := (hs.follows _ a hget).key
    rw [hcursor.association] at hkey
    rw [hc1]
    exact Subtype.ext hkey
  · rw [hc2]
    exact hepoch
  · rw [hcursor.subscriber] at hc4
    exact (Option.some.inj hc4).symm
  · rw [hc3]
    exact hserved

theorem subscribe_explained (hs : Serves G g logs) {o : ObserverIdentity} {association : Target}
    {cursor : Option BridgeCursor} {limit : Json} {now later : ℕ} {r : StreamResult U}
    (h : subscribe G g o association cursor limit now later = .ok r) :
    Explained logs (.subscribe association cursor limit now later) (.stream r) := by
  obtain ⟨hl,hnone,hsome⟩ := subscribe_served hs h
  cases cursor with
  | none => exact ⟨hl,hnone rfl⟩
  | some c =>
    obtain ⟨h1,h2,h3,h4,h5⟩ := hsome c rfl
    exact ⟨hl,h1,h2,h3,h4,h5⟩

/-- The events that are listed are all that are kept. -/
theorem listEvents_explained (hs : Serves G g logs) {o : ObserverIdentity} {association : Target}
    {limit : Json} {es : List (BridgeEvent U)} (h : listEvents g o association limit = .ok es) :
    es.length ≤ limitOf limit ∧ ∃ epoch a b, b ≤ (logs epoch).length ∧
      es = page (logs epoch) a b := by
  obtain ⟨_,-,h⟩ := ok_of_bind h
  obtain ⟨n,hn,h⟩ := ok_of_bind h
  obtain ⟨key,-,h⟩ := ok_of_bind h
  obtain ⟨hn,-⟩ := replayLimit_ok hn
  split at h
  · cases h
    exact ⟨Nat.zero_le _,"",0,0,Nat.zero_le _,(page_self _ 0).symm⟩
  · rename_i a hget
    split at h
    · cases h
    · split at h
      · cases h
      · rename_i hle
        cases h
        rw [← hn]
        refine ⟨not_lt.mp hle,?_⟩
        obtain ⟨after,hp⟩ := page_of_kept (hs.follows key a hget) (hs.sound a.epoch)
          a.events.length
        rw [List.take_length] at hp
        exact ⟨a.epoch,after,_,hp.known,hp.content⟩

theorem of_map_ok {α β : Type} {x : Except Refusal α} {f : α → β} {y : β}
    (h : x.map f = .ok y) : ∃ a, x = .ok a ∧ y = f a := by
  cases x with
  | error e => cases h
  | ok a =>
    cases h
    exact ⟨a,rfl,rfl⟩

/-- One request: the logs grow, and its answer is explained by them. -/
theorem ask_explained (hs : Serves G g logs) (o : ObserverIdentity) (req : Request) :
    ∃ logs', Grown logs logs' ∧ Serves G (ask G g o req).1 logs' ∧
      ∀ reply, (ask G g o req).2 = .ok reply → Explained logs' req reply := by
  cases req with
  | issueActivation r now =>
    obtain ⟨logs',hg,hs'⟩ := advances_issueActivation (G := G) g o r now logs hs
    refine ⟨logs',hg,hs',?_⟩
    intro reply h
    obtain ⟨_,-,rfl⟩ := of_map_ok h
    trivial
  | consumeActivation r now later =>
    obtain ⟨logs',hg,hs'⟩ := advances_consumeActivation (G := G) g o r now later logs hs
    refine ⟨logs',hg,hs',?_⟩
    intro reply h
    obtain ⟨_,-,rfl⟩ := of_map_ok h
    trivial
  | snapshot association =>
    refine ⟨logs,Grown.refl logs,hs,?_⟩
    intro reply h
    obtain ⟨_,-,rfl⟩ := of_map_ok h
    trivial
  | subscribe association cursor limit now later =>
    refine ⟨logs,Grown.refl logs,hs,?_⟩
    intro reply h
    obtain ⟨r,hr,rfl⟩ := of_map_ok h
    exact subscribe_explained hs hr
  | replay window cursor now later =>
    refine ⟨logs,Grown.refl logs,hs,?_⟩
    intro reply h
    obtain ⟨r,hr,rfl⟩ := of_map_ok h
    exact replay_explained hs hr
  | events association limit =>
    refine ⟨logs,Grown.refl logs,hs,?_⟩
    intro reply h
    obtain ⟨es,hes,rfl⟩ := of_map_ok h
    exact listEvents_explained hs hes
  | heartbeat association now later =>
    obtain ⟨logs',hg,hs',hlog⟩ := heartbeat_logs hs o association now later
    refine ⟨logs',hg,hs',?_⟩
    intro reply h
    obtain ⟨p,hp,rfl⟩ := of_map_ok h
    exact hlog p.1 p.2 hp
  | revoke association now =>
    obtain ⟨logs',hg,hs',hlog⟩ := revoke_logs hs o association now
    refine ⟨logs',hg,hs',?_⟩
    intro reply h
    obtain ⟨e,he,rfl⟩ := of_map_ok h
    cases e with
    | none => trivial
    | some e => exact hlog e he

/-! ## Steps and runs -/

theorem advances_disconnect (g : Gateway U) (o : ObserverIdentity) :
    Advances G g (g.disconnect o).1 := by
  unfold Gateway.disconnect
  split
  · exact advances_refl g
  · exact advances_same rfl le_rfl

/-- One step of the system. -/
theorem step_explained {s : System U} (hs : Serves G s.gateway logs) (st : Step) :
    ∃ logs', Grown logs logs' ∧ Serves G (step G s st).1.gateway logs' ∧
      ∀ caller req reply, st = .ask caller req → (step G s st).2 = some (.ok reply) →
        Explained logs' req reply := by
  cases st with
  | connect o => exact ⟨logs,Grown.refl logs,hs.of_same rfl le_rfl,fun _ _ _ h => by cases h⟩
  | disconnect caller =>
    have hadv : Advances G s.gateway (step G s (.disconnect caller)).1.gateway := by
      cases caller with
      | direct o => exact advances_disconnect s.gateway o
      | facade n =>
        show Advances G s.gateway (disconnectFacade s n).1.gateway
        unfold disconnectFacade
        split
        · exact advances_refl _
        · split_ifs
          · exact advances_refl _
          · exact advances_disconnect s.gateway _
    obtain ⟨logs',hg,hs'⟩ := hadv logs hs
    exact ⟨logs',hg,hs',fun _ _ _ h => by cases h⟩
  | expireStale now later =>
    obtain ⟨logs',hg,hs'⟩ := advances_expireFrom (G := G) now later s.gateway.order s.gateway 0
      logs hs
    exact ⟨logs',hg,hs',fun _ _ _ h => by cases h⟩
  | reset =>
    exact ⟨logs,Grown.refl logs,hs.forget (fun _ => rfl) le_rfl,fun _ _ _ h => by cases h⟩
  | ask caller req =>
    rw [step]
    cases ho : s.observer req caller with
    | error e =>
      refine ⟨logs,Grown.refl logs,hs,?_⟩
      intro _ _ _ _ h
      cases h
    | ok o =>
      obtain ⟨logs',hg,hs',hx⟩ := ask_explained hs o req
      refine ⟨logs',hg,hs',?_⟩
      intro caller' req' reply h1 h2
      cases h1
      exact hx reply (Option.some.inj h2)

/-- The system after some steps. -/
def run (G : Settings) (s : System U) (steps : List Step) : System U :=
  steps.foldl (fun s st => (step G s st).1) s

theorem run_concat (s : System U) (steps : List Step) (st : Step) :
    run G s (steps++[st]) = (step G (run G s steps) st).1 := by
  rw [run, List.foldl_append]
  rfl

/-- Somewhere in the run the request was answered so. -/
def Answered (G : Settings) (steps : List Step) (req : Request) (reply : Reply U) : Prop :=
  ∃ before caller after, steps = before++.ask caller req :: after ∧
    (step G (run G System.start before) (.ask caller req)).2 = some (.ok reply)

/-- The logs of a run: each is sound and every answer of the run is explained by them. -/
structure Records (G : Settings) (steps : List Step) (logs : Logs U) : Prop where
  sound : ∀ epoch, Sound epoch (logs epoch)
  explained : ∀ req reply, Answered G steps req reply → Explained logs req reply

/-- Every run has its logs, of which the gateway keeps the ends. -/
theorem run_records (G : Settings) (steps : List Step) : ∃ logs : Logs U,
    Records G steps logs ∧ Serves G (run G System.start steps).gateway logs := by
  induction steps using List.reverseRecOn with
  | nil =>
    refine ⟨fun _ => [],⟨sound_nil,?_⟩,serves_start⟩
    rintro req reply ⟨before,caller,after,h,-⟩
    cases before <;> cases h
  | append_singleton steps st ih =>
    obtain ⟨logs,hr,hs⟩ := ih
    obtain ⟨logs',hg,hs',hx⟩ := step_explained hs st
    rw [run_concat]
    refine ⟨logs',⟨hs'.sound,?_⟩,hs'⟩
    rintro req reply ⟨before,caller,after,h,hreply⟩
    rcases List.eq_nil_or_concat after with rfl | ⟨after,last,rfl⟩
    · -- the last step
      obtain ⟨rfl,hst⟩ := List.append_inj' h rfl
      cases hst
      exact hx caller req reply rfl hreply
    · rw [List.concat_eq_append, ← List.cons_append, ← List.append_assoc] at h
      obtain ⟨rfl,-⟩ := List.append_inj' h rfl
      exact (hr.explained req reply ⟨before,caller,after,rfl,hreply⟩).grown hg

/-! ## Reading on -/

/-- The cursor that a request goes on from. -/
def Request.cursor : Request → Option BridgeCursor
  | .subscribe _ c _ _ _ => c
  | .replay _ c _ _ => c
  | _ => none

/-- Each request goes on from the cursor of the answer before it. -/
def ReadsOn : StreamResult U → List (Request × StreamResult U) → Prop
  | _, [] => True
  | r, (req,r') :: rest => req.cursor = some r.cursor ∧ ReadsOn r' rest

/-- The answer of the last request. -/
def lastAnswer (r : StreamResult U) (reads : List (Request × StreamResult U)) : StreamResult U :=
  (reads.getLast?.map Prod.snd).getD r

theorem continues_of_cursor {req : Request} {c : BridgeCursor} {r : StreamResult U}
    (hc : req.cursor = some c) (h : Explained logs req (.stream r)) :
    ∃ limit, Continues logs c limit r := by
  cases req with
  | subscribe association cursor limit now later =>
    cases hc
    exact ⟨_,h.2⟩
  | replay window cursor now later => exact ⟨_,h.2 c hc⟩
  | _ => cases hc

/-- What a reader gets that goes on from an answer is one page, from there to the last cursor. -/
theorem reads_page (reads : List (Request × StreamResult U)) : ∀ (r : StreamResult U),
    ReadsOn r reads → (∀ p ∈ reads, Explained logs p.1 (.stream p.2)) →
    (lastAnswer r reads).cursor.stream_epoch = r.cursor.stream_epoch ∧
      r.cursor.last_sequence.val ≤ (lastAnswer r reads).cursor.last_sequence.val ∧
      reads.flatMap (·.2.events) = page (logs r.cursor.stream_epoch.val)
        r.cursor.last_sequence.val (lastAnswer r reads).cursor.last_sequence.val := by
  induction reads with
  | nil =>
    intro r _ _
    exact ⟨rfl,le_rfl,(page_self _ _).symm⟩
  | cons p reads ih =>
    intro r hreads hall
    obtain ⟨req,r'⟩ := p
    obtain ⟨hc,hrest⟩ := hreads
    obtain ⟨limit,hcont⟩ := continues_of_cursor hc (hall (req,r') List.mem_cons_self)
    obtain ⟨h1,h2,h3⟩ := ih r' hrest (fun p hp => hall p (List.mem_cons_of_mem _ hp))
    have hlast : lastAnswer r ((req,r') :: reads) = lastAnswer r' reads := by
      rw [lastAnswer, lastAnswer, List.getLast?_cons]
      cases reads.getLast? with
      | none => rfl
      | some p => rfl
    have hserved := hcont.served
    rw [hlast]
    refine ⟨h1.trans hcont.epoch,hserved.forward.trans h2,?_⟩
    rw [List.flatMap_cons, h3, hserved.events, hcont.epoch]
    exact page_append _ hserved.forward h2

/-- **The streams of the gateway**, over any run of it: each association that was ever made has a
log of numbered events such that every stream that is handed over is a page of a log and a reader
that goes on with the cursors it is given, whatever is done between its requests, gets everything
that the log has from its first cursor to its last, in order and once. -/
theorem streams_are_logs (G : Settings) (steps : List Step) : ∃ logs : Logs U,
    Records G steps logs ∧ ∀ req r reads, Answered G steps req (.stream r) → ReadsOn r reads →
      (∀ p ∈ reads, Answered G steps p.1 (.stream p.2)) →
      reads.flatMap (·.2.events) = page (logs r.cursor.stream_epoch.val)
        r.cursor.last_sequence.val (lastAnswer r reads).cursor.last_sequence.val := by
  obtain ⟨logs,hr,-⟩ := run_records (U := U) G steps
  refine ⟨logs,hr,?_⟩
  intro req r reads _ hreads hall
  exact (reads_page reads r hreads (fun p hp => hr.explained p.1 _ (hall p hp))).2.2

/-! ## The bridge that asks the gateway -/

theorem validateEvent_iff {snapshot : SessionSnapshot} {e : BridgeEvent U} (h : OfStream snapshot e)
    {n m : ℕ} : validateEvent snapshot n e = .ok m ↔ number e = n+1 ∧ m = n+1 := by
  have hplace : ¬ (e.val.schema_version ≠ SCHEMA_VERSION ∨
      e.val.association_ref ≠ snapshot.association_ref ∨
      some e.val.stream_epoch ≠ snapshot.stream_epoch) := by
    rw [not_or, not_or, not_not, not_not, not_not]
    exact ⟨rfl,h.1,h.2⟩
  constructor
  · intro hv
    obtain ⟨-,h1,h2⟩ := of_validateEvent hv
    exact ⟨h1,h2⟩
  · rintro ⟨h1,rfl⟩
    have hn : e.val.sequence.val = n+1 := h1
    rw [validateEvent, if_neg, if_neg, if_neg, hn]
    · rw [not_not]
      exact hn
    · intro hm
      cases hm
    · rw [not_or] at hplace
      rw [not_or]
      refine ⟨hplace.1,?_⟩
      rw [not_or] at hplace ⊢
      refine ⟨hplace.2.1,?_⟩
      rw [not_or]
      exact ⟨hplace.2.2,by omega⟩

theorem fold_iff {snapshot : SessionSnapshot} {events : List (BridgeEvent U)}
    (h : ∀ e ∈ events, OfStream snapshot e) {n m : ℕ} :
    events.foldlM (validateEvent snapshot) n = .ok m ↔
      events.map number = List.range' (n+1) events.length ∧ m = n+events.length := by
  induction events generalizing n with
  | nil =>
    rw [List.foldlM_nil]
    constructor
    · intro hm
      cases hm
      exact ⟨rfl,rfl⟩
    · rintro ⟨-,rfl⟩
      rfl
  | cons e events ih =>
    have hrest : ∀ e ∈ events, OfStream snapshot e :=
      fun x hx => h x (List.mem_cons_of_mem e hx)
    rw [List.foldlM_cons, List.map_cons, List.length_cons, List.range'_succ, List.cons.injEq]
    constructor
    · intro hm
      obtain ⟨k,hk,hm⟩ := ok_of_bind hm
      obtain ⟨hnum,rfl⟩ := (validateEvent_iff (h e List.mem_cons_self)).mp hk
      obtain ⟨hmap,rfl⟩ := (ih hrest).mp hm
      exact ⟨⟨hnum,hmap⟩,by omega⟩
    · rintro ⟨⟨hnum,hmap⟩,rfl⟩
      have hk := (validateEvent_iff (h e List.mem_cons_self) (m := n+1)).mpr ⟨hnum,rfl⟩
      rw [hk]
      exact (ih hrest).mpr ⟨hmap,by omega⟩

/-- What `validateStream` asks of an answer. -/
theorem validateStream_iff {after limit : ℕ} {r : StreamResult U} (hs : Served logs after limit r)
    (hsound : Sound r.cursor.stream_epoch.val (logs r.cursor.stream_epoch.val))
    (hl : limit ≤ MAX_REPLAY_BATCH) {n : ℕ} (hn : n ≤ r.cursor.last_sequence.val) :
    validateStream r.snapshot r.events n (some r.cursor) = .ok () ↔
      r.events.map number = List.range' (n+1) r.events.length ∧
        r.cursor.last_sequence.val = n+r.events.length := by
  have hown : ∀ e ∈ r.events, OfStream r.snapshot e := by
    intro e he
    refine ⟨(hs.own e he).1,?_⟩
    rw [hs.epoch]
    rw [hs.events] at he
    have hd := List.reduceOption_mem_iff.mp he
    have hm := List.reduceOption_mem_iff.mpr (List.mem_of_mem_take (List.mem_of_mem_drop hd))
    exact congrArg some (Subtype.ext (hsound.epoch e hm))
  -- the number of the last event is the cursor's
  have hlast : r.events.map number = List.range' (n+1) r.events.length → r.events ≠ [] →
      r.cursor.last_sequence.val = n+r.events.length := by
    intro hmap hne
    obtain ⟨e,he⟩ := Option.ne_none_iff_exists'.mp (mt List.getLast?_eq_none_iff.mp hne)
    have hpos := List.length_pos_iff.mpr hne
    have hl := congrArg List.getLast? hmap
    rw [List.getLast?_map, he, Option.map_some, List.getLast?_range', if_neg (by omega),
      Option.some.injEq, hs.last e he] at hl
    omega
  have hknown := hs.known
  rw [validateStream, recast_ok, checkStream, if_neg (not_lt.mpr (hs.bounded.trans hl)), if_neg]
  swap
  · rw [hs.mode, hs.epoch]
    rintro (h | h) <;> cases h
  have hcursor : ¬ (r.cursor.association_ref ≠ r.snapshot.association_ref ∨
      some r.cursor.stream_epoch ≠ r.snapshot.stream_epoch) := by
    rw [not_or, not_not, not_not]
    exact ⟨hs.association,hs.epoch.symm⟩
  constructor
  · intro h
    split at h
    · cases h
    obtain ⟨m,hm,h⟩ := ok_of_bind h
    obtain ⟨hmap,rfl⟩ := (fold_iff hown).mp hm
    refine ⟨hmap,?_⟩
    by_cases hne : r.events = []
    · split at h
      · cases h
      rw [validateCursor, if_neg hcursor, hne] at h
      dsimp only [List.getLast?_nil] at h
      split at h
      · cases h
      · rw [hne, List.length_nil]
        omega
    · exact hlast hmap hne
  · rintro ⟨hmap,hnum⟩
    rw [if_neg (by omega), (fold_iff hown).mpr ⟨hmap,rfl⟩]
    show (if _ then _ else _) = _
    rw [if_neg (by omega), validateCursor, if_neg hcursor]
    cases he : r.events.getLast? with
    | none =>
      rw [List.getLast?_eq_none_iff] at he
      rw [he, List.length_nil] at hnum
      dsimp only
      rw [if_neg (by omega)]
    | some e =>
      have := hs.last e he
      rw [number] at this
      dsimp only
      rw [if_neg (by omega)]

/-- The bridge takes an answer at a boundary if it is the page from there and no entry of the page
was lost. -/
theorem accepts_iff {after limit : ℕ} {r : StreamResult U} (hs : Served logs after limit r)
    (hsound : Sound r.cursor.stream_epoch.val (logs r.cursor.stream_epoch.val))
    (hl : limit ≤ MAX_REPLAY_BATCH) {n : ℕ} (hn : n ≤ after) :
    validateStream r.snapshot r.events n (some r.cursor) = .ok () ↔
      r.events = page (logs r.cursor.stream_epoch.val) n r.cursor.last_sequence.val ∧
        Whole (logs r.cursor.stream_epoch.val) n r.cursor.last_sequence.val := by
  have hle := hn.trans hs.forward
  have hlog := hs.known.trans hs.logged
  rw [validateStream_iff hs hsound hl hle]
  constructor
  · rintro ⟨hmap,hnum⟩
    -- a page that is longer than its numbers allow has nothing before the events
    have hjoin := page_append (logs r.cursor.stream_epoch.val) hn hs.forward
    have hlen : (page (logs r.cursor.stream_epoch.val) n r.cursor.last_sequence.val).length ≤
        r.cursor.last_sequence.val-n := by
      rw [page]
      refine (List.reduceOption_length_le _).trans ?_
      rw [List.length_drop, List.length_take]
      omega
    rw [← hs.events] at hjoin
    have hnil : page (logs r.cursor.stream_epoch.val) n after = [] := by
      rw [← List.length_eq_zero_iff]
      rw [← hjoin, List.length_append] at hlen
      omega
    rw [hnil, List.nil_append] at hjoin
    refine ⟨hjoin,(hsound.numbered.gapless_iff hlog hle).mp ?_⟩
    rw [← hjoin, hmap]
    congr 1
    omega
  · rintro ⟨hpage,hwhole⟩
    have hlen := page_length_of_whole hwhole hlog
    have hmap := (hsound.numbered.gapless_iff hlog hle).mpr hwhole
    rw [← hpage] at hlen hmap
    rw [hlen]
    exact ⟨hmap,by omega⟩

/-- The boundary that the bridge checks an answer against. -/
def Request.boundary : Request → ℕ
  | .subscribe _ c _ _ _ => FleetGatewayBridge.boundary c 0
  | .replay window c _ _ => FleetGatewayBridge.boundary c window.after_sequence.val
  | _ => 0

/-- **The bridge and the gateway**: over any run of the gateway, with the logs of its run, the
bridge takes the answer of a `subscribe` or `replay` exactly if the answer is the page from the
bridge's boundary and no event of that page was lost. -/
theorem bridge_accepts (G : Settings) (steps : List Step) : ∃ logs : Logs U,
    Records G steps logs ∧ ∀ req r, Answered G steps req (.stream r) →
      (validateStream r.snapshot r.events req.boundary (some r.cursor) = .ok () ↔
        r.events = page (logs r.cursor.stream_epoch.val) req.boundary
            r.cursor.last_sequence.val ∧
          Whole (logs r.cursor.stream_epoch.val) req.boundary r.cursor.last_sequence.val) := by
  obtain ⟨logs,hr,-⟩ := run_records (U := U) G steps
  refine ⟨logs,hr,?_⟩
  intro req r hanswer
  have hx := hr.explained req _ hanswer
  have hsound := hr.sound r.cursor.stream_epoch.val
  cases req with
  | subscribe association cursor limit now later =>
    cases cursor with
    | none =>
      obtain ⟨hl,after,hserved⟩ := hx
      exact accepts_iff hserved hsound hl (Nat.zero_le after)
    | some c => exact accepts_iff hx.2.served hsound hx.1 le_rfl
  | replay window cursor now later =>
    obtain ⟨hserved,hcont⟩ := hx
    cases cursor with
    | none => exact accepts_iff hserved hsound window.limit.property.2 le_rfl
    | some c => exact accepts_iff (hcont c rfl).served hsound window.limit.property.2 le_rfl
  | _ => cases hx

end PdFleet.Bridge.Fake
