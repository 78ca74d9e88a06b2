import PdFleet.GatewayAccess

/-!
# Observers of the gateway are isolated

An association changes by calls of its own observer, by an expiry that finds it stale and by a
reset, and an observer is told of its own associations only.
-/

set_option autoImplicit false

namespace PdFleet.Bridge.Fake

variable {U : Nfc} {G : Settings} {g : Gateway U} {o : ObserverIdentity}

/-! ## What an answer tells -/

/-- An association of the observer, of which `P` holds. -/
def Owned (g : Gateway U) (o : ObserverIdentity) (P : Association U → Prop) : Prop :=
  ∃ key a, g.associations key = some a ∧ bound o a = true ∧ P a

/-- What an answer tells is of an association of the observer. -/
def Told (g : Gateway U) (o : ObserverIdentity) : Reply U → Prop
  | .ticket _ => True
  | .association r => Owned g o (fun a => a.ref = r)
  | .snapshot s => Owned g o (fun a => IsSnapshot a s)
  | .stream r => Owned g o (fun a => IsSnapshot a r.snapshot ∧ r.events ⊆ a.events)
  | .events es => es = [] ∨ Owned g o (fun a => es = a.events)
  | .heartbeat s e => Owned g o (fun a => IsSnapshot a s ∧ e ∈ a.events)
  | .revoked none => True
  | .revoked (some e) => Owned g o (fun a => e ∈ a.events)

theorem bound_of_ref {a b : Association U} (h : bound o a = true) (hb : b.binding = a.binding) :
    bound o b = true := by
  rw [bound, hb]
  exact h

theorem mem_append_events {a : Association U} {type : String} {payload : Obj} {now : ℕ}
    {e : BridgeEvent U} (h : (append G a type payload now).2 = .ok e) :
    e ∈ (append G a type payload now).1.events := by
  obtain ⟨n,hn⟩ := Nat.exists_eq_add_of_lt G.retention_pos
  rw [append_fst, h, Association.keep]
  show e ∈ List.rtake _ _
  rw [hn, List.rtake_concat_succ]
  exact List.mem_append_right _ (List.mem_singleton_self e)

theorem eventsAfter_subset {a : Association U} {after limit : ℕ} {events : List (BridgeEvent U)}
    (h : eventsAfter a after limit = .ok events) : events ⊆ a.events := by
  unfold eventsAfter at h
  split at h
  · cases h
  dsimp only at h
  split at h
  · cases h
  cases h
  intro e he
  exact List.mem_of_mem_filter (List.mem_of_mem_take he)

theorem streamResult_ok {a : Association U} {snapshot : SessionSnapshot}
    {events : List (BridgeEvent U)} {last later : ℕ} {r : StreamResult U}
    (h : streamResult G a snapshot events last later = .ok r) :
    r.snapshot = snapshot ∧ r.events = events := by
  obtain ⟨c,-,h⟩ := ok_of_bind h
  cases h
  exact ⟨rfl,rfl⟩

theorem told_replay {window : ReplayWindow} {cursor : Option BridgeCursor} {now later : ℕ}
    {r : StreamResult U} (h : replay G g o window cursor now later = .ok r) :
    Told g o (.stream r) := by
  obtain ⟨_,-,h⟩ := ok_of_bind h
  obtain ⟨a,ha,h⟩ := ok_of_bind h
  obtain ⟨snapshot,hsnap,h⟩ := ok_of_bind h
  obtain ⟨events,hevents,h⟩ := ok_of_bind h
  obtain ⟨hget,hbound,-⟩ := stateOf_ok ha
  obtain ⟨h1,h2⟩ := streamResult_ok h
  refine ⟨_,a,hget,hbound,?_,?_⟩
  · rw [h1]
    exact isSnapshot_of_snapshotOf (contract_ok hsnap)
  · rw [h2]
    exact eventsAfter_subset (replayEvents_ok hevents).2.2

theorem told_subscribe {association : Target} {cursor : Option BridgeCursor} {limit : Json}
    {now later : ℕ} {r : StreamResult U}
    (h : subscribe G g o association cursor limit now later = .ok r) : Told g o (.stream r) := by
  obtain ⟨_,-,h⟩ := ok_of_bind h
  obtain ⟨key,-,h⟩ := ok_of_bind h
  obtain ⟨a,ha,h⟩ := ok_of_bind h
  obtain ⟨snapshot,hsnap,h⟩ := ok_of_bind h
  obtain ⟨n,-,h⟩ := ok_of_bind h
  obtain ⟨events,hevents,h⟩ := ok_of_bind h
  obtain ⟨hget,hbound,-⟩ := stateOf_ok ha
  obtain ⟨h1,h2⟩ := streamResult_ok h
  refine ⟨_,a,hget,hbound,?_,?_⟩
  · rw [h1]
    exact isSnapshot_of_snapshotOf (contract_ok hsnap)
  · rw [h2]
    cases cursor with
    | none =>
      cases hevents
      exact List.take_subset _ _
    | some c =>
      obtain ⟨w,-,hevents⟩ := ok_of_bind hevents
      obtain ⟨found,hfound,hevents⟩ := ok_of_bind hevents
      cases hevents
      exact fun e he => eventsAfter_subset (replayEvents_ok hfound).2.2 (List.mem_of_mem_take he)

theorem told_events {association : Target} {limit : Json} {es : List (BridgeEvent U)}
    (h : listEvents g o association limit = .ok es) : Told g o (.events es) := by
  obtain ⟨_,-,h⟩ := ok_of_bind h
  obtain ⟨n,-,h⟩ := ok_of_bind h
  obtain ⟨key,-,h⟩ := ok_of_bind h
  split at h
  · cases h
    exact .inl rfl
  · rename_i a hget
    split at h
    · cases h
    · rename_i hbound
      rw [Bool.not_eq_true', Bool.not_eq_false] at hbound
      split at h
      · cases h
      · cases h
        exact .inr ⟨key,a,hget,hbound,rfl⟩

theorem told_heartbeat {association : Target} {now later : ℕ} {s : SessionSnapshot}
    {e : BridgeEvent U} (h : (heartbeat G g o association now later).2 = .ok (s,e)) :
    Told (heartbeat G g o association now later).1 o (.heartbeat s e) := by
  rcases heartbeat_cases (G := G) g o association now later with ⟨x,hx⟩ |
    ⟨key,a,hget,hbound,-,p,hp,hx⟩
  · rw [hx] at h
    cases h
  · rw [hx] at h ⊢
    obtain ⟨e',he',h⟩ := ok_of_bind (contract_ok h)
    cases hsnap : snapshotOf p.1 with
    | error x =>
      rw [hsnap] at h
      cases h
    | ok s' =>
      rw [hsnap] at h
      cases h
      refine ⟨key,p.1,Function.update_self _ _ _,?_,isSnapshot_of_snapshotOf hsnap,?_⟩
      · rw [hp]
        exact bound_of_ref hbound (append_ref (a.beaten now) _ _ later).2
      · rw [hp] at he' ⊢
        exact mem_append_events he'

theorem told_revoke {association : Target} {now : ℕ} {e : Option (BridgeEvent U)}
    (h : (revoke G g o association now).2 = .ok e) :
    Told (revoke G g o association now).1 o (.revoked e) := by
  cases e with
  | none => trivial
  | some e =>
    rcases revoke_cases (G := G) g o association now with ⟨x,hx,hno⟩ |
      ⟨key,a,hget,hbound,-,p,hp,hx⟩
    · rw [hx] at h
      exact absurd h (hno e)
    · rw [hx] at h ⊢
      have hm := contract_ok h
      cases hy : p.2 with
      | error y =>
        rw [hy] at hm
        cases hm
      | ok e' =>
        rw [hy] at hm
        cases hm
        refine ⟨key,p.1,Function.update_self _ _ _,?_,?_⟩
        · rw [hp]
          exact bound_of_ref hbound (append_ref a.detached _ _ now).2
        · rw [hp] at hy ⊢
          exact mem_append_events hy

theorem told_consume (hl : Linked g) {r : Consume} {now later : ℕ} {assoc : AssociationRef}
    (h : (consumeActivation G g o r now later).2 = .ok assoc) :
    Told (consumeActivation G g o r now later).1 o (.association assoc) := by
  have hc := consumed_consumeActivation (G := G) (g := g) (o := o) r now later
  obtain ⟨value,item,item',key,-,-,-,hget',huses,hmatch,-⟩ := hc.answer assoc h
  obtain ⟨a,ha,href,hbinding⟩ := hc.linked hl value item' hget' assoc huses.association
  obtain ⟨hbinds,-,howner,hprofile⟩ := bindingMatches_iff.mp hmatch
  refine ⟨_,a,ha,?_,href⟩
  rw [bound, hbinding, huses.binding, hbinds.observer, howner, hprofile]
  simp

theorem told_ask (hl : Linked g) {req : Request} {reply : Reply U}
    (h : (ask G g o req).2 = .ok reply) : Told (ask G g o req).1 o reply := by
  cases req with
  | issueActivation i now =>
    obtain ⟨t,-,rfl⟩ := of_map_ok h
    trivial
  | consumeActivation r now later =>
    obtain ⟨assoc,hx,rfl⟩ := of_map_ok h
    exact told_consume hl hx
  | snapshot association =>
    obtain ⟨s,hx,rfl⟩ := of_map_ok h
    obtain ⟨_,-,hx⟩ := ok_of_bind hx
    obtain ⟨key,-,hx⟩ := ok_of_bind hx
    obtain ⟨a,ha,hx⟩ := ok_of_bind hx
    obtain ⟨hget,hbound,-⟩ := stateOf_ok ha
    exact ⟨key,a,hget,hbound,isSnapshot_of_snapshotOf (contract_ok hx)⟩
  | subscribe association cursor limit now later =>
    obtain ⟨r,hx,rfl⟩ := of_map_ok h
    exact told_subscribe hx
  | replay window cursor now later =>
    obtain ⟨r,hx,rfl⟩ := of_map_ok h
    exact told_replay hx
  | events association limit =>
    obtain ⟨es,hx,rfl⟩ := of_map_ok h
    exact told_events hx
  | heartbeat association now later =>
    obtain ⟨p,hx,rfl⟩ := of_map_ok h
    exact told_heartbeat hx
  | revoke association now =>
    obtain ⟨e,hx,rfl⟩ := of_map_ok h
    exact told_revoke hx

/-! ## Steps of others -/

/-- A step that is none of the association's: of another observer, or an expiry that does not find
it stale. -/
def Foreign (G : Settings) (a : Association U) (s : System U) : Step → Prop
  | .connect _ => True
  | .disconnect _ => True
  | .ask caller req => ∀ o, s.observer req caller = .ok o → bound o a = false
  | .expireStale now _ => isStale G a now = false
  | .reset => False

theorem foreign_step {s : System U} {key : String} {a : Association U}
    (hget : s.gateway.associations key = some a) {st : Step} (h : Foreign G a s st) :
    (step G s st).1.gateway.associations key = some a := by
  cases st with
  | connect c => exact hget
  | disconnect caller =>
    rw [(step_disconnect s caller).1]
    exact hget
  | ask caller req =>
    cases ho : s.observer req caller with
    | error e =>
      rw [step_refused ho]
      exact hget
    | ok o =>
      rw [(step_ask ho).1]
      exact (keeps_ask req).others key a hget (h o ho)
  | expireStale now later =>
    exact (expired_expireFrom now later s.gateway.order s.gateway 0).fresh key a hget h
  | reset => cases h

theorem run_append (s : System U) (before after : List Step) :
    run G s (before++after) = run G (run G s before) after := List.foldl_append

theorem foreign_run {key : String} {a : Association U} (steps : List Step) : ∀ (s : System U),
    s.gateway.associations key = some a →
    (∀ b st c, steps = b++st :: c → Foreign G a (run G s b) st) →
    (run G s steps).gateway.associations key = some a := by
  induction steps with
  | nil => exact fun s h _ => h
  | cons st steps ih =>
    intro s hget hall
    apply ih (step G s st).1 (foreign_step hget (hall [] st steps rfl))
    intro b st' c hs
    exact hall (st :: b) st' c (by rw [hs]; rfl)

/-- **Observers are isolated**, over any run: what an answer tells is of an association of the
caller's observer, and an association stays as it is while all steps are of other observers, or
expiries that do not find it stale. -/
theorem observers_isolated (G : Settings) (steps : List Step) :
    (∀ before caller req after o (reply : Reply U), steps = before++.ask caller req :: after →
      (run (U := U) G System.start before).observer req caller = .ok o →
      (step G (run G System.start before) (.ask caller req)).2 = some (.ok reply) →
      Told (run G System.start (before++[.ask caller req])).gateway o reply) ∧
    ∀ before after key (a : Association U), steps = before++after →
      (run G System.start before).gateway.associations key = some a →
      (∀ b st c, after = b++st :: c → Foreign G a (run G System.start (before++b)) st) →
      (run G System.start steps).gateway.associations key = some a := by
  constructor
  · intro before caller req after o reply _ ho hreply
    obtain ⟨h1,h2⟩ := step_ask (G := G) ho
    rw [h2, Option.some.injEq] at hreply
    rw [run_concat, h1]
    exact told_ask (linked_run before) hreply
  · intro before after key a hs hget hall
    rw [hs, run_append]
    apply foreign_run after _ hget
    intro b st c hb
    rw [← run_append]
    exact hall b st c hb

end PdFleet.Bridge.Fake
