import PdFleet.GatewayAccess

/-!
# What the tickets of the gateway are used for

A ticket is used for what it was issued for, before it expires, and for one operation.
-/

set_option autoImplicit false

namespace PdFleet.Bridge.Fake

variable {U : Nfc} {G : Settings}

section

variable (U : Nfc) (G : Settings)

/-- After these steps the caller, which is of `o`, is issued a ticket with this value. -/
structure IssuedAt (before : List Step) (caller : Caller) (i : Issue) (now : ℕ)
    (o : ObserverIdentity) (value : String) : Prop where
  observer : (run (U := U) G System.start before).observer (.issueActivation i now) caller = .ok o
  answer : ∃ t, (step G (run (U := U) G System.start before)
    (.ask caller (.issueActivation i now))).2 = some (.ok (.ticket t)) ∧
      t.activation_ref.val = value

/-- After these steps the caller, which is of `o`, uses the ticket with this value. -/
structure UsedAt (before : List Step) (caller : Caller) (r : Consume) (now later : ℕ)
    (o : ObserverIdentity) (value key : String) (assoc : AssociationRef) : Prop where
  observer : (run (U := U) G System.start before).observer (.consumeActivation r now later)
    caller = .ok o
  operation : r.operationKey = .str key
  ticket : Activation.value r.ticket = some value
  answer : (step G (run (U := U) G System.start before)
    (.ask caller (.consumeActivation r now later))).2 = some (.ok (.association assoc))

/-- A ticket was issued, and since then it was used as it says. -/
structure Backed (steps : List Step) (value : String) (item : Ticket) (before : List Step)
    (caller : Caller) (i : Issue) (now : ℕ) (after : List Step) (o : ObserverIdentity) : Prop where
  split : steps = before++.ask caller (.issueActivation i now) :: after
  issued : IssuedAt U G before caller i now o value
  binds : Binds o i.ownerRef i.profileRef i.workspaceRef i.sessionRef item.binding
  chosen : i.associationRef.truth = true →
    i.associationRef = optionalText item.binding.associationRef
  expires : item.expiresAt = now+G.activationTtl
  unreset : .reset ∉ after
  used : ∀ c caller' r' now' later' d o' key assoc,
    after = c++.ask caller' (.consumeActivation r' now' later') :: d →
    UsedAt U G (before++.ask caller (.issueActivation i now) :: c) caller' r' now' later' o' value
      key assoc → item.consumedOperation = some key ∧ item.association = some assoc

end

/-- A step that leaves the ticket. -/
theorem Backed.snoc {steps : List Step} {value : String} {item : Ticket} {before : List Step}
    {caller : Caller} {i : Issue} {now : ℕ} {after : List Step} {o : ObserverIdentity}
    (h : Backed U G steps value item before caller i now after o) {st : Step} {item' : Ticket}
    (hst : st ≠ .reset) (hbinding : item'.binding = item.binding)
    (hexpires : item'.expiresAt = item.expiresAt)
    (hkept : ∀ key assoc, item.consumedOperation = some key → item.association = some assoc →
      item'.consumedOperation = some key ∧ item'.association = some assoc)
    (hused : ∀ caller' r' now' later' o' key assoc,
      st = .ask caller' (.consumeActivation r' now' later') →
      UsedAt U G steps caller' r' now' later' o' value key assoc →
      item'.consumedOperation = some key ∧ item'.association = some assoc) :
    Backed U G (steps++[st]) value item' before caller i now (after++[st]) o := by
  constructor
  · rw [h.split, List.append_assoc, List.cons_append]
  · exact h.issued
  · rw [hbinding]
    exact h.binds
  · rw [hbinding]
    exact h.chosen
  · exact hexpires.trans h.expires
  · rw [List.mem_append, List.mem_singleton, not_or]
    exact ⟨h.unreset,fun he => hst he.symm⟩
  · intro c caller' r' now' later' d o' key assoc hs hu
    rcases List.eq_nil_or_concat d with rfl | ⟨d,last,rfl⟩
    · obtain ⟨rfl,hlast⟩ := List.append_inj' hs rfl
      apply hused caller' r' now' later' o' key assoc (List.singleton_inj.mp hlast)
      rw [h.split]
      exact hu
    · rw [List.concat_eq_append, ← List.cons_append, ← List.append_assoc] at hs
      obtain ⟨hs,-⟩ := List.append_inj' hs rfl
      obtain ⟨h1,h2⟩ := h.used c caller' r' now' later' d o' key assoc hs hu
      exact hkept key assoc h1 h2

/-- What the answer of a use says of the ticket after it. -/
theorem used_ticket {steps : List Step} {caller : Caller} {r : Consume} {now later : ℕ}
    {o : ObserverIdentity} {value key : String} {assoc : AssociationRef} {item : Ticket}
    (hu : UsedAt U G steps caller r now later o value key assoc)
    (hget : (step G (run (U := U) G System.start steps)
      (.ask caller (.consumeActivation r now later))).1.gateway.tickets value = some item) :
    item.consumedOperation = some key ∧ item.association = some assoc := by
  obtain ⟨h1,h2⟩ := step_ask (G := G) hu.observer
  have hanswer := hu.answer
  rw [h2, Option.some.injEq] at hanswer
  rw [h1] at hget
  obtain ⟨a,hx,ha⟩ := of_map_ok hanswer
  cases ha
  obtain ⟨v,item0,item1,k,hk,hv,-,hget',huses,-,-⟩ :=
    (consumed_consumeActivation (G := G) r now later).answer assoc hx
  rw [hu.ticket, Option.some.injEq] at hv
  rw [hu.operation, Json.str.injEq] at hk
  have heq : item1 = item := by
    rw [← hv] at hget'
    have h := hget'.symm.trans hget
    exact Option.some.inj h
  rw [← heq, hk]
  exact ⟨huses.operation,huses.association⟩

/-- Every ticket that there is was issued. -/
theorem backed_run (steps : List Step) : ∀ value item,
    (run (U := U) G System.start steps).gateway.tickets value = some item →
    ∃ before caller i now after o, Backed U G steps value item before caller i now after o := by
  induction steps using List.reverseRecOn with
  | nil =>
    intro value item hget
    cases hget
  | append_singleton steps st ih =>
    intro value item hget
    rw [run_concat] at hget
    -- a step that is no use and leaves the ticket
    have hsame : st ≠ .reset →
        (run (U := U) G System.start steps).gateway.tickets value = some item →
        ∃ before caller i now after o,
          Backed U G (steps++[st]) value item before caller i now after o := by
      intro hst hold
      obtain ⟨before,caller,i,now,after,o,hb⟩ := ih value item hold
      refine ⟨before,caller,i,now,after++[st],o,hb.snoc hst rfl rfl (fun _ _ h1 h2 => ⟨h1,h2⟩) ?_⟩
      rintro caller' r' now' later' o' key assoc rfl hu
      exact used_ticket hu hget
    cases st with
    | connect c => exact hsame (fun h => by cases h) hget
    | disconnect caller =>
      rw [(step_disconnect _ caller).2] at hget
      exact hsame (fun h => by cases h) hget
    | expireStale now later =>
      have hx := expired_expireFrom (G := G) now later
        (run (U := U) G System.start steps).gateway.order
        (run (U := U) G System.start steps).gateway 0
      apply hsame (fun h => by cases h)
      rw [← hx.tickets]
      exact hget
    | reset => cases hget
    | ask caller req =>
      cases ho : (run (U := U) G System.start steps).observer req caller with
      | error e =>
        apply hsame (fun h => by cases h)
        rw [step_refused ho] at hget
        exact hget
      | ok o =>
        have hget' := hget
        rw [(step_ask ho).1] at hget'
        cases req with
        | issueActivation i now =>
          obtain ⟨-,⟨ht,-⟩ | ⟨t,item0,hi⟩⟩ := issueActivation_cases (G := G)
            (g := (run (U := U) G System.start steps).gateway) (o := o) i now
          · apply hsame (fun h => by cases h)
            rw [← ht]
            exact hget'
          · have hupd := congrFun hi.tickets value
            by_cases hv : value = t.activation_ref.val
            · -- a new ticket
              rw [hv, Function.update_self, ← hv] at hupd
              have hitem : item0 = item := Option.some.inj (hupd.symm.trans hget')
              refine ⟨steps,caller,i,now,[],o,rfl,⟨ho,t,?_,hv.symm⟩,hitem ▸ hi.binds,
                hitem ▸ hi.chosen,hitem ▸ hi.expires,List.not_mem_nil,?_⟩
              · rw [(step_ask ho).2, ask, Prod.map_snd, hi.answer]
                rfl
              · intro c caller' r' now' later' d o' key assoc hs
                cases c <;> cases hs
            · rw [Function.update_of_ne hv] at hupd
              apply hsame (fun h => by cases h)
              rw [← hupd]
              exact hget'
        | consumeActivation r now later =>
          have hc := consumed_consumeActivation (G := G)
            (g := (run (U := U) G System.start steps).gateway) (o := o) r now later
          rcases hc.tickets value with ht | ⟨item0,item1,key,assoc,-,h0,h1,hfree,huses⟩
          · apply hsame (fun h => by cases h)
            rw [← ht]
            exact hget'
          · have hitem : item1 = item := Option.some.inj (h1.symm.trans hget')
            obtain ⟨before,caller',i,now',after,o',hb⟩ := ih value item0 h0
            refine ⟨before,caller',i,now',_,o',hb.snoc (fun h => by cases h)
              (hitem ▸ huses.binding) (hitem ▸ huses.expires) ?_ ?_⟩
            · intro k a hk
              rw [hfree] at hk
              cases hk
            · intro c2 r2 n2 l2 o2 k2 a2 hst hu
              cases hst
              exact used_ticket hu hget
        | heartbeat association now later =>
          apply hsame (fun h => by cases h)
          rw [← tickets_heartbeat (G := G) (o := o) association now later]
          exact hget'
        | revoke association now =>
          apply hsame (fun h => by cases h)
          rw [← tickets_revoke (G := G) (o := o) association now]
          exact hget'
        | _ => exact hsame (fun h => by cases h) hget'

/-- A use that its ticket entitles to: of the same observer and for what the issuer named, before
the ticket expires. -/
structure Entitled (G : Settings) (o o' : ObserverIdentity) (r : Consume) (i : Issue)
    (now now' : ℕ) : Prop where
  observer : o.observer_ref = o'.observer_ref
  owner : r.ownerRef = i.ownerRef
  profile : r.profileRef = i.profileRef
  workspace : r.workspaceRef = i.workspaceRef
  session : r.sessionRef = i.sessionRef
  association : i.associationRef.truth = true → r.associationRef = i.associationRef
  ownOwner : r.ownerRef = optionalText o.owner_ref
  ownProfile : r.profileRef = optionalText o.profile_ref
  unexpired : now < now'+G.activationTtl

/-- Every use of a ticket in a run is one that it was issued for, not before a reset, and all uses
since it was issued are for one operation and give one association. -/
def Accounted (U : Nfc) (G : Settings) (steps : List Step) : Prop :=
  ∀ before caller r now later after o value key assoc,
    steps = before++.ask caller (.consumeActivation r now later) :: after →
    UsedAt U G before caller r now later o value key assoc →
    ∃ b caller' i now' c o', before = b++.ask caller' (.issueActivation i now') :: c ∧
      IssuedAt U G b caller' i now' o' value ∧ Entitled G o o' r i now now' ∧ .reset ∉ c ∧
      ∀ d caller2 r2 now2 later2 e o2 key2 assoc2,
        c = d++.ask caller2 (.consumeActivation r2 now2 later2) :: e →
        UsedAt U G (b++.ask caller' (.issueActivation i now') :: d) caller2 r2 now2 later2 o2 value
          key2 assoc2 → key2 = key ∧ assoc2 = assoc

/-- **Tickets are used once and as they were issued**, over any run. -/
theorem tickets_accounted (U : Nfc) (G : Settings) (steps : List Step) : Accounted U G steps := by
  intro before caller r now later after o value key assoc _ hu
  obtain ⟨-,h2⟩ := step_ask (G := G) hu.observer
  have hanswer := hu.answer
  rw [h2, Option.some.injEq] at hanswer
  obtain ⟨a,hx,ha⟩ := of_map_ok hanswer
  cases ha
  obtain ⟨v,item,item',k,hk,hv,hget,-,huses,hmatch,hnow⟩ :=
    (consumed_consumeActivation (G := G) r now later).answer assoc hx
  rw [hu.ticket, Option.some.injEq] at hv
  rw [hu.operation, Json.str.injEq] at hk
  rw [← hv] at hget
  obtain ⟨hbinds,hassoc,howner,hprofile⟩ := bindingMatches_iff.mp hmatch
  obtain ⟨b,caller',i,now',c,o',hb⟩ := backed_run before value item hget
  refine ⟨b,caller',i,now',c,o',hb.split,hb.issued,?_,hb.unreset,?_⟩
  · constructor
    · rw [hbinds.observer, hb.binds.observer]
    · rw [hbinds.owner, hb.binds.owner]
    · rw [hbinds.profile, hb.binds.profile]
    · rw [hbinds.workspace, hb.binds.workspace]
    · rw [hbinds.session, hb.binds.session]
    · intro htruth
      rw [hassoc, hb.chosen htruth]
    · rw [hbinds.owner, howner]
    · rw [hbinds.profile, hprofile]
    · rw [← hb.expires]
      exact hnow
  · intro d caller2 r2 now2 later2 e o2 key2 assoc2 hs hu2
    obtain ⟨h1,h2⟩ := hb.used d caller2 r2 now2 later2 e o2 key2 assoc2 hs hu2
    obtain ⟨h3,h4⟩ := huses.once key2 h1
    rw [h2] at h4
    exact ⟨h3.trans hk.symm,Option.some.inj h4⟩

end PdFleet.Bridge.Fake
