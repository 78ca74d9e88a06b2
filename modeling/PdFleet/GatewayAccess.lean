import PdFleet.GatewayRuns

/-!
# What the calls of the gateway leave alone

What each call and each step does to the associations and the tickets, and that every used ticket
has its association.
-/

set_option autoImplicit false

namespace PdFleet.Bridge.Fake

variable {U : Nfc} {G : Settings} {g g' : Gateway U} {o : ObserverIdentity}

/-! ## What a call leaves of the associations -/

/-- A call of an observer leaves the associations of others, and who the association is of. -/
structure Keeps (o : ObserverIdentity) (g g' : Gateway U) : Prop where
  others : ∀ key a, g.associations key = some a → bound o a = false →
    g'.associations key = some a
  owner : ∀ key a, g.associations key = some a → ∃ b, g'.associations key = some b ∧
    b.ref = a.ref ∧ b.binding = a.binding

theorem keeps_same (h : g'.associations = g.associations) : Keeps o g g' := by
  constructor
  · rw [h]
    exact fun key a ha _ => ha
  · rw [h]
    exact fun key a ha => ⟨a,ha,rfl,rfl⟩

theorem keep_ref (a : Association U) (x : Except Raised (BridgeEvent U)) :
    (a.keep G x).ref = a.ref ∧ (a.keep G x).binding = a.binding := by
  cases x with
  | error e => exact ⟨rfl,rfl⟩
  | ok e => exact ⟨rfl,rfl⟩

theorem append_ref (a : Association U) (type : String) (payload : Obj) (now : ℕ) :
    (append G a type payload now).1.ref = a.ref ∧
      (append G a type payload now).1.binding = a.binding := by
  rw [append_fst]
  exact keep_ref a.numbered _

theorem keeps_put {key : String} {a b : Association U} (hget : g.associations key = some a)
    (hbound : bound o a = true) (hb : b.ref = a.ref ∧ b.binding = a.binding) :
    Keeps o g (g.put key b) := by
  constructor
  · intro k c hc hno
    rw [put_associations]
    by_cases hk : k = key
    · rw [hk, hget, Option.some.injEq] at hc
      rw [← hc, hbound] at hno
      cases hno
    · rw [Function.update_of_ne hk]
      exact hc
  · intro k c hc
    rw [put_associations]
    by_cases hk : k = key
    · rw [hk, hget, Option.some.injEq] at hc
      rw [hk, Function.update_self, ← hc]
      exact ⟨b,rfl,hb⟩
    · rw [Function.update_of_ne hk]
      exact ⟨c,hc,rfl,rfl⟩

theorem keeps_new {key : String} {a : Association U} (hget : g.associations key = none)
    (ha : g'.associations = Function.update g.associations key (some a)) : Keeps o g g' := by
  have hother : ∀ k c, g.associations k = some c → g'.associations k = some c := by
    intro k c hc
    by_cases hk : k = key
    · rw [hk, hget] at hc
      cases hc
    · rw [ha, Function.update_of_ne hk]
      exact hc
  exact ⟨fun k c hc _ => hother k c hc,fun k c hc => ⟨c,hother k c hc,rfl,rfl⟩⟩

theorem keeps_heartbeat (association : Target) (now later : ℕ) :
    Keeps o g (heartbeat G g o association now later).1 := by
  rcases heartbeat_cases (G := G) g o association now later with ⟨e,he⟩ |
    ⟨key,a,hget,hbound,-,p,hp,he⟩
  · rw [he]
    exact keeps_same rfl
  · rw [he, hp]
    exact keeps_put hget hbound (append_ref (a.beaten now) _ _ later)

theorem keeps_revoke (association : Target) (now : ℕ) :
    Keeps o g (revoke G g o association now).1 := by
  rcases revoke_cases (G := G) g o association now with ⟨x,hx,-⟩ |
    ⟨key,a,hget,hbound,-,p,hp,he⟩
  · rw [hx]
    exact keeps_same rfl
  · rw [he, hp]
    exact keeps_put hget hbound (append_ref a.detached _ _ now)

/-! ## Tickets -/

/-- The value of a ticket as a caller names it. -/
def Activation.value : Activation → Option String
  | .ticket r => some r.activation_ref.val
  | .object (.str s) => some s
  | .object _ => none

theorem lookup_ok {v value : String} {item : Ticket} (h : g.lookup v = .ok (value,item)) :
    v = value ∧ g.tickets value = some item := by
  unfold Gateway.lookup at h
  cases hg : g.tickets v with
  | none =>
    rw [hg] at h
    cases h
  | some i =>
    rw [hg] at h
    cases h
    exact ⟨rfl,hg⟩

theorem ticketOf_ok {t : Activation} {value : String} {item : Ticket}
    (h : ticketOf g t = .ok (value,item)) :
    Activation.value t = some value ∧ g.tickets value = some item := by
  cases t with
  | ticket r =>
    obtain ⟨h1,h2⟩ := lookup_ok h
    exact ⟨congrArg some h1,h2⟩
  | object v =>
    cases v with
    | str s =>
      obtain ⟨h1,h2⟩ := lookup_ok h
      exact ⟨congrArg some h1,h2⟩
    | _ => cases h

theorem isRef_iff {v : Json} {r : Option Ref} : isRef v r = true ↔ v = optionalText r := by
  cases v with
  | null =>
    cases r with
    | none => exact iff_of_true rfl rfl
    | some r => exact iff_of_false Bool.false_ne_true (fun h => by cases h)
  | str s =>
    cases r with
    | none => exact iff_of_false Bool.false_ne_true (fun h => by cases h)
    | some r =>
      rw [isRef, decide_eq_true_eq, optionalText, Json.str.injEq]
  | _ =>
    cases r with
    | none => exact iff_of_false Bool.false_ne_true (fun h => by cases h)
    | some r => exact iff_of_false Bool.false_ne_true (fun h => by cases h)

/-- A binding is of an observer and of the values that a request names. -/
structure Binds (o : ObserverIdentity) (ownerRef profileRef workspaceRef sessionRef : Json)
    (b : ActivationBinding) : Prop where
  observer : o.observer_ref = b.observerRef
  owner : ownerRef = optionalText b.ownerRef
  profile : profileRef = optionalText b.profileRef
  workspace : workspaceRef = optionalText b.workspaceRef
  session : sessionRef = optionalText b.sessionRef

theorem bindingMatches_iff {r : Consume} {b : ActivationBinding} :
    bindingMatches o r b = true ↔
      Binds o r.ownerRef r.profileRef r.workspaceRef r.sessionRef b ∧
        r.associationRef = optionalText b.associationRef ∧ o.owner_ref = b.ownerRef ∧
        o.profile_ref = b.profileRef := by
  simp only [bindingMatches, Bool.and_eq_true, decide_eq_true_eq, isRef_iff]
  constructor
  · rintro ⟨⟨⟨⟨⟨⟨⟨h1,h2⟩,h3⟩,h4⟩,h5⟩,h6⟩,h7⟩,h8⟩
    exact ⟨⟨h1,h4,h5,h6,h7⟩,h8,h2,h3⟩
  · rintro ⟨⟨h1,h4,h5,h6,h7⟩,h8,h2,h3⟩
    exact ⟨⟨⟨⟨⟨⟨⟨h1,h2⟩,h3⟩,h4⟩,h5⟩,h6⟩,h7⟩,h8⟩

theorem sameRef_iff {a b : AssociationRef} : sameRef a b = true ↔ a = b := by
  simp only [sameRef, Bool.and_eq_true, decide_eq_true_eq]
  constructor
  · rintro ⟨⟨⟨⟨⟨h1,h2⟩,h3⟩,h4⟩,h5⟩,h6⟩
    cases a
    cases b
    simp_all
  · rintro rfl
    simp

/-- The ticket is used for an operation, and was not used for another. -/
structure Uses (item item' : Ticket) (key : String) (r : AssociationRef) : Prop where
  binding : item'.binding = item.binding
  expires : item'.expiresAt = item.expiresAt
  operation : item'.consumedOperation = some key
  association : item'.association = some r
  once : ∀ used, item.consumedOperation = some used → used = key ∧ item.association = some r

/-- The association of a used ticket is there and is bound as the ticket is. -/
def Attached (g : Gateway U) (item : Ticket) : Prop :=
  ∀ r, item.association = some r → ∃ a, g.associations (keyOf r.association_ref) = some a ∧
    a.ref = r ∧ a.binding = item.binding

/-- Every used ticket has its association. -/
def Linked (g : Gateway U) : Prop := ∀ value item, g.tickets value = some item → Attached g item

/-- What a call with a ticket does: nothing, or it uses its ticket; its answer is what the ticket
was used for. -/
structure Consumed (o : ObserverIdentity) (g : Gateway U) (r : Consume) (now : ℕ)
    (p : Gateway U × Except Refusal AssociationRef) : Prop where
  keeps : Keeps o g p.1
  tickets : ∀ value, p.1.tickets value = g.tickets value ∨
    ∃ item item' key assoc, Activation.value r.ticket = some value ∧
      g.tickets value = some item ∧ p.1.tickets value = some item' ∧
      item.consumedOperation = none ∧ Uses item item' key assoc
  answer : ∀ assoc, p.2 = .ok assoc → ∃ value item item' key, r.operationKey = .str key ∧
    Activation.value r.ticket = some value ∧ g.tickets value = some item ∧
    p.1.tickets value = some item' ∧ Uses item item' key assoc ∧
    bindingMatches o r item.binding = true ∧ now < item.expiresAt
  linked : Linked g → Linked p.1

theorem consumed_error {r : Consume} {now : ℕ} (e : Refusal) :
    Consumed o g r now (g,.error e) where
  keeps := keeps_same rfl
  tickets _ := .inl rfl
  answer _ h := by cases h
  linked h := h

theorem Attached.keeps {item : Ticket} (h : Attached g item) (hk : Keeps o g g') :
    Attached g' item := by
  intro r hr
  obtain ⟨a,ha,href,hbinding⟩ := h r hr
  obtain ⟨b,hb,h1,h2⟩ := hk.owner _ a ha
  exact ⟨b,hb,h1.trans href,h2.trans hbinding⟩

theorem Linked.keeps (h : Linked g) (hk : Keeps o g g') (ht : g'.tickets = g.tickets) :
    Linked g' := by
  intro value item hget
  rw [ht] at hget
  exact (h value item hget).keeps hk

/-- Using a ticket whose association is there. -/
theorem Linked.put {value : String} {item : Ticket} (h : Linked g) (hk : Keeps o g g')
    (ht : g'.tickets = Function.update g.tickets value (some item)) (hi : Attached g' item) :
    Linked g' := by
  intro v i hget
  rw [ht] at hget
  by_cases hv : v = value
  · rw [hv, Function.update_self, Option.some.injEq] at hget
    rw [← hget]
    exact hi
  · rw [Function.update_of_ne hv] at hget
    exact (h v i hget).keeps hk

/-- A ticket that has been used. -/
def Ticket.used (item : Ticket) (key : String) (r : AssociationRef) : Ticket :=
  { item with consumedOperation := some key, association := some r }

/-- The first use of a ticket, in a gateway that has its association. -/
theorem consumed_first {r : Consume} {now : ℕ} {value key : String} {item : Ticket}
    (g' : Gateway U) (assoc : AssociationRef) {x : Except Refusal AssociationRef}
    (hkey : r.operationKey = .str key) (hvalue : Activation.value r.ticket = some value)
    (hget : g.tickets value = some item) (hfree : item.consumedOperation = none)
    (hmatch : bindingMatches o r item.binding = true) (hnow : now < item.expiresAt)
    (hk : Keeps o g g')
    (ht : g'.tickets = Function.update g.tickets value (some (item.used key assoc)))
    (hx : ∀ a, x = .ok a → a = assoc) (hi : Attached g' (item.used key assoc)) :
    Consumed o g r now (g',x) := by
  have hself : g'.tickets value = some (item.used key assoc) := by
    rw [ht, Function.update_self]
  have huses : Uses item (item.used key assoc) key assoc := by
    refine ⟨rfl,rfl,rfl,rfl,?_⟩
    intro used hu
    rw [hfree] at hu
    cases hu
  constructor
  · exact hk
  · intro v
    by_cases hv : v = value
    · rw [hv]
      exact .inr ⟨item,_,key,assoc,hvalue,hget,hself,hfree,huses⟩
    · left
      rw [ht, Function.update_of_ne hv]
  · intro a ha
    rw [hx a ha]
    exact ⟨value,item,_,key,hkey,hvalue,hget,hself,huses,hmatch,hnow⟩
  · intro hl
    exact hl.put hk ht hi

theorem consumed_consumeFirst {r : Consume} {now later : ℕ} {value key : String} {item : Ticket}
    {assoc : AssociationRef} (hkey : r.operationKey = .str key)
    (hvalue : Activation.value r.ticket = some value) (hget : g.tickets value = some item)
    (hfree : item.consumedOperation = none) (hmatch : bindingMatches o r item.binding = true)
    (hnow : now < item.expiresAt) :
    Consumed o g r now (consumeFirst G g value key item assoc now later) := by
  rw [consumeFirst]
  cases hassoc : g.associations (keyOf assoc.association_ref) with
  | some a =>
    dsimp only
    split
    · exact consumed_error _
    · rename_i hsame
      rw [Bool.or_eq_true, not_or, Bool.not_eq_true', Bool.not_eq_false, decide_eq_true_eq,
        not_not, sameRef_iff] at hsame
      obtain ⟨href,hbinding⟩ := hsame
      rw [href]
      apply consumed_first (g.consume value item key assoc) assoc hkey hvalue hget hfree hmatch hnow
        (keeps_same rfl) rfl
      · intro b hb
        exact (Except.ok.inj hb).symm
      · intro b hb
        cases hb
        exact ⟨a,hassoc,href,hbinding⟩
  | none =>
    dsimp only
    generalize ha : newAssociation (U := U) assoc item.binding (epochText (g.counter+1)) now = a
    have hrefs : (append G a "session.registered" (registered a) later).1.ref = assoc ∧
        (append G a "session.registered" (registered a) later).1.binding = item.binding := by
      rw [(append_ref a _ _ later).1, (append_ref a _ _ later).2, ← ha, newAssociation]
      exact ⟨rfl,rfl⟩
    apply consumed_first _ assoc hkey hvalue hget hfree hmatch hnow (keeps_new hassoc rfl) rfl
    · intro b hb
      have h := contract_ok hb
      cases hx : (append G a "session.registered" (registered a) later).2 with
      | error e =>
        rw [hx] at h
        cases h
      | ok e =>
        rw [hx] at h
        exact (Except.ok.inj h).symm
    · intro b hb
      cases hb
      exact ⟨_,Function.update_self _ _ _,hrefs⟩

theorem consumed_consumeActivation (r : Consume) (now later : ℕ) :
    Consumed o g r now (consumeActivation G g o r now later) := by
  unfold consumeActivation
  split
  · rename_i key hkey
    split_ifs
    · exact consumed_error _
    · split
      · exact consumed_error _
      · rename_i value item hx
        obtain ⟨_,-,hx⟩ := ok_of_bind hx
        obtain ⟨_,-,hx⟩ := ok_of_bind hx
        obtain ⟨hvalue,hget⟩ := ticketOf_ok hx
        unfold consumeTicket
        split_ifs with hmatch hexpired
        · exact consumed_error _
        · exact consumed_error _
        rw [Bool.not_eq_true', Bool.not_eq_false] at hmatch
        rw [not_le] at hexpired
        split
        · -- a ticket that was used answers its own operation only
          rename_i used hused
          split
          · rename_i assoc hassoc
            split_ifs with hsame
            · constructor
              · exact keeps_same rfl
              · exact fun _ => .inl rfl
              · intro a ha
                cases ha
                refine ⟨value,item,item,key,hkey,hvalue,hget,hget,?_,hmatch,hexpired⟩
                refine ⟨rfl,rfl,hsame ▸ hused,hassoc,?_⟩
                intro u hu
                rw [hused, Option.some.injEq] at hu
                exact ⟨hu.symm.trans hsame,hassoc⟩
              · exact fun h => h
            · exact consumed_error _
          · exact consumed_error _
        · rename_i hfree
          split
          · exact consumed_error _
          · split_ifs
            · exact consumed_error _
            · exact consumed_consumeFirst hkey hvalue hget hfree hmatch hexpired
  · exact consumed_error _

/-! ## Issuing -/

theorem foldCase_hex {c : Char} (h : Sha256.isHexDigit c = true) : foldCase c = c := by
  have hc : (48 ≤ c.toNat ∧ c.toNat ≤ 57) ∨ (97 ≤ c.toNat ∧ c.toNat ≤ 102) := by
    simpa [Sha256.isHexDigit, Char.le_def, UInt32.le_iff_toNat_le] using h
  rw [← Char.ofNat_toNat c]
  generalize c.toNat = n at hc
  rcases hc with ⟨hlo,hhi⟩ | ⟨hlo,hhi⟩ <;> interval_cases n <;> decide

/-- Every sensitive word has a letter that is no digit. -/
theorem sensitive_reads : Pattern.Reads (fun c => !Sha256.isHexDigit c) sensitive := by
  have hword : ∀ (w : String) (d : Char), d ∈ w.toList → Sha256.isHexDigit d = false →
      Pattern.Reads (fun c => !Sha256.isHexDigit c) (Pattern.word foldCase w) := by
    intro w d hd hno
    apply Pattern.reads_word hd
    intro c hc
    rw [Bool.not_eq_true']
    by_contra hhex
    rw [Bool.not_eq_false] at hhex
    rw [← hc, foldCase_hex hhex, hhex] at hno
    cases hno
  have hall : ∀ w ∈ ["prompt", "history", "message", "tool", "provider", "credential", "secret",
      "token", "password", "terminal", "path", "url", "uri", "authorization", "cookie"],
      w.toList.any (fun d => !Sha256.isHexDigit d) = true := by decide
  apply Pattern.reads_oneOf
  intro a ha
  rcases List.mem_append.mp ha with ha | ha
  · obtain ⟨w,hw,rfl⟩ := List.mem_map.mp ha
    obtain ⟨d,hd,hno⟩ := List.any_eq_true.mp (hall w hw)
    rw [Bool.not_eq_true'] at hno
    exact hword w d hd hno
  · rw [List.mem_singleton.mp ha]
    exact (hword "api" 'p' (by decide) (by decide)).seq_left

theorem hex_char {c : Char} (h : Sha256.isHexDigit c = true) : c.isAlphanum = true ∧
    c ∉ ['\x00', '\n', '\r'] ∧ c ∉ ['/', '\\'] ∧ c ≠ ':' ∧ c.utf8Size = 1 := by
  have hc : (48 ≤ c.toNat ∧ c.toNat ≤ 57) ∨ (97 ≤ c.toNat ∧ c.toNat ≤ 102) := by
    simpa [Sha256.isHexDigit, Char.le_def, UInt32.le_iff_toNat_le] using h
  rw [← Char.ofNat_toNat c]
  generalize c.toNat = n at hc
  rcases hc with ⟨hlo,hhi⟩ | ⟨hlo,hhi⟩ <;> interval_cases n <;> decide

/-- A text of hexadecimal digits may be a reference. -/
theorem refText_hex {s : String} (hs : ∀ c ∈ s.toList, Sha256.isHexDigit c = true)
    (hne : s.toList ≠ []) (hl : s.toList.length ≤ 127) : refText s = .ok () := by
  have hsize : s.utf8ByteSize = s.toList.length := by
    rw [← String.ofList_toList (s := s), String.utf8ByteSize_ofList, String.toList_ofList]
    generalize s.toList = l at hs
    induction l with
    | nil => rfl
    | cons c l ih =>
      rw [String.utf8Len_cons, ih (fun d hd => hs d (List.mem_cons_of_mem c hd)),
        (hex_char (hs c List.mem_cons_self)).2.2.2.2, List.length_cons]
  rw [refText_iff, stringText_iff]
  refine ⟨⟨?_,?_,?_,?_⟩,?_,?_⟩
  · intro _ he
    rw [he] at hne
    exact hne rfl
  · rw [hsize]
    exact hl.trans (by decide)
  · intro c hc
    exact (hex_char (hs c hc)).2.1
  · intro _
    refine ⟨?_,fun c hc => (hex_char (hs c hc)).2.2.1⟩
    rw [refMatches]
    cases hx : s.toList with
    | nil => exact absurd hx hne
    | cons c t =>
      rw [hx] at hs hl
      rw [Bool.and_eq_true, Bool.and_eq_true, List.all_eq_true, decide_eq_true_eq]
      refine ⟨⟨(hex_char (hs c List.mem_cons_self)).1,?_⟩,?_⟩
      · intro d hd
        rw [isRefChar, (hex_char (hs d (List.mem_cons_of_mem c hd))).1, Bool.true_or]
      · rw [List.length_cons] at hl
        omega
  · intro hc
    exact (hex_char (hs _ hc)).2.2.2.1 rfl
  · apply sensitive_reads.search
    intro c hc
    rw [hs c hc]
    rfl

/-- A new ticket's value is a reference. -/
theorem refText_opaqueValue (g : Gateway U) (n : ℕ) : refText (opaqueValue g n) = .ok () := by
  rw [opaqueValue]
  generalize "ticket-" ++ toString n ++ "|" ++ toString g.resetGeneration = text
  have hx := sha256_hex64 text
  rw [isHex64, decide_eq_true_eq, List.all_eq_true] at hx
  apply refText_hex
  · rw [String.toList_ofList]
    exact fun c hc => hx.2 c (List.mem_of_mem_take hc)
  · rw [String.toList_ofList, ← List.length_pos_iff, List.length_take, hx.1]
    decide
  · rw [String.toList_ofList, List.length_take, hx.1]
    decide

theorem of_optionalRef {v : Json} {r : Option Ref} (h : optionalRef v = .ok r) :
    v = optionalText r := by
  cases v with
  | null =>
    cases h
    rfl
  | str s =>
    obtain ⟨t,ht,h⟩ := ok_of_bind (show (ref (.str s) >>= _) = _ from h)
    cases h
    rw [optionalText, of_ref_text ht]
  | _ => cases h

/-- A ticket is made: its answer names it, it is unused and bound as requested. -/
structure Issues (G : Settings) (o : ObserverIdentity) (g : Gateway U) (i : Issue) (now : ℕ)
    (p : Gateway U × Except Refusal ActivationTicketRef) (t : ActivationTicketRef)
    (item : Ticket) : Prop where
  answer : p.2 = .ok t
  tickets : p.1.tickets = Function.update g.tickets t.activation_ref.val (some item)
  operation : item.consumedOperation = none
  association : item.association = none
  expires : item.expiresAt = now+G.activationTtl
  binds : Binds o i.ownerRef i.profileRef i.workspaceRef i.sessionRef item.binding
  chosen : i.associationRef.truth = true →
    i.associationRef = optionalText item.binding.associationRef

theorem issueTicket_cases (requested : AssociationRef) (now : ℕ) :
    (issueTicket G g o requested now).1.associations = g.associations ∧
    (((issueTicket G g o requested now).1.tickets = g.tickets ∧
      ∃ e, (issueTicket G g o requested now).2 = .error e) ∨
    ∃ t, (issueTicket G g o requested now).2 = .ok t ∧
      (issueTicket G g o requested now).1.tickets = Function.update g.tickets t.activation_ref.val
        (some ⟨Issue.binding o requested,now,now+G.activationTtl,none,none⟩)) := by
  unfold issueTicket
  dsimp only
  split_ifs
  · exact ⟨rfl,.inl ⟨rfl,_,rfl⟩⟩
  · exact ⟨rfl,.inl ⟨rfl,_,rfl⟩⟩
  · refine ⟨rfl,.inr ?_⟩
    generalize hg : ({ g with counter := g.counter+1 } : Gateway U) = g1
    have hmake : ActivationTicketRef.make (.str (opaqueValue g1 (g.counter+1))) .null =
        .ok ⟨⟨opaqueValue g1 (g.counter+1),refText_opaqueValue g1 _⟩,none⟩ := by
      have hr := Ref.read ⟨opaqueValue g1 (g.counter+1),refText_opaqueValue g1 _⟩
      rw [ActivationTicketRef.make, hr]
      rfl
    rw [hmake]
    refine ⟨_,rfl,?_⟩
    rw [← hg]
    rfl

theorem issueActivation_cases (i : Issue) (now : ℕ) :
    (issueActivation G g o i now).1.associations = g.associations ∧
    (((issueActivation G g o i now).1.tickets = g.tickets ∧
      ∃ e, (issueActivation G g o i now).2 = .error e) ∨
    ∃ t item, Issues G o g i now (issueActivation G g o i now) t item) := by
  have hchosen : (chosenRef g i).1.associations = g.associations ∧
      (chosenRef g i).1.tickets = g.tickets ∧
      (i.associationRef.truth = true → (chosenRef g i).2 = i.associationRef) := by
    rw [chosenRef]
    split_ifs with ht
    · exact ⟨rfl,rfl,fun _ => rfl⟩
    · exact ⟨rfl,rfl,fun h => absurd h ht⟩
  unfold issueActivation
  split_ifs
  · exact ⟨rfl,.inl ⟨rfl,_,rfl⟩⟩
  · split
    · exact ⟨rfl,.inl ⟨rfl,_,rfl⟩⟩
    · dsimp only
      split
      · exact ⟨hchosen.1,.inl ⟨hchosen.2.1,_,rfl⟩⟩
      · rename_i requested hmake
        obtain ⟨a,ha,hmake⟩ := ok_of_bind hmake
        obtain ⟨s,hs,hmake⟩ := ok_of_bind hmake
        obtain ⟨w,hw,hmake⟩ := ok_of_bind hmake
        obtain ⟨p,hp,hmake⟩ := ok_of_bind hmake
        obtain ⟨k,hk,hmake⟩ := ok_of_bind hmake
        obtain ⟨m,-,hmake⟩ := ok_of_bind hmake
        cases hmake
        obtain ⟨hassoc,hcase⟩ := issueTicket_cases (G := G) (g := (chosenRef g i).1) (o := o)
          ⟨a,s,w,p,k,m⟩ now
        refine ⟨hassoc.trans hchosen.1,?_⟩
        rcases hcase with ⟨ht,he⟩ | ⟨t,ht,hupd⟩
        · exact .inl ⟨ht.trans hchosen.2.1,he⟩
        · right
          refine ⟨t,⟨Issue.binding o ⟨a,s,w,p,k,m⟩,now,now+G.activationTtl,none,none⟩,ht,
            hupd.trans ?_,rfl,rfl,rfl,?_,?_⟩
          · rw [hchosen.2.1]
          · exact ⟨rfl,of_optionalRef hw,of_optionalRef hp,of_optionalRef hk,of_optionalRef hs⟩
          · intro htruth
            rw [← hchosen.2.2 htruth]
            exact of_optionalRef ha

/-! ## Requests and steps -/

theorem keeps_ask (req : Request) : Keeps o g (ask G g o req).1 := by
  cases req with
  | issueActivation i now => exact keeps_same (issueActivation_cases i now).1
  | consumeActivation r now later => exact (consumed_consumeActivation r now later).keeps
  | heartbeat association now later => exact keeps_heartbeat association now later
  | revoke association now => exact keeps_revoke association now
  | _ => exact keeps_same rfl

theorem tickets_heartbeat (association : Target) (now later : ℕ) :
    (heartbeat G g o association now later).1.tickets = g.tickets := by
  rcases heartbeat_cases (G := G) g o association now later with ⟨e,he⟩ | ⟨key,a,-,-,-,p,-,he⟩
  · rw [he]
  · rw [he]
    rfl

theorem tickets_revoke (association : Target) (now : ℕ) :
    (revoke G g o association now).1.tickets = g.tickets := by
  rcases revoke_cases (G := G) g o association now with ⟨x,hx,-⟩ | ⟨key,a,-,-,-,p,-,he⟩
  · rw [hx]
  · rw [he]
    rfl

theorem linked_ask (hl : Linked g) (req : Request) : Linked (ask G g o req).1 := by
  cases req with
  | issueActivation i now =>
    obtain ⟨ha,⟨ht,-⟩ | ⟨t,item,hi⟩⟩ := issueActivation_cases (G := G) (g := g) (o := o) i now
    · exact hl.keeps (o := o) (keeps_same ha) ht
    · apply hl.put (o := o) (keeps_same ha) hi.tickets
      intro r hr
      rw [hi.association] at hr
      cases hr
  | consumeActivation r now later => exact (consumed_consumeActivation r now later).linked hl
  | heartbeat association now later =>
    exact hl.keeps (keeps_heartbeat association now later) (tickets_heartbeat association now later)
  | revoke association now =>
    exact hl.keeps (keeps_revoke association now) (tickets_revoke association now)
  | _ => exact hl

/-- What an expiry leaves. -/
structure Expired (G : Settings) (now : ℕ) (g g' : Gateway U) : Prop where
  owner : ∀ key a, g.associations key = some a → ∃ b, g'.associations key = some b ∧
    b.ref = a.ref ∧ b.binding = a.binding
  fresh : ∀ key a, g.associations key = some a → isStale G a now = false →
    g'.associations key = some a
  tickets : g'.tickets = g.tickets

theorem expired_refl (now : ℕ) (g : Gateway U) : Expired G now g g :=
  ⟨fun _ a ha => ⟨a,ha,rfl,rfl⟩,fun _ _ ha _ => ha,rfl⟩

theorem Expired.trans {now : ℕ} {g'' : Gateway U} (h : Expired G now g g')
    (h' : Expired G now g' g'') : Expired G now g g'' := by
  constructor
  · intro key a ha
    obtain ⟨b,hb,h1,h2⟩ := h.owner key a ha
    obtain ⟨c,hc,h3,h4⟩ := h'.owner key b hb
    exact ⟨c,hc,h3.trans h1,h4.trans h2⟩
  · intro key a ha hs
    exact h'.fresh key a (h.fresh key a ha hs) hs
  · exact h'.tickets.trans h.tickets

theorem expired_put {now : ℕ} {key : String} {a b : Association U}
    (hget : g.associations key = some a) (hstale : isStale G a now = true)
    (hb : b.ref = a.ref ∧ b.binding = a.binding) : Expired G now g (g.put key b) := by
  constructor
  · intro k c hc
    rw [put_associations]
    by_cases hk : k = key
    · rw [hk, hget, Option.some.injEq] at hc
      rw [hk, Function.update_self, ← hc]
      exact ⟨b,rfl,hb⟩
    · rw [Function.update_of_ne hk]
      exact ⟨c,hc,rfl,rfl⟩
  · intro k c hc hs
    rw [put_associations]
    by_cases hk : k = key
    · rw [hk, hget, Option.some.injEq] at hc
      rw [← hc, hstale] at hs
      cases hs
    · rw [Function.update_of_ne hk]
      exact hc
  · rfl

theorem expired_expireFrom (now : ℕ) (later : String → ℕ) (keys : List String) :
    ∀ (g : Gateway U) (changed : ℕ), Expired G now g (expireFrom G now later keys g changed).1 := by
  induction keys with
  | nil =>
    intro g changed
    exact expired_refl now g
  | cons key keys ih =>
    intro g changed
    rw [expireFrom]
    cases hget : g.associations key with
    | none => exact ih g changed
    | some a =>
      dsimp only
      split
      · rename_i hstale
        have hput := expired_put hget hstale
          (append_ref (G := G) a.ended "session.ended" (endedPayload a) (later key))
        split
        · exact hput
        · exact hput.trans (ih _ _)
      · exact ih g changed

theorem associations_disconnect (g : Gateway U) (o : ObserverIdentity) :
    (g.disconnect o).1.associations = g.associations ∧
      (g.disconnect o).1.tickets = g.tickets := by
  unfold Gateway.disconnect
  split
  · exact ⟨rfl,rfl⟩
  · exact ⟨rfl,rfl⟩

theorem step_disconnect (s : System U) (caller : Caller) :
    (step G s (.disconnect caller)).1.gateway.associations = s.gateway.associations ∧
      (step G s (.disconnect caller)).1.gateway.tickets = s.gateway.tickets := by
  cases caller with
  | direct o => exact associations_disconnect s.gateway o
  | facade n =>
    show (disconnectFacade s n).1.gateway.associations = _ ∧
      (disconnectFacade s n).1.gateway.tickets = _
    unfold disconnectFacade
    split
    · exact ⟨rfl,rfl⟩
    · split_ifs
      · exact ⟨rfl,rfl⟩
      · exact associations_disconnect s.gateway _

/-- What a request of a caller is asked of. -/
theorem step_ask {s : System U} {caller : Caller} {o : ObserverIdentity}
    {req : Request} (ho : s.observer req caller = .ok o) :
    (step G s (.ask caller req)).1.gateway = (ask G s.gateway o req).1 ∧
      (step G s (.ask caller req)).2 = some (ask G s.gateway o req).2 := by
  rw [step, ho]
  exact ⟨rfl,rfl⟩

theorem step_refused {s : System U} {caller : Caller} {e : Refusal}
    {req : Request} (ho : s.observer req caller = .error e) :
    step G s (.ask caller req) = (s,some (.error e)) := by
  rw [step, ho]

theorem linked_step {s : System U} (hl : Linked s.gateway) (st : Step) :
    Linked (step G s st).1.gateway := by
  cases st with
  | connect c => exact hl.keeps (o := c) (keeps_same rfl) rfl
  | disconnect caller =>
    obtain ⟨ha,ht⟩ := step_disconnect (G := G) s caller
    intro value item hget
    rw [ht] at hget
    intro r hr
    rw [ha]
    exact hl value item hget r hr
  | ask caller req =>
    cases ho : s.observer req caller with
    | error e =>
      rw [step_refused ho]
      exact hl
    | ok o =>
      rw [(step_ask ho).1]
      exact linked_ask hl req
  | expireStale now later =>
    have hx := expired_expireFrom (G := G) now later s.gateway.order s.gateway 0
    intro value item hget r hr
    have hget' : s.gateway.tickets value = some item := by
      rw [← hx.tickets]
      exact hget
    obtain ⟨a,ha,h1,h2⟩ := hl value item hget' r hr
    obtain ⟨b,hb,h3,h4⟩ := hx.owner _ a ha
    exact ⟨b,hb,h3.trans h1,h4.trans h2⟩
  | reset =>
    intro value item hget
    cases hget

theorem linked_run (steps : List Step) :
    Linked (run (U := U) G System.start steps).gateway := by
  induction steps using List.reverseRecOn with
  | nil =>
    intro value item hget
    cases hget
  | append_singleton steps st ih =>
    rw [run_concat]
    exact linked_step ih st

end PdFleet.Bridge.Fake
