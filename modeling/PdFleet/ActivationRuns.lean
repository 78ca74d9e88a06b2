import PdFleet.Activation

/-!
# The drawn state machine of associations

A run keeps to the drawn transitions and has one live ticket for an association if and only
if no ticket is issued beside a live one and no ticket is consumed for an association that
has left its activation behind.
-/

set_option autoImplicit false

namespace PdFleet.Auth

variable {τ : Type} {C : Timing τ} {s : Store τ} {ref r a : String}

/-- A ticket in status issued. -/
def Live (s : Store τ) (r a : String) : Prop :=
  ∃ t, s.tickets.lookup r = some t ∧ t.status = .issued ∧ t.parties.associationRef = a

/-- No association has two tickets in status issued. -/
def OneLive (s : Store τ) : Prop := ∀ a r r', Live s r a → Live s r' a → r = r'

def stateOf (s : Store τ) (a : String) : Option AssociationState :=
  (s.associations.lookup a).map (·.state)

/-- Every association that a step changes goes along a drawn transition. -/
def Drawn (s s' : Store τ) : Prop :=
  ∀ a x, stateOf s a = some x → ∃ y, stateOf s' a = some y ∧ (x = y ∨ y ∈ x.transitions)

/-- The ticket that a presentation would commit. -/
def committed (C : Timing τ) (s : Store τ) (p : Presentation) (now : τ) : Option (Ticket τ) :=
  (s.tickets.lookup p.activationRef).filter (fun t =>
    t.purpose = p.purpose && t.status = .issued && !C.after now t.expiresAt && t.parties = p.parties)

/-- What has to hold before a call: a new ticket is the only live one of its association,
and a ticket that is committed finds its association absent, pending or observing. -/
def Guard (C : Timing τ) (s : Store τ) : Call τ → Prop
  | .issueTicket r => ∀ ref, Live s ref r.parties.associationRef → ref = r.activationRef
  | .consume p now => ∀ t, committed C s p now = some t →
      ∀ x, stateOf s t.parties.associationRef = some x → x = .pendingActivation ∨ x = .observing
  | _ => True

/-! ## Steps -/

theorem Drawn.of_eq {s' : Store τ} (h : s'.associations = s.associations) : Drawn s s' := by
  intro a x hx
  refine ⟨x,?_,.inl rfl⟩
  rw [stateOf, h]
  exact hx

theorem OneLive.of_sub {s' : Store τ} (hs : OneLive s) (h : ∀ r a, Live s' r a → Live s r a) :
    OneLive s' := fun a r r' h1 h2 => hs a r r' (h r a h1) (h r' a h2)

/-- A ticket that is written anew with another status was live at most before. -/
theorem live_insert {t : Ticket τ} (ht : t.status ≠ .issued) :
    ∀ r a, Live { s with tickets := s.tickets.insert ref t } r a → Live s r a := by
  rintro r a ⟨u,hu,hissued,ha⟩
  by_cases hr : r = ref
  · subst hr
    rw [AList.lookup_insert, Option.some.injEq] at hu
    subst hu
    exact absurd hissued ht
  · rw [AList.lookup_insert_ne hr] at hu
    exact ⟨u,hu,hissued,ha⟩

theorem stateOf_insert {b : Association τ} :
    stateOf { s with associations := s.associations.insert ref b } a =
      if a = ref then some b.state else stateOf s a := by
  split_ifs with h
  · subst h
    rw [stateOf, AList.lookup_insert, Option.map_some]
  · rw [stateOf, AList.lookup_insert_ne h, stateOf]

theorem drawn_insert {b : Association τ} : Drawn s
    { s with associations := s.associations.insert ref b } ↔
      ∀ x, stateOf s ref = some x → x = b.state ∨ b.state ∈ x.transitions := by
  constructor
  · intro h x hx
    obtain ⟨y,hy,hxy⟩ := h ref x hx
    rw [stateOf_insert, if_pos rfl, Option.some.injEq] at hy
    rwa [hy]
  · intro h a x hx
    rw [stateOf_insert]
    split_ifs with ha
    · subst ha
      exact ⟨b.state,rfl,h x hx⟩
    · exact ⟨x,hx,.inl rfl⟩

theorem drawn_update {f : Association τ → Association τ}
    (hf : ∀ b, b.state = (f b).state ∨ (f b).state ∈ b.state.transitions) :
    Drawn s (s.update ref f).2 := by
  rw [Store.update]
  split
  · exact Drawn.of_eq rfl
  · rename_i b hb
    rw [drawn_insert]
    intro x hx
    rw [stateOf, hb, Option.map_some, Option.some.injEq] at hx
    exact hx ▸ hf b

theorem tickets_update {f : Association τ → Association τ} :
    (s.update ref f).2.tickets = s.tickets := by
  rw [Store.update]
  split <;> rfl

theorem Live.of_tickets {s' : Store τ} (h : s'.tickets = s.tickets) (hl : Live s' r a) :
    Live s r a := by
  rwa [Live, h] at hl

theorem evaluate_drawn (b : Association τ) (now : τ) :
    b.state = (b.evaluate C now).state ∨ (b.evaluate C now).state ∈ b.state.transitions := by
  rw [Association.evaluate]
  split_ifs with h1 h2
  · right
    rw [h1.1]
    exact List.mem_cons_self
  · right
    rw [h2.1]
    exact List.mem_cons_self
  · exact .inl rfl

theorem touch_state (b : Association τ) (now : τ) : b.state = (b.touch now).state := by
  rw [Association.touch]
  split_ifs <;> rfl

/-- A reassociation goes along the edge that it checks, or changes nothing. -/
theorem reassociate_cases : (s.reassociate ref).2 = s ∨ ∃ b b', s.associations.lookup ref = some b ∧
    b'.state = .pendingActivation ∧ b'.state ∈ b.state.transitions ∧
      (s.reassociate ref).2 = { s with associations := s.associations.insert ref b' } := by
  rw [Store.reassociate]
  split
  · exact .inl rfl
  · rename_i b hb
    rw [Association.transition]
    split_ifs with ht
    · exact .inr ⟨b,_,hb,rfl,ht,rfl⟩
    · exact .inl rfl

/-- A presentation changes at most its ticket's status, or commits its ticket. -/
theorem consume_cases (p : Presentation) (now : τ) :
    (committed C s p now = none ∧ (consume C s p now).2.associations = s.associations ∧
      ∀ r a, Live (consume C s p now).2 r a → Live s r a) ∨
    ∃ t key, committed C s p now = some t ∧
      (consume C s p now).2 = (s.commit t p.activationRef key now).2 := by
  rw [consume, Store.consumeTransaction, committed]
  cases ht : s.tickets.lookup p.activationRef with
  | none => exact .inl ⟨rfl,rfl,fun r a h => h⟩
  | some t =>
    dsimp only
    have hdeny : ∀ reason, (t.purpose ≠ p.purpose ∨ t.status ≠ .issued ∨
        t.parties ≠ p.parties) → ((some t).filter (fun t => t.purpose = p.purpose &&
          t.status = .issued && !C.after now t.expiresAt && t.parties = p.parties) = none ∧
        (s.deny t reason).2.associations = s.associations ∧
        ∀ r a, Live (s.deny t reason).2 r a → Live s r a) := by
      intro reason h
      refine ⟨?_,rfl,fun r a h => h⟩
      rw [Option.filter_eq_none_iff]
      rintro u ⟨⟩
      rcases h with h | h | h <;> simp [h]
    split_ifs with h1 h2 h3 h4 h5 h6 h7 h8
    · exact .inl (hdeny _ (.inl h1))
    · exact .inl (hdeny _ (.inr (.inl (by simp [h2]))))
    · exact .inl (hdeny _ (.inr (.inl (by simp [h3]))))
    · left
      refine ⟨?_,rfl,live_insert (by simp)⟩
      rw [Option.filter_eq_none_iff]
      rintro u ⟨⟩
      simp [h4.2]
    · exact .inl (hdeny _ (.inr (.inr (fun h => h5 (by rw [h])))))
    · exact .inl (hdeny _ (.inr (.inr h6)))
    · left
      have hstatus : t.status ≠ .issued := by simp [h7]
      split
      · exact ⟨(hdeny "" (.inr (.inl hstatus))).1,rfl,fun r a h => h⟩
      · exact hdeny _ (.inr (.inl hstatus))
    · exact .inl (hdeny _ (.inr (.inl (by simp [h7]))))
    · right
      refine ⟨t,_,?_,rfl⟩
      have hstatus : t.status = .issued := by
        cases h : t.status with
        | issued => rfl
        | consumed => exact absurd h h7
        | expired => exact absurd h h3
        | revoked => exact absurd h h2
      have hafter : C.after now t.expiresAt = false := by
        rw [← Bool.not_eq_true]
        exact fun h => h4 ⟨hstatus,h⟩
      rw [not_not] at h1 h6
      simp [Option.filter, h1, hstatus, hafter, h6]

theorem issue_oneLive (hs : OneLive s) (r : TicketRequest τ) :
    OneLive (issueTicket C s r).2 ↔ Guard C s (.issueTicket r) := by
  have hlive : ∀ ref a, Live (issueTicket C s r).2 ref a ↔
      (ref = r.activationRef ∧ r.parties.associationRef = a) ∨
        (ref ≠ r.activationRef ∧ Live s ref a) := by
    intro ref a
    by_cases hr : ref = r.activationRef
    · subst hr
      simp [Live, issueTicket]
    · simp only [Live, issueTicket, AList.lookup_insert_ne hr]
      simp [hr]
  constructor
  · intro h ref href
    by_contra hne
    exact hne (h r.parties.associationRef ref r.activationRef ((hlive _ _).mpr (.inr ⟨hne,href⟩))
      ((hlive _ _).mpr (.inl ⟨rfl,rfl⟩)))
  · intro h a x y hx hy
    rcases (hlive x a).mp hx with ⟨rfl,ha⟩ | ⟨hxn,hx⟩
    · rcases (hlive y a).mp hy with ⟨rfl,-⟩ | ⟨hyn,hy⟩
      · rfl
      · exact absurd (h y (ha ▸ hy)) hyn
    · rcases (hlive y a).mp hy with ⟨rfl,ha⟩ | ⟨hyn,hy⟩
      · exact absurd (h x (ha ▸ hx)) hxn
      · exact hs a x y hx hy

/-- The guard of a step is exact. -/
theorem guard_step (hs : OneLive s) (call : Call τ) :
    Guard C s call ↔ OneLive (perform C s call) ∧ Drawn s (perform C s call) := by
  cases call with
  | issueTicket r =>
    rw [← issue_oneLive hs]
    exact (and_iff_left (Drawn.of_eq rfl)).symm
  | consume p now =>
    simp only [Guard, perform]
    rcases consume_cases (C := C) (s := s) p now with ⟨hc,ha,hl⟩ | ⟨t,key,hc,he⟩
    · rw [hc]
      exact ⟨fun _ => ⟨hs.of_sub hl,Drawn.of_eq ha⟩,fun _ t ht => absurd ht (by simp)⟩
    · have hlive : OneLive (consume C s p now).2 := by
        rw [he]
        exact hs.of_sub (fun r a h => live_insert (by simp) r a h)
      have hdrawn : Drawn s (consume C s p now).2 ↔ ∀ x,
          stateOf s t.parties.associationRef = some x →
            x = .observing ∨ AssociationState.observing ∈ x.transitions := by
        rw [he]
        exact drawn_insert
      rw [hdrawn, and_iff_right hlive, hc]
      constructor
      · intro h x hx
        rcases h t rfl x hx with rfl | rfl
        · exact .inr List.mem_cons_self
        · exact .inl rfl
      · rintro h u ⟨⟩ x hx
        have hxt := h x hx
        revert hxt
        cases x <;> decide
  | touch ref now =>
    exact ⟨fun _ => ⟨hs.of_sub (fun r a => Live.of_tickets tickets_update),
      drawn_update (fun b => .inl (touch_state b now))⟩,fun _ => trivial⟩
  | evaluate ref now =>
    exact ⟨fun _ => ⟨hs.of_sub (fun r a => Live.of_tickets tickets_update),
      drawn_update (fun b => evaluate_drawn b now)⟩,fun _ => trivial⟩
  | reassociate ref =>
    refine ⟨fun _ => ?_,fun _ => trivial⟩
    rcases @reassociate_cases τ s ref with h | ⟨b,b',hb,-,ht,h⟩
    · rw [perform, h]
      exact ⟨hs,Drawn.of_eq rfl⟩
    · rw [perform, h]
      refine ⟨hs.of_sub (fun r a h => h),drawn_insert.mpr ?_⟩
      intro x hx
      rw [stateOf, hb, Option.map_some, Option.some.injEq] at hx
      exact .inr (hx ▸ ht)
  | revokeTicket ref now =>
    refine ⟨fun _ => ?_,fun _ => trivial⟩
    simp only [perform, Store.revokeTicket]
    split
    · exact ⟨hs,Drawn.of_eq rfl⟩
    · split_ifs
      · exact ⟨hs,Drawn.of_eq rfl⟩
      · exact ⟨hs.of_sub (live_insert (by simp)),Drawn.of_eq rfl⟩

/-! ## Runs -/

/-- From an empty store, a run keeps to the drawn transitions with one live ticket an
association if and only if each of its calls was guarded. -/
theorem run_drawn_iff (C : Timing τ) (calls : List (Call τ)) :
    (Guarded.EachState (perform C) OneLive {} calls ∧
      Guarded.EachStep (perform C) (fun s call => Drawn s (perform C s call)) {} calls) ↔
    Guarded.EachStep (perform C) (Guard C) {} calls := by
  have h0 : OneLive ({} : Store τ) := by
    rintro a r r' ⟨t,ht,-⟩
    cases ht
  refine (Guarded.guarded_iff ?_ h0 calls).symm
  intro s call hs
  exact guard_step hs call

def wholeSeconds : Timing ℤ := ⟨(· + ·),fun a b => a > b,fun a b n => a-b > n⟩

def someParties : Parties := ⟨"observer","owner","profile","workspace","session","assoc"⟩

/-- Two tickets for one association; the second is consumed while it reconnects. -/
def secondTicket : List (Call ℤ) :=
  [.issueTicket ⟨someParties,"p",0,300,"01","n1"⟩, .issueTicket ⟨someParties,"p",0,300,"02","n2"⟩,
    .consume ⟨"act-01",someParties,PURPOSE⟩ 1, .evaluate "assoc" 100,
    .consume ⟨"act-02",someParties,PURPOSE⟩ 101]

/-- After the second issue two tickets are live, and the last consume takes an association
from reconnecting back to observing. -/
theorem run_not_drawn :
    ¬Guarded.EachState (perform wholeSeconds) OneLive {} secondTicket ∧
    ¬Guarded.EachStep (perform wholeSeconds)
      (fun s call => Drawn s (perform wholeSeconds s call)) {} secondTicket := by
  constructor
  · intro h
    have hlive := h (secondTicket.take 2) (List.take_prefix 2 _)
    have heq := hlive "assoc" "act-01" "act-02" ⟨_,rfl,rfl,rfl⟩ ⟨_,rfl,rfl,rfl⟩
    revert heq
    decide
  · intro h
    obtain ⟨y,hy,hxy⟩ := h (secondTicket.take 4) (.consume ⟨"act-02",someParties,PURPOSE⟩ 101)
      List.prefix_rfl "assoc" .reconnecting rfl
    have hy' : y = .observing := (Option.some.inj hy).symm
    subst hy'
    revert hxy
    decide

end PdFleet.Auth
