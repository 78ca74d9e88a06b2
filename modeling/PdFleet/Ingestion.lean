import PdFleet.Delivery
import PdFleet.Lib.Guarded

/-!
# Ingestion of the event stream

The next event of the stream is refused once the retention floor lies above the ingestion
cursor. Only a prune can raise the floor there.
-/

set_option autoImplicit false

namespace PdFleet.Gateway

variable {τ : Type} {since : τ → τ → ℚ} {s : SubscriptionStore τ} {log : Log τ} {n : ℤ}

/-- A call, noted with its answer. -/
def advance (since : τ → τ → ℚ) (x : SubscriptionStore τ × Log τ) (call : Call τ) :
    SubscriptionStore τ × Log τ :=
  ((perform since x.1 call).2,(call,(perform since x.1 call).1) :: x.2)

/-- An event of this id was accepted. -/
def Used (log : Log τ) (eventId : String) : Prop :=
  ∃ n, (Call.append n eventId,Answer.flag true) ∈ log

/-- The event after the ingestion cursor is accepted under every id that was not used. -/
def Open (x : SubscriptionStore τ × Log τ) : Prop :=
  ∀ eventId, ¬ Used x.2 eventId → (x.1.append (x.1.ingestionCursor+1) eventId).1 = true

/-- A prune reaches no further than the events that were ingested. -/
def Retained (x : SubscriptionStore τ × Log τ) : Call τ → Prop
  | .prune n => n ≤ x.1.ingestionCursor
  | _ => True

/-- The index of ids has those of the accepted events. -/
def Indexed (x : SubscriptionStore τ × Log τ) : Prop :=
  ∀ eventId, eventId ∈ x.1.eventIds ↔ Used x.2 eventId

theorem used_cons {e : Call τ × Answer τ} {eventId : String} :
    Used (e :: log) eventId ↔ (∃ n, e = (.append n eventId,.flag true)) ∨ Used log eventId := by
  constructor
  · rintro ⟨n,hn⟩
    rcases List.mem_cons.mp hn with he | hn
    · exact Or.inl ⟨n,he.symm⟩
    · exact Or.inr ⟨n,hn⟩
  · rintro (⟨n,rfl⟩ | ⟨n,hn⟩)
    · exact ⟨n,List.mem_cons_self⟩
    · exact ⟨n,List.mem_cons_of_mem e hn⟩

/-- A call other than `append` uses no id. -/
theorem used_quiet {call : Call τ} {answer : Answer τ} {eventId : String}
    (h : ∀ n i, call ≠ .append n i) : Used ((call,answer) :: log) eventId ↔ Used log eventId := by
  rw [used_cons]
  refine or_iff_right ?_
  rintro ⟨n,he⟩
  exact h n eventId (Prod.mk.inj he).1

theorem read_eventIds {ref epoch : String} {now : τ} :
    (s.read since ref epoch now).2.eventIds = s.eventIds := by
  rw [SubscriptionStore.read]
  split
  · rfl
  · dsimp only
    split_ifs <;> try rfl
    split <;> rfl

theorem heartbeat_eventIds {ref : String} {now : τ} :
    (s.heartbeat since ref n now).2.eventIds = s.eventIds := by
  rw [SubscriptionStore.heartbeat]
  split
  · rfl
  · dsimp only
    split_ifs <;> rfl

theorem ack_eventIds {ref : String} : (s.ack ref n).2.eventIds = s.eventIds := by
  rw [SubscriptionStore.ack]
  split
  · split_ifs <;> rfl
  · rfl

/-- Only `append` adds an id. -/
theorem perform_eventIds (since : τ → τ → ℚ) (s : SubscriptionStore τ) {call : Call τ}
    (h : ∀ n i, call ≠ .append n i) : (perform since s call).2.eventIds = s.eventIds := by
  cases call with
  | subscribe ref association epoch boundary snapshot now =>
    simp only [perform, SubscriptionStore.subscribe, Prod.map]
    split_ifs <;> rfl
  | append n eventId => exact absurd rfl (h n eventId)
  | prune n => rfl
  | heartbeat ref n now => exact heartbeat_eventIds
  | evaluate ref now =>
    simp only [perform, SubscriptionStore.evaluate, Prod.map]
    split <;> rfl
  | read ref epoch now => exact read_eventIds
  | ack ref n => exact ack_eventIds
  | detach ref =>
    simp only [perform, SubscriptionStore.detach, Prod.map]
    split <;> rfl

theorem indexed_append {eventId : String} (h : Indexed (s,log)) :
    Indexed (advance since (s,log) (.append n eventId)) := by
  intro i
  have hi : i ∈ s.eventIds ↔ Used log i := h i
  rw [advance, perform, used_cons, ← hi]
  simp only [SubscriptionStore.append, Prod.map]
  split_ifs with h1 h2 h3
  · simp
  · simp
  · simp [SubscriptionStore.note]
  · simp [AList.mem_insert, eq_comm]

theorem indexed_advance (x : SubscriptionStore τ × Log τ) (call : Call τ) (h : Indexed x) :
    Indexed (advance since x call) := by
  obtain ⟨s,log⟩ := x
  by_cases hc : ∃ n i, call = .append n i
  · obtain ⟨n,i,rfl⟩ := hc
    exact indexed_append h
  · push Not at hc
    intro i
    show i ∈ (perform since s call).2.eventIds ↔ _
    rw [perform_eventIds since s hc]
    exact (h i).trans (used_quiet hc).symm

/-- The next event can be ingested if and only if the floor is not above the cursor. -/
theorem open_iff {x : SubscriptionStore τ × Log τ} (h : Indexed x) :
    Open x ↔ x.1.retentionFloor ≤ x.1.ingestionCursor := by
  constructor
  · intro ho
    obtain ⟨i,hi⟩ := Infinite.exists_notMem_finset x.1.eventIds.keys.toFinset
    have hfree : i ∉ x.1.eventIds := fun hm => hi (List.mem_toFinset.mpr hm)
    have hacc := ho i fun hu => hfree ((h i).mpr hu)
    rcases append_cases x.1 (x.1.ingestionCursor+1) i with ⟨hf,-⟩ | ⟨-,-,hfloor,-⟩
    · rw [hacc] at hf
      cases hf
    · omega
  · intro hle i hu
    have hfree : i ∉ x.1.eventIds := fun hm => hu ((h i).mp hm)
    rw [SubscriptionStore.append, if_neg (not_not.mpr rfl), if_neg (by omega), if_neg hfree]

/-- What a call does to the floor and the cursor. -/
theorem floor_advance {x : SubscriptionStore τ × Log τ} (hle : x.1.retentionFloor ≤ x.1.ingestionCursor)
    (call : Call τ) :
    (advance since x call).1.retentionFloor ≤ (advance since x call).1.ingestionCursor ↔
      Retained x call := by
  rcases perform_same since x.1 call with ⟨-,hi,hf⟩ | ⟨n,eventId,rfl⟩ | ⟨n,rfl⟩
  · show (perform since x.1 call).2.retentionFloor ≤ (perform since x.1 call).2.ingestionCursor ↔ _
    rw [hi, hf]
    refine iff_of_true hle ?_
    cases call with
    | prune n =>
      have hmax : max x.1.retentionFloor n = x.1.retentionFloor := hf
      exact (max_eq_left_iff.mp hmax).trans hle
    | _ => trivial
  · refine iff_of_true ?_ trivial
    show (x.1.append n eventId).2.retentionFloor ≤ (x.1.append n eventId).2.ingestionCursor
    rcases append_cases x.1 n eventId with ⟨-,-,hi,hf⟩ | ⟨-,hn,-,-,hi,hf⟩
    · rw [hi, hf]
      exact hle
    · omega
  · show max x.1.retentionFloor n ≤ x.1.ingestionCursor ↔ n ≤ x.1.ingestionCursor
    rw [max_le_iff, and_iff_right hle]

/-- In a run from the empty store, the next event of the stream is accepted in every state if
and only if no prune reaches beyond the events that were ingested. -/
theorem open_run_iff (since : τ → τ → ℚ) (calls : List (Call τ)) :
    Guarded.EachState (advance since) Open (({} : SubscriptionStore τ),[]) calls ↔
      Guarded.EachStep (advance since) Retained (({} : SubscriptionStore τ),[]) calls := by
  let start : SubscriptionStore τ × Log τ := ({},[])
  let Behind (x : SubscriptionStore τ × Log τ) : Prop :=
    Indexed x ∧ x.1.retentionFloor ≤ x.1.ingestionCursor
  have h0 : Indexed start := by
    intro i
    simp [start, Used]
  have hindexed : Guarded.EachState (advance since) Indexed start calls :=
    Guarded.eachState indexed_advance h0 calls
  have hiff := @Guarded.guarded_iff _ _ (advance since) Behind start Retained (fun _ _ => True)
    (fun x c hx => by
      rw [and_true, ← floor_advance hx.2 c]
      exact (and_iff_right (indexed_advance x c hx.1)).symm)
    ⟨h0,le_refl _⟩ calls
  constructor
  · intro h
    refine hiff.mpr ⟨fun before hp => ?_,fun _ _ _ => trivial⟩
    exact ⟨hindexed before hp,(open_iff (hindexed before hp)).mp (h before hp)⟩
  · intro h before hp
    exact (open_iff (hindexed before hp)).mpr ((hiff.mp h).1 before hp).2

/-- A prune of an empty store up to the fifth event leaves the first one refused. -/
theorem early_prune_closed :
    ¬ Guarded.EachState (advance (fun a b : ℚ => a-b)) Open (({} : SubscriptionStore ℚ),[])
      [.prune 5] := by
  intro h
  have hopen := h [.prune 5] (List.prefix_refl _) "event-1" (by simp [Used, advance])
  have hrefused : ((({} : SubscriptionStore ℚ).prune 5).append 1 "event-1").1 = false := by
    decide
  exact absurd hopen (ne_true_of_eq_false hrefused)

end PdFleet.Gateway
