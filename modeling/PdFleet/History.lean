import PdFleet.Change
import PdFleet.ClockText

/-!
# What every change keeps

The history of a run only grows, leases stay within what the run allows, and a
changed state passes the reader's checks. Each result is one case for every
kind of change.
-/

set_option autoImplicit false

namespace PdFleet

open Dict

/-- Nothing of the history of `s` is lost in `c`. -/
structure Extends (s c : Snapshot) : Prop where
  runId : c.runId = s.runId
  planHash : c.planHash = s.planHash
  plan : c.plan = s.plan
  owner : c.owner = s.owner
  events : s.events.items <+: c.events.items
  attempts : ∀ t n, s.attempts.lookup t = some n → ∃ m, n ≤ m ∧ c.attempts.lookup t = some m
  reports : Sub s.reports c.reports

theorem Extends.refl (s : Snapshot) : Extends s s where
  runId := rfl
  planHash := rfl
  plan := rfl
  owner := rfl
  events := List.prefix_refl _
  attempts := fun _ n h => ⟨n,le_refl _,h⟩
  reports := Sub.refl _

theorem Extends.trans {s c d : Snapshot} (h : Extends s c) (h' : Extends c d) : Extends s d where
  runId := h'.runId.trans h.runId
  planHash := h'.planHash.trans h.planHash
  plan := h'.plan.trans h.plan
  owner := h'.owner.trans h.owner
  events := h.events.trans h'.events
  attempts := fun t n hn => by
    obtain ⟨m,hm,hc⟩ := h.attempts t n hn
    obtain ⟨k,hk,hd⟩ := h'.attempts t m hc
    exact ⟨k,le_trans hm hk,hd⟩
  reports := fun t r hr => h'.reports t r (h.reports t r hr)

/-- The state of a run whose leases are its own: none is from the future, none
belongs to a closed task, and each was counted as an attempt. -/
structure Coherent (s : Snapshot) : Prop where
  fence : ∀ t l, s.leases.lookup t = some l → l.generation ≤ s.generation
  opened : ∀ t l, s.leases.lookup t = some l → s.closed t = false
  counted : ∀ t l, s.leases.lookup t = some l → ∃ n, 1 ≤ n ∧ s.attempts.lookup t = some n
  sequences : s.events.items.map sequence = sequencesTo s.eventSequence

/-! ## Grants -/

theorem mem_grants {owner expiry : String} {generation : ℕ} {token : ℕ → HexToken}
    {chosen : List String} {t : String} {l : Lease}
    (h : (t,l) ∈ grants owner expiry generation token chosen) :
    t ∈ chosen ∧ ∃ i, l = ⟨owner,(token i).text,expiry,generation⟩ := by
  obtain ⟨⟨u,i⟩,hu,he⟩ := List.mem_map.mp h
  cases he
  exact ⟨List.fst_mem_of_mem_zipIdx hu,i,rfl⟩

@[simp] theorem map_fst_grants (owner expiry : String) (generation : ℕ) (token : ℕ → HexToken)
    (chosen : List String) :
    (grants owner expiry generation token chosen).map Prod.fst = chosen := by
  simp [grants, List.map_map, Function.comp_def, List.zipIdx_map_fst]

theorem bumpAttempts_mono (l : List String) (d : Dict String ℕ) (t : String) (n : ℕ)
    (h : d.lookup t = some n) : ∃ m, n ≤ m ∧ (l.foldl bumpAttempt d).lookup t = some m := by
  induction l generalizing d n with
  | nil => exact ⟨n,le_refl _,h⟩
  | cons u l ih =>
    by_cases hu : t = u
    · subst hu
      obtain ⟨m,hm,hl⟩ := ih (bumpAttempt d t) (n+1) (by simp [bumpAttempt, h])
      exact ⟨m,by omega,hl⟩
    · exact ih (bumpAttempt d u) n (by rw [bumpAttempt, AList.lookup_insert_ne hu, h])

theorem bumpAttempts_mem (l : List String) (d : Dict String ℕ) (t : String) (h : t ∈ l) :
    ∃ m, 1 ≤ m ∧ (l.foldl bumpAttempt d).lookup t = some m := by
  induction l generalizing d with
  | nil => simp at h
  | cons u l ih =>
    rcases List.mem_cons.mp h with rfl | hl
    · obtain ⟨m,hm,hk⟩ := bumpAttempts_mono l (bumpAttempt d t) t ((d.lookup t).getD 0+1)
        (by simp [bumpAttempt])
      exact ⟨m,by omega,hk⟩
    · exact ih _ hl

/-! ## Closed tasks -/

theorem closed_congr {s c : Snapshot} {t : String} (ht : c.tasks.lookup t = s.tasks.lookup t)
    (hr : c.reports.lookup t = s.reports.lookup t) : c.closed t = s.closed t := by
  rw [Snapshot.closed, Snapshot.closed, ht, hr]

theorem setTaskStatus_ne (tasks : Dict String Obj) (t u : String) (st : TaskStatus)
    (h : u ≠ t) : (setTaskStatus tasks t st).lookup u = tasks.lookup u :=
  AList.lookup_insert_ne h

theorem erase_lookup_ne {d : Dict String Lease} {t u : String} {l : Lease}
    (h : (d.erase t).lookup u = some l) : u ≠ t ∧ d.lookup u = some l := by
  rw [lookup_erase_eq] at h
  split at h
  · cases h
  · exact ⟨‹_›,h⟩

/-! ## Growth -/

theorem change_extends {D : Deps} {s c : Snapshot} (h : Change D s c) :
    Extends s c ∧ c.generation = s.generation := by
  cases h with
  | status st h => exact ⟨{ Extends.refl s with },rfl⟩
  | taskStatus t st known hk ht hr => exact ⟨{ Extends.refl s with },rfl⟩
  | terminal t rows record hid he hr =>
    refine ⟨{ Extends.refl s with events := ?_ },rfl⟩
    rw [he]
    exact List.prefix_append _ _
  | grant kept now expiry seconds token chosen hk hn he hc hf =>
    exact ⟨{ Extends.refl s with attempts := fun t n hn => bumpAttempts_mono _ _ t n hn },rfl⟩
  | renew t now expiry token seconds l fresh hh hn ha he => exact ⟨{ Extends.refl s with },rfl⟩
  | commit t now token st given l hh hn ha hr hv =>
    refine ⟨{ Extends.refl s with reports := fun u r hu => ?_ },rfl⟩
    rw [lookup_insert_eq, if_neg (fun hut => by rw [hut, hr] at hu; cases hu), hu]
  | drop leases hl => exact ⟨{ Extends.refl s with },rfl⟩

theorem next_extends {D : Deps} {s c : Snapshot} (h : Next D s c) :
    Extends s c ∧ c.generation = s.generation+1 := by
  obtain ⟨c₀,stamp,hc,-,rfl⟩ := h
  obtain ⟨he,hg⟩ := change_extends hc
  exact ⟨{ he with },congrArg (· + 1) hg⟩

theorem nextEvent_extends {D : Deps} {s c : Snapshot} {given : Obj}
    (h : NextEvent D s given c) : Extends s c ∧ c.generation = s.generation+1 := by
  obtain ⟨rows,item,stamp,he,-,-,rfl⟩ := h
  refine ⟨{ Extends.refl s with events := ?_ },rfl⟩
  rw [he]
  exact List.prefix_append _ _

/-! ## Coherence -/

theorem sequencesTo_succ (n : ℕ) : sequencesTo (n+1) = sequencesTo n ++ [(n:ℤ)+1] := by
  simp [sequencesTo, List.range_succ]

theorem sequence_numbered (s : Snapshot) (item : Obj) :
    sequence (numbered s item) = s.eventSequence+1 := by
  simp [sequence, numbered]

theorem logged_sequences {s : Snapshot} {rows : List Obj} {item : Obj}
    (he : s.events = .list rows) (hi : sequence item = s.eventSequence+1)
    (h : s.events.items.map sequence = sequencesTo s.eventSequence) :
    (logged s rows item).events.items.map sequence =
      sequencesTo (logged s rows item).eventSequence := by
  rw [he] at h
  show (rows++[item]).map sequence = sequencesTo (s.eventSequence+1)
  rw [List.map_append, sequencesTo_succ, show rows.map sequence = _ from h, List.map_singleton, hi]

/-- Leases that were there before, of tasks that are as open as before. -/
theorem Coherent.of_sub {s c : Snapshot} (h : Coherent s) (hg : s.generation ≤ c.generation)
    (hl : Sub c.leases s.leases) (ha : Extends s c)
    (ho : ∀ t l, c.leases.lookup t = some l → c.closed t = s.closed t)
    (hq : c.events.items.map sequence = sequencesTo c.eventSequence) : Coherent c where
  fence := fun t l ht => le_trans (h.fence t l (hl t l ht)) hg
  opened := fun t l ht => (ho t l ht).trans (h.opened t l (hl t l ht))
  counted := fun t l ht => by
    obtain ⟨n,hn,hs⟩ := h.counted t l (hl t l ht)
    obtain ⟨m,hm,hc⟩ := ha.attempts t n hs
    exact ⟨m,le_trans hn hm,hc⟩
  sequences := hq

theorem coherent_next {D : Deps} {s c : Snapshot} (h : Coherent s) (hn : Next D s c) :
    Coherent c := by
  have hext := next_extends hn
  obtain ⟨c₀,stamp,hc,-,rfl⟩ := hn
  have hg : s.generation ≤ (stamped c₀ stamp).generation := by omega
  cases hc with
  | status st _ =>
    exact h.of_sub hg (Sub.refl _) hext.1 (fun _ _ _ => rfl) h.sequences
  | taskStatus t st known hk ht hr =>
    refine h.of_sub hg (sub_erase _ _) hext.1 (fun u l hu => ?_) h.sequences
    obtain ⟨hut,-⟩ := erase_lookup_ne hu
    exact closed_congr (setTaskStatus_ne _ _ _ _ hut) rfl
  | terminal t rows record hid he hr =>
    refine h.of_sub hg (Sub.refl _) hext.1 (fun _ _ _ => rfl) ?_
    exact logged_sequences he (by simp [sequence, terminalEvent, Obj.field, List.lookup]) h.sequences
  | grant kept now expiry seconds token chosen hk hn he hch hf =>
    refine ⟨fun t l ht => ?_,fun t l ht => ?_,fun t l ht => ?_,h.sequences⟩
    · rcases lookup_insertAll ht with hm | ⟨hm,-⟩
      · obtain ⟨-,i,rfl⟩ := mem_grants hm
        exact le_refl _
      · exact le_trans (h.fence t l (hk t l hm)) hg
    · rcases lookup_insertAll ht with hm | ⟨hm,-⟩
      · exact (hf t (mem_grants hm).1).2.1
      · exact h.opened t l (hk t l hm)
    · rcases lookup_insertAll ht with hm | ⟨hm,-⟩
      · refine bumpAttempts_mem _ _ t ?_
        rw [map_fst_grants]
        exact (mem_grants hm).1
      · obtain ⟨n,hn,hs⟩ := h.counted t l (hk t l hm)
        obtain ⟨m,hm,hc⟩ := hext.1.attempts t n hs
        exact ⟨m,le_trans hn hm,hc⟩
  | renew t now expiry token seconds l fresh hh hn ha he =>
    have hl : ∀ u k, (s.leases.insert t (l.refreshed fresh.text expiry (s.generation+1))).lookup u =
        some k → (u = t ∧ k.generation = s.generation+1) ∨ s.leases.lookup u = some k := by
      intro u k hu
      rcases of_lookup_insert hu with ⟨hut,rfl⟩ | ⟨-,hk⟩
      · exact Or.inl ⟨hut,rfl⟩
      · exact Or.inr hk
    refine ⟨fun u k hu => ?_,fun u k hu => ?_,fun u k hu => ?_,h.sequences⟩
    · rcases hl u k hu with ⟨-,hk⟩ | hk
      · exact le_of_eq hk
      · exact le_trans (h.fence u k hk) hg
    · rcases hl u k hu with ⟨rfl,-⟩ | hk
      · exact h.opened u l hh.1
      · exact h.opened u k hk
    · rcases hl u k hu with ⟨rfl,-⟩ | hk
      · exact h.counted u l hh.1
      · exact h.counted u k hk
  | commit t now token st given l hh hn ha hr hv =>
    refine h.of_sub hg (sub_erase _ _) hext.1 (fun u k hu => ?_) h.sequences
    obtain ⟨hut,-⟩ := erase_lookup_ne hu
    exact closed_congr (setTaskStatus_ne _ _ _ _ hut) (AList.lookup_insert_ne hut)
  | drop leases hl =>
    exact h.of_sub hg hl hext.1 (fun _ _ _ => rfl) h.sequences

theorem coherent_nextEvent {D : Deps} {s c : Snapshot} {given : Obj} (h : Coherent s)
    (hn : NextEvent D s given c) : Coherent c := by
  have hext := nextEvent_extends hn
  obtain ⟨rows,item,stamp,he,-,-,rfl⟩ := hn
  exact h.of_sub (by omega) (Sub.refl _) hext.1 (fun _ _ _ => rfl)
    (logged_sequences he (sequence_numbered s item) h.sequences)

/-! ## Validity -/

theorem of_plusSeconds {now expiry : String} {seconds : Seconds}
    (h : plusSeconds now seconds = .ok expiry) :
    ∃ t, utcInstant now = some t ∧ t+seconds.micros ≤ maxInstant ∧
      expiry = String.ofList (isoformat (t+seconds.micros)) := by
  rw [plusSeconds] at h
  split at h
  · cases h
  · split at h
    · cases h
    · rename_i t ht
      split at h
      · cases h
        exact ⟨t,ht,‹_›,rfl⟩
      · cases h

theorem expiry_isSome {now expiry : String} {seconds : Seconds}
    (h : plusSeconds now seconds = .ok expiry) : (utcInstant expiry).isSome := by
  obtain ⟨t,-,ht,rfl⟩ := of_plusSeconds h
  rw [utcInstant_isoformat ht]
  rfl

theorem isIdStart_of_hex {c : Char} (h : Sha256.isHexDigit c = true) : isIdStart c = true := by
  simp only [Sha256.isHexDigit, isIdStart, decide_eq_true_eq, Bool.decide_or, Bool.or_eq_true] at *
  rcases h with h | h
  · exact Or.inr (Or.inr h)
  · exact Or.inr (Or.inl ⟨h.1,le_trans h.2 (by decide)⟩)

theorem isId_of_hex {s : String} (hn : s.toList ≠ [])
    (h : s.toList.all Sha256.isHexDigit = true) : isId s = true := by
  rw [List.all_eq_true] at h
  rw [isId]
  cases hx : s.toList with
  | nil => exact absurd hx hn
  | cons c cs =>
    rw [hx] at h
    simp only [Bool.and_eq_true, List.all_eq_true]
    refine ⟨isIdStart_of_hex (h c List.mem_cons_self),fun d hd => ?_⟩
    rw [isIdChar, isIdStart_of_hex (h d (List.mem_cons_of_mem _ hd))]
    rfl

theorem isId_token (t : HexToken) : isId t.text = true := by
  refine isId_of_hex (fun hn => ?_) t.digits.2
  have hl := t.digits.1
  rw [hn] at hl
  cases hl

theorem isId_sha256Hex (t : String) : isId (sha256Hex t) = true := by
  have hx := sha256_hex64 t
  rw [isHex64, decide_eq_true_eq] at hx
  refine isId_of_hex (fun hn => ?_) hx.2
  rw [hn] at hx
  cases hx.1

theorem taskValid_setTaskStatus {tasks : Dict String Obj} {t : String} {st : TaskStatus}
    (h : ∀ k o, tasks.lookup k = some o → TaskValid o) (k : String) (o : Obj)
    (hk : (setTaskStatus tasks t st).lookup k = some o) : TaskValid o := by
  rcases of_lookup_insert hk with ⟨-,rfl⟩ | ⟨-,ho⟩
  · intro v hv
    rw [Obj.field_put_self, Option.some.injEq] at hv
    exact ⟨st,hv.symm⟩
  · exact h k o ho

theorem validEvent_terminal {t : String} (st : ReportStatus) (n : ℕ) (h : isId t = true) :
    validEvent (terminalEvent t st (n+1)) = true := by
  have hne : t ≠ "" := by
    rintro rfl
    cases h
  have h₁ : (terminalEvent t st (n+1)).field "sequence" = some (.int ((n+1:ℕ):ℤ)) := rfl
  have h₂ : (terminalEvent t st (n+1)).field "event_id" = some (.str t) := rfl
  have h₃ : (terminalEvent t st (n+1)).field "ordering_key" = some (.str t) := rfl
  have h₄ : (terminalEvent t st (n+1)).field "generation" = none := rfl
  have h₅ : (terminalEvent t st (n+1)).field "metadata" = none := rfl
  simp [validEvent, h₁, h₂, h₃, h₄, h₅, Json.isIntFrom, Json.text?, h, hne]

/-- A changed state passes every check of the reader but those of the events. -/
theorem sound_next {D : Deps} {rid : String} {s c : Snapshot} (hs : s.Sound D rid)
    (hc : Coherent s) (hn : Next D s c) : c.Sound D rid := by
  obtain ⟨c₀,stamp,hch,hst,rfl⟩ := hn
  cases hch with
  | status st _ => exact { hs with updated := hst }
  | taskStatus t st known hk ht hr =>
    exact { hs with
      updated := hst
      tasks := taskValid_setTaskStatus hs.tasks
      leases := fun u l hu => hs.leases u l (erase_lookup_ne hu).2 }
  | terminal t rows record hid he hr => exact { hs with updated := hst }
  | grant kept now expiry seconds token chosen hk hn he hch hf =>
    refine { hs with updated := hst, leases := fun t l ht => ?_ }
    rcases lookup_insertAll ht with hm | ⟨hm,-⟩
    · obtain ⟨htc,i,rfl⟩ := mem_grants hm
      exact ⟨(hf t htc).1,hs.owner,isId_token _,expiry_isSome he⟩
    · exact hs.leases t l (hk t l hm)
  | renew t now expiry token seconds l fresh hh hn ha he =>
    refine { hs with updated := hst, leases := fun u k hu => ?_ }
    have hl := hs.leases t l hh.1
    rcases of_lookup_insert hu with ⟨rfl,rfl⟩ | ⟨-,hk⟩
    · exact ⟨hl.1,hl.2.1,isId_token _,expiry_isSome he⟩
    · exact hs.leases u k hk
  | commit t now token st given l hh hn ha hr hv =>
    refine { hs with
      updated := hst
      tasks := taskValid_setTaskStatus hs.tasks
      leases := fun u k hu => hs.leases u k (erase_lookup_ne hu).2
      reports := fun u r hu => ?_ }
    have hl := hs.leases t l hh.1
    rcases of_lookup_insert hu with ⟨rfl,rfl⟩ | ⟨-,hr'⟩
    · obtain ⟨n,hn1,hatt⟩ := hc.counted u l hh.1
      refine ⟨hl.1,⟨?_,hl.2.2.1,rfl,hv⟩⟩
      rw [reportRecord, hatt]
      exact hn1
    · exact hs.reports u r hr'
  | drop leases hl =>
    exact { hs with updated := hst, leases := fun t l ht => hs.leases t l (hl t l ht) }

theorem Snapshot.Sound.plain {D : Deps} {rid : String} {s : Snapshot} (h : s.Sound D rid) :
    s.Plain D := ⟨h.hash,h.tasks⟩

theorem plain_next {D : Deps} {s c : Snapshot} (hs : s.Plain D) (hn : Next D s c) :
    c.Plain D := by
  obtain ⟨c₀,stamp,hch,-,rfl⟩ := hn
  cases hch with
  | status st _ => exact ⟨hs.hash,hs.tasks⟩
  | taskStatus t st known hk ht hr => exact ⟨hs.hash,taskValid_setTaskStatus hs.tasks⟩
  | terminal t rows record hid he hr => exact ⟨hs.hash,hs.tasks⟩
  | grant kept now expiry seconds token chosen hk hn he hch hf => exact ⟨hs.hash,hs.tasks⟩
  | renew t now expiry token seconds l fresh hh hn ha he => exact ⟨hs.hash,hs.tasks⟩
  | commit t now token st given l hh hn ha hr hv =>
    exact ⟨hs.hash,taskValid_setTaskStatus hs.tasks⟩
  | drop leases hl => exact ⟨hs.hash,hs.tasks⟩

theorem plain_nextEvent {D : Deps} {s c : Snapshot} {given : Obj} (hs : s.Plain D)
    (hn : NextEvent D s given c) : c.Plain D := by
  obtain ⟨rows,item,stamp,-,-,-,rfl⟩ := hn
  exact ⟨hs.hash,hs.tasks⟩

theorem logged_of {s : Snapshot} (hv : ∀ e ∈ s.events.items, validEvent e = true)
    (hq : s.events.items.map sequence = sequencesTo s.eventSequence) : s.logged = true := by
  rw [Snapshot.logged, Bool.and_eq_true, List.all_eq_true, decide_eq_true_eq]
  exact ⟨hv,hq⟩

theorem valid_events {D : Deps} {rid : String} {s : Snapshot} (h : s.Valid D rid) :
    (∀ e ∈ s.events.items, validEvent e = true) ∧
      s.events.items.map sequence = sequencesTo s.eventSequence := by
  have hl := h.logged
  rw [Snapshot.logged, Bool.and_eq_true, List.all_eq_true, decide_eq_true_eq] at hl
  exact hl

/-- A changed state is valid: the reader accepts what a section writes. -/
theorem valid_next {D : Deps} {rid : String} {s c : Snapshot} (hs : s.Valid D rid)
    (hc : Coherent s) (hn : Next D s c) : c.Valid D rid := by
  refine ⟨sound_next hs.toSound hc hn,logged_of ?_ (coherent_next hc hn).sequences⟩
  obtain ⟨hv,-⟩ := valid_events hs
  obtain ⟨c₀,stamp,hch,-,rfl⟩ := hn
  cases hch with
  | terminal t rows record hid he hr =>
    rw [he] at hv
    intro e hm
    rcases List.mem_append.mp hm with hm | hm
    · exact hv e hm
    · rw [List.mem_singleton.mp hm]
      exact validEvent_terminal _ _ hid
  | status st _ => exact hv
  | taskStatus t st known hk ht hr => exact hv
  | grant kept now expiry seconds token chosen hk hn he hch hf => exact hv
  | renew t now expiry token seconds l fresh hh hn ha he => exact hv
  | commit t now token st given l hh hn ha hr hv' => exact hv
  | drop leases hl => exact hv

/-- With an event of a caller's, the state is valid as far as that event is. -/
theorem nextEvent_sound {D : Deps} {rid : String} {s c : Snapshot} {given : Obj}
    (hs : s.Sound D rid) (hn : NextEvent D s given c) : c.Sound D rid := by
  obtain ⟨rows,item,stamp,he,-,hst,rfl⟩ := hn
  exact { hs with updated := hst }

end PdFleet
