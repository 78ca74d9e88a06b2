import PdFleet.Clients
import PdFleet.Lib.Fence

/-!
# Fencing

A lease that is gone stays gone: no task has two leases of one generation, and a
token whose lease was replaced, renewed, dropped or used up is refused from then
on. The generations of the run are the counts of the fence.
-/

set_option autoImplicit false

namespace PdFleet

open Dict

def Snapshot.fence (s : Snapshot) : Fence.State String Lease := ⟨s.generation, s.leases.lookup⟩

section

variable {D : Deps} {rid : String} {P : Action → Prop} {s c : Snapshot} {d : RunDir}

/-! ## Steps of the fence -/

theorem change_leases {c₀ : Snapshot} (h : Change D s c₀) {t : String} {l : Lease}
    (hl : c₀.leases.lookup t = some l) :
    s.leases.lookup t = some l ∨ l.generation = s.generation+1 := by
  cases h with
  | status st _ => exact Or.inl hl
  | taskStatus u st known hk ht hr => exact Or.inl (sub_erase _ _ t l hl)
  | terminal u rows record hid he hr => exact Or.inl hl
  | grant kept now expiry seconds token chosen hk hn he hc hf =>
    rcases lookup_insertAll hl with hm | ⟨hm,-⟩
    · obtain ⟨-,i,rfl⟩ := mem_grants hm
      exact Or.inr rfl
    · exact Or.inl (hk t l hm)
  | renew u now expiry token seconds k fresh hh hn ha he =>
    rcases of_lookup_insert hl with ⟨-,rfl⟩ | ⟨-,hl⟩
    · exact Or.inr rfl
    · exact Or.inl hl
  | commit u now token st given k hh hn ha hr hv => exact Or.inl (sub_erase _ _ t l hl)
  | drop leases hs => exact Or.inl (hs t l hl)

/-- Every write is a step of the fence. -/
theorem writes_fence {a : Action} {x : Draws} {r : Reply} (h : Writes D a x s c r) :
    Fence.Step Lease.generation s.fence c.fence := by
  have hg := (writes_extends h).2
  refine ⟨by show s.generation < c.generation; omega,fun t l hl => ?_⟩
  rcases writes_next h with ⟨c₀,stamp,hc,-,rfl⟩ | ⟨given,rows,item,stamp,-,-,-,rfl⟩
  · exact (change_leases hc hl).imp_right (fun hk => hk.trans hg.symm)
  · exact Or.inl hl

theorem course_fence (h : Course D rid P s c) : Fence.Run Lease.generation s.fence c.fence := by
  induction h with
  | refl => exact .refl
  | tail _ hm ih =>
    obtain ⟨-,a,x,r,-,hw⟩ := hm
    exact ih.tail (writes_fence hw)

theorem dated_fence (h : Coherent s) : Fence.Dated Lease.generation s.fence := h.fence

/-! ## Tokens -/

def Reply.leaseTokens : Reply → List LeaseToken
  | token k => [k]
  | tokens ks => ks
  | _ => []

/-- The token is behind a lease of the state. -/
def Backed (s : Snapshot) (k : LeaseToken) : Prop :=
  ∃ l, s.leases.lookup k.taskId = some l ∧ k = leaseToken s.runId k.taskId l

/-- The tokens that a section returns are behind leases of the state it writes. -/
theorem backed_of_body {a : Action} {x : Draws} {body : Body} {o : Option Snapshot} {r : Reply}
    (hb : a.prepare D x = .ok body) (h : body s = .ok (o,r)) :
    ∀ k ∈ r.leaseTokens, ∃ c, o = some c ∧ Next D s c ∧ Backed c k := by
  intro k hk
  cases a with
  | claim t ow n g =>
    obtain ⟨now,expiry,stamp,-,-,-,-,-,-,-,rfl,l,hl,rfl⟩ := of_claim hb h
    cases List.mem_singleton.mp hk
    exact ⟨_,rfl,claim_next hb h,l,hl,rfl⟩
  | claimMany ts ow m n f =>
    obtain ⟨now,available,ids,hcl,rfl,-,⟨-,rfl,-⟩ | ⟨-,expiry,stamp,-,-,-,rfl,rfl⟩⟩ :=
      of_claimMany hb h
    · cases hk
    · obtain ⟨e,he,rfl⟩ := List.mem_map.mp hk
      refine ⟨_,rfl,claimMany_next hb h,e.2,?_,rfl⟩
      exact lookup_insertAll_of_mem _ _ e.1 e.2 (by rw [map_fst_grants]; exact hcl.nodup) he
  | renew t k' ow n =>
    obtain ⟨l,now,expiry,stamp,-,-,-,-,-,-,rfl,rfl⟩ := of_renew hb h
    cases List.mem_singleton.mp hk
    exact ⟨_,rfl,renew_next hb h,_,AList.lookup_insert _,rfl⟩
  | load =>
    cases hb
    cases h
    cases hk
  | use t k' ow =>
    cases hb
    obtain ⟨_,-,h⟩ := ok_of_bind h
    obtain ⟨_,-,h⟩ := ok_of_bind h
    cases h
    cases hk
  | transition st ow g =>
    cases hb
    obtain ⟨_,-,h⟩ := ok_of_bind h
    cases h
    cases hk
  | updateTaskStatus t st ow g =>
    obtain ⟨task,-,hb⟩ := ok_of_bind hb
    split at hb
    · cases hb
    · cases hb
      obtain ⟨_,-,h⟩ := ok_of_bind h
      cases h
      cases hk
  | appendTerminalEventIfAbsent t ow g =>
    obtain ⟨task,-,hb⟩ := ok_of_bind hb
    cases hb
    obtain ⟨_,-,h⟩ := ok_of_bind h
    obtain ⟨_,-,h⟩ := ok_of_bind h
    split at h
    · cases h
    · dsimp only at h
      split at h
      · split at h <;> cases h
        cases hk
      · obtain ⟨_,-,h⟩ := ok_of_bind h
        obtain ⟨_,-,h⟩ := ok_of_bind h
        cases h
        cases hk
  | appendEvent e ow g =>
    cases e with
    | obj given =>
      cases hb
      obtain ⟨_,-,h⟩ := ok_of_bind h
      cases h
      cases hk
    | null => cases hb
    | bool b => cases hb
    | int n => cases hb
    | float q => cases hb
    | str u => cases hb
    | arr xs => cases hb
  | commit t k' ow rep st =>
    rcases of_commit hb h with ⟨-,-,rfl⟩ | ⟨-,_,_,_,_,_,-,-,-,-,-,-,-,rfl⟩ <;> cases hk
  | release k' ow =>
    obtain ⟨t,l,stamp,-,-,-,rfl⟩ := of_release hb h
    cases hk
  | dropStale t now ow g =>
    cases hb
    obtain ⟨_,-,h⟩ := ok_of_bind h
    cases h
    cases hk

/-- `k` is a mapping with the fields of the token. -/
def Presents (k : Json) (tk : LeaseToken) : Prop :=
  ∃ o o', k = .obj o ∧ tk.toJson = .obj o' ∧ ∀ f, Obj.field o f = Obj.field o' f

/-- The token that a section presents. -/
def Action.token? : Action → Option Json
  | use _ k _ => some k
  | renew _ k _ _ => some k
  | commit _ k _ _ _ => some k
  | release k _ => some k
  | _ => none

/-- The section is not a commit for a task that has a report. -/
def Action.first (s : Snapshot) : Action → Prop
  | commit t _ _ _ _ => s.reports.lookup t = none
  | _ => True

/-- The section does not return, whatever it draws and whatever becomes of its calls. -/
def Refuses (D : Deps) (rid : String) (d : RunDir) (a : Action) : Prop :=
  ∀ fate x r, (perform D fate rid a x d).1 ≠ .ok r

/-- A section that presents a token returns only for the token of a lease that is held. -/
theorem holds_of_body {a : Action} {x : Draws} {body : Body} {o : Option Snapshot} {r : Reply}
    {k : Json} (hk : a.token? = some k) (hf : a.first s) (hb : a.prepare D x = .ok body)
    (h : body s = .ok (o,r)) : ∃ t l, Holds s t k l := by
  cases a with
  | use t k' ow =>
    cases hk
    cases hb
    obtain ⟨_,-,h⟩ := ok_of_bind h
    obtain ⟨l,hl,-⟩ := ok_of_bind h
    exact ⟨t,l,(of_checkToken hl).1⟩
  | renew t k' ow n =>
    cases hk
    obtain ⟨l,_,_,_,hh,-⟩ := of_renew hb h
    exact ⟨t,l,hh⟩
  | commit t k' ow rep st =>
    cases hk
    rcases of_commit hb h with ⟨hr,-⟩ | ⟨-,_,_,l,_,_,hh,-⟩
    · rw [hf] at hr
      cases hr
    · exact ⟨t,l,hh⟩
  | release k' ow =>
    cases hk
    obtain ⟨t,l,_,hh,-⟩ := of_release hb h
    exact ⟨t,l,hh⟩
  | load => cases hk
  | transition st ow g => cases hk
  | updateTaskStatus t st ow g => cases hk
  | appendTerminalEventIfAbsent t ow g => cases hk
  | appendEvent e ow g => cases hk
  | claim t ow n g => cases hk
  | claimMany ts ow m n f => cases hk
  | dropStale t now ow g => cases hk

theorem performed_holds {a : Action} {x : Draws} {fate : Fates} {r : Reply} {k : Json}
    (hs : Reads D rid d s) (hk : a.token? = some k) (hf : a.first s)
    (h : (perform D fate rid a x d).1 = .ok r) : ∃ t l, Holds s t k l := by
  have hp := perform_performed D fate rid x d a
  rw [h] at hp
  generalize (perform D fate rid a x d).2 = e at hp
  cases hp with
  | answered s' r body hr hb hbody =>
    rw [reads_unique hr hs] at hbody
    exact holds_of_body hk hf hb hbody
  | wrote s' c r body hr hb hbody d' hw =>
    rw [reads_unique hr hs] at hbody
    exact holds_of_body hk hf hb hbody

/-- The lease that is held under a token has the task and the generation of the token. -/
theorem presents_holds {k : Json} {tk : LeaseToken} {t : String} {l : Lease}
    (hp : Presents k tk) (h : Holds s t k l) : t = tk.taskId ∧ l.generation = tk.generation := by
  obtain ⟨o,o',rfl,ho',hf⟩ := hp
  obtain ⟨-,o'',ho,-,ht,hn⟩ := h
  cases ho
  cases ho'
  have htask : hasText o "task_id" t = decide (tk.taskId = t) := by
    rw [hasText, hf]
    rfl
  have hgen : Obj.field o "generation" = some (.int tk.generation) := by
    rw [hf]
    rfl
  rw [tokenNames, hgen] at hn
  rw [htask, decide_eq_true_eq] at ht
  simp only [Option.any_some, Bool.and_eq_true, decide_eq_true_eq, Nat.cast_inj] at hn
  exact ⟨ht.symm,hn.1.2.symm⟩

/-! ## Runs -/

/-- Over every interleaving: a token that is returned is behind a lease, no task has
two leases of one generation, and once the lease behind a token is gone, what
presents the token is refused. -/
theorem lease_fencing {ι : Type} [DecidableEq ι] {calls : Call → Prop}
    (h : Created D rid none d) {y : Fleet ι} (hy : FleetRun D rid calls (System.idle d) y) :
    (∀ a x r d', perform D allOk rid a x y.shared = (.ok r,d') → ∀ k ∈ r.leaseTokens,
      ∃ s, Reads D rid d' s ∧ Backed s k) ∧
    ∀ s t l, Reads D rid y.shared s → s.leases.lookup t = some l →
      ∀ (z : Fleet ι) (c : Snapshot), FleetRun D rid calls y z → Reads D rid z.shared c →
        (∀ l', c.leases.lookup t = some l' → l'.generation = l.generation → l' = l) ∧
        (c.leases.lookup t ≠ some l → ∀ w : Fleet ι, FleetRun D rid calls z w →
          ∀ a k, a.token? = some k → Presents k (leaseToken s.runId t l) →
            (∀ e, Reads D rid w.shared e → a.first e) → Refuses D rid w.shared a) := by
  have hyd := fleet_any hy
  refine ⟨fun a x r d' hp k hk => ?_,fun s t l hs hl z c hz hc => ?_⟩
  · obtain ⟨s,hs⟩ := reads_of_ok (congrArg Prod.fst hp)
    obtain ⟨hfs,hcs⟩ := run_coherent h hyd hs
    have hend := files_perform hfs a x
    rw [hp] at hend
    cases hend with
    | answered r ha =>
      obtain ⟨body,hb,hbody⟩ := ha
      obtain ⟨c,hc,-⟩ := backed_of_body hb hbody k hk
      cases hc
    | wrote c r hw d' hsnap hf =>
      obtain ⟨body,hb,hbody⟩ := hw
      obtain ⟨c',hc,hn,hback⟩ := backed_of_body hb hbody k hk
      cases hc
      rw [after_valid (valid_next (reads_valid hs) hcs hn)] at hf
      exact ⟨c,files_reads hf,hback⟩
  · obtain ⟨hfs,hcs⟩ := run_coherent h hyd hs
    obtain ⟨c',hfc,hsc⟩ := files_sections hfs (fleet_any hz)
    obtain rfl := reads_unique (files_reads hfc) hc
    refine ⟨fun l' hl' hg => Fence.held_unique (dated_fence hcs) (course_fence hsc) hl hl' hg,?_⟩
    intro hgone w hw a k hk hp hfirst fate x r hok
    obtain ⟨e,hfe,hce⟩ := files_sections hfc (fleet_any hw)
    have hre := files_reads hfe
    obtain ⟨t',l',hh⟩ := performed_holds hre hk (hfirst e hre) hok
    obtain ⟨rfl,hg⟩ := presents_holds hp hh
    exact Fence.never_again (dated_fence hcs) (course_fence hsc) (course_fence hce) hl hgone
      hh.1 hg

end

/-- The lease of `a` is released. -/
def sampleReleased : Snapshot := { sampleHeld with leases := ∅, generation := 2 }

def sampleUsed : Json := (leaseToken "run" "a" sampleLease).toJson

theorem sample_release : Writes sampleDeps (.release sampleUsed "me") sampleDraws sampleHeld
    sampleReleased .nothing := ⟨_,rfl,rfl⟩

theorem sample_alone (a : Action) (d : RunDir) :
    FleetRun sampleDeps "run" (fun _ => True) (System.idle d : Fleet ℕ)
      (System.idle (perform sampleDeps allOk "run" a sampleDraws d).2) :=
  fleet_alone sampleDraws d trivial

/-- The token of a lease that was released is refused. -/
theorem lease_fencing_released : ∃ d₁ d₂,
    FleetRun sampleDeps "run" (fun _ => True) (System.idle sampleDir : Fleet ℕ)
      (System.idle d₁) ∧ Reads sampleDeps "run" d₁ sampleHeld ∧
    FleetRun sampleDeps "run" (fun _ => True) (System.idle d₁ : Fleet ℕ) (System.idle d₂) ∧
    Refuses sampleDeps "run" d₂ (.use "a" sampleUsed "me") := by
  obtain ⟨d₁,hp₁,hr₁,hf₁⟩ := files_moves sample_files sample_regular sample_claim
    sampleHeld_valid
  obtain ⟨d₂,hp₂,-,hf₂⟩ := files_moves hf₁ hr₁ sample_release (writes_valid sampleHeld_valid
    (writes_coherent sample_coherent sample_claim) rfl sample_release)
  have h₁ := sample_alone (.claim "a" "me" (.int 60) .null) sampleDir
  have h₂ := sample_alone (.release sampleUsed "me") d₁
  rw [hp₁] at h₁
  rw [hp₂] at h₂
  have hfence := (lease_fencing sample_created h₁).2 sampleHeld "a" sampleLease
    (files_reads hf₁) rfl (System.idle d₂) sampleReleased h₂ (files_reads hf₂)
  exact ⟨d₁,d₂,h₁,files_reads hf₁,h₂,hfence.2 (fun h => nomatch h) _ .refl _ sampleUsed rfl
    ⟨_,_,rfl,rfl,fun _ => rfl⟩ (fun _ _ => trivial)⟩

end PdFleet
