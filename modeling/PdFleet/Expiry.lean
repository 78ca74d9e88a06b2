import PdFleet.Persisted

/-!
# Expiry

The store compares the text of a lease's expiry with the text of the clock. The
texts that it writes are in the order of their instants; a clock text agrees with
that order if and only if it stands between the written text of its own instant and
that of the next one.
-/

set_option autoImplicit false

namespace PdFleet

open FixedWidth Gregorian

theorem count_le_max {t : Date} (h : t.Valid) (hy : t.year ≤ 9999) : t.count+1 ≤ 3652059 := by
  have hd := day_of_year_le h
  have hs := daysBeforeYear_succ t.year h.year_pos
  have hm := daysBeforeYear_mono (y := t.year+1) (z := 10000) (by omega) (by omega)
  have h0 : daysBeforeYear 10000 = 3652059 := by decide
  have hday := h.day_pos
  rw [Date.count]
  omega

theorem parseDigits_lt {k acc v : ℕ} {p q : List Char} (h : parseDigits k acc p = some (v,q)) :
    v < (acc+1)*10^k := by
  induction k generalizing acc p with
  | zero =>
    cases h
    omega
  | succ k ih =>
    obtain ⟨d,hd,h⟩ := Option.bind_eq_some_iff.mp h
    have hlt := ih h
    have hd9 := digitVal_lt hd
    calc v < (10*acc+d+1)*10^k := hlt
      _ ≤ (10*(acc+1))*10^k := Nat.mul_le_mul_right _ (by omega)
      _ = (acc+1)*10^(k+1) := by ring

theorem parseFraction_micro {f g : TimeFields} {p : List Char} {remaining : ℕ} {b : Bool}
    (h : parseFraction f p remaining = some (g,b)) : g.micro < 1000000 := by
  obtain ⟨⟨v,q⟩,hv,h⟩ := Option.bind_eq_some_iff.mp h
  cases h
  have hlt := parseDigits_lt hv
  have hk : min remaining 6+(6-min remaining 6) = 6 := by omega
  calc v*10^(6-min remaining 6) < 10^(min remaining 6)*10^(6-min remaining 6) := by
        exact Nat.mul_lt_mul_of_pos_right (by simpa using hlt) (by positivity)
    _ = 1000000 := by rw [← pow_add, hk]; rfl

theorem setNth_micro (f : TimeFields) (i v : ℕ) : (f.setNth i v).micro = f.micro := by
  rcases i with _ | _ | i <;> rfl

theorem parseTimeFrom_micro {k i remaining : ℕ} {sep b : Bool} {f g : TimeFields}
    {p : List Char} (hf : f.micro < 1000000)
    (h : parseTimeFrom k i sep f p remaining = some (g,b)) : g.micro < 1000000 := by
  induction k generalizing i sep f p remaining with
  | zero => exact parseFraction_micro h
  | succ k ih =>
    obtain ⟨⟨v,q⟩,-,h⟩ := Option.bind_eq_some_iff.mp h
    have hs : (f.setNth i v).micro < 1000000 := by rw [setNth_micro]; exact hf
    dsimp only at h
    generalize (decide (if i = 0 then q.headD nul = ':' else sep = true)) = sep' at h
    split at h
    · cases h
      exact hs
    · split at h
      · exact ih hs h
      · split at h
        · exact parseFraction_micro h
        · split at h
          · exact ih hs h
          · cases h

theorem parseIsoformatTime_micro {p : List Char} {f : TimeFields} {o : Option ℤ}
    (h : parseIsoformatTime p = some (f,o)) : f.micro < 1000000 := by
  obtain ⟨⟨g,odd⟩,hg,h⟩ := Option.bind_eq_some_iff.mp h
  have hm : g.micro < 1000000 := parseTimeFrom_micro (by decide) hg
  dsimp only at h
  split at h
  · split at h <;> cases h
    exact hm
  · split at h
    · split at h <;> cases h
      exact hm
    · obtain ⟨⟨z,odd'⟩,-,h⟩ := Option.bind_eq_some_iff.mp h
      dsimp only at h
      split at h
      · cases h
      · split at h <;> cases h <;> exact hm

theorem makeStamp_le {t : Date} {f : TimeFields} {o : Option ℤ} {s : Stamp}
    (hf : f.micro < 1000000) (h : makeStamp t f o = some s) : s.instant ≤ maxInstant := by
  rw [makeStamp] at h
  split at h
  · rename_i hc
    cases h
    have hcount := count_le_max (t := t)
      ⟨hc.1,hc.2.2.1,hc.2.2.2.1,hc.2.2.2.2.1,hc.2.2.2.2.2.1⟩ hc.2.1
    have hm : f.micros < dayMicros := by
      rw [TimeFields.micros, dayMicros]
      omega
    show t.count*dayMicros+f.micros ≤ 3652059*dayMicros-1
    simp only [dayMicros] at hm ⊢
    omega
  · cases h

theorem utcInstant_le {now : String} {n : ℕ} (h : utcInstant now = some n) : n ≤ maxInstant := by
  rw [utcInstant] at h
  split at h
  · rename_i t hs
    cases h
    rw [fromisoformat] at hs
    split at hs
    · cases hs
    obtain ⟨pos,-,hs⟩ := Option.bind_eq_some_iff.mp hs
    obtain ⟨date,-,hs⟩ := Option.bind_eq_some_iff.mp hs
    split at hs
    · obtain ⟨⟨f,o⟩,hf,hs⟩ := Option.bind_eq_some_iff.mp hs
      exact makeStamp_le (parseIsoformatTime_micro hf) hs
    · exact makeStamp_le (by decide) hs
  · cases h

theorem utcInstant_expiry {now expiry : String} {seconds : Seconds}
    (h : plusSeconds now seconds = .ok expiry) :
    ∃ u ≤ maxInstant, expiry.toList = isoformat u ∧ utcInstant expiry = some u := by
  obtain ⟨t,-,ht,rfl⟩ := of_plusSeconds h
  exact ⟨_,ht,String.toList_ofList,utcInstant_isoformat ht⟩

/-- The clock text stands between the written texts of its instant and the next. -/
def Sharp (now : String) (n : ℕ) : Prop :=
  isoformat n ≤ now.toList ∧ (n < maxInstant → now.toList < isoformat (n+1))

theorem isoformat_le {t u : ℕ} (hu : u ≤ maxInstant) (h : t ≤ u) :
    isoformat t ≤ isoformat u := by
  rcases h.lt_or_eq with h | rfl
  · exact le_of_lt (isoformat_lt hu h)
  · exact le_refl _

theorem sharp_iff {now : String} {n : ℕ} (hn : n ≤ maxInstant) :
    (∀ u ≤ maxInstant, now.toList < isoformat u ↔ n < u) ↔ Sharp now n := by
  constructor
  · intro h
    refine ⟨not_lt.mp (fun hlt => lt_irrefl n ((h n hn).mp hlt)),fun hlt => ?_⟩
    exact (h (n+1) hlt).mpr (Nat.lt_succ_self n)
  · rintro ⟨hle,hlt⟩ u hu
    constructor
    · intro h
      by_contra hnu
      exact absurd (lt_of_lt_of_le h (isoformat_le hn (not_lt.mp hnu))) (not_lt.mpr hle)
    · intro h
      exact lt_of_lt_of_le (hlt (by omega)) (isoformat_le hu h)

/-! ## Leases as the store sees them -/

section

variable {D : Deps} {s c e : Snapshot} {a : Action} {x : Draws} {r : Reply} {t now : String}
  {l : Lease}

/-- A lease that a section installs: only grants and renewals do. -/
def Installed (D : Deps) (t : String) (l : Lease) : Prop :=
  ∃ a x s c r, Writes D a x s c r ∧ s.leases.lookup t ≠ some l ∧ c.leases.lookup t = some l

theorem change_installs {c₀ : Snapshot} (h : Change D s c₀) (hs : s.leases.lookup t ≠ some l)
    (hl : c₀.leases.lookup t = some l) :
    ∃ now seconds, plusSeconds now seconds = .ok l.expiresAt := by
  cases h with
  | status st _ => exact absurd hl hs
  | taskStatus u st known hk ht hr => exact absurd (Dict.sub_erase _ _ t l hl) hs
  | terminal u rows record hid he hr => exact absurd hl hs
  | grant kept now expiry seconds token chosen hk hn he hc hf =>
    rcases Dict.lookup_insertAll hl with hm | ⟨hm,-⟩
    · obtain ⟨-,i,rfl⟩ := mem_grants hm
      exact ⟨now,seconds,he⟩
    · exact absurd (hk t l hm) hs
  | renew u now expiry token seconds k fresh hh hn ha he =>
    rcases Dict.of_lookup_insert hl with ⟨-,rfl⟩ | ⟨-,hl⟩
    · exact ⟨now,seconds,he⟩
    · exact absurd hl hs
  | commit u now token st given k hh hn ha hr hv => exact absurd (Dict.sub_erase _ _ t l hl) hs
  | drop leases hd => exact absurd (hd t l hl) hs

theorem installed_expiry (h : Installed D t l) :
    ∃ now seconds, plusSeconds now seconds = .ok l.expiresAt := by
  obtain ⟨a,x,s,c,r,hw,hs,hl⟩ := h
  rcases writes_next hw with ⟨c₀,stamp,hc,-,rfl⟩ | ⟨given,rows,item,stamp,-,-,-,rfl⟩
  · exact change_installs hc hs hl
  · exact absurd hl hs

/-- The store treats the lease `l` of the task `t` in the state `e` as `active` when
the clock is `now`, in each of the three places where it asks. -/
structure Observed (e : Snapshot) (t : String) (l : Lease) (now : String) (active : Prop) :
    Prop where
  claim : ∀ known seconds x body, knownIds e.plan = .ok known → t ∈ known →
    e.closed t = false → x.now = .str now → claim t e.owner seconds .null x = .ok body →
    (body e = .error (.lease "task already leased") ↔ active)
  claimMany : (reclaim e now).leases.lookup t = some l ↔ active
  checkToken : checkToken e t (leaseToken e.runId t l).toJson (.str now) = .ok l ↔ active

theorem plusSeconds_ne {seconds : Seconds} :
    plusSeconds now seconds ≠ .error (.lease "task already leased") := by
  rw [plusSeconds]
  split
  · simp
  · split
    · simp
    · split <;> simp

theorem clockValue_ne {v : Json} {m : String} : clockValue v ≠ .error (.lease m) := by
  unfold clockValue
  split
  · split <;> simp
  · simp

theorem clockValue_str (hn : (utcInstant now).isSome) : clockValue (.str now) = .ok now :=
  if_pos hn

def tokenFields (runId t : String) (l : Lease) : Obj :=
  [("run_id", .str runId), ("task_id", .str t), ("lease_id", .str l.leaseId),
    ("generation", .int l.generation), ("expires_at", .str l.expiresAt)]

theorem validateTokenShape_leaseToken (he : (utcInstant l.expiresAt).isSome) :
    validateTokenShape e t (leaseToken e.runId t l).toJson = .ok (tokenFields e.runId t l) := by
  have h₁ : hasText (tokenFields e.runId t l) "run_id" e.runId = decide (e.runId = e.runId) := rfl
  have h₂ : hasText (tokenFields e.runId t l) "task_id" t = decide (t = t) := rfl
  have h₃ : (Obj.field (tokenFields e.runId t l) "expires_at").any isClock =
      isClock (.str l.expiresAt) := rfl
  have hs : tokenShape e (tokenFields e.runId t l) =
      (decide (e.runId = e.runId) && isClock (.str l.expiresAt)) := by
    rw [tokenShape, h₁, h₃]
    simp only [Bool.and_assoc]
    rfl
  show (if tokenShape e (tokenFields e.runId t l) && hasText (tokenFields e.runId t l)
    "task_id" t then Except.ok (tokenFields e.runId t l) else _) = _
  rw [hs, h₂, isClock_str, he]
  simp

theorem tokenNames_leaseToken {runId : String} : tokenNames (tokenFields runId t l) l = true := by
  have h₁ : hasText (tokenFields runId t l) "lease_id" l.leaseId =
      decide (l.leaseId = l.leaseId) := rfl
  have h₂ : hasText (tokenFields runId t l) "expires_at" l.expiresAt =
      decide (l.expiresAt = l.expiresAt) := rfl
  have h₃ : Obj.field (tokenFields runId t l) "generation" = some (.int l.generation) := rfl
  rw [tokenNames, h₁, h₂, h₃]
  simp

theorem observed_active (hl : e.leases.lookup t = some l) (hn : (utcInstant now).isSome)
    (he : (utcInstant l.expiresAt).isSome) : Observed e t l now (l.activeAt now = true) where
  claim := fun known seconds x body hk ht hc hx hb => by
    obtain ⟨task,hid,hb'⟩ := ok_of_bind hb
    cases hb'
    rw [(of_safeIdText hid).1]
    have hw : checkOwner e e.owner = .ok () := if_pos rfl
    cases hact : l.activeAt now with
    | true =>
      simp [mutate, hw, checkGeneration, hk, ht, hc, hx, clockValue_str hn, hl, hact,
        bind, Except.bind, throw, throwThe, MonadExceptOf.throw]
    | false =>
      simp only [mutate, hw, checkGeneration, hk, ht, hc, hx, clockValue_str hn, hl, hact,
        bind, Except.bind, Option.any_some, not_true_eq_false, if_false, Bool.false_eq_true,
        iff_false]
      cases hp : plusSeconds now seconds with
      | error err =>
        rintro ⟨⟩
        exact plusSeconds_ne hp
      | ok expiry =>
        dsimp only [pure, Except.pure]
        cases hs : clockValue x.stamp with
        | error err =>
          rintro ⟨⟩
          exact clockValue_ne hs
        | ok stamp =>
          dsimp only
          split <;> simp [throw, throwThe, MonadExceptOf.throw]
  claimMany := by
    rw [show (reclaim e now).leases = Dict.keep (fun _ l => l.activeAt now) e.leases from rfl,
      Dict.lookup_keep]
    exact and_iff_right hl
  checkToken := by
    rw [checkToken, validateTokenShape_leaseToken he, clockValue_str hn, hl]
    show (if tokenNames (tokenFields e.runId t l) l && l.activeAt now then Except.ok l
      else Except.error (PyError.lease "stale or expired lease")) = .ok l ↔ _
    rw [tokenNames_leaseToken, Bool.true_and]
    split <;> simp_all

theorem Observed.congr {p q : Prop} (h : Observed e t l now p) (hpq : p ↔ q) :
    Observed e t l now q where
  claim := fun known seconds x body hk ht hc hx hb =>
    (h.claim known seconds x body hk ht hc hx hb).trans hpq
  claimMany := h.claimMany.trans hpq
  checkToken := h.checkToken.trans hpq

/-- A duration that rounds to no microsecond. -/
def tiny : Seconds := .float (1/1000000000)

theorem plusSeconds_tiny {u : ℕ} (hu : u ≤ maxInstant) :
    plusSeconds (String.ofList (isoformat u)) tiny = .ok (String.ofList (isoformat u)) := by
  have hp : tiny.positive = true := by
    simp only [tiny, Seconds.positive]
    norm_num
  have hm : tiny.micros = 0 := by
    simp only [tiny, Seconds.micros, roundHalfEven]
    norm_num
  rw [plusSeconds, hp, utcInstant_isoformat hu]
  simp [hm, hu]

/-- Every instant is the expiry of a lease that some claim installs. -/
theorem exists_installed {u : ℕ} (hu : u ≤ maxInstant) :
    ∃ l, Installed D "a" l ∧ l.expiresAt = String.ofList (isoformat u) := by
  have hp := plusSeconds_tiny hu
  have hclock : clockValue (.str (String.ofList (isoformat u))) = .ok _ :=
    clockValue_str (by rw [utcInstant_isoformat hu]; rfl)
  generalize String.ofList (isoformat u) = text at hp hclock
  let c := stamped (install sampleState (grants "me" text 1 (fun _ => sampleToken) ["a"])) text
  let l : Lease := ⟨"me",sampleToken.text,text,1⟩
  have hl : c.leases.lookup "a" = some l := rfl
  refine ⟨l,⟨.claim "a" "me" tiny .null,⟨.str text,.str text,fun _ => sampleToken⟩,sampleState,c,
    .token (leaseToken c.runId "a" l),⟨_,rfl,?_⟩,fun h => (nomatch h),hl⟩,rfl⟩
  have hk : knownIds sampleState.plan = .ok ["a","b"] := rfl
  have ho : checkOwner sampleState "me" = .ok () := rfl
  have hc : sampleState.closed "a" = false := rfl
  have hn : sampleState.leases.lookup "a" = none := rfl
  simp only [mutate, ho, checkGeneration, hk, hc, hn, hclock, hp, bind, Except.bind]
  rfl

/-- The store treats every lease that was installed as active exactly while its expiry
is later than the instant `n` that the clock denotes. -/
def FollowsTime (D : Deps) (now : String) (n : ℕ) : Prop :=
  ∀ t l, Installed D t l → ∀ e : Snapshot, e.leases.lookup t = some l →
    Observed e t l now (∃ u, utcInstant l.expiresAt = some u ∧ n < u)

/-- Expiry follows time at a clock text if and only if the text stands between the
written texts of its instant and of the next one. -/
theorem expiry_follows_time_iff {n : ℕ} (hn : utcInstant now = some n) :
    FollowsTime D now n ↔ Sharp now n := by
  have hsome : (utcInstant now).isSome := by rw [hn]; rfl
  rw [← sharp_iff (utcInstant_le hn)]
  constructor
  · intro h u hu
    obtain ⟨l,hi,hx⟩ := exists_installed (D := D) hu
    obtain ⟨a,x,s,c,r,hw,hs,hl⟩ := id hi
    have hut : utcInstant l.expiresAt = some u := by rw [hx, utcInstant_isoformat hu]
    have ho := h "a" l hi c hl
    have hact := (observed_active hl hsome (by rw [hut]; rfl)).claimMany
    have hlt : l.activeAt now = true ↔ now.toList < isoformat u := by
      rw [Lease.activeAt, decide_eq_true_eq, String.lt_iff_toList_lt, hx, String.toList_ofList]
    rw [← hlt, ← hact, ho.claimMany, hut]
    simp
  · intro h t l hi e hl
    obtain ⟨now',seconds,hp⟩ := installed_expiry hi
    obtain ⟨u,hu,htext,hut⟩ := utcInstant_expiry hp
    refine (observed_active hl hsome (by rw [hut]; rfl)).congr ?_
    rw [Lease.activeAt, decide_eq_true_eq, String.lt_iff_toList_lt, htext, h u hu, hut]
    simp

end

theorem expiry_follows_time_micros :
    FollowsTime sampleDeps "2026-01-01T00:00:01.000000Z" 63902822401000000 :=
  (expiry_follows_time_iff (by decide)).mpr ⟨by decide,fun _ => by decide⟩

/-- A lease of one second that was claimed half a second past a full one. -/
def oddLease : Lease := ⟨"me",sampleToken.text,"2026-01-01T00:00:01.500000Z",1⟩

theorem oddLease_installed : Installed sampleDeps "a" oddLease :=
  ⟨.claim "a" "me" (.int 1) .null,
    ⟨.str "2026-01-01T00:00:00.500000Z",.str "2026-01-01T00:00:00.500000Z",fun _ => sampleToken⟩,
    sampleState,_,_,⟨_,rfl,rfl⟩,fun h => (nomatch h),rfl⟩

/-- At the full second before its expiry, written without a fraction, the lease is
taken for expired. -/
theorem expiry_misjudged : Installed sampleDeps "a" oddLease ∧
    utcInstant "2026-01-01T00:00:01Z" = some 63902822401000000 ∧
    utcInstant oddLease.expiresAt = some 63902822401500000 ∧
    oddLease.activeAt "2026-01-01T00:00:01Z" = false :=
  ⟨oddLease_installed,by decide,by decide,by decide⟩

end PdFleet
