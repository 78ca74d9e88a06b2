import PdFleet.HandoffTexts
import PdFleet.ReportRedaction

/-!
# What redaction does to a value

Redaction keeps the keys of a value and what it means for a report: a meaningful value is
still meaningful, a retry recommendation still valid. A value without secrets whose
redactions come back to where they began was left as it is.
-/

set_option autoImplicit false

namespace PdFleet.Contracts

open Pattern

section

variable {T : PlanTables}

mutual

theorem keysInOrder_redactValue : ∀ v : Json, keysInOrder T (redactValue T v) = keysInOrder T v
  | .obj kvs => by rw [redactValue, keysInOrder, keysInOrder, keysOfEntries_redactEntries kvs]
  | .arr xs => by rw [redactValue, keysInOrder, keysInOrder, keysOfAll_redactAll xs]
  | .str _ => rfl
  | .null => rfl
  | .bool _ => rfl
  | .int _ => rfl
  | .float _ => rfl

theorem keysOfAll_redactAll : ∀ xs : List Json, keysOfAll T (redactAll T xs) = keysOfAll T xs
  | [] => rfl
  | x :: xs => by
    rw [redactAll, keysOfAll, keysOfAll, keysInOrder_redactValue x, keysOfAll_redactAll xs]

theorem keysOfEntries_redactEntries : ∀ kvs : List (String × Json),
    keysOfEntries T (redactEntries T kvs) = keysOfEntries T kvs
  | [] => rfl
  | (k,v) :: kvs => by
    rw [redactEntries, keysOfEntries, keysOfEntries, keysInOrder_redactValue v,
      keysOfEntries_redactEntries kvs]

end

theorem isNonBlank_redactValue {v : Json} (h : isNonBlank v = true) :
    isNonBlank (redactValue T v) = true := by
  cases v with
  | str s =>
    simp only [isNonBlank, Bool.not_eq_true'] at h
    simp only [redactValue, isNonBlank, String.toList_ofList, isBlank_redactReportText h, Bool.not_false]
  | null | bool | int | float | arr | obj => cases h

mutual

theorem meaningful_redactValue : ∀ v : Json, meaningful v = true → meaningful (redactValue T v) = true
  | .obj kvs, h => meaningfulEntries_redactEntries kvs h
  | .arr xs, h => meaningfulAll_redactAll xs h
  | .str s, h => isNonBlank_redactValue (v := .str s) h
  | .bool _, h => h
  | .int _, _ => rfl
  | .float _, _ => rfl

theorem meaningfulAll_redactAll : ∀ xs : List Json,
    meaningfulAll xs = true → meaningfulAll (redactAll T xs) = true
  | x :: xs, h => by
    rw [meaningfulAll, Bool.or_eq_true] at h
    rw [redactAll, meaningfulAll, Bool.or_eq_true]
    exact h.imp (meaningful_redactValue x) (meaningfulAll_redactAll xs)

theorem meaningfulEntries_redactEntries : ∀ kvs : List (String × Json),
    meaningfulEntries kvs = true → meaningfulEntries (redactEntries T kvs) = true
  | (_,v) :: kvs, h => by
    rw [meaningfulEntries, Bool.or_eq_true] at h
    rw [redactEntries, meaningfulEntries, Bool.or_eq_true]
    exact h.imp (meaningful_redactValue v) (meaningfulEntries_redactEntries kvs)

end

theorem redactEntries_eq (o : Obj) : redactEntries T o = o.map (fun e => (e.1,redactValue T e.2)) := by
  induction o with
  | nil => rfl
  | cons e o ih => rw [redactEntries, ih]; rfl

theorem redactAll_eq (xs : List Json) : redactAll T xs = xs.map (redactValue T) := by
  induction xs with
  | nil => rfl
  | cons x xs ih => rw [redactAll, ih]; rfl

theorem field_redactEntries (o : Obj) (k : String) :
    Obj.field (redactEntries T o) k = (Obj.field o k).map (redactValue T) := by
  induction o with
  | nil => rfl
  | cons e o ih =>
    rw [redactEntries, Obj.field, Obj.field, List.lookup_cons, List.lookup_cons]
    split
    · rfl
    · exact ih

/-! ## Values that come back -/

theorem redactString_of_cycle {s : String}
    (h : redactValue T (redactValue T (redactValue T (.str s))) = .str s)
    (hs : noSecrets T (redactValue T (.str s)) = true) : redactValue T (.str s) = .str s := by
  simp only [redactValue, Json.str.injEq, String.toList_ofList] at h
  simp only [redactValue, noSecrets, String.toList_ofList, Bool.and_eq_true, decide_eq_true_eq] at hs
  have hl := congrArg String.toList h
  rw [String.toList_ofList] at hl
  rw [redactValue, redactReportText_of_cycle hl hs.2, String.ofList_toList]

mutual

/-- A value without secrets that comes back to itself was left as it is. -/
theorem redactValue_of_cycle : ∀ v : Json,
    redactValue T (redactValue T (redactValue T v)) = v → noSecrets T (redactValue T v) = true →
      redactValue T v = v
  | .obj kvs => by
    intro h hs
    simp only [redactValue, Json.obj.injEq] at h
    rw [redactValue, noSecrets] at hs
    rw [redactValue, redactEntries_of_cycle kvs h hs]
  | .arr xs => by
    intro h hs
    simp only [redactValue, Json.arr.injEq] at h
    rw [redactValue, noSecrets] at hs
    rw [redactValue, redactAll_of_cycle xs h hs]
  | .str _ => redactString_of_cycle
  | .null => fun _ _ => rfl
  | .bool _ => fun _ _ => rfl
  | .int _ => fun _ _ => rfl
  | .float _ => fun _ _ => rfl

theorem redactAll_of_cycle : ∀ xs : List Json,
    redactAll T (redactAll T (redactAll T xs)) = xs → noSecretsAll T (redactAll T xs) = true →
      redactAll T xs = xs
  | [] => fun _ _ => rfl
  | x :: xs => by
    intro h hs
    simp only [redactAll, List.cons.injEq] at h
    rw [redactAll, noSecretsAll, Bool.and_eq_true] at hs
    rw [redactAll, redactValue_of_cycle x h.1 hs.1, redactAll_of_cycle xs h.2 hs.2]

theorem redactEntries_of_cycle : ∀ kvs : List (String × Json),
    redactEntries T (redactEntries T (redactEntries T kvs)) = kvs →
      noSecretsEntries T (redactEntries T kvs) = true → redactEntries T kvs = kvs
  | [] => fun _ _ => rfl
  | (k,v) :: kvs => by
    intro h hs
    simp only [redactEntries, List.cons.injEq, Prod.mk.injEq, true_and] at h
    rw [redactEntries, noSecretsEntries, Bool.and_eq_true, Bool.and_eq_true] at hs
    rw [redactEntries, redactValue_of_cycle v h.1 hs.1.2, redactEntries_of_cycle kvs h.2 hs.2]

end

theorem cycle_iff (v : Json) :
    (redactValue T (redactValue T (redactValue T v)) = v ∧ noSecrets T (redactValue T v) = true) ↔
      redactValue T v = v ∧ noSecrets T v = true := by
  constructor
  · rintro ⟨h,hs⟩
    have heq := redactValue_of_cycle v h hs
    exact ⟨heq,heq ▸ hs⟩
  · rintro ⟨h,hs⟩
    rw [h]
    exact ⟨by rw [h, h],hs⟩

/-! ## Retry recommendations -/

theorem isAttempts_redactValue {v : Json} (h : isAttempts v = true) :
    isAttempts (redactValue T v) = true := by
  cases v <;> exact h

theorem isBool_redactValue {v : Json} (h : isBool v = true) : isBool (redactValue T v) = true := by
  cases v <;> exact h

theorem validateBackoff_redactValue {v : Json} (h : validateBackoff v = .ok ()) :
    validateBackoff (redactValue T v) = .ok () := by
  cases v <;> exact h

theorem require_ok {c : Bool} {code : String} : require c code = .ok () ↔ c = true := by
  cases c <;> simp [require]

theorem require_bind {α : Type} {c : Bool} {code : String} {f : Unit → Except String α} {y : α} :
    require c code >>= f = .ok y ↔ c = true ∧ f () = .ok y := by
  cases c <;> simp [require, bind, Except.bind]

theorem bind_unit {α : Type} {x : Except String Unit} {f : Unit → Except String α} {y : α} :
    x >>= f = .ok y ↔ x = .ok () ∧ f () = .ok y := by
  cases x <;> simp [bind, Except.bind]

theorem all_of_map {f : Json → Json} {g : Json → Bool} {v : Option Json}
    (hf : ∀ v, g v = true → g (f v) = true) (h : v.all g = true) : (v.map f).all g = true := by
  cases v with
  | none => rfl
  | some v => exact hf v h

theorem validateReportRetry_obj (o : Obj) : validateReportRetry (.obj o) = .ok () ↔
    o.all (fun e => e.1 ∈ ["recommended", "max_attempts", "backoff_seconds", "reason"]) = true ∧
    (Obj.field o "max_attempts").all isAttempts = true ∧
    (Obj.field o "recommended").all isBool = true ∧
    validateBackoff ((Obj.field o "backoff_seconds").getD (.int 0)) = .ok () ∧
    (Obj.field o "reason").all isNonBlank = true := by
  rw [validateReportRetry, require_bind, require_bind, require_bind, bind_unit, require_ok]

theorem validateReportRetry_redactValue {v : Json} (h : validateReportRetry v = .ok ()) :
    validateReportRetry (redactValue T v) = .ok () := by
  cases v with
  | null => rfl
  | obj o =>
    obtain ⟨hkeys,hattempts,hrecommended,hbackoff,hreason⟩ := (validateReportRetry_obj o).mp h
    refine (validateReportRetry_obj _).mpr ⟨?_,?_,?_,?_,?_⟩
    · rw [redactEntries_eq, List.all_map]
      exact hkeys
    · rw [field_redactEntries]
      exact all_of_map (fun _ => isAttempts_redactValue) hattempts
    · rw [field_redactEntries]
      exact all_of_map (fun _ => isBool_redactValue) hrecommended
    · rw [field_redactEntries]
      cases hf : Obj.field o "backoff_seconds" with
      | none =>
        rw [hf] at hbackoff
        exact hbackoff
      | some b =>
        rw [hf] at hbackoff
        exact validateBackoff_redactValue hbackoff
    · rw [field_redactEntries]
      exact all_of_map (fun _ => isNonBlank_redactValue) hreason
  | bool | int | float | str | arr => cases h

/-! ## Sanitized fields -/

theorem absent_redactValue (v : Json) : absent (redactValue T v) = absent v := by
  cases v <;> rfl

theorem isBlank_cons {c : Char} {t : List Char} (h : isSpace c = false) : isBlank (c :: t) = false := by
  rw [isBlank, List.all_cons, h]
  rfl

theorem isBlank_take {t : List Char} {n : ℕ} (h : (stripSpace t).take (n+1) ≠ []) :
    isBlank ((stripSpace t).take (n+1)) = false := by
  cases hd : stripSpace t with
  | nil =>
    rw [hd] at h
    exact absurd List.take_nil h
  | cons c u =>
    have hhead := List.head?_dropWhile_not isSpace (t.rdropWhile isSpace)
    rw [show (t.rdropWhile isSpace).dropWhile isSpace = c :: u from hd, List.head?_cons] at hhead
    rw [List.take_succ_cons, isBlank, List.all_cons, hhead, Bool.false_and]

theorem isBlank_sanitizeErrorText {t : List Char} (h : sanitizeErrorText T t ≠ []) :
    isBlank (sanitizeErrorText T t) = false := isBlank_take h

theorem isBlank_sanitizeError (v : Json) : isBlank (sanitizeError T v).toList = false := by
  rw [sanitizeError, shownError]
  split_ifs with he
  · decide
  · rw [String.toList_ofList]
    exact isBlank_sanitizeErrorText he

end

section

variable {T : ReportTables}

theorem meaningful_settle {k : String} {v : Json} (h : meaningful v = true) :
    meaningful (settle T k v) = true := by
  have hred := meaningful_redactValue (T := T.toPlanTables) v h
  have hsafe : ∀ w, meaningful (.str (sanitizeError T.toPlanTables w)) = true := by
    intro w
    rw [meaningful, isBlank_sanitizeError]
    rfl
  rw [settle, sanitizeField]
  split_ifs
  · exact hred
  · exact hsafe _
  · exact hsafe _
  · exact hred
  · exact hred

theorem keysInOrder_settle {k : String} {v : Json} (h : keysInOrder T.toPlanTables v = true) :
    keysInOrder T.toPlanTables (settle T k v) = true := by
  have hred : keysInOrder T.toPlanTables (redactValue T.toPlanTables v) = true := by
    rw [keysInOrder_redactValue, h]
  rw [settle, sanitizeField]
  split_ifs
  · exact hred
  · rfl
  · rfl
  · exact hred
  · exact hred

theorem checkOutcome_of_meaningful {status : String} {code code' : String → String}
    {p q : String → Json} (h : checkOutcome status code p = .ok ())
    (hpq : ∀ k ∈ payloadFields, meaningful (p k) = true → meaningful (q k) = true) :
    checkOutcome status code' q = .ok () := by
  rw [checkOutcome] at h ⊢
  split_ifs at h ⊢ with hs
  · split at h
    · cases h
    next hnone =>
      have hq : requiredPayload.find? (fun k => !meaningful (q k)) = none := by
        rw [List.find?_eq_none] at hnone ⊢
        intro k hk hbad
        refine hnone k hk ?_
        have := hpq k (List.mem_append_left _ hk)
        simp_all
      rw [hq]
  · have hp := require_ok.mp h
    refine require_ok.mpr ?_
    rw [Bool.and_eq_true] at hp ⊢
    refine ⟨?_,hpq _ (by decide) hp.2⟩
    obtain ⟨k,hk,hm⟩ := List.any_eq_true.mp hp.1
    refine List.any_eq_true.mpr ⟨k,hk,hpq k ?_ hm⟩
    revert hk
    simp only [List.mem_cons, List.not_mem_nil, or_false]
    rintro (rfl | rfl | rfl) <;> decide

end

end PdFleet.Contracts
