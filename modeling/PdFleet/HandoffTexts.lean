import PdFleet.Handoff

/-!
# Handoff texts that stay as they are

A record is read through the checks that made it. Its ids, its reason and the form of its
metadata pass them a second time; a text passes them unchanged when the redactions leave it
alone, and an artifact is made again of what it holds exactly if all its texts do.
-/

set_option autoImplicit false

namespace PdFleet.Handoff

open Pattern Contracts

/-! ## Texts that stay as they are -/

section

variable (T : HandoffTables)

/-- A text that the constructor takes and leaves as it is. -/
structure Plain (s : String) : Prop where
  filled : isBlank s.toList = false
  short : s.toList.length ≤ maxText
  printable : s.toList.any (fun c => c.toNat < 32 && c ≠ '\n' && c ≠ '\t') = false
  harmless : promptLike T s.toList = false ∧ operationalHandle T s.toList = false
  kept : redactText T s.toList = s.toList

/-- An id that stays as it is. -/
structure PlainId (s : String) : Prop where
  filled : isBlank s.toList = false
  short : s.toList.length ≤ maxId
  printable : s.toList.any (fun c => c.toNat < 32) = false
  harmless : unsafeIdentifier T s.toList = false
  stripped : stripSpace s.toList = s.toList

/-- A reference, but for what `Plain` says of it. -/
def relative (s : String) : Bool :=
  !(search externalUrl s.toList || "/".toList.isPrefixOf s.toList || "~".toList.isPrefixOf s.toList ||
    "[PATH REDACTED]".toList.isPrefixOf s.toList || "[URL REDACTED]".toList.isPrefixOf s.toList)

end

variable {T : HandoffTables} {y s : String} {v : Json} {l : List String}

theorem sanitizeText_self : sanitizeText T y (.str s) = .ok s ↔ Plain T s := by
  rw [sanitizeText]
  constructor
  · intro h
    split_ifs at h with hlen hctl hbad hempty
    rw [Bool.or_eq_true, not_or, Bool.not_eq_true, decide_eq_true_iff, not_lt] at hlen
    rw [Bool.or_eq_true, not_or, Bool.not_eq_true, Bool.not_eq_true] at hbad
    refine ⟨hlen.1,hlen.2,by simpa using hctl,hbad,?_⟩
    have heq := congrArg String.toList (Except.ok.inj h)
    rwa [String.toList_ofList] at heq
  · intro h
    have hne : s.toList ≠ [] := by
      intro hnil
      have hfilled := h.filled
      rw [hnil] at hfilled
      cases hfilled
    rw [h.filled, h.printable, h.harmless.1, h.harmless.2, h.kept, decide_eq_false (not_lt.mpr h.short),
      if_neg (by decide), if_neg (by decide), if_neg (by decide), if_neg hne, String.ofList_toList]

theorem stripSpace_stripSpace (t : List Char) : stripSpace (stripSpace t) = stripSpace t := by
  have hright : (stripSpace t).rdropWhile isSpace = stripSpace t := by
    rw [List.rdropWhile_eq_self_iff]
    intro hne
    have hsuffix := List.dropWhile_suffix isSpace (l := t.rdropWhile isSpace)
    have hlast := List.rdropWhile_last_not isSpace t (by
      intro hnil
      apply hne
      rw [stripSpace, hnil]
      rfl)
    show ¬isSpace ((List.dropWhile isSpace (List.rdropWhile isSpace t)).getLast hne) = true
    rwa [hsuffix.getLast hne]
  have hleft : (stripSpace t).dropWhile isSpace = stripSpace t := by
    rw [stripSpace, List.dropWhile_idempotent]
  conv_lhs => rw [stripSpace, hright, hleft]

theorem stripSpace_sublist (t : List Char) : (stripSpace t).Sublist t :=
  (List.dropWhile_sublist _).trans (List.rdropWhile_prefix isSpace t).sublist

theorem isBlank_stripSpace (t : List Char) : isBlank (stripSpace t) = isBlank t := by
  rw [Bool.eq_iff_iff, isBlank, isBlank, List.all_eq_true, List.all_eq_true]
  constructor
  · intro h
    have hnil : stripSpace t = [] := by
      rw [← List.dropWhile_eq_nil_iff.mpr h, stripSpace, List.dropWhile_idempotent]
    have hright := List.dropWhile_eq_nil_iff.mp hnil
    have hempty : t.rdropWhile isSpace = [] := by
      by_contra hne
      exact List.rdropWhile_last_not isSpace t hne (hright _ (List.getLast_mem hne))
    exact List.rdropWhile_eq_nil_iff.mp hempty
  · exact fun h c hc => h c ((stripSpace_sublist t).subset hc)

theorem boundedId_self (h : PlainId T s) : boundedId T y (.str s) = .ok s := by
  rw [boundedId, h.filled, h.printable, h.stripped, h.harmless,
    decide_eq_false (not_lt.mpr h.short), if_neg (by decide), if_neg (by decide), if_neg (by decide),
    String.ofList_toList]

theorem boundedId_plain (h : boundedId T y v = .ok s) : PlainId T s := by
  cases v with
  | str t =>
    rw [boundedId] at h
    split_ifs at h with hlen hctl hbad
    cases h
    rw [Bool.or_eq_true, not_or, Bool.not_eq_true, decide_eq_true_iff, not_lt] at hlen
    have hsub := stripSpace_sublist t.toList
    constructor
    · rw [String.toList_ofList, isBlank_stripSpace]
      exact hlen.1
    · rw [String.toList_ofList]
      exact hsub.length_le.trans hlen.2
    · rw [String.toList_ofList]
      rw [Bool.not_eq_true] at hctl
      rw [List.any_eq_false] at hctl ⊢
      exact fun c hc => hctl c (hsub.subset hc)
    · rw [String.toList_ofList]
      simpa using hbad
    · rw [String.toList_ofList, stripSpace_stripSpace]
  | _ => cases h

theorem reason_self (h : reason v = .ok s) : reason (.str s) = .ok s := by
  have hin : s ∈ reasons := by
    cases v with
    | str t =>
      rw [reason] at h
      split_ifs at h with hin
      cases h
      exact hin
    | _ => cases h
  have hall : ∀ r ∈ reasons, reason (.str r) = .ok r := by decide
  exact hall s hin

theorem ref_self (h : relative s = true) : ref T (.str s) = .ok s ↔ Plain T s := by
  rw [relative, Bool.not_eq_true'] at h
  rw [← sanitizeText_self (y := "evidence_ref"), ref]
  constructor
  · intro hok
    obtain ⟨t,ht,hok⟩ := ok_of_bind hok
    split_ifs at hok
    cases hok
    exact ht
  · intro ht
    rw [ht]
    show (if _ then _ else _) = _
    rw [h]
    rfl

theorem relative_of_ref (h : ref T v = .ok s) : relative s = true := by
  obtain ⟨t,-,h⟩ := ok_of_bind h
  split_ifs at h with hbad
  cases h
  rw [relative, Bool.not_eq_true', ← Bool.not_eq_true]
  exact hbad

/-! ## Lists of texts -/

theorem takeItems_ok {f : Json → Except HandoffError String} {n : ℕ} {xs : List Json} :
    takeItems y f n xs = .ok l ↔
      List.Forall₂ (fun x s => f x = .ok s) xs l ∧ (l = [] ∨ n+l.length ≤ maxItems) := by
  induction xs generalizing n l with
  | nil =>
    rw [takeItems, List.forall₂_nil_left_iff, Except.ok.injEq, eq_comm]
    exact ⟨fun h => ⟨h,Or.inl h⟩,And.left⟩
  | cons x xs ih =>
    rw [takeItems, List.forall₂_cons_left_iff]
    constructor
    · intro h
      obtain ⟨s,hs,h⟩ := ok_of_bind h
      split_ifs at h with hlen
      obtain ⟨l',hl,h⟩ := ok_of_bind h
      cases h
      obtain ⟨hall,hbound⟩ := ih.mp hl
      refine ⟨⟨s,l',hs,hall,rfl⟩,Or.inr ?_⟩
      rcases hbound with rfl | hbound
      · exact not_lt.mp hlen
      · rw [List.length_cons]
        omega
    · rintro ⟨⟨s,l',hs,hall,rfl⟩,hbound⟩
      rcases hbound with h | hbound
      · cases h
      rw [List.length_cons] at hbound
      rw [hs]
      show (if _ then _ else _) = _
      rw [if_neg (by omega), ih.mpr ⟨hall,Or.inr (by omega)⟩]
      rfl

theorem takeItems_self {f : Json → Except HandoffError String} {P : String → Prop}
    (hf : ∀ s ∈ l, (f (.str s) = .ok s ↔ P s)) (hlen : l.length ≤ maxItems) :
    takeItems y f 0 (l.map .str) = .ok l ↔ ∀ s ∈ l, P s := by
  rw [takeItems_ok, List.forall₂_map_left_iff, List.forall₂_same,
    and_iff_left (Or.inr (by omega))]
  exact forall₂_congr hf

theorem items_self (hlen : l.length ≤ maxItems) :
    items T y (texts l) = .ok l ↔ ∀ s ∈ l, Plain T s :=
  takeItems_self (fun _ _ => sanitizeText_self) hlen

theorem boundedRefs_self (hlen : l.length ≤ maxItems) (hrel : ∀ s ∈ l, relative s = true) :
    boundedRefs T (texts l) = .ok l ↔ ∀ s ∈ l, Plain T s :=
  takeItems_self (fun s hs => ref_self (hrel s hs)) hlen

theorem length_of_takeItems {f : Json → Except HandoffError String} {xs : List Json}
    (h : takeItems y f 0 xs = .ok l) : l.length ≤ maxItems := by
  rcases (takeItems_ok.mp h).2 with rfl | h
  · exact Nat.zero_le _
  · omega

theorem length_of_items (h : items T y v = .ok l) : l.length ≤ maxItems := by
  obtain ⟨xs,-,h⟩ := ok_of_bind h
  exact length_of_takeItems h

theorem forall_right {P : String → Prop} {xs : List Json}
    (h : List.Forall₂ (fun _ s => P s) xs l) : ∀ s ∈ l, P s := by
  induction h with
  | nil => exact fun s hs => (nomatch hs)
  | cons h _ ih => exact List.forall_mem_cons.mpr ⟨h,ih⟩

theorem of_boundedRefs (h : boundedRefs T v = .ok l) :
    l.length ≤ maxItems ∧ ∀ s ∈ l, relative s = true := by
  obtain ⟨xs,-,h⟩ := ok_of_bind h
  refine ⟨length_of_takeItems h,?_⟩
  exact forall_right ((takeItems_ok.mp h).1.imp (fun _ _ hx => relative_of_ref hx))

/-! ## Metadata that stay as they are -/

mutual

/-- The number of values in a value. -/
def size : Json → ℕ
  | .obj kvs => sizeFields kvs+1
  | .arr xs => sizeItems xs+1
  | _ => 1

def sizeItems : List Json → ℕ
  | [] => 0
  | x :: xs => size x+sizeItems xs

def sizeFields : List (String × Json) → ℕ
  | [] => 0
  | (_,v) :: kvs => size v+sizeFields kvs

end

mutual

/-- The form of metadata, at a depth. -/
def Shaped : ℕ → Json → Prop
  | d, .obj kvs =>
    d ≤ 4 ∧ kvs.length ≤ maxItems ∧ (kvs.map Prod.fst).Nodup ∧ ShapedFields (d+1) kvs
  | d, .arr xs => d ≤ 4 ∧ xs.length ≤ maxItems ∧ ShapedItems (d+1) xs
  | d, .int n => d ≤ 4 ∧ isFiniteInt n = true
  | d, _ => d ≤ 4

def ShapedItems : ℕ → List Json → Prop
  | _, [] => True
  | d, x :: xs => Shaped d x ∧ ShapedItems d xs

def ShapedFields : ℕ → List (String × Json) → Prop
  | _, [] => True
  | d, (k,v) :: kvs => String.ofList (stripSpace k.toList) = k ∧ Shaped d v ∧ ShapedFields d kvs

end

mutual

/-- Metadata whose texts and keys stay as they are. -/
def Settled (T : HandoffTables) : Json → Prop
  | .obj kvs => SettledFields T kvs
  | .arr xs => SettledItems T xs
  | .str s => Plain T s
  | _ => True

def SettledItems (T : HandoffTables) : List Json → Prop
  | [] => True
  | x :: xs => Settled T x ∧ SettledItems T xs

def SettledFields (T : HandoffTables) : List (String × Json) → Prop
  | [] => True
  | (k,v) :: kvs => unsafeKey T k.toList = false ∧ Settled T v ∧ SettledFields T kvs

end

theorem shapedFields_put {d : ℕ} {o : Obj} {k : String} {w : Json} (ho : ShapedFields d o)
    (hk : String.ofList (stripSpace k.toList) = k) (hw : Shaped d w) :
    ShapedFields d (o.put k w) := by
  induction o with
  | nil => exact ⟨hk,hw,trivial⟩
  | cons e o ih =>
    obtain ⟨a,u⟩ := e
    obtain ⟨ha,hu,ho⟩ := ho
    rw [Obj.put]
    split_ifs
    · exact ⟨hk,hw,ho⟩
    · exact ⟨ha,hu,ih ho⟩

theorem sizeFields_put (o : Obj) (k : String) (w : Json) :
    sizeFields (o.put k w) ≤ sizeFields o+size w := by
  induction o with
  | nil => rw [Obj.put, sizeFields, sizeFields, sizeFields]; omega
  | cons e o ih =>
    obtain ⟨a,u⟩ := e
    rw [Obj.put]
    split_ifs
    · rw [sizeFields, sizeFields]
      omega
    · rw [sizeFields, sizeFields]
      omega

theorem length_put (o : Obj) (k : String) (w : Json) : (o.put k w).length ≤ o.length+1 := by
  induction o with
  | nil => exact le_refl 1
  | cons e o ih =>
    rw [Obj.put]
    split_ifs
    · exact Nat.le_succ _
    · exact Nat.succ_le_succ ih

theorem keys_put {o : Obj} {k : String} {w : Json} :
    (o.put k w).map Prod.fst = if k ∈ o.map Prod.fst then o.map Prod.fst
      else o.map Prod.fst ++ [k] := by
  induction o with
  | nil => rfl
  | cons e o ih =>
    rw [Obj.put]
    by_cases he : e.1 = k
    · rw [if_pos he, if_pos (by simp [he]), List.map_cons, List.map_cons, he]
    · rw [if_neg he, List.map_cons, ih, List.map_cons]
      by_cases hk : k ∈ o.map Prod.fst
      · rw [if_pos hk, if_pos (List.mem_cons_of_mem _ hk)]
      · rw [if_neg hk, if_neg (by simpa [Ne.symm he] using hk), List.cons_append]

theorem nodup_put {o : Obj} {k : String} {w : Json} (h : (o.map Prod.fst).Nodup) :
    ((o.put k w).map Prod.fst).Nodup := by
  rw [keys_put]
  split_ifs with hk
  · exact h
  · refine List.nodup_append.mpr ⟨h,List.nodup_singleton k,fun a ha b hb => ?_⟩
    rw [List.mem_singleton.mp hb]
    rintro rfl
    exact hk ha

/-- What `_safe_metadata` makes of a value, `c` values before it. -/
structure Made (d c : ℕ) (v w : Json) (n : ℕ) : Prop where
  count : n = c+size v
  bound : n ≤ maxItems
  shape : Shaped d w
  size : Handoff.size w ≤ Handoff.size v

theorem map_ok {α β : Type} {x : Except HandoffError α} {f : α → β} {b : β}
    (h : x.map f = .ok b) : ∃ a, x = .ok a ∧ f a = b := by
  cases x with
  | error e => cases h
  | ok a => exact ⟨a,rfl,Except.ok.inj h⟩

theorem made_items {d c n : ℕ} {xs l : List Json}
    (ih : ∀ x ∈ xs, ∀ {d c n w}, safeMetadata T d c x = .ok (w,n) → Made d c x w n)
    (h : safeItems T d c xs = .ok (l,n)) (hc : c ≤ maxItems) :
    n = c+sizeItems xs ∧ n ≤ maxItems ∧ ShapedItems (d+1) l ∧ sizeItems l ≤ sizeItems xs ∧
      l.length = xs.length := by
  induction xs generalizing c l with
  | nil =>
    rw [safeItems] at h
    cases h
    exact ⟨rfl,hc,trivial,le_refl _,rfl⟩
  | cons x xs ih' =>
    rw [safeItems] at h
    obtain ⟨⟨w,m⟩,hw,h⟩ := ok_of_bind h
    obtain ⟨⟨l',m'⟩,hl,h⟩ := ok_of_bind h
    cases h
    have hx := ih x List.mem_cons_self hw
    obtain ⟨hcount,hbound,hshape,hsize,hlen⟩ :=
      ih' (fun y hy => ih y (List.mem_cons_of_mem x hy)) hl hx.bound
    refine ⟨?_,hbound,⟨hx.shape,hshape⟩,Nat.add_le_add hx.size hsize,congrArg (·+1) hlen⟩
    rw [hcount, hx.count, sizeItems, Nat.add_assoc]

theorem made_fields {d c n : ℕ} {r o kvs : Obj}
    (ih : ∀ e ∈ kvs, ∀ {d c n w}, safeMetadata T d c e.2 = .ok (w,n) → Made d c e.2 w n)
    (h : safeFields T d c r kvs = .ok (o,n)) (hc : c ≤ maxItems) (hr : ShapedFields (d+1) r)
    (hn : (r.map Prod.fst).Nodup) :
    n = c+sizeFields kvs ∧ n ≤ maxItems ∧ ShapedFields (d+1) o ∧ (o.map Prod.fst).Nodup ∧
      sizeFields o ≤ sizeFields r+sizeFields kvs ∧ o.length ≤ r.length+kvs.length := by
  induction kvs generalizing c r with
  | nil =>
    rw [safeFields] at h
    cases h
    exact ⟨rfl,hc,hr,hn,le_refl _,le_refl _⟩
  | cons e kvs ih' =>
    obtain ⟨k,v⟩ := e
    rw [safeFields] at h
    split_ifs at h
    obtain ⟨⟨w,m⟩,hw,h⟩ := ok_of_bind h
    have hv := ih (k,v) List.mem_cons_self hw
    have hkey : String.ofList (stripSpace (String.ofList (stripSpace k.toList)).toList) =
        String.ofList (stripSpace k.toList) := by
      rw [String.toList_ofList, stripSpace_stripSpace]
    obtain ⟨hcount,hbound,hshape,hnodup,hsize,hlen⟩ :=
      ih' (fun y hy => ih y (List.mem_cons_of_mem _ hy)) h hv.bound
        (shapedFields_put hr hkey hv.shape) (nodup_put hn)
    have hput := sizeFields_put r (String.ofList (stripSpace k.toList)) w
    have hlput := length_put r (String.ofList (stripSpace k.toList)) w
    have hvsize : size w ≤ size v := hv.size
    refine ⟨?_,hbound,hshape,hnodup,?_,?_⟩
    · rw [hcount, hv.count, sizeFields, Nat.add_assoc]
    · rw [sizeFields]
      omega
    · rw [List.length_cons]
      omega

theorem made {d c n : ℕ} {v w : Json} (h : safeMetadata T d c v = .ok (w,n)) : Made d c v w n := by
  induction v using Json.ind generalizing d c w n with
  | obj kvs ih =>
    rw [safeMetadata] at h
    split_ifs at h with hd hc hlen
    obtain ⟨⟨o,m⟩,ho,h⟩ := map_ok h
    cases h
    obtain ⟨hcount,hbound,hshape,hnodup,hsize,hlength⟩ :=
      made_fields ih ho (not_lt.mp hc) trivial List.nodup_nil
    rw [sizeFields] at hsize
    rw [List.length_nil] at hlength
    refine ⟨?_,hbound,⟨not_lt.mp hd,by omega,hnodup,hshape⟩,?_⟩
    · rw [hcount, size]
      omega
    · rw [size, size]
      omega
  | arr xs ih =>
    rw [safeMetadata] at h
    split_ifs at h with hd hc hlen
    obtain ⟨⟨l,m⟩,hl,h⟩ := map_ok h
    cases h
    obtain ⟨hcount,hbound,hshape,hsize,hlength⟩ := made_items ih hl (not_lt.mp hc)
    refine ⟨?_,hbound,⟨not_lt.mp hd,by omega,hshape⟩,?_⟩
    · rw [hcount, size]
      omega
    · rw [size, size]
      omega
  | str s =>
    rw [safeMetadata] at h
    split_ifs at h with hd hc
    obtain ⟨t,-,h⟩ := map_ok h
    cases h
    exact ⟨rfl,not_lt.mp hc,not_lt.mp hd,le_refl _⟩
  | int m =>
    rw [safeMetadata] at h
    split_ifs at h with hd hc hfinite
    cases h
    exact ⟨rfl,not_lt.mp hc,⟨not_lt.mp hd,hfinite⟩,le_refl _⟩
  | null =>
    unfold safeMetadata at h
    split_ifs at h with hd hc
    cases h
    exact ⟨rfl,not_lt.mp hc,not_lt.mp hd,le_refl _⟩
  | bool b =>
    unfold safeMetadata at h
    split_ifs at h with hd hc
    cases h
    exact ⟨rfl,not_lt.mp hc,not_lt.mp hd,le_refl _⟩
  | float r =>
    unfold safeMetadata at h
    split_ifs at h with hd hc
    cases h
    exact ⟨rfl,not_lt.mp hc,not_lt.mp hd,le_refl _⟩

/-- The entries of a mapping whose keys are stripped and distinct. -/
def walkFields (T : HandoffTables) (d c : ℕ) : Obj → Except HandoffError (Obj × ℕ)
  | [] => .ok ([],c)
  | (k,v) :: kvs =>
    if unsafeKey T k.toList then .error (.value "unsafe safety metadata key")
    else do
      let (w,n) ← safeMetadata T (d+1) c v
      let (l,n) ← walkFields T d n kvs
      return ((k,w) :: l,n)

theorem put_fresh {o : Obj} {k : String} {w : Json} (h : k ∉ o.map Prod.fst) :
    o.put k w = o ++ [(k,w)] := by
  induction o with
  | nil => rfl
  | cons e o ih =>
    rw [List.map_cons, List.mem_cons, not_or] at h
    rw [Obj.put, if_neg (Ne.symm h.1), ih h.2, List.cons_append]

theorem safeFields_walk {d c : ℕ} {r kvs : Obj} (hs : ShapedFields (d+1) kvs)
    (hn : (r.map Prod.fst ++ kvs.map Prod.fst).Nodup) :
    safeFields T d c r kvs = (walkFields T d c kvs).map (fun p => (r ++ p.1,p.2)) := by
  induction kvs generalizing c r with
  | nil => rw [safeFields, walkFields, Except.map, List.append_nil]
  | cons e kvs ih =>
    obtain ⟨k,v⟩ := e
    obtain ⟨hk,-,hs⟩ := hs
    rw [safeFields, walkFields]
    split_ifs
    · rfl
    rw [hk]
    cases safeMetadata T (d+1) c v with
    | error e => rfl
    | ok p =>
      have hfresh : k ∉ r.map Prod.fst := by
        intro hin
        exact (List.nodup_append.mp hn).2.2 k hin k List.mem_cons_self rfl
      have hnext : ((r.put k p.1).map Prod.fst ++ kvs.map Prod.fst).Nodup := by
        rw [put_fresh hfresh, List.map_append, List.append_assoc]
        exact hn
      show safeFields T d p.2 (r.put k p.1) kvs = _
      rw [ih hs hnext, put_fresh hfresh]
      show _ = Except.map _ (walkFields T d p.2 kvs >>= _)
      cases walkFields T d p.2 kvs with
      | error e => rfl
      | ok q =>
        show Except.ok (r ++ [(k,p.1)] ++ q.1,q.2) = Except.ok (r ++ (k,p.1) :: q.1,q.2)
        rw [List.append_assoc, List.singleton_append]

theorem settled_items {d c : ℕ} {l : List Json}
    (ih : ∀ x ∈ l, ∀ {d c}, Shaped d x → c+size x ≤ maxItems →
      ((∃ n, safeMetadata T d c x = .ok (x,n)) ↔ Settled T x))
    (hs : ShapedItems (d+1) l) (hc : c+sizeItems l ≤ maxItems) :
    (∃ n, safeItems T d c l = .ok (l,n)) ↔ SettledItems T l := by
  induction l generalizing c with
  | nil => exact iff_of_true ⟨c,by rw [safeItems]⟩ trivial
  | cons x l ih' =>
    obtain ⟨hx,hl⟩ := hs
    rw [sizeItems, ← Nat.add_assoc] at hc
    have hhead := ih x List.mem_cons_self hx (c := c) (by omega)
    have htail := ih' (fun y hy => ih y (List.mem_cons_of_mem x hy)) hl hc
    rw [SettledItems, ← hhead, ← htail]
    constructor
    · rintro ⟨n,h⟩
      rw [safeItems] at h
      obtain ⟨⟨w,m⟩,hw,h⟩ := ok_of_bind h
      obtain ⟨⟨l',m'⟩,hl',h⟩ := ok_of_bind h
      cases h
      have hm : m = c+size x := (made hw).count
      exact ⟨⟨m,hw⟩,⟨n,by rw [← hm]; exact hl'⟩⟩
    · rintro ⟨⟨m,hw⟩,⟨n,hl'⟩⟩
      have hm : m = c+size x := (made hw).count
      refine ⟨n,?_⟩
      rw [safeItems, hw]
      show (safeItems T d m l >>= _) = _
      rw [hm, hl']
      rfl

theorem settled_fields {d c : ℕ} {kvs : Obj}
    (ih : ∀ e ∈ kvs, ∀ {d c}, Shaped d e.2 → c+size e.2 ≤ maxItems →
      ((∃ n, safeMetadata T d c e.2 = .ok (e.2,n)) ↔ Settled T e.2))
    (hs : ShapedFields (d+1) kvs) (hc : c+sizeFields kvs ≤ maxItems) :
    (∃ n, walkFields T d c kvs = .ok (kvs,n)) ↔ SettledFields T kvs := by
  induction kvs generalizing c with
  | nil => exact iff_of_true ⟨c,rfl⟩ trivial
  | cons e kvs ih' =>
    obtain ⟨k,v⟩ := e
    obtain ⟨-,hv,hkvs⟩ := hs
    rw [sizeFields, ← Nat.add_assoc] at hc
    have hhead := ih (k,v) List.mem_cons_self hv (c := c) (by show c+size v ≤ _; omega)
    have htail := ih' (fun y hy => ih y (List.mem_cons_of_mem _ hy)) hkvs hc
    rw [SettledFields, ← hhead, ← htail]
    constructor
    · rintro ⟨n,h⟩
      rw [walkFields] at h
      split_ifs at h with hkey
      obtain ⟨⟨w,m⟩,hw,h⟩ := ok_of_bind h
      obtain ⟨⟨l,m'⟩,hl,h⟩ := ok_of_bind h
      cases h
      have hm : m = c+size v := (made hw).count
      exact ⟨by simpa using hkey,⟨m,hw⟩,⟨n,by rw [← hm]; exact hl⟩⟩
    · rintro ⟨hkey,⟨m,hw⟩,⟨n,hl⟩⟩
      have hm : m = c+size v := (made hw).count
      refine ⟨n,?_⟩
      rw [walkFields, hkey, if_neg Bool.false_ne_true, hw]
      show (walkFields T d m kvs >>= _) = _
      rw [hm, hl]
      rfl

/-- Metadata that were made are made of themselves if and only if they are settled. -/
theorem settled_iff {d c : ℕ} {w : Json} (hs : Shaped d w) (hc : c+size w ≤ maxItems) :
    (∃ n, safeMetadata T d c w = .ok (w,n)) ↔ Settled T w := by
  induction w using Json.ind generalizing d c with
  | obj kvs ih =>
    obtain ⟨hd,hlen,hn,hkvs⟩ := hs
    rw [size] at hc
    rw [safeMetadata, if_neg (not_lt.mpr hd), if_neg (by omega), if_neg (not_lt.mpr hlen),
      safeFields_walk hkvs (by simpa using hn), Settled,
      ← settled_fields ih hkvs (c := c+1) (by omega)]
    refine exists_congr (fun n => ?_)
    cases walkFields T d (c+1) kvs with
    | error e => exact iff_of_false (fun h => nomatch h) (fun h => nomatch h)
    | ok p =>
      show Except.ok (Json.obj p.1,p.2) = _ ↔ Except.ok p = _
      rw [Except.ok.injEq, Except.ok.injEq, Prod.mk.injEq, Json.obj.injEq, Prod.ext_iff]
  | arr xs ih =>
    obtain ⟨hd,hlen,hxs⟩ := hs
    rw [size] at hc
    rw [safeMetadata, if_neg (not_lt.mpr hd), if_neg (by omega), if_neg (not_lt.mpr hlen),
      Settled, ← settled_items ih hxs (c := c+1) (by omega)]
    refine exists_congr (fun n => ?_)
    cases safeItems T d (c+1) xs with
    | error e => exact iff_of_false (fun h => nomatch h) (fun h => nomatch h)
    | ok p =>
      show Except.ok (Json.arr p.1,p.2) = _ ↔ Except.ok p = _
      rw [Except.ok.injEq, Except.ok.injEq, Prod.mk.injEq, Json.arr.injEq, Prod.ext_iff]
  | str s =>
    change c+1 ≤ maxItems at hc
    rw [safeMetadata, if_neg (not_lt.mpr hs), if_neg (by omega), Settled,
      ← sanitizeText_self (y := "safety metadata")]
    constructor
    · rintro ⟨n,h⟩
      obtain ⟨t,ht,h⟩ := map_ok h
      cases h
      exact ht
    · intro h
      exact ⟨c+1,by rw [h]; rfl⟩
  | int m =>
    change c+1 ≤ maxItems at hc
    refine iff_of_true ⟨c+1,?_⟩ trivial
    rw [safeMetadata, if_neg (not_lt.mpr hs.1), if_neg (by omega), if_pos hs.2]
  | null =>
    change c+1 ≤ maxItems at hc
    refine iff_of_true ⟨c+1,?_⟩ trivial
    unfold safeMetadata
    rw [if_neg (not_lt.mpr hs), if_neg (by omega)]
  | bool b =>
    change c+1 ≤ maxItems at hc
    refine iff_of_true ⟨c+1,?_⟩ trivial
    unfold safeMetadata
    rw [if_neg (not_lt.mpr hs), if_neg (by omega)]
  | float r =>
    change c+1 ≤ maxItems at hc
    refine iff_of_true ⟨c+1,?_⟩ trivial
    unfold safeMetadata
    rw [if_neg (not_lt.mpr hs), if_neg (by omega)]

/-! ## Artifacts that stay as they are -/

variable {a : HandoffArtifact}

/-- An artifact that the two constructors have made of some arguments. -/
def Constructed (T : HandoffTables) (a : HandoffArtifact) : Prop :=
  (∃ missionId missionRunId taskId sourceLaneId attemptId sessionId targetRole ownerEpoch,
    makeLineage T missionId missionRunId taskId sourceLaneId attemptId sessionId targetRole
      ownerEpoch = .ok a.lineage) ∧
  ∃ handoffId reason summary completed remaining decisions risks evidenceRefs nextAction safety,
    makeArtifact T handoffId reason summary completed remaining decisions risks evidenceRefs
      nextAction a.lineage safety = .ok a

structure FormedLineage (T : HandoffTables) (l : HandoffLineage) : Prop where
  missionId : PlainId T l.missionId
  missionRunId : PlainId T l.missionRunId
  taskId : PlainId T l.taskId
  sourceLaneId : PlainId T l.sourceLaneId
  attemptId : PlainId T l.attemptId
  sessionId : PlainId T l.sessionId
  targetRole : PlainId T l.targetRole

/-- What the constructor has seen to. -/
structure Formed (T : HandoffTables) (a : HandoffArtifact) : Prop where
  handoffId : PlainId T a.handoffId
  reason : Handoff.reason (.str a.reason) = .ok a.reason
  completed : a.completed.length ≤ maxItems
  remaining : a.remaining.length ≤ maxItems
  decisions : a.decisions.length ≤ maxItems
  risks : a.risks.length ≤ maxItems
  evidenceRefs : a.evidenceRefs.length ≤ maxItems ∧ ∀ s ∈ a.evidenceRefs, relative s = true
  shape : Shaped 0 (.obj a.safety)
  size : Handoff.size (.obj a.safety) ≤ maxItems
  lineage : FormedLineage T a.lineage

/-- The texts of the artifact stay as they are. -/
structure Stays (T : HandoffTables) (a : HandoffArtifact) : Prop where
  summary : Plain T a.summary
  nextAction : Plain T a.nextAction
  completed : ∀ s ∈ a.completed, Plain T s
  remaining : ∀ s ∈ a.remaining, Plain T s
  decisions : ∀ s ∈ a.decisions, Plain T s
  risks : ∀ s ∈ a.risks, Plain T s
  evidenceRefs : ∀ s ∈ a.evidenceRefs, Plain T s
  safety : Settled T (.obj a.safety)

theorem formedLineage {l : HandoffLineage} {m r t s' x y z e : Json}
    (h : makeLineage T m r t s' x y z e = .ok l) : FormedLineage T l := by
  obtain ⟨_,h1,h⟩ := ok_of_bind h
  obtain ⟨_,h2,h⟩ := ok_of_bind h
  obtain ⟨_,h3,h⟩ := ok_of_bind h
  obtain ⟨_,h4,h⟩ := ok_of_bind h
  obtain ⟨_,h5,h⟩ := ok_of_bind h
  obtain ⟨_,h6,h⟩ := ok_of_bind h
  obtain ⟨_,h7,h⟩ := ok_of_bind h
  obtain ⟨_,-,h⟩ := ok_of_bind h
  cases h
  exact ⟨boundedId_plain h1,boundedId_plain h2,boundedId_plain h3,boundedId_plain h4,
    boundedId_plain h5,boundedId_plain h6,boundedId_plain h7⟩

theorem safeMapping_ok {o : Obj} (h : safeMapping T v = .ok o) :
    ∃ kvs n, v = .obj kvs ∧ safeMetadata T 0 0 (.obj kvs) = .ok (.obj o,n) := by
  cases v with
  | obj kvs =>
    obtain ⟨⟨w,n⟩,hw,h⟩ := ok_of_bind h
    cases w with
    | obj o' =>
      cases h
      exact ⟨kvs,n,rfl,hw⟩
    | _ => cases h
  | _ => cases h

theorem formed (h : Constructed T a) : Formed T a := by
  obtain ⟨⟨_,_,_,_,_,_,_,_,hl⟩,_,_,_,_,_,_,_,_,_,_,h⟩ := h
  have hlineage := formedLineage hl
  obtain ⟨_,hid,h⟩ := ok_of_bind h
  obtain ⟨_,hreason,h⟩ := ok_of_bind h
  obtain ⟨_,-,h⟩ := ok_of_bind h
  obtain ⟨_,-,h⟩ := ok_of_bind h
  obtain ⟨_,hcompleted,h⟩ := ok_of_bind h
  obtain ⟨_,hremaining,h⟩ := ok_of_bind h
  obtain ⟨_,hdecisions,h⟩ := ok_of_bind h
  obtain ⟨_,hrisks,h⟩ := ok_of_bind h
  obtain ⟨_,hrefs,h⟩ := ok_of_bind h
  obtain ⟨_,hsafety,h⟩ := ok_of_bind h
  obtain ⟨kvs,n,-,hmade⟩ := safeMapping_ok hsafety
  have hm := made hmade
  have heq := Except.ok.inj h
  rw [← heq] at hlineage ⊢
  refine ⟨boundedId_plain hid,reason_self hreason,length_of_items hcompleted,
    length_of_items hremaining,length_of_items hdecisions,length_of_items hrisks,
    of_boundedRefs hrefs,hm.shape,?_,hlineage⟩
  have hcount := hm.count
  have hbound := hm.bound
  exact hm.size.trans (by omega)

theorem makeLineage_self {l : HandoffLineage} (h : FormedLineage T l) :
    makeLineage T (.str l.missionId) (.str l.missionRunId) (.str l.taskId) (.str l.sourceLaneId)
      (.str l.attemptId) (.str l.sessionId) (.str l.targetRole) (.int l.ownerEpoch) = .ok l := by
  have hepoch : epoch (.int l.ownerEpoch) = .ok l.ownerEpoch := by
    rw [epoch, if_neg (by omega), Int.toNat_natCast]
  rw [makeLineage, boundedId_self h.1, boundedId_self h.2, boundedId_self h.3, boundedId_self h.4,
    boundedId_self h.5, boundedId_self h.6, boundedId_self h.7, hepoch]
  rfl

theorem safeMapping_self {o : Obj} (hs : Shaped 0 (.obj o)) (hsize : size (.obj o) ≤ maxItems) :
    safeMapping T (.obj o) = .ok o ↔ Settled T (.obj o) := by
  rw [← settled_iff (c := 0) hs (by omega)]
  constructor
  · intro h
    obtain ⟨kvs,n,hv,h⟩ := safeMapping_ok h
    cases hv
    exact ⟨n,h⟩
  · rintro ⟨n,h⟩
    rw [safeMapping, h]
    rfl

/-- An artifact is made of what it holds if and only if its texts stay as they are. -/
theorem makeArtifact_self (h : Formed T a) :
    makeArtifact T (.str a.handoffId) (.str a.reason) (.str a.summary) (texts a.completed)
      (texts a.remaining) (texts a.decisions) (texts a.risks) (texts a.evidenceRefs)
      (.str a.nextAction) a.lineage (.obj a.safety) = .ok a ↔ Stays T a := by
  constructor
  · intro hok
    obtain ⟨handoffId,reason,summary,completed,remaining,decisions,risks,refs,next,lineage,safety⟩ := a
    obtain ⟨_,-,hok⟩ := ok_of_bind hok
    obtain ⟨_,-,hok⟩ := ok_of_bind hok
    obtain ⟨_,hsummary,hok⟩ := ok_of_bind hok
    obtain ⟨_,hnext,hok⟩ := ok_of_bind hok
    obtain ⟨_,hcompleted,hok⟩ := ok_of_bind hok
    obtain ⟨_,hremaining,hok⟩ := ok_of_bind hok
    obtain ⟨_,hdecisions,hok⟩ := ok_of_bind hok
    obtain ⟨_,hrisks,hok⟩ := ok_of_bind hok
    obtain ⟨_,hrefs,hok⟩ := ok_of_bind hok
    obtain ⟨_,hsafety,hok⟩ := ok_of_bind hok
    cases hok
    exact ⟨sanitizeText_self.mp hsummary,sanitizeText_self.mp hnext,
      (items_self h.completed).mp hcompleted,(items_self h.remaining).mp hremaining,
      (items_self h.decisions).mp hdecisions,(items_self h.risks).mp hrisks,
      (boundedRefs_self h.evidenceRefs.1 h.evidenceRefs.2).mp hrefs,
      (safeMapping_self h.shape h.size).mp hsafety⟩
  · intro hst
    rw [makeArtifact, boundedId_self h.handoffId, h.reason, sanitizeText_self.mpr hst.summary,
      sanitizeText_self.mpr hst.nextAction, (items_self h.completed).mpr hst.completed,
      (items_self h.remaining).mpr hst.remaining, (items_self h.decisions).mpr hst.decisions,
      (items_self h.risks).mpr hst.risks,
      (boundedRefs_self h.evidenceRefs.1 h.evidenceRefs.2).mpr hst.evidenceRefs,
      (safeMapping_self h.shape h.size).mpr hst.safety]
    rfl

end PdFleet.Handoff
