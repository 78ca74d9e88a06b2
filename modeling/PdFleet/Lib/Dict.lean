import Mathlib

/-!
# Dictionaries

Association lists with distinct keys, of one value type. This adds to the
general association lists the operations a dictionary program needs: keeping
the entries that pass a test, inserting several entries, and the two ways
between a dictionary and a plain list of fields.
-/

set_option autoImplicit false

abbrev Dict (κ α : Type) := AList (fun _ : κ => α)

namespace Dict

variable {κ α β : Type} [DecidableEq κ]

def keep (p : κ → α → Bool) (d : Dict κ α) : Dict κ α where
  entries := d.entries.filter (fun e => p e.1 e.2)
  nodupKeys := List.Nodup.sublist (List.Sublist.map _ List.filter_sublist) d.nodupKeys

theorem lookup_keep (p : κ → α → Bool) (d : Dict κ α) (k : κ) (v : α) :
    (keep p d).lookup k = some v ↔ d.lookup k = some v ∧ p k v = true := by
  rw [← Option.mem_def, AList.mem_lookup_iff, ← Option.mem_def, AList.mem_lookup_iff]
  simp [keep]

theorem mem_keep {p : κ → α → Bool} {d : Dict κ α} {k : κ} (h : k ∈ keep p d) : k ∈ d := by
  obtain ⟨v,hv⟩ := Option.isSome_iff_exists.mp (AList.lookup_isSome.mpr h)
  exact AList.lookup_isSome.mp (by rw [((lookup_keep p d k v).mp hv).1]; rfl)

theorem mem_of_lookup {d : Dict κ α} {k : κ} {v : α} (h : d.lookup k = some v) : k ∈ d :=
  AList.lookup_isSome.mp (by rw [h]; rfl)

theorem exists_lookup {d : Dict κ α} {k : κ} (h : k ∈ d) : ∃ v, d.lookup k = some v :=
  Option.isSome_iff_exists.mp (AList.lookup_isSome.mpr h)

def size (d : Dict κ α) : ℕ := d.entries.length

omit [DecidableEq κ] in
theorem size_keep_le (p : κ → α → Bool) (d : Dict κ α) : size (keep p d) ≤ size d :=
  List.length_filter_le _ _

theorem lookup_insert_eq (d : Dict κ α) (k k' : κ) (v : α) :
    (d.insert k v).lookup k' = if k' = k then some v else d.lookup k' := by
  by_cases h : k' = k
  · subst h; simp
  · simp [h, AList.lookup_insert_ne h]

theorem of_lookup_insert {d : Dict κ α} {k k' : κ} {v w : α}
    (h : (d.insert k v).lookup k' = some w) :
    (k' = k ∧ w = v) ∨ (k' ≠ k ∧ d.lookup k' = some w) := by
  rw [lookup_insert_eq] at h
  split at h
  · exact Or.inl ⟨‹_›,(Option.some.inj h).symm⟩
  · exact Or.inr ⟨‹_›,h⟩

theorem lookup_erase_eq (d : Dict κ α) (k k' : κ) :
    (d.erase k).lookup k' = if k' = k then none else d.lookup k' := by
  by_cases h : k' = k
  · subst h; simp
  · simp [h, AList.lookup_erase_ne h]

theorem size_insert_of_notMem {d : Dict κ α} {k : κ} {v : α} (h : k ∉ d) :
    size (d.insert k v) = size d+1 := by
  rw [size, AList.entries_insert_of_notMem h, List.length_cons, size]

theorem size_insert_of_mem {d : Dict κ α} {k : κ} {v : α} (h : k ∈ d) :
    size (d.insert k v) = size d := by
  have hk := congrArg List.length (AList.keys_insert (b := v) (a := k) d)
  have hm : k ∈ d.keys := h
  have hp := List.length_pos_of_mem hm
  rw [List.length_cons, List.length_erase_of_mem hm] at hk
  simp only [AList.keys, List.keys, List.length_map] at hk hp
  simp only [size]
  omega

theorem size_erase_le (d : Dict κ α) (k : κ) : size (d.erase k) ≤ size d := by
  have hk := congrArg List.length (AList.keys_erase k d)
  have he := List.length_erase_le (a := k) (l := d.keys)
  simp only [AList.keys, List.keys, List.length_map] at hk he
  simp only [size]
  omega

/-- Every entry of the first is an entry of the second. -/
def Sub (d d' : Dict κ α) : Prop := ∀ k v, d.lookup k = some v → d'.lookup k = some v

theorem Sub.refl (d : Dict κ α) : Sub d d := fun _ _ h => h

theorem sub_keep (p : κ → α → Bool) (d : Dict κ α) : Sub (keep p d) d :=
  fun k v h => ((lookup_keep p d k v).mp h).1

theorem sub_erase (d : Dict κ α) (k : κ) : Sub (d.erase k) d := by
  intro k' v h
  rw [lookup_erase_eq] at h
  split at h
  · cases h
  · exact h

omit [DecidableEq κ] in
theorem size_le_of_mem {d d' : Dict κ α} (h : ∀ k, k ∈ d → k ∈ d') : size d ≤ size d' := by
  have hl := (List.subperm_of_subset d.keys_nodup (fun k hk => h k hk)).length_le
  simpa [AList.keys, List.keys, size] using hl

theorem Sub.mem {d d' : Dict κ α} (h : Sub d d') {k : κ} (hk : k ∈ d) : k ∈ d' := by
  obtain ⟨v,hv⟩ := exists_lookup hk
  exact mem_of_lookup (h k v hv)

theorem size_le_of_sub {d d' : Dict κ α} (h : Sub d d') : size d ≤ size d' :=
  size_le_of_mem (fun _ hk => h.mem hk)

/-! ## Several insertions -/

def insertAll (d : Dict κ α) (l : List (κ × α)) : Dict κ α :=
  l.foldl (fun d e => d.insert e.1 e.2) d

@[simp] theorem insertAll_nil (d : Dict κ α) : insertAll d [] = d := rfl

@[simp] theorem insertAll_cons (d : Dict κ α) (e : κ × α) (l : List (κ × α)) :
    insertAll d (e::l) = insertAll (d.insert e.1 e.2) l := rfl

theorem lookup_insertAll {d : Dict κ α} {l : List (κ × α)} {k : κ} {v : α}
    (h : (insertAll d l).lookup k = some v) :
    (k,v) ∈ l ∨ (d.lookup k = some v ∧ k ∉ l.map Prod.fst) := by
  induction l generalizing d with
  | nil => exact Or.inr ⟨h, by simp⟩
  | cons e l ih =>
    rcases ih h with hl | ⟨hd,hn⟩
    · exact Or.inl (List.mem_cons_of_mem _ hl)
    · rw [lookup_insert_eq] at hd
      by_cases hk : k = e.1
      · rw [if_pos hk, Option.some.injEq] at hd
        subst hk hd
        exact Or.inl List.mem_cons_self
      · rw [if_neg hk] at hd
        exact Or.inr ⟨hd, by simpa [hk] using hn⟩

theorem lookup_insertAll_of_notMem (d : Dict κ α) (l : List (κ × α)) (k : κ)
    (h : k ∉ l.map Prod.fst) : (insertAll d l).lookup k = d.lookup k := by
  induction l generalizing d with
  | nil => rfl
  | cons e l ih =>
    simp only [List.map_cons, List.mem_cons, not_or] at h
    rw [insertAll_cons, ih _ h.2, AList.lookup_insert_ne h.1]

theorem lookup_insertAll_of_mem (d : Dict κ α) (l : List (κ × α)) (k : κ) (v : α)
    (hn : (l.map Prod.fst).Nodup) (h : (k,v) ∈ l) : (insertAll d l).lookup k = some v := by
  induction l generalizing d with
  | nil => simp at h
  | cons e l ih =>
    rw [List.map_cons, List.nodup_cons] at hn
    rcases List.mem_cons.mp h with rfl | hl
    · rw [insertAll_cons, lookup_insertAll_of_notMem _ _ _ hn.1, AList.lookup_insert]
    · exact ih _ hn.2 hl

theorem size_insertAll_le (d : Dict κ α) (l : List (κ × α)) :
    size (insertAll d l) ≤ size d+l.length := by
  induction l generalizing d with
  | nil => simp
  | cons e l ih =>
    have hi := ih (d.insert e.1 e.2)
    have hs : size (d.insert e.1 e.2) ≤ size d+1 := by
      by_cases hm : e.1 ∈ d
      · rw [size_insert_of_mem hm]; omega
      · rw [size_insert_of_notMem hm]
    rw [insertAll_cons, List.length_cons]
    omega

/-! ## Fields -/

/-- A list of fields as a dictionary; a repeated key keeps its first field. -/
def ofFields (l : List (κ × α)) : Dict κ α :=
  l.foldr (fun e d => d.insert e.1 e.2) ∅

def toFields (d : Dict κ α) : List (κ × α) := d.entries.map (fun e => (e.1,e.2))

theorem mem_toFields (d : Dict κ α) (k : κ) (v : α) :
    (k,v) ∈ toFields d ↔ d.lookup k = some v := by
  rw [← Option.mem_def, AList.mem_lookup_iff, toFields]
  constructor
  · intro h
    obtain ⟨⟨a,b⟩,hm,he⟩ := List.mem_map.mp h
    simp only [Prod.mk.injEq] at he
    obtain ⟨rfl,rfl⟩ := he
    exact hm
  · intro h
    exact List.mem_map.mpr ⟨⟨k,v⟩,h,rfl⟩

theorem mem_of_lookup_ofFields {l : List (κ × α)} {k : κ} {v : α}
    (h : (ofFields l).lookup k = some v) : (k,v) ∈ l := by
  induction l with
  | nil => simp [ofFields] at h
  | cons e l ih =>
    rw [ofFields, List.foldr_cons, lookup_insert_eq] at h
    by_cases hk : k = e.1
    · rw [if_pos hk, Option.some.injEq] at h
      subst hk h
      exact List.mem_cons_self
    · rw [if_neg hk] at h
      exact List.mem_cons_of_mem _ (ih h)

theorem ofFields_toFields (d : Dict κ α) : ofFields (toFields d) = d := by
  have key : ∀ l : List (Sigma fun _ : κ => α), l.NodupKeys →
      (ofFields (l.map (fun e => (e.1,e.2)))).entries = l := by
    intro l
    induction l with
    | nil => intro _; rfl
    | cons e l ih =>
      intro hn
      have hl := ih (List.nodupKeys_cons.mp hn).2
      have hm : e.1 ∉ ofFields (l.map (fun e => (e.1,e.2))) := by
        rw [AList.mem_keys, AList.keys, hl]
        exact (List.nodupKeys_cons.mp hn).1
      rw [List.map_cons, ofFields, List.foldr_cons, ← ofFields,
        AList.entries_insert_of_notMem hm, hl]
  exact AList.ext (key d.entries d.nodupKeys)

end Dict
