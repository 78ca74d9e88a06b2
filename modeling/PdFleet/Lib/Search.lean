import Mathlib

/-!
# Depth-first search

Two searches of a graph that is given by the successors of a node. The first asks
whether a node can be reached and marks what it has seen. The second visits every
node in three colours and records each edge back into the path it is on; where
there is none, the finished nodes are in topological order.
-/

set_option autoImplicit false

namespace Search

variable {α : Type} [DecidableEq α] {next : α → List α} {target : α}

/-! ## Reaching a node -/

/-- The first of the nodes at which the search `f` succeeds. -/
def anyOf (f : α → List α → Bool × List α) : List α → List α → Bool × List α
  | [], seen => (false,seen)
  | d :: ds, seen =>
    match f d seen with
    | (true,seen) => (true,seen)
    | (false,seen) => anyOf f ds seen

/-- The search from `start` for `target`, over the nodes that are not yet seen. -/
def reaches (next : α → List α) (target : α) : ℕ → α → List α → Bool × List α
  | 0, _, seen => (false,seen)
  | fuel+1, start, seen =>
    if start ∈ seen then (false,seen)
    else if start = target then (true,start::seen)
    else anyOf (reaches next target fuel) (next start) (start::seen)

def Path (next : α → List α) : α → α → Prop := Relation.ReflTransGen (fun a b => b ∈ next a)

/-- What an unsuccessful search leaves: what it has newly seen is closed under
successors and does not hold the target. -/
structure Missed (next : α → List α) (target : α) (starts seen seen' : List α) : Prop where
  sub : seen ⊆ seen'
  starts : starts ⊆ seen'
  target : target ∉ seen → target ∉ seen'
  closed : ∀ a ∈ seen', a ∈ seen ∨ next a ⊆ seen'

omit [DecidableEq α] in
theorem Missed.trans {l m : List α} {s t u : List α} (h : Missed next target l s t)
    (h' : Missed next target m t u) : Missed next target (l++m) s u where
  sub := fun a ha => h'.sub (h.sub ha)
  starts := by
    intro a ha
    rcases List.mem_append.mp ha with ha | ha
    · exact h'.sub (h.starts ha)
    · exact h'.starts ha
  target := fun hs => h'.target (h.target hs)
  closed := by
    intro a ha
    rcases h'.closed a ha with ha | ha
    · rcases h.closed a ha with ha | ha
      · exact Or.inl ha
      · exact Or.inr (fun b hb => h'.sub (ha hb))
    · exact Or.inr ha

/-- A search that succeeds has a path, one that fails has missed the target; `unseen`
is a bound on the nodes that are left. -/
def Sound (next : α → List α) (target : α) (nodes : List α) (fuel : ℕ)
    (f : α → List α → Bool × List α) : Prop :=
  ∀ start ∈ nodes, ∀ seen, (nodes.filter (· ∉ seen)).length < fuel →
    ((f start seen).1 = true → Path next start target) ∧
    ((f start seen).1 = false → Missed next target [start] seen (f start seen).2)

theorem filter_length_mono {nodes seen seen' : List α} (h : seen ⊆ seen') :
    (nodes.filter (· ∉ seen')).length ≤ (nodes.filter (· ∉ seen)).length := by
  have hs : (nodes.filter (· ∉ seen')).Sublist (nodes.filter (· ∉ seen)) := by
    apply List.monotone_filter_right
    intro a ha
    simp only [decide_eq_true_eq] at ha ⊢
    exact fun hm => ha (h hm)
  exact hs.length_le

theorem filter_length_lt {nodes seen : List α} {a : α} (ha : a ∈ nodes) (hs : a ∉ seen) :
    (nodes.filter (· ∉ a::seen)).length < (nodes.filter (· ∉ seen)).length := by
  induction nodes with
  | nil => cases ha
  | cons n nodes ih =>
    have hmono : (nodes.filter (· ∉ a::seen)).length ≤ (nodes.filter (· ∉ seen)).length :=
      filter_length_mono (List.subset_cons_self a seen)
    by_cases hn : n = a
    · subst hn
      simp only [List.filter_cons, List.mem_cons_self, not_true, decide_false, hs, not_false_iff,
        decide_true, if_true, List.length_cons, Bool.false_eq_true, if_false]
      omega
    · have hlt := ih ((List.mem_cons.mp ha).resolve_left (Ne.symm hn))
      by_cases hm : n ∈ seen
      · simpa [List.filter_cons, hn, hm] using hlt
      · simpa [List.filter_cons, hn, hm] using hlt

theorem anyOf_sound {nodes : List α} {fuel : ℕ} {f : α → List α → Bool × List α}
    (hf : Sound next target nodes fuel f) {ds : List α} (hd : ds ⊆ nodes) (seen : List α)
    (hn : (nodes.filter (· ∉ seen)).length < fuel) :
    ((anyOf f ds seen).1 = true → ∃ d ∈ ds, Path next d target) ∧
    ((anyOf f ds seen).1 = false → Missed next target ds seen (anyOf f ds seen).2) := by
  induction ds generalizing seen with
  | nil =>
    simp only [anyOf, Bool.false_eq_true, false_implies, true_and, forall_const]
    exact ⟨List.Subset.refl _,List.nil_subset _,fun h => h,fun a ha => Or.inl ha⟩
  | cons d ds ih =>
    have hstep := hf d (hd List.mem_cons_self) seen hn
    rw [anyOf]
    rcases hfd : f d seen with ⟨b,seen'⟩
    rw [hfd] at hstep
    cases b with
    | true => simpa using Or.inl (hstep.1 rfl)
    | false =>
      have hm := hstep.2 rfl
      have hrec := ih (fun a ha => hd (List.mem_cons_of_mem _ ha)) seen'
        (lt_of_le_of_lt (filter_length_mono hm.sub) hn)
      constructor
      · intro h
        obtain ⟨d',hd',hp⟩ := hrec.1 h
        exact ⟨d',List.mem_cons_of_mem _ hd',hp⟩
      · exact fun h => hm.trans (hrec.2 h)

theorem reaches_sound {nodes : List α} (hc : ∀ a ∈ nodes, next a ⊆ nodes) (fuel : ℕ) :
    Sound next target nodes fuel (reaches next target fuel) := by
  induction fuel with
  | zero => exact fun start hs seen hn => absurd hn (Nat.not_lt_zero _)
  | succ fuel ih =>
    intro start hs seen hn
    rw [reaches]
    by_cases hseen : start ∈ seen
    · simp only [hseen, if_true, Bool.false_eq_true, false_implies, true_and, forall_const]
      exact ⟨List.Subset.refl _,by simpa using hseen,fun h => h,fun a ha => Or.inl ha⟩
    · by_cases ht : start = target
      · subst ht
        simp only [hseen, if_false, if_true, forall_const, Bool.true_eq_false, false_implies,
          and_true]
        exact .refl
      · simp only [hseen, ht, if_false]
        have hlt := filter_length_lt hs hseen
        have hany := anyOf_sound ih (hc start hs) (start::seen) (by omega)
        constructor
        · intro h
          obtain ⟨d,hd,hp⟩ := hany.1 h
          exact .head hd hp
        · intro h
          have hm := hany.2 h
          refine ⟨fun a ha => hm.sub (List.mem_cons_of_mem _ ha),?_,?_,?_⟩
          · intro a ha
            rw [List.mem_singleton.mp ha]
            exact hm.sub List.mem_cons_self
          · intro hnt
            refine hm.target (fun hmem => ?_)
            rcases List.mem_cons.mp hmem with he | hmem
            · exact ht he.symm
            · exact hnt hmem
          · intro a ha
            rcases hm.closed a ha with hin | hsub
            · rcases List.mem_cons.mp hin with rfl | hin
              · exact Or.inr hm.starts
              · exact Or.inl hin
            · exact Or.inr hsub

/-- With fuel for all the nodes, the search decides whether there is a path. -/
theorem reaches_iff {nodes : List α} (hc : ∀ a ∈ nodes, next a ⊆ nodes) {start : α}
    (hs : start ∈ nodes) {fuel : ℕ} (hf : nodes.length < fuel) :
    (reaches next target fuel start []).1 = true ↔ Path next start target := by
  have hlen : (nodes.filter (· ∉ ([] : List α))).length < fuel :=
    lt_of_le_of_lt (List.length_filter_le _ _) hf
  have hsound := @reaches_sound _ _ _ target _ hc fuel start hs [] hlen
  refine ⟨hsound.1,fun hp => ?_⟩
  by_contra hn
  have hm := hsound.2 (by simpa using hn)
  have hall : ∀ a, Path next start a → a ∈ (reaches next target fuel start []).2 := by
    intro a ha
    induction ha with
    | refl => exact hm.starts List.mem_cons_self
    | tail _ hb ih =>
      rcases hm.closed _ ih with hin | hsub
      · cases hin
      · exact hsub hb
  exact hm.target (by simp) (hall target hp)

/-! ## Visiting every node -/

/-- A visit under way: the path it is on, the finished nodes, the last one first, and
the edges back into the path. -/
structure Visit (α : Type) where
  stack : List α
  finished : List α
  back : List (List α × α)

/-- The next successor: one that is finished is passed over, one on the path is an edge
back, any other is visited. -/
def enter (visit : α → Visit α → Visit α) (v : Visit α) (d : α) : Visit α :=
  if d ∈ v.finished then v
  else if d ∈ v.stack then { v with back := v.back++[(v.stack,d)] }
  else visit d v

def visit (next : α → List α) : ℕ → α → Visit α → Visit α
  | 0, _, v => v
  | fuel+1, node, v =>
    let v := (next node).foldl (enter (visit next fuel)) { v with stack := v.stack++[node] }
    { v with stack := v.stack.dropLast, finished := node::v.finished }

/-- Each node comes before its successors. -/
def Topological (next : α → List α) : List α → Prop
  | [] => True
  | a :: l => next a ⊆ l ∧ Topological next l

/-- What a visit that finds no edge back has done. -/
structure Visited (next : α → List α) (v v' : Visit α) : Prop where
  stack : v'.stack = v.stack
  grew : v.finished ⊆ v'.finished
  back : v.back <+: v'.back
  order : v'.back = [] → Topological next v.finished → Topological next v'.finished

omit [DecidableEq α] in
theorem Visited.refl (v : Visit α) : Visited next v v :=
  ⟨rfl,List.Subset.refl _,List.prefix_refl _,fun _ h => h⟩

omit [DecidableEq α] in
theorem Visited.trans {u v w : Visit α} (h : Visited next u v) (h' : Visited next v w) :
    Visited next u w where
  stack := h'.stack.trans h.stack
  grew := fun _ ha => h'.grew (h.grew ha)
  back := h.back.trans h'.back
  order := fun hb ho =>
    h'.order hb (h.order (List.prefix_nil.mp (hb ▸ h'.back)) ho)

/-- The path is of distinct nodes, and `fuel` is left for the nodes that are not on it. -/
structure Fueled (nodes : List α) (fuel : ℕ) (stack : List α) : Prop where
  sub : stack ⊆ nodes
  nodup : stack.Nodup
  enough : nodes.length < stack.length+fuel

/-- From any path that leaves fuel, `f` visits a node that is not on it. -/
def Visits (next : α → List α) (nodes : List α) (fuel : ℕ) (f : α → Visit α → Visit α) : Prop :=
  ∀ node ∈ nodes, ∀ v : Visit α, node ∉ v.stack → Fueled nodes fuel v.stack →
    Visited next v (f node v) ∧ ((f node v).back = [] → node ∈ (f node v).finished)

theorem enter_visits {nodes : List α} {fuel : ℕ} {f : α → Visit α → Visit α}
    (hf : Visits next nodes fuel f) {d : α} (hd : d ∈ nodes) {v : Visit α}
    (hv : Fueled nodes fuel v.stack) :
    Visited next v (enter f v d) ∧ ((enter f v d).back = [] → d ∈ (enter f v d).finished) := by
  rw [enter]
  by_cases hfin : d ∈ v.finished
  · rw [if_pos hfin]
    exact ⟨.refl v,fun _ => hfin⟩
  · by_cases hst : d ∈ v.stack
    · simp only [hfin, hst, if_true, if_false]
      refine ⟨⟨rfl,List.Subset.refl _,List.prefix_append _ _,fun _ h => h⟩,fun hb => ?_⟩
      simp at hb
    · simp only [hfin, hst, if_false]
      exact hf d hd v hst hv

theorem foldl_visits {nodes : List α} {fuel : ℕ} {f : α → Visit α → Visit α}
    (hf : Visits next nodes fuel f) {ds : List α} (hd : ds ⊆ nodes) {v : Visit α}
    (hv : Fueled nodes fuel v.stack) :
    Visited next v (ds.foldl (enter f) v) ∧
      ((ds.foldl (enter f) v).back = [] → ds ⊆ (ds.foldl (enter f) v).finished) := by
  induction ds generalizing v with
  | nil => exact ⟨.refl v,fun _ => List.nil_subset _⟩
  | cons d ds ih =>
    obtain ⟨h₁,hin⟩ := enter_visits hf (hd List.mem_cons_self) hv
    obtain ⟨h₂,hds⟩ := ih (fun a ha => hd (List.mem_cons_of_mem _ ha))
      (v := enter f v d) (by rw [h₁.stack]; exact hv)
    refine ⟨h₁.trans h₂,fun hb a ha => ?_⟩
    rcases List.mem_cons.mp ha with rfl | ha
    · exact h₂.grew (hin (List.prefix_nil.mp (hb ▸ h₂.back)))
    · exact hds hb ha

omit [DecidableEq α] in
theorem Fueled.length_le {nodes stack : List α} {fuel : ℕ} (h : Fueled nodes fuel stack) :
    stack.length ≤ nodes.length := (List.subperm_of_subset h.nodup h.sub).length_le

theorem visit_visits {nodes : List α} (hc : ∀ a ∈ nodes, next a ⊆ nodes) (fuel : ℕ) :
    Visits next nodes fuel (visit next fuel) := by
  induction fuel with
  | zero =>
    intro node hn v hst hv
    have hle := hv.length_le
    have hlt := hv.enough
    omega
  | succ fuel ih =>
    intro node hn v hst hv
    have hpush : Fueled nodes fuel (v.stack++[node]) := by
      refine ⟨?_,?_,?_⟩
      · intro a ha
        rcases List.mem_append.mp ha with ha | ha
        · exact hv.sub ha
        · rw [List.mem_singleton.mp ha]
          exact hn
      · exact List.nodup_append.mpr ⟨hv.nodup,List.nodup_singleton _,by
          intro a ha b hb
          rw [List.mem_singleton.mp hb]
          rintro rfl
          exact hst ha⟩
      · have hlt := hv.enough
        rw [List.length_append, List.length_singleton]
        omega
    obtain ⟨h,hin⟩ := foldl_visits ih (hc node hn)
      (v := { v with stack := v.stack++[node] }) hpush
    rw [visit]
    refine ⟨⟨?_,?_,h.back,?_⟩,fun _ => List.mem_cons_self⟩
    · simp [h.stack]
    · exact fun a ha => List.mem_cons_of_mem _ (h.grew ha)
    · exact fun hb ho => ⟨hin hb,h.order hb ho⟩

def unvisited : Visit α := ⟨[],[],[]⟩

/-- Visits of all the nodes that find no edge back leave them in topological order. -/
theorem visitAll_topological {nodes : List α} (hc : ∀ a ∈ nodes, next a ⊆ nodes) {fuel : ℕ}
    (hf : nodes.length < fuel) {ds : List α} (hd : ds ⊆ nodes)
    (hb : (ds.foldl (enter (visit next fuel)) unvisited).back = []) :
    ds ⊆ (ds.foldl (enter (visit next fuel)) unvisited).finished ∧
      Topological next (ds.foldl (enter (visit next fuel)) unvisited).finished := by
  have hv : Fueled nodes fuel (unvisited : Visit α).stack :=
    ⟨List.nil_subset _,List.nodup_nil,by simpa [unvisited] using hf⟩
  obtain ⟨h,hin⟩ := foldl_visits (visit_visits hc fuel) hd hv
  exact ⟨hin hb,h.order hb trivial⟩

omit [DecidableEq α] in
/-- Of some nodes in topological order, one has no successor among them. -/
theorem Topological.exists_last {l : List α} (h : Topological next l) {P : α → Prop}
    (hp : ∃ a ∈ l, P a) : ∃ a ∈ l, P a ∧ ∀ b ∈ next a, ¬ P b := by
  induction l with
  | nil =>
    obtain ⟨a,ha,-⟩ := hp
    cases ha
  | cons a l ih =>
    by_cases hl : ∃ b ∈ l, P b
    · obtain ⟨b,hb,hpb,hlast⟩ := ih h.2 hl
      exact ⟨b,List.mem_cons_of_mem _ hb,hpb,hlast⟩
    · obtain ⟨c,hc,hpc⟩ := hp
      rcases List.mem_cons.mp hc with rfl | hc
      · exact ⟨c,List.mem_cons_self,hpc,fun b hb hpb => hl ⟨b,h.1 hb,hpb⟩⟩
      · exact absurd ⟨c,hc,hpc⟩ hl

/-! ## Edges back close cycles -/

abbrev Below (next : α → List α) : α → α → Prop := Relation.TransGen (fun a b => b ∈ next a)

omit [DecidableEq α] in
/-- Where an order of the nodes puts each before its successors, no node lies below itself. -/
theorem Topological.acyclic {l : List α} (h : Topological next l) {a : α} (ha : a ∈ l) :
    ¬ Below next a a := by
  intro hc
  obtain ⟨b,-,hb,hlast⟩ := h.exists_last (P := fun b => Below next b b) ⟨a,ha,hc⟩
  obtain ⟨c,hbc,hcb⟩ := Relation.TransGen.head'_iff.mp hb
  refine hlast c hbc ?_
  exact Relation.TransGen.tail' hcb hbc

theorem foldl_enter_stack {f : α → Visit α → Visit α} (hf : ∀ d v, (f d v).stack = v.stack)
    (ds : List α) (v : Visit α) : (ds.foldl (enter f) v).stack = v.stack := by
  induction ds generalizing v with
  | nil => rfl
  | cons d ds ih =>
    rw [List.foldl_cons, ih, enter]
    split_ifs
    · rfl
    · rfl
    · exact hf d v

theorem visit_stack (fuel : ℕ) (node : α) (v : Visit α) :
    (visit next fuel node v).stack = v.stack := by
  induction fuel generalizing node v with
  | zero => rfl
  | succ fuel ih =>
    rw [visit]
    dsimp only
    rw [foldl_enter_stack ih, List.dropLast_concat]

/-- The edges back that `f` adds lead to nodes below themselves, as long as the path is above
the node it visits. -/
def Closes (next : α → List α) (f : α → Visit α → Visit α) : Prop :=
  ∀ d v, (∀ a ∈ v.stack, Below next a d) → ∀ e ∈ (f d v).back, e ∈ v.back ∨ Below next e.2 e.2

theorem enter_closes {f : α → Visit α → Visit α} (hf : Closes next f) {d : α} {v : Visit α}
    (h : ∀ a ∈ v.stack, Below next a d) :
    ∀ e ∈ (enter f v d).back, e ∈ v.back ∨ Below next e.2 e.2 := by
  intro e he
  rw [enter] at he
  split_ifs at he with h1 h2
  · exact Or.inl he
  · rcases List.mem_append.mp he with he | he
    · exact Or.inl he
    · rw [List.mem_singleton.mp he]
      exact Or.inr (h d h2)
  · exact hf d v h e he

theorem foldl_closes {f : α → Visit α → Visit α} (hf : Closes next f)
    (hs : ∀ d v, (f d v).stack = v.stack) {ds : List α} {v : Visit α}
    (h : ∀ d ∈ ds, ∀ a ∈ v.stack, Below next a d) :
    ∀ e ∈ (ds.foldl (enter f) v).back, e ∈ v.back ∨ Below next e.2 e.2 := by
  induction ds generalizing v with
  | nil => exact fun e he => Or.inl he
  | cons d ds ih =>
    intro e he
    have hstack : (enter f v d).stack = v.stack := foldl_enter_stack hs [d] v
    rw [List.foldl_cons] at he
    have hrest := ih (v := enter f v d)
      (by rw [hstack]; exact fun d' hd' => h d' (List.mem_cons_of_mem d hd')) e he
    rcases hrest with he | he
    · exact enter_closes hf (h d List.mem_cons_self) e he
    · exact Or.inr he

theorem visit_closes (fuel : ℕ) : Closes next (visit next fuel) := by
  induction fuel with
  | zero => exact fun d v _ e he => Or.inl he
  | succ fuel ih =>
    intro node v h e he
    refine foldl_closes (v := { v with stack := v.stack++[node] }) ih (visit_stack fuel)
      (fun d hd a ha => ?_) e he
    rcases List.mem_append.mp ha with ha | ha
    · exact (h a ha).tail hd
    · rw [List.mem_singleton.mp ha]
      exact Relation.TransGen.single hd

/-- Visits find an edge back only where a node lies below itself. -/
theorem visitAll_closes {fuel : ℕ} {ds : List α}
    (h : ∀ a, ¬ Below next a a) : (ds.foldl (enter (visit next fuel)) unvisited).back = [] := by
  refine List.eq_nil_iff_forall_not_mem.mpr fun e he => ?_
  rcases foldl_closes (visit_closes fuel) (visit_stack fuel) (fun _ _ _ ha => absurd ha List.not_mem_nil) e he
    with he | he
  · cases he
  · exact h e.2 he

end Search
