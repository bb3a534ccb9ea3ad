import IndexPools.Proofs.PlainTable
import Mathlib.Logic.Function.Basic

/-!
# The order of arrival

Which slot a new key is given depends on who came before it, but not which slots are taken in the
end. Only the free slots matter to that: a new key takes the first of them from its home on
(`occupy`), and if two keys want the same one, the second of them searches on from there, whichever
it is (`occupy_comm`). So any order of arrival takes the same slots (`Arrived.free_eq`,
`foldl_occupy_perm`), and as each new key that is placed takes one more (`Arrived.answers`), no
order lets fewer keys in than there is room for (`slots_of_arrivals`).
-/

namespace IndexPools

namespace SlotTable

section Around

variable {p : Nat → Bool} {n left start i j d : Nat}

theorem firstAround_mod (p : Nat → Bool) (n left start : Nat) :
    firstAround p n left (start % n) = firstAround p n left start := by
  unfold firstAround
  simp only [Nat.mod_add_mod]

theorem firstAround_of_first (hd : d < left) (hp : p ((start + d) % n))
    (hbefore : ∀ d' < d, p ((start + d') % n) = false) :
    firstAround p n left start = some ((start + d) % n) := by
  unfold firstAround
  rw [List.find?_map, Option.map_eq_some_iff]
  refine ⟨d, List.find?_range_eq_some.2 ⟨hp, List.mem_range.2 hd, fun d' hd' => ?_⟩, rfl⟩
  simpa using hbefore d' hd'

/-- A whole round that begins at a place without `p` may begin at the next one. -/
theorem firstAround_skip (h : p (start % n) = false) :
    firstAround p n n start = firstAround p n n (start + 1) := by
  rcases n with _ | m
  · rfl
  · have hlast : (start + 1 + m) % (m + 1) = start % (m + 1) := by
      rw [Nat.add_assoc, Nat.add_comm 1 m, Nat.add_mod_right]
    calc firstAround p (m + 1) (m + 1) start
      _ = firstAround p (m + 1) m (start + 1) := by
        rw [← firstAround_mod, firstAround_succ (Nat.mod_lt _ (Nat.succ_pos m)), h,
          if_neg Bool.false_ne_true, Nat.mod_add_mod, firstAround_mod]
      _ = firstAround p (m + 1) (m + 1) (start + 1) := by
        unfold firstAround
        rw [List.range_succ, List.map_append, List.find?_append, List.map_singleton, hlast,
          List.find?_cons_of_neg (by simp [h]), List.find?_nil, Option.or_none]

theorem firstAround_past : ∀ {d : Nat}, (∀ d' < d, p ((start + d') % n) = false) →
    firstAround p n n start = firstAround p n n (start + d)
  | 0, _ => rfl
  | d + 1, h => by
    rw [firstAround_past fun d' hd' => h d' (Nat.lt_succ_of_lt hd'),
      firstAround_skip (h d (Nat.lt_succ_self d)), Nat.add_assoc]

/-- The first place stays the first when another one is taken away. -/
theorem firstAround_update (h : firstAround p n left start = some j) (hne : j ≠ i) :
    firstAround (Function.update p i false) n left start = some j := by
  obtain ⟨d, hd, rfl, hp, hbefore⟩ := firstAround_eq_some h
  refine firstAround_of_first hd ?_ fun d' hd' => ?_
  · rwa [Function.update_of_ne hne]
  · simp [Function.update_apply, hbefore d' hd']

/-- When the first place is taken away, the search may as well begin there. -/
theorem firstAround_update_first (h : firstAround p n n start = some i) :
    firstAround (Function.update p i false) n n start =
      firstAround (Function.update p i false) n n i := by
  obtain ⟨d, -, rfl, -, hbefore⟩ := firstAround_eq_some h
  rw [firstAround_mod]
  exact firstAround_past fun d' hd' => by simp [Function.update_apply, hbefore d' hd']

end Around

section Occupy

variable {n home i : Nat} {free : Nat → Bool}

/-- What is free of `n` slots after the first free one from `home` on was taken, if there is any. -/
def occupy (n : Nat) (free : Nat → Bool) (home : Nat) : Nat → Bool :=
  match firstAround free n n home with
  | some i => Function.update free i false
  | none => free

theorem occupy_of_some (h : firstAround free n n home = some i) :
    occupy n free home = Function.update free i false := by
  unfold occupy
  rw [h]

theorem occupy_of_none (h : firstAround free n n home = none) : occupy n free home = free := by
  unfold occupy
  rw [h]

/-- Two keys leave the same slots free, whichever of them comes first. -/
theorem occupy_comm (n : Nat) (free : Nat → Bool) (home home' : Nat) :
    occupy n (occupy n free home) home' = occupy n (occupy n free home') home := by
  rcases h : firstAround free n n home with _ | i
  · have h' : firstAround free n n home' = none := firstAround_eq_none.2 (firstAround_eq_none.1 h)
    rw [occupy_of_none h, occupy_of_none h', occupy_of_none h]
  · rcases h' : firstAround free n n home' with _ | i'
    · cases h.symm.trans (firstAround_eq_none.2 (firstAround_eq_none.1 h'))
    · rw [occupy_of_some h, occupy_of_some h']
      by_cases hsame : i = i'
      · -- the second key searches on from the slot that both wanted
        subst hsame
        unfold occupy
        rw [firstAround_update_first h, firstAround_update_first h']
      · rw [occupy_of_some (firstAround_update h' (Ne.symm hsame)),
          occupy_of_some (firstAround_update h hsame), Function.update_comm hsame]

theorem foldl_occupy_perm {homes homes' : List Nat} (h : homes'.Perm homes) (free : Nat → Bool) :
    homes'.foldl (occupy n) free = homes.foldl (occupy n) free :=
  h.foldl_eq' (fun home _ home' _ free => occupy_comm n free home home') free

end Occupy

/-- The slots that hold nothing. -/
def free (t : SlotTable) (i : Nat) : Bool := (t.holder? i).isNone

theorem entries_indices (t : SlotTable) :
    t.entries.map Prod.fst = (List.range t.capacity).filter fun i => !t.free i := by
  rw [entries_eq, List.map_filterMap, ← List.filterMap_eq_filter]
  congr 1
  funext i
  unfold free
  rcases h : t.holder? i with _ | a <;> simp [Option.guard, h]

section Hash

variable (hash : String → UInt64)

/-- The tables that come from a new one by calls. -/
inductive Reached : SlotTable → Prop
  | new {c : Nat} {strategy : Strategy} {t : SlotTable} (hcreate : create c strategy = .ok t) :
      Reached t
  | call {t : SlotTable} (before : Reached t) (call : TableCall) : Reached (t.answer hash call).2

/-- The answers to those who ask for keys, one after another, and the table after them. -/
def insertAll : (t : SlotTable) → (asks : List Allocation) →
    List (Except AllocError Placement) × SlotTable
  | t, [] => ([], t)
  | t, a :: asks =>
    let r := t.insert hash a.key a.owner a.tags
    let rest := insertAll r.2 asks
    (r.1 :: rest.1, rest.2)

/-- What keys that are missing come to when they are asked for, one after another. -/
inductive Arrived : SlotTable → List Allocation →
    List (Except AllocError Placement) × SlotTable → Prop
  | nil {t : SlotTable} : Arrived t [] ([], t)
  | placed {t : SlotTable} {a : Allocation} {i : Nat} {asks : List Allocation}
      {res : List (Except AllocError Placement) × SlotTable} (hs : t.Sound hash)
      (habsent : t.Absent a.key) (hvacant : t.vacancy (t.home hash a.key) = some i)
      (rest : Arrived (t.put i a) asks res) :
      Arrived t (a :: asks) (.ok ⟨i, .inserted⟩ :: res.1, res.2)
  | refused {t : SlotTable} {a : Allocation} {asks : List Allocation}
      {res : List (Except AllocError Placement) × SlotTable} (hs : t.Sound hash)
      (hfull : t.vacancy (t.home hash a.key) = none) (rest : Arrived t asks res) :
      Arrived t (a :: asks) (.error (.exhausted t.capacity) :: res.1, res.2)

variable {hash} {t : SlotTable}

theorem Reached.sound (h : t.Reached hash) : t.Sound hash := by
  induction h with
  | new hcreate => exact (sound_of_create hcreate).1
  | call _ call ih => exact (answer_plain ih call).2.2

theorem Absent.put {i : Nat} {a : Allocation} {key : String} (h : t.Absent key)
    (hi : i < t.capacity) (hne : a.key ≠ key) : (t.put i a).Absent key := by
  intro j b hb
  rw [holder?_put hi] at hb
  split_ifs at hb
  · cases hb
    exact hne
  · exact h j b hb

theorem arrived_insertAll : ∀ {asks : List Allocation} {t : SlotTable}, t.Sound hash →
    (asks.map Allocation.key).Nodup → (∀ a ∈ asks, t.Absent a.key) →
    Arrived hash t asks (t.insertAll hash asks)
  | [], _, _, _, _ => .nil
  | a :: asks, t, hs, hnodup, habsent => by
    obtain ⟨hnew, hnodup⟩ := List.nodup_cons.1 hnodup
    obtain ⟨ha, habsent⟩ := List.forall_mem_cons.1 habsent
    unfold insertAll
    rw [insert_of_absent hs.pos ha]
    rcases hvacant : t.vacancy (t.home hash a.key) with _ | i
    · exact .refused hs hvacant (arrived_insertAll hs hnodup habsent)
    · refine .placed hs ha hvacant (arrived_insertAll (hs.put ha hvacant) hnodup fun b hb => ?_)
      refine (habsent b hb).put (lt_of_vacancy hvacant).1 fun hkey => hnew ?_
      exact hkey ▸ List.mem_map_of_mem hb

theorem available_of_none (hs : t.Sound hash) {start : Nat} (hfull : t.vacancy start = none) :
    t.available = 0 := by
  by_contra hroom
  obtain ⟨i, hi⟩ := hs.exists_vacancy (Nat.lt_of_sub_ne_zero hroom) start
  cases hfull.symm.trans hi

theorem available_put (hs : t.Sound hash) {a : Allocation} {i : Nat} (habsent : t.Absent a.key)
    (hvacant : t.vacancy (t.home hash a.key) = some i) :
    t.available = (t.put i a).available + 1 := by
  have hle := (hs.put habsent hvacant).allocated_le
  unfold available
  rw [capacity_put] at hle ⊢
  have hallocated : (t.put i a).allocated = t.allocated + 1 := rfl
  omega

theorem free_put {a : Allocation} {i : Nat} (hi : i < t.capacity) :
    (t.put i a).free = Function.update t.free i false := by
  funext j
  unfold free
  rw [holder?_put hi, Function.update_apply]
  split_ifs <;> rfl

namespace Arrived

variable {asks : List Allocation} {res : List (Except AllocError Placement) × SlotTable}

theorem capacity_eq (h : Arrived hash t asks res) : res.2.capacity = t.capacity := by
  induction h with
  | nil => rfl
  | placed _ _ _ _ ih => exact ih.trans (capacity_put _ _ _)
  | refused _ _ _ ih => exact ih

/-- Each key takes the first free slot from its home on. -/
theorem free_eq (h : Arrived hash t asks res) :
    res.2.free =
      ((asks.map Allocation.key).map (t.home hash)).foldl (occupy t.capacity) t.free := by
  induction h with
  | nil => rfl
  | @placed t a i asks res hs habsent hvacant rest ih =>
    have hhomes : (t.put i a).home hash = t.home hash := funext (home_put hash t i a)
    rw [ih, hhomes, capacity_put, free_put (lt_of_vacancy hvacant).1,
      ← occupy_of_some (show firstAround t.free _ _ _ = _ from hvacant)]
    rfl
  | @refused t a asks res hs hfull rest ih =>
    rw [ih, List.map_cons, List.map_cons, List.foldl_cons,
      occupy_of_none (show firstAround t.free _ _ _ = _ from hfull)]

theorem allocated_eq (h : Arrived hash t asks res) :
    res.2.allocated = t.allocated + min asks.length t.available := by
  induction h with
  | nil => simp
  | @placed t a i asks res hs habsent hvacant rest ih =>
    have hallocated : (t.put i a).allocated = t.allocated + 1 := rfl
    rw [ih, hallocated, available_put hs habsent hvacant, List.length_cons]
    omega
  | refused hs hfull rest ih => rw [ih, available_of_none hs hfull, Nat.min_zero, Nat.min_zero]

/-- As many keys as there is room for are placed, in slots that were free, and the others find the
table full. -/
theorem answers (h : Arrived hash t asks res) :
    ∃ indices : List Nat, indices.Nodup ∧ (∀ i ∈ indices, i < t.capacity ∧ t.holder? i = none) ∧
      indices.length = min asks.length t.available ∧
      res.1 = (indices.map fun i => .ok ⟨i, .inserted⟩) ++
        List.replicate (asks.length - t.available) (.error (.exhausted t.capacity)) := by
  induction h with
  | nil => exact ⟨[], List.nodup_nil, nofun, by simp, by simp⟩
  | @placed t a i asks res hs habsent hvacant rest ih =>
    obtain ⟨indices, hnodup, hvacated, hlength, hanswers⟩ := ih
    have hi := (lt_of_vacancy hvacant).1
    simp only [capacity_put, holder?_put hi] at hvacated hanswers
    refine ⟨i :: indices, List.nodup_cons.2 ⟨fun hmem => ?_, hnodup⟩, fun j hj => ?_, ?_, ?_⟩
    · simpa using (hvacated i hmem).2
    · rcases List.mem_cons.1 hj with rfl | hj
      · exact lt_of_vacancy hvacant
      · obtain ⟨hlt, hnone⟩ := hvacated j hj
        split_ifs at hnone
        exact ⟨hlt, hnone⟩
    · rw [List.length_cons, List.length_cons, hlength, available_put hs habsent hvacant]
      omega
    · rw [hanswers, available_put hs habsent hvacant, List.length_cons, Nat.add_sub_add_right]
      rfl
  | @refused t a asks res hs hfull rest ih =>
    obtain ⟨indices, -, -, hlength, hanswers⟩ := ih
    rw [available_of_none hs hfull] at hlength hanswers ⊢
    obtain rfl := List.eq_nil_of_length_eq_zero (hlength.trans (Nat.min_zero _))
    exact ⟨[], List.nodup_nil, nofun, (Nat.min_zero _).symm, congrArg (_ :: ·) hanswers⟩

end Arrived

end Hash

end SlotTable

/-- New keys take the same slots in whatever order they are asked for, and in each order as many of
them are placed as there are free slots, each in one of its own, while the others find the table
full. -/
theorem slots_of_arrivals (hash : String → UInt64) {t : SlotTable} (reached : t.Reached hash)
    {asks asks' : List Allocation} (hnodup : (asks.map Allocation.key).Nodup)
    (habsent : ∀ a ∈ asks, t.Absent a.key)
    (hperm : (asks'.map Allocation.key).Perm (asks.map Allocation.key)) :
    (t.insertAll hash asks').2.entries.map Prod.fst =
        (t.insertAll hash asks).2.entries.map Prod.fst ∧
      (t.insertAll hash asks').2.allocated = (t.insertAll hash asks).2.allocated ∧
      ∃ indices : List Nat, indices.Nodup ∧ (∀ i ∈ indices, i < t.capacity ∧ t.holder? i = none) ∧
        indices.length = min asks.length t.available ∧
        (t.insertAll hash asks').1 = (indices.map fun i => .ok ⟨i, .inserted⟩) ++
          List.replicate (asks.length - t.available) (.error (.exhausted t.capacity)) := by
  have hlength : asks'.length = asks.length := by simpa using hperm.length_eq
  have habsent' : ∀ a ∈ asks', t.Absent a.key := by
    intro a ha
    obtain ⟨b, hb, hkey⟩ := List.mem_map.1 (hperm.subset (List.mem_map_of_mem ha))
    exact hkey ▸ habsent b hb
  have h := SlotTable.arrived_insertAll reached.sound hnodup habsent
  have h' := SlotTable.arrived_insertAll reached.sound (hperm.nodup_iff.2 hnodup) habsent'
  refine ⟨?_, ?_, hlength ▸ h'.answers⟩
  · rw [SlotTable.entries_indices, SlotTable.entries_indices, h.capacity_eq, h'.capacity_eq,
      h.free_eq, h'.free_eq, SlotTable.foldl_occupy_perm (hperm.map _)]
  · rw [h.allocated_eq, h'.allocated_eq, hlength]

/-- Three keys with home 2 for two free slots, of which the one behind the home was released: the
first two to come take them, and the third finds the table full. -/
theorem slots_of_arrivals_colliding :
    ∃ (t : SlotTable) (asks asks' : List Allocation),
      t.Reached (fun _ => 2) ∧ (asks.map Allocation.key).Nodup ∧
        (∀ a ∈ asks, t.Absent a.key) ∧ (asks'.map Allocation.key).Perm (asks.map Allocation.key) ∧
        t.slots[3]? = some .released ∧
        (t.insertAll (fun _ => 2) asks).1 =
          [.ok ⟨3, .inserted⟩, .ok ⟨1, .inserted⟩, .error (.exhausted 4)] ∧
        (t.insertAll (fun _ => 2) asks).2.entries.map (fun e => (e.1, e.2.key)) =
          [(0, "c"), (1, "e"), (2, "a"), (3, "d")] ∧
        (t.insertAll (fun _ => 2) asks').2.entries.map (fun e => (e.1, e.2.key)) =
          [(0, "c"), (1, "d"), (2, "a"), (3, "f")] ∧
        (t.insertAll (fun _ => 2) asks').2.allocated =
          (t.insertAll (fun _ => 2) asks).2.allocated := by
  let t : SlotTable := (([.insert "a" "x" none, .insert "b" "x" none, .insert "c" "y" none,
    .delete "b"] : List TableCall).foldl (fun t call => (t.answer (fun _ => 2) call).2)
      ⟨Array.replicate 4 .unused, 0, .hash⟩)
  let asks : List Allocation := [⟨"d", "x", none⟩, ⟨"e", "y", none⟩, ⟨"f", "z", none⟩]
  let asks' : List Allocation := [⟨"f", "z", none⟩, ⟨"d", "x", none⟩, ⟨"e", "y", none⟩]
  have hreached : t.Reached (fun _ => 2) :=
    .call (.call (.call (.call (.new (show SlotTable.create 4 .hash = _ from rfl)) _) _) _) _
  have hnodup : (asks.map Allocation.key).Nodup := by decide
  have habsent : ∀ a ∈ asks, t.Absent a.key := by
    simp only [SlotTable.absent_iff_entries]
    decide +kernel
  have hperm : (asks'.map Allocation.key).Perm (asks.map Allocation.key) := by decide
  obtain ⟨-, hallocated, -⟩ := slots_of_arrivals _ hreached hnodup habsent hperm
  exact ⟨t, asks, asks', hreached, hnodup, habsent, hperm, by decide +kernel, by decide +kernel,
    by decide +kernel, by decide +kernel, hallocated⟩

end IndexPools
